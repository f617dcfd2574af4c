import ActionFlow.Proofs.World.Abandoned
import ActionFlow.Proofs.World.Beside
import ActionFlow.Proofs.World.Settling
import Mathlib.Data.List.Induction

/-!
# Requests within a limit of time

Whoever asks for the barrier within a limit of time waits for its helper and for the clock. The limit may be
reached, the helper may get the barrier, and the caller may have its turn, in any order. What counts is
whether the helper has ended when the caller has its turn: then the request comes out as the helper did,
however late it is; and else the helper is called off, and the request fails once the helper has ended.

## Main results

* `TimedRequest.Phase`, `TimedRequest.phase`: how far a request has come, after any course of moves.
* `TimedRequest.settled`: a helper that has ended before its caller's turn decides the request.
* `timed_request_outcome`: when a request fails because of the limit, when it is granted, and when it cannot
  fail because of the limit at all.
-/

namespace ActionFlow
namespace World

open Scheduler (Beside Spared)

variable {hosts : Host → Prop} {jobs : Job → Prop} {world begun after : World} {trace deeds : List Deed}
  {path : List (List Deed × World)}

/-! ## Requests -/

/-- A request for the barrier within a limit of time: whose it is, under which key, with which helper, by
when, and what the task goes on with. -/
structure TimedRequest where
  task : TaskId
  key : PauseId
  helper : TaskId
  limit : Value
  due : Binary64
  next : Except Failure PauseId → Job

namespace TimedRequest

/-- A step in which a request is made. -/
structure Made (request : TimedRequest) (host : Host) (world begun : World) : Prop where
  asks : world.current = some (request.task, .act (.await .barrier) request.next)
  limited : world.scheduler.limit = some request.limit
  inTime : ∃ span, request.limit.seconds = .ok span ∧ request.due = world.scheduler.clock.add span
  key : request.key = world.scheduler.waits
  helper : request.helper = world.scheduler.size
  steps : world.step host = some begun

variable (request : TimedRequest)

/-- The caller watches its helper and the clock. -/
def watching : Vigil Job where
  task := request.task
  next := request.next
  id := request.key
  aim := .watch request.key request.helper request.limit
  due? := some request.due

/-- The caller has called its helper off, because of the limit. -/
def leaving (id : PauseId) : Vigil Job where
  task := request.task
  next := request.next
  id
  aim := .leave request.key request.helper (.timedOut request.limit)

/-- Whether the caller still watches its helper and the clock. -/
def Watches (now : World) : Prop := ∃ signal, now.scheduler.status? request.task =
  some (.waiting { id := request.key, aim := request.watching.aim, signal })

/-- Whether nobody asks the caller to end as long as it waits for the key, at any point of a course. -/
def Spares (begun : World) (path : List (List Deed × World)) : Prop :=
  ∀ now ∈ begun :: path.map (·.2), now.scheduler.Spared request.task request.key

/-- Whether the clock has come up to the limit at some point of a course. A limit that is no number has
always been reached. -/
def Chimes (begun : World) (path : List (List Deed × World)) : Prop :=
  ∃ now ∈ begun :: path.map (·.2), now.scheduler.clock.lt request.due = false

end TimedRequest

variable {request : TimedRequest}

/-- When a request is made, the caller begins to watch its helper and the clock. -/
theorem TimedRequest.Made.bides {host : Host} (made : request.Made host world begun) (sound : world.Sound trace)
    (spared : begun.scheduler.Spared request.task request.key) :
    begun.scheduler.task request.task = some (request.watching.keeper .pending) ∧
      begun.scheduler.Bides request.watching False := by
  obtain ⟨asks, limited, ⟨span, inTime, due⟩, key, helper, steps⟩ := made
  obtain ⟨task, key', helper', limit, due', next⟩ := request
  obtain rfl : key' = world.scheduler.waits := key
  obtain rfl : helper' = world.scheduler.size := helper
  obtain rfl : due' = world.scheduler.clock.add span := due
  have sound' : (world.scheduler.setResume task next).Sound (some (task, none)) trace :=
    Scheduler.Sound.setResume (hand_of_current asks ▸ sound) next
  obtain ⟨own, ht, -⟩ := Scheduler.task_of_status (sound.running asks)
  have resumed : world.scheduler.setResume task next =
      world.scheduler.setTask task { own with role := .body next } := by
    simp only [Scheduler.setResume, ht]
  rw [resumed] at sound'
  simp only [World.step, asks, World.perform, Option.some.injEq, resumed] at steps
  have awaited := Scheduler.bides_await sound' (amend_self _ _ _) rfl limited inTime
  generalize (world.scheduler.setTask task { own with role := .body next }).await task .barrier = result at *
  obtain ⟨scheduler, answer⟩ := result
  have same : begun.scheduler = scheduler := by
    cases answer with
    | none => rw [← steps]
    | some answer =>
      rw [← steps]
      cases answer <;> rfl
  rw [same] at spared ⊢
  exact awaited fun cancelled => (spared _ cancelled rfl).1 rfl

/-! ## The turns of the caller -/

theorem current_of_went (now : World) {turn : Turn} {t : TaskId} {handover : Scheduler.Handover Job}
    (went : (now.scheduler.takeTurn turn).2 = some (t, handover)) :
    (now.takeTurn turn).current = some (t, handover.job) := by
  unfold World.takeTurn
  split
  next same => simp [same] at went
  next same =>
    rw [same] at went
    cases went
    rfl

section Turns

variable {rung : Prop} {number : PauseId} {ending : Except Failure Unit} (sound : world.Sound trace)
  (takes : Takes (.resume request.task) world deeds after)

include sound takes

/-- A caller has its turn because there is something that rouses it. -/
theorem roused_of_takes {v : Vigil Job} (mine : v.task = request.task) (bides : world.scheduler.Bides v rung)
    (late : ∀ due, v.due? = some due → world.scheduler.clock.lt due = false → rung) :
    ∃ dealt, dealt.Sound none trace ∧ dealt.task = world.scheduler.task ∧
      dealt.task v.task = some (v.keeper .met) ∧ dealt.Roused v rung ∧
      deeds = dealt.deedsOfTurn (.resume v.task) ∧
      after = ({ world with scheduler := dealt } : World).takeTurn (.resume v.task) := by
  obtain ⟨idle, dealt, next, told, same⟩ := takes
  have sound : world.scheduler.Sound none trace := by simpa [World.Sound, hand, idle] using sound
  obtain ⟨sound, due⟩ := sound.nextTurn next
  obtain ⟨met, roused⟩ := (bides.deal next late).1.met (mine ▸ due.2)
  exact ⟨dealt, sound, (Scheduler.nextTurn_eq next).1, met, roused, mine ▸ told, mine ▸ same⟩

/-- The request comes out as the helper did, if the helper has ended by then. -/
theorem watching_decided (bides : world.scheduler.Bides request.watching rung)
    (ended : world.scheduler.status? request.helper = some (.finished ending)) :
    deeds = [.verdict request.task request.key request.helper ending] ∧
      after.current = some (request.task, request.next (ending.map fun _ => request.key)) := by
  obtain ⟨dealt, sound, tasks, mine, -, rfl, rfl⟩ :=
    roused_of_takes sound takes rfl (bides.mono fun _ => trivial) fun _ _ _ => trivial
  have ended : dealt.status? request.helper = some (.finished ending) := by
    simpa only [Scheduler.status?, tasks] using ended
  obtain ⟨⟨granted, went⟩, told⟩ := Scheduler.watch_ended mine sound rfl ended
  have goesOn := current_of_went { world with scheduler := dealt } went
  exact ⟨told, goesOn⟩

/-- The caller calls its helper off, if the helper has not ended by then; and the limit has been reached. -/
theorem watching_late (bides : world.scheduler.Bides request.watching rung)
    (late : world.scheduler.clock.lt request.due = false → rung)
    (going : world.scheduler.Going request.helper) :
    rung ∧ deeds = [] ∧ ∃ id, after.scheduler.Bides (request.leaving id) False := by
  obtain ⟨dealt, sound, tasks, mine, roused, rfl, rfl⟩ :=
    roused_of_takes sound takes rfl bides (by rintro _ ⟨⟩; exact late)
  have going : dealt.Going request.helper := by
    simpa only [Scheduler.Going, Scheduler.status?, tasks] using going
  have rung : rung := by
    rcases roused with rung | ⟨helper, ending, aims, ended⟩
    · exact rung
    · cases aims
      exact absurd ended (going ending)
  obtain ⟨told, left⟩ := Scheduler.watch_late mine sound rfl going
  rw [← scheduler_takeTurn { world with scheduler := dealt }] at left
  exact ⟨rung, told, _, left⟩

/-- A caller that has called its helper off fails in its turn, and the helper has ended. -/
theorem leaving_quits (bides : world.scheduler.Bides (request.leaving number) False) :
    deeds = [.quit request.task request.key request.helper (.timedOut request.limit) false] ∧
      after.current = some (request.task, request.next (.error (.timedOut request.limit))) ∧
      ∃ ending, world.scheduler.status? request.helper = some (.finished ending) := by
  obtain ⟨dealt, sound, tasks, mine, roused, rfl, rfl⟩ := roused_of_takes sound takes rfl bides nofun
  obtain ⟨helper, ending, aims, ended⟩ := roused.resolve_left not_false
  cases aims
  obtain ⟨went, told⟩ := Scheduler.leave_ended mine sound rfl ended
  have fails := current_of_went { world with scheduler := dealt } went
  refine ⟨told, fails, ending, ?_⟩
  simpa only [Scheduler.status?, tasks] using ended

end Turns

/-! ## How far a request has come -/

/-- The world at the end of a course is one of those on the way. -/
theorem final_mem (world : World) (path : List (List Deed × World)) :
    final world path ∈ world :: path.map (·.2) := by
  induction path generalizing world with
  | nil => exact List.mem_singleton_self _
  | cons entry path ih => exact List.mem_cons_of_mem _ (ih entry.2)

/-- The worlds on the way to a point of a course are on the whole way. -/
theorem mem_way_of_first {first : List (List Deed × World)} {now : World}
    (member : now ∈ begun :: first.map (·.2)) (more : List (List Deed × World)) :
    now ∈ begun :: (first ++ more).map (·.2) := by
  rw [List.map_append, ← List.cons_append]
  exact List.mem_append_left _ member

theorem TimedRequest.Chimes.later {first : List (List Deed × World)} (chimes : request.Chimes begun first)
    (more : List (List Deed × World)) : request.Chimes begun (first ++ more) :=
  chimes.imp fun _ ⟨member, late⟩ => ⟨mem_way_of_first member more, late⟩

/-- How far a request has come by the end of a course. -/
inductive TimedRequest.Phase (request : TimedRequest) (begun : World) (path : List (List Deed × World)) :
    Prop where
  /-- The caller still watches its helper and the clock. -/
  | watching (bides : (final begun path).scheduler.Bides request.watching (request.Chimes begun path))
      (untold : ∀ deed ∈ told path, deed.ended? ≠ some request.key)
  /-- The caller called its helper off, since it had not ended when the caller had its turn after the limit
  was reached. -/
  | leaving {first rest : List (List Deed × World)} {turned : List Deed} {resumed : World} {number : PauseId}
      (split : path = first ++ (turned, resumed) :: rest)
      (takes : Takes (.resume request.task) (final begun first) turned resumed)
      (watches : request.Watches (final begun first)) (chimes : request.Chimes begun first)
      (going : (final begun first).scheduler.Going request.helper)
      (bides : (final begun path).scheduler.Bides (request.leaving number) False)
      (untold : ∀ deed ∈ told path, deed.ended? ≠ some request.key)
  /-- The request has come to its end. -/
  | closed {deed : Deed} (told : deed ∈ told path) (ends : deed.ended? = some request.key)

/-- The end of a request is told in the caller's turn, as long as the caller waits for a helper. -/
theorem takes_of_bides (moves : Move hosts jobs world deeds after) (sound : world.Sound trace)
    {v : Vigil Job} {rung : Prop} {key : PauseId} (bides : world.scheduler.Bides v rung)
    (named : v.aim.key? = some key) {deed : Deed} (told : deed ∈ deeds) (ends : deed.ended? = some key) :
    Takes (.resume v.task) world deeds after := by
  obtain ⟨signal, mine, -, -⟩ := bides.waits
  exact moves.takes_of_end sound (Scheduler.helper_of_task mine) (Scheduler.status_of_task mine) named told ends

theorem untold_append {key : PauseId} (before : ∀ deed ∈ told path, deed.ended? ≠ some key)
    (now : ∀ deed ∈ deeds, deed.ended? ≠ some key) (after : World) :
    ∀ deed ∈ told (path ++ [(deeds, after)]), deed.ended? ≠ some key := by
  intro deed member
  rw [told_append, told_cons] at member
  rcases List.mem_append.mp member with member | member
  · exact before deed member
  · exact now deed (by simpa [told] using member)

/-- **Every move** brings a request from one of its phases to one of them. -/
theorem TimedRequest.Phase.move (phase : request.Phase begun path)
    (moves : Move hosts jobs (final begun path) deeds after) (sound : (final begun path).Sound trace)
    (spared : after.scheduler.Spared request.task request.key) :
    request.Phase begun (path ++ [(deeds, after)]) := by
  have last : final begun (path ++ [(deeds, after)]) = after := final_snoc begun after path deeds
  have said : ∀ deed ∈ deeds, deed ∈ told (path ++ [(deeds, after)]) := fun deed member => by
    rw [told_append]
    exact List.mem_append_right _ (by simpa [told] using member)
  have late : (final begun path).scheduler.clock.lt request.due = false → request.Chimes begun path :=
    fun reached => ⟨_, final_mem begun path, reached⟩
  cases phase with
  | closed before ends =>
    refine .closed ?_ ends
    rw [told_append]
    exact List.mem_append_left _ before
  | watching bides untold =>
    by_cases takes : Takes (.resume request.task) (final begun path) deeds after
    · by_cases ended : ∃ ending,
          (final begun path).scheduler.status? request.helper = some (.finished ending)
      · obtain ⟨ending, ended⟩ := ended
        obtain ⟨rfl, -⟩ := watching_decided sound takes bides ended
        refine .closed (said _ (List.mem_singleton_self _)) ?_
        cases ending <;> rfl
      · have going : (final begun path).scheduler.Going request.helper := fun ending has =>
          ended ⟨ending, has⟩
        obtain ⟨chimes, rfl, number, leaves⟩ := watching_late sound takes bides late going
        exact .leaving rfl takes bides.status chimes going (last.symm ▸ leaves)
          (untold_append untold (fun _ none => absurd none List.not_mem_nil) after)
    · refine .watching ?_ (untold_append untold (fun deed member ends => takes ?_) after)
      · rw [last]
        refine (moves.bides sound bides rfl rfl spared ?_ takes).mono fun chimes => chimes.later _
        rintro _ ⟨⟩
        exact late
      · exact takes_of_bides moves sound bides rfl member ends
  | @leaving first rest turned resumed number split turn watches chimes going bides untold =>
    by_cases takes : Takes (.resume request.task) (final begun path) deeds after
    · obtain ⟨rfl, -⟩ := leaving_quits sound takes bides
      exact .closed (said _ (List.mem_singleton_self _)) rfl
    · have split : path ++ [(deeds, after)] = first ++ (turned, resumed) :: (rest ++ [(deeds, after)]) := by
        simp [split]
      have timeless : ∀ due, (request.leaving number).due? = some due →
          (final begun path).scheduler.clock.lt due = false → False := by
        rintro due ⟨⟩
      have leaves := moves.bides sound bides rfl rfl spared timeless takes
      rw [← last] at leaves
      refine .leaving split turn watches chimes going leaves (untold_append untold ?_ after)
      exact fun deed member ends => takes (takes_of_bides moves sound bides rfl member ends)

/-- **Every course** of moves brings a request to one of its phases. -/
theorem TimedRequest.phase (reached : Reached hosts jobs begun trace)
    (bides : begun.scheduler.Bides request.watching False) (course : Path hosts jobs begun path)
    (spares : request.Spares begun path) : request.Phase begun path := by
  induction path using List.reverseRecOn with
  | nil => exact .watching (bides.mono False.elim) fun _ none => absurd none List.not_mem_nil
  | append_singleton path step ih =>
    obtain ⟨before, last⟩ := course.split
    cases last with
    | cons moves _ =>
      have phase := ih before fun now member => spares now (mem_way_of_first member _)
      exact phase.move moves (reached.along before).sound (spares _ (by simp))

/-! ## Requests that are decided -/

/-- A caller that still watches its helper and the clock asks for its key. -/
theorem asks_of_watches (sound : world.Sound trace) (watches : request.Watches world) :
    world.scheduler.Asks world.hand request.task request.watching.aim := by
  obtain ⟨signal, waits⟩ := watches
  refine ⟨?_, nofun, .inl ⟨_, waits, rfl⟩⟩
  cases helps : world.scheduler.helper? request.task with
  | none => rfl
  | some own => cases sound.orderly.helperWaits helps waits

/-- As long as the caller watches its helper and the clock, the request has not come to its end. -/
theorem TimedRequest.Phase.bides_of_watches (phase : request.Phase begun path)
    (sound : (final begun path).Sound (trace ++ told path)) (watches : request.Watches (final begun path)) :
    (final begun path).scheduler.Bides request.watching (request.Chimes begun path) ∧
      ∀ deed ∈ told path, deed.ended? ≠ some request.key := by
  cases phase with
  | watching bides untold => exact ⟨bides, untold⟩
  | leaving _ _ _ _ _ bides =>
    obtain ⟨signal, waits⟩ := watches
    obtain ⟨other, leaves⟩ := bides.status
    cases waits.symm.trans leaves
  | closed told ends =>
    have asks := asks_of_watches sound watches
    have told := List.mem_append_right trace told
    obtain ⟨t, rfl | ⟨helper, failure, cut, rfl⟩⟩ := Deed.ended?_eq_some_iff.mp ends
    · exact absurd rfl (sound.accounted.tookDone told asks)
    · exact absurd rfl (sound.accounted.quitDone told asks)

/-- **A helper that has ended** decides the request: nothing else is told of it from then on, and it is told,
or the caller still has its turn to come. -/
theorem TimedRequest.settled {ending : Except Failure Unit} (reached : Reached hosts jobs world trace)
    (course : Path hosts jobs world path) (bides : world.scheduler.Bides request.watching True)
    (ended : world.scheduler.status? request.helper = some (.finished ending))
    (spares : ∀ now ∈ path.map (·.2), now.scheduler.Spared request.task request.key) :
    (∀ deed ∈ told path, deed.ended? = some request.key →
      deed = .verdict request.task request.key request.helper ending) ∧
    (.verdict request.task request.key request.helper ending ∈ told path ∨
      (final world path).scheduler.Bides request.watching True) := by
  induction course generalizing trace with
  | nil => exact ⟨fun _ none => absurd none List.not_mem_nil, .inr bides⟩
  | @cons world after deeds path moves rest ih =>
    have mine : (Deed.verdict request.task request.key request.helper ending).ended? = some request.key := by
      cases ending <;> rfl
    simp only [told_cons, List.mem_append]
    by_cases takes : Takes (.resume request.task) world deeds after
    · obtain ⟨rfl, -⟩ := watching_decided reached.sound takes bides ended
      have closed := rest.untold (reached.move moves)
        (List.mem_append_right _ (List.mem_singleton_self _)) mine
      refine ⟨fun deed member ends => ?_, .inl (.inl (List.mem_singleton_self _))⟩
      exact List.mem_singleton.mp (member.resolve_right fun later => closed deed later ends)
    · have still := moves.bides reached.sound bides rfl rfl (spares _ List.mem_cons_self)
        (fun _ _ _ => trivial) takes
      obtain ⟨only, comes⟩ := ih (reached.move moves) still (moves.finished reached.sound ended)
        fun now member => spares now (List.mem_cons_of_mem _ member)
      refine ⟨fun deed member ends => only deed (member.resolve_left fun now => takes ?_) ends,
        comes.imp_left .inr⟩
      exact takes_of_bides moves reached.sound bides rfl now ends

/-- A caller is not roused before it is told that what it waits for has come. -/
theorem TimedRequest.pending (reached : Reached hosts jobs world trace) (course : Path hosts jobs world path)
    (mine : world.scheduler.task request.task = some (request.watching.keeper .pending))
    (spares : ∀ now ∈ path.map (·.2), now.scheduler.Spared request.task request.key)
    (wordless : ∀ first turned resumed rest, path = first ++ (turned, resumed) :: rest →
      ¬ Takes (.signal request.task request.key) (final world first) turned resumed) :
    (final world path).scheduler.task request.task = some (request.watching.keeper .pending) := by
  induction course generalizing trace with
  | nil => exact mine
  | @cons world after deeds path moves rest ih =>
    have waiting := Scheduler.status_of_task mine
    have afar : world.scheduler.Afar request.task := .helped waiting rfl
    refine ih (reached.move moves) ?_ (fun now member => spares now (List.mem_cons_of_mem _ member)) ?_
    · rcases moves.beside reached.sound afar fun wait waits => by
          cases waits.symm.trans waiting
          exact ⟨request.key, rfl, spares _ List.mem_cons_self⟩ with beside | ⟨turn, takes⟩
      · exact beside.task.trans mine
      · obtain ⟨dealt, next, sound, due, -, same⟩ := reached.sound.takes takes
        have tasks := (Scheduler.nextTurn_eq next).1
        have mine : dealt.task request.task = some (request.watching.keeper .pending) := tasks ▸ mine
        have waiting := Scheduler.status_of_task mine
        have foreign : turn ≠ .resume request.task := by
          rintro rfl
          rcases due.2 with queued | ⟨wait, waits, settled⟩
          · cases waiting.symm.trans queued
          · cases waiting.symm.trans waits
            exact settled rfl
        have beside := Scheduler.beside_takeTurn sound (.helped waiting rfl) foreign fun wait waits same => by
          cases waits.symm.trans waiting
          exact wordless [] deeds after path rfl (same ▸ takes)
        rw [same]
        exact beside.task.trans mine
    · exact fun first turned resumed behind split =>
        wordless ((deeds, after) :: first) turned resumed behind (split ▸ rfl)

/-- A caller that was told nothing yet still watches its helper after the helper's first turn; and the helper
has ended in it, if the barrier could be had. -/
theorem TimedRequest.helper_ends (sound : world.Sound trace)
    (mine : world.scheduler.task request.task = some (request.watching.keeper .pending))
    (takes : Takes (.resume request.helper) world deeds after)
    (queued : world.scheduler.status? request.helper = some .queued) (free : world.scheduler.isFree) :
    request.Watches after ∧ ∃ ending, after.scheduler.status? request.helper = some (.finished ending) ∧
      (world.scheduler.asked request.helper = false → ending = .ok ()) := by
  have asks := asks_of_watches sound ⟨_, Scheduler.status_of_task mine⟩
  have helps := sound.keyed.caller asks rfl rfl
  obtain ⟨dealt, next, sound, -, -, same⟩ := sound.takes takes
  have tasks := (Scheduler.nextTurn_eq next).1
  have latch := Scheduler.latch_nextTurn next
  have free : dealt.isFree := (Scheduler.isFree_congr (congrArg Latch.holder latch)
    (congrArg Latch.line latch) fun t _ => by rw [tasks]).trans free
  have mine : dealt.task request.task = some (request.watching.keeper .pending) := tasks ▸ mine
  have helps : dealt.helper? request.helper = some (request.key, request.task) :=
    (Scheduler.helper_of_tasks tasks).trans helps
  rw [same]
  constructor
  · have foreign : Turn.resume request.helper ≠ .resume request.task := fun own =>
      Scheduler.helper_ne_keeper (v := request.watching) mine sound rfl rfl (Turn.resume.inj own)
    have waiting := Scheduler.status_of_task mine
    have beside := Scheduler.beside_takeTurn sound (.helped waiting rfl) foreign nofun
    exact ⟨.pending, by rw [same, beside.status]; exact waiting⟩
  · obtain ⟨ending, ended, well⟩ := Scheduler.finished_of_isFree sound helps
      (by simpa only [Scheduler.status?, tasks] using queued) free
    exact ⟨ending, ended, fun calm => well (by simpa only [Scheduler.asked, tasks] using calm)⟩

/-! ## How requests come out -/

/-- Who has ended is in line no more. -/
theorem Path.outside {t : TaskId} (course : Path hosts jobs world path)
    (reached : Reached hosts jobs world trace) {ending : Except Failure Unit}
    (ended : world.scheduler.status? t = some (.finished ending)) :
    ∀ now ∈ world :: path.map (·.2), t ∉ now.scheduler.line := by
  have outside := reached.sound.orderly.notMem_line ended nofun
  induction course generalizing trace with
  | nil => exact fun now here => List.mem_singleton.mp here ▸ outside
  | cons moves rest ih =>
    have reached' := reached.move moves
    have ended' := moves.finished reached.sound ended
    rintro now (_ | ⟨_, later⟩)
    · exact outside
    · exact ih reached' ended' (reached'.sound.orderly.notMem_line ended' nofun) now later

/-- The key that is taken in a turn opens the barrier. -/
theorem opens_of_took {turn : Turn} {t : TaskId} {key : PauseId} (sound : world.Sound trace)
    (takes : Takes turn world [.took t key] after) :
    after.scheduler.holder = some key ∧ key ∈ after.scheduler.keys := by
  obtain ⟨dealt, -, sound, due, told, same⟩ := sound.takes takes
  have taken := sound.takeTurn due
  have opens : key ∈ (dealt.takeTurn turn).1.keys := by
    have keys : (dealt.takeTurn turn).1.keys = _ := Scheduler.keys_takeTurn dealt turn
    rcases Scheduler.deedsOfTurn_cases dealt turn with ⟨t', key', granted, took⟩ | ⟨-, quits⟩
    · cases told.trans took
      rw [granted] at keys
      rw [keys]
      exact List.mem_append_right _ (List.mem_singleton_self _)
    · obtain ⟨_, _, _, _, _, quit⟩ := quits _ (told ▸ List.mem_singleton_self _)
      cases quit
  rw [same]
  exact ⟨taken.keyed.holder_of_mem opens, opens⟩

/-- What is known of a course that a request begins with. -/
structure TimedRequest.Goes (request : TimedRequest) (hosts : Host → Prop) (jobs : Job → Prop)
    (begun : World) (trace : List Deed) (path : List (List Deed × World)) : Prop where
  reached : Reached hosts jobs begun trace
  course : Path hosts jobs begun path
  spares : request.Spares begun path
  bides : begun.scheduler.Bides request.watching False

namespace TimedRequest.Goes

variable (goes : request.Goes hosts jobs begun trace path)

include goes

/-- A beginning of a course is one. -/
theorem first {earlier later : List (List Deed × World)} (split : path = earlier ++ later) :
    request.Goes hosts jobs begun trace earlier where
  reached := goes.reached
  course := (split ▸ goes.course).split.1
  spares now member := goes.spares now (split ▸ mem_way_of_first member later)
  bides := goes.bides

theorem phase : request.Phase begun path := TimedRequest.phase goes.reached goes.bides goes.course goes.spares

theorem sound : (final begun path).Sound (trace ++ told path) := (goes.reached.along goes.course).sound

/-- A request whose helper has ended before its caller's turn comes out as the helper did. -/
theorem decided {earlier later : List (List Deed × World)} (split : path = earlier ++ later)
    (watches : request.Watches (final begun earlier)) {ending : Except Failure Unit}
    (ended : (final begun earlier).scheduler.status? request.helper = some (.finished ending)) :
    (∀ deed ∈ told path, deed.ended? = some request.key →
      deed = .verdict request.task request.key request.helper ending) ∧
    (.verdict request.task request.key request.helper ending ∈ told later ∨
      (final begun path).scheduler.Bides request.watching True) := by
  have before := goes.first split
  obtain ⟨bides, untold⟩ := before.phase.bides_of_watches before.sound watches
  obtain ⟨only, comes⟩ := TimedRequest.settled (before.reached.along before.course)
    (split ▸ goes.course).split.2 (bides.mono fun _ => trivial) ended fun now member => goes.spares now (by
      rw [split, List.map_append, ← List.cons_append]
      exact List.mem_append_right _ member)
  rw [← final_append, ← split] at comes
  refine ⟨fun deed member ends => only deed ?_ ends, comes⟩
  rw [split, told_append] at member
  exact (List.mem_append.mp member).resolve_left fun early => untold deed early ends

/-- The request fails because of the limit only if the helper had not ended when the caller had its turn,
after the limit was reached; and the helper is in line no more. -/
theorem late {earlier later : List (List Deed × World)} (split : path = earlier ++ (deeds, after) :: later)
    {t helper : TaskId} {limit : Value} {cut : Bool}
    (quit : .quit t request.key helper (.timedOut limit) cut ∈ deeds) :
    (t = request.task ∧ helper = request.helper ∧ limit = request.limit ∧ cut = false) ∧
      after.current = some (request.task, request.next (.error (.timedOut request.limit))) ∧
      (∃ first turned resumed rest, earlier = first ++ (turned, resumed) :: rest ∧
        Takes (.resume request.task) (final begun first) turned resumed ∧
        request.Watches (final begun first) ∧ request.Chimes begun first ∧
        ¬ (final begun first).scheduler.Got request.helper) ∧
      ∀ now ∈ after :: later.map (·.2), request.helper ∉ now.scheduler.line := by
  have before := goes.first split
  have sound := before.sound
  cases (split ▸ goes.course).split.2 with
  | cons moves rest =>
    cases before.phase with
    | closed told ends =>
      exact absurd ends (moves.untold_of_end sound quit rfl _ (List.mem_append_right _ told))
    | watching bides untold =>
      have takes := takes_of_bides moves sound bides rfl quit rfl
      have asks := asks_of_watches sound bides.status
      by_cases ended : ∃ ending,
          (final begun earlier).scheduler.status? request.helper = some (.finished ending)
      -- A helper that failed did so because it was called off.
      · obtain ⟨ending, ended⟩ := ended
        obtain ⟨rfl, -⟩ := watching_decided sound takes bides ended
        cases ending with
        | ok => cases List.mem_singleton.mp quit
        | error failure =>
          have excuse := sound.orderly.helperFailed (sound.keyed.caller asks rfl rfl) ended
          cases List.mem_singleton.mp quit
          cases excuse
      · obtain ⟨-, rfl, -⟩ := watching_late sound takes (bides.mono fun _ => trivial) (fun _ => trivial)
          fun ending has => ended ⟨ending, has⟩
        exact absurd quit List.not_mem_nil
    | leaving split' turn watches chimes going bides untold =>
      have takes := takes_of_bides moves sound bides rfl quit rfl
      obtain ⟨rfl, fails, ending, ended⟩ := leaving_quits sound takes bides
      cases List.mem_singleton.mp quit
      refine ⟨⟨rfl, rfl, rfl, rfl⟩, fails,
        ⟨_, _, _, _, split', turn, watches, chimes, going (.ok ())⟩, ?_⟩
      have reached := before.reached.along before.course
      exact rest.outside (reached.move moves) (moves.finished sound ended)

/-- If the helper has got the barrier before the caller's turn, the request does not fail; the caller goes on
with the key when its turn comes, and its turn is coming. -/
theorem granted {earlier later : List (List Deed × World)} (split : path = earlier ++ later)
    (watches : request.Watches (final begun earlier))
    (got : (final begun earlier).scheduler.Got request.helper) :
    (∀ t helper failure cut, .quit t request.key helper failure cut ∉ told path) ∧
      (∀ deeds after rest, later = (deeds, after) :: rest →
        Takes (.resume request.task) (final begun earlier) deeds after →
          deeds = [.took request.task request.key] ∧
          after.current = some (request.task, request.next (.ok request.key)) ∧
          after.scheduler.holder = some request.key ∧ request.key ∈ after.scheduler.keys) ∧
      (.took request.task request.key ∈ told later ∨
        request.Watches (final begun path) ∧ (final begun path).scheduler.Got request.helper ∧
          (.signal request.task request.key ∈ (final begun path).scheduler.turns ∨
            .resume request.task ∈ (final begun path).scheduler.turns)) := by
  have before := goes.first split
  obtain ⟨bides, untold⟩ := before.phase.bides_of_watches before.sound watches
  obtain ⟨only, comes⟩ := goes.decided split watches got
  refine ⟨fun t helper failure cut quit => ?_, fun deeds after rest _ takes => ?_,
    comes.imp_right fun bides => ?_⟩
  · cases only _ quit rfl
  · obtain ⟨rfl, goesOn⟩ := watching_decided before.sound takes bides got
    exact ⟨rfl, goesOn, opens_of_took before.sound takes⟩
  · have still := (split ▸ goes.course).split.2.finished (before.reached.along before.course) got
    rw [← final_append, ← split] at still
    refine ⟨bides.status, still, ?_⟩
    have alert := (goes.reached.along goes.course).alert
    obtain ⟨signal, mine, spared, -⟩ := bides.waits
    have waits := Scheduler.status_of_task mine
    cases signal with
    | cancelled => exact absurd rfl spared
    | pending => exact .inl (alert.wakeful.told waits rfl rfl still)
    | met => exact .inr (alert.wakeful.ready (.inr ⟨_, waits, nofun⟩))

/-- If the barrier can be had when the helper has its first turn, and the caller was not told before that the
limit is reached, then the helper gets the barrier, unless it is called off itself; and the request does not
fail because of the limit. -/
theorem free {earlier later : List (List Deed × World)} (split : path = earlier ++ (deeds, after) :: later)
    (pending : begun.scheduler.task request.task = some (request.watching.keeper .pending))
    (takes : Takes (.resume request.helper) (final begun earlier) deeds after)
    (queued : (final begun earlier).scheduler.status? request.helper = some .queued)
    (free : (final begun earlier).scheduler.isFree)
    (wordless : ∀ first turned resumed rest, earlier = first ++ (turned, resumed) :: rest →
      ¬ Takes (.signal request.task request.key) (final begun first) turned resumed) :
    request.Watches after ∧
      ((final begun earlier).scheduler.asked request.helper = false → after.scheduler.Got request.helper) ∧
      ∀ t helper limit cut, .quit t request.key helper (.timedOut limit) cut ∉ told path := by
  have before := goes.first split
  have mine := TimedRequest.pending goes.reached before.course pending
    (fun now member => before.spares now (List.mem_cons_of_mem _ member)) wordless
  obtain ⟨watches, ending, ended, well⟩ := TimedRequest.helper_ends before.sound mine takes queued free
  refine ⟨watches, fun calm => ?_, fun t helper limit cut quit => ?_⟩
  · cases well calm
    exact ended
  · have split : path = earlier ++ [(deeds, after)] ++ later := by simp [split]
    have last : final begun (earlier ++ [(deeds, after)]) = after := final_snoc begun after earlier deeds
    have behind := (goes.first split).sound
    rw [← last] at watches ended
    have verdict := (goes.decided split watches ended).1 _ quit rfl
    cases ending with
    | ok => cases verdict
    | error failure =>
      have helps := behind.keyed.caller (asks_of_watches behind watches) rfl rfl
      cases behind.orderly.helperFailed helps ended
      cases verdict

end TimedRequest.Goes

/-- **How a request within a limit of time comes out.** A task asks for the barrier in any world that can be
reached, and then there is any course of moves in which nobody asks the task to end while it waits for the
key; turns come in any order, and the limit may have been reached from the beginning.

The request fails because of the limit only with that limit, and after the caller had its turn when the limit
had been reached and its helper had not got the barrier; and from then on the helper is not in line.

Once the helper has got the barrier while the caller still watches it, the request never fails: in its turn,
which is coming, the caller goes on with the key, and the key opens the barrier.

If the barrier can be had in the helper's first turn, and the caller was not told before that the limit is
reached, then the helper gets the barrier, unless somebody asked it to end, and the request never fails
because of the limit. -/
theorem timed_request_outcome {host : Host} (reached : Reached hosts jobs world trace) (allowed : hosts host)
    (made : request.Made host world begun) (course : Path hosts jobs begun path)
    (spares : request.Spares begun path) :
    (∀ earlier deeds after later t helper limit cut, path = earlier ++ (deeds, after) :: later →
      .quit t request.key helper (.timedOut limit) cut ∈ deeds →
        (t = request.task ∧ helper = request.helper ∧ limit = request.limit ∧ cut = false) ∧
        after.current = some (request.task, request.next (.error (.timedOut request.limit))) ∧
        (∃ first turned resumed rest, earlier = first ++ (turned, resumed) :: rest ∧
          Takes (.resume request.task) (final begun first) turned resumed ∧
          request.Watches (final begun first) ∧ request.Chimes begun first ∧
          ¬ (final begun first).scheduler.Got request.helper) ∧
        ∀ now ∈ after :: later.map (·.2), request.helper ∉ now.scheduler.line) ∧
    (∀ earlier later, path = earlier ++ later → request.Watches (final begun earlier) →
      (final begun earlier).scheduler.Got request.helper →
        (∀ t helper failure cut, .quit t request.key helper failure cut ∉ told path) ∧
        (∀ deeds after rest, later = (deeds, after) :: rest →
          Takes (.resume request.task) (final begun earlier) deeds after →
            deeds = [.took request.task request.key] ∧
            after.current = some (request.task, request.next (.ok request.key)) ∧
            after.scheduler.holder = some request.key ∧ request.key ∈ after.scheduler.keys) ∧
        (.took request.task request.key ∈ told later ∨
          request.Watches (final begun path) ∧ (final begun path).scheduler.Got request.helper ∧
            (.signal request.task request.key ∈ (final begun path).scheduler.turns ∨
              .resume request.task ∈ (final begun path).scheduler.turns))) ∧
    (∀ earlier deeds after later, path = earlier ++ (deeds, after) :: later →
      Takes (.resume request.helper) (final begun earlier) deeds after →
      (final begun earlier).scheduler.status? request.helper = some .queued →
      (final begun earlier).scheduler.isFree →
      (∀ first turned resumed rest, earlier = first ++ (turned, resumed) :: rest →
        ¬ Takes (.signal request.task request.key) (final begun first) turned resumed) →
        request.Watches after ∧
        ((final begun earlier).scheduler.asked request.helper = false → after.scheduler.Got request.helper) ∧
        ∀ t helper limit cut, .quit t request.key helper (.timedOut limit) cut ∉ told path) := by
  obtain ⟨pending, bides⟩ := made.bides reached.sound (spares _ List.mem_cons_self)
  have goes : request.Goes hosts jobs begun (trace ++ world.deeds) path :=
    ⟨reached.move (.step allowed made.steps), course, spares, bides⟩
  refine ⟨?_, ?_, ?_⟩
  · exact fun earlier deeds after later t helper limit cut split quit => goes.late split quit
  · exact fun earlier later split watches got => goes.granted split watches got
  · exact fun earlier deeds after later split takes queued free wordless =>
      goes.free split pending takes queued free wordless

/-! ### A limit that is reached at once -/

/-- The task that is about to ask for the barrier, if it is a task's turn that is. -/
def asker? (world : World) : Option TaskId :=
  match world.current with
  | some (t, .act (.await .barrier) _) => some t
  | _ => none

theorem current_of_asker? {t : TaskId} (asks : world.asker? = some t) :
    ∃ next, world.current = some (t, .act (.await .barrier) next) := by
  unfold asker? at asks
  split at asks
  next same =>
    cases asks
    exact ⟨_, same⟩
  next => cases asks

/-- Whether a task that waits is neither called off nor asked to end. -/
def calm (t : TaskId) (now : World) : Bool :=
  match now.scheduler.task t with
  | some { status := .waiting wait, cancelAsked, .. } => decide (wait.signal ≠ .cancelled) && !cancelAsked
  | _ => true

theorem spared_of_calm {t : TaskId} {now : World} (calm : now.calm t) (key : PauseId) :
    now.scheduler.Spared t key := by
  intro wait waits _
  obtain ⟨task, ht, status⟩ := Scheduler.task_of_status waits
  obtain ⟨role, _, asked⟩ := task
  cases status
  rw [Scheduler.asked_of_task ht]
  simpa [World.calm, ht] using calm

theorem spares_of_calm {request : TimedRequest}
    (calms : (begun :: path.map (·.2)).all (calm request.task)) : request.Spares begun path :=
  fun now member => spared_of_calm (List.all_eq_true.mp calms now member) request.key

/-- The world after a step in which a task asks for the barrier. -/
def asked (world : World) : World := (world.step silence).getD world

/-- A task that asks for the barrier makes a request, here with a limit of no time at all. -/
theorem made_of_asker? {t : TaskId} (asks : world.asker? = some t)
    (limited : world.scheduler.limit = some (.real .zero)) :
    ∃ request : TimedRequest, request.Made silence world world.asked ∧ request.task = t ∧
      request.key = world.scheduler.waits ∧ request.helper = world.scheduler.size ∧
      request.limit = .real .zero := by
  obtain ⟨next, current⟩ := current_of_asker? asks
  refine ⟨⟨t, _, _, .real .zero, world.scheduler.clock.add .zero, next⟩,
    ⟨current, limited, ⟨.zero, rfl, rfl⟩, rfl, rfl, ?_⟩, rfl, rfl, rfl, rfl⟩
  simp only [asked, World.step, current, Option.getD_some]

/-- A task takes the barrier, and waits no time for it. -/
def hurried : World :=
  (({ scheduler := { limit := some (.real .zero) } } : World).spawn "first" (holdUntil "gate").run).1

/-- The task is about to ask for the barrier. -/
def firstAsks : World × List Deed := steps silence 1 (hurried, [])

/-- The first task has got the barrier, and a second one is about to ask for it. -/
def secondAsks : World × List Deed :=
  let held := steps silence 40 (hurried, [])
  steps silence 1 ((held.1.spawn "second" (holdUntil "door").run).1, held.2)

/-- What follows the first request. -/
def firstCourse : List (List Deed × World) := course silence 40 firstAsks.1.asked

/-- What follows the second request. -/
def secondCourse : List (List Deed × World) := course silence 40 secondAsks.1.asked

theorem reached_hurried : Reached (· = silence) Keeps hurried [] :=
  Reached.outside (.begin {} (fun _ => rfl) (some (.real .zero)) .zero fun _ => false)
    (.spawn "first" ⟨"gate", rfl⟩)

theorem reached_firstAsks : Reached (· = silence) Keeps firstAsks.1 firstAsks.2 := reached_hurried.steps rfl 1

theorem reached_secondAsks : Reached (· = silence) Keeps secondAsks.1 secondAsks.2 :=
  ((reached_hurried.steps rfl 40).outside (.spawn "second" ⟨"door", rfl⟩)).steps rfl 1

theorem path_silence (n : Nat) (world : World) : Path (· = silence) jobs world (course silence n world) :=
  @path_course (· = silence) jobs silence rfl n world

/-- The first thing that follows the first request is the turn of its helper. -/
theorem firstCourse_begins : ∃ deeds after later, firstCourse = (deeds, after) :: later ∧
    Takes (.resume 1) firstAsks.1.asked deeds after := by
  obtain ⟨after, steps⟩ : ∃ after, firstAsks.1.asked.step silence = some after := ⟨_, rfl⟩
  obtain ⟨turn, takes⟩ := takes_of_step rfl steps
  obtain ⟨_, dealt, next, -⟩ := id takes
  have helper : firstAsks.1.asked.scheduler.nextTurn?.map (·.1) = some (.resume 1) := rfl
  rw [next] at helper
  cases helper
  exact ⟨_, after, course silence 39 after, by simp only [firstCourse, course, steps], takes⟩

/-- The task, the key and the helper of a request that failed because of the limit. -/
def late? : Deed → Option (TaskId × PauseId × TaskId)
  | .quit t key helper (.timedOut _) _ => some (t, key, helper)
  | _ => none

theorem quit_of_late? {deed : Deed} {t helper : TaskId} {key : PauseId}
    (late : late? deed = some (t, key, helper)) :
    ∃ limit cut, deed = .quit t key helper (.timedOut limit) cut := by
  unfold late? at late
  split at late
  next =>
    cases late
    exact ⟨_, _, rfl⟩
  next => cases late

/-- The second request fails because of the limit. -/
theorem secondCourse_fails : ∃ earlier deeds after later t helper limit cut,
    secondCourse = earlier ++ (deeds, after) :: later ∧ .quit t 4 helper (.timedOut limit) cut ∈ deeds := by
  have failed : (told secondCourse).findSome? late? = some (2, 4, 3) := by decide +kernel
  obtain ⟨deed, member, failed⟩ := List.exists_of_findSome?_eq_some failed
  obtain ⟨limit, cut, rfl⟩ := quit_of_late? failed
  obtain ⟨⟨deeds, after⟩, entry, quit⟩ := List.mem_flatMap.mp member
  obtain ⟨earlier, later, split⟩ := List.append_of_mem entry
  exact ⟨earlier, deeds, after, later, 2, 3, limit, cut, split, quit⟩

/-- The first request does not fail, since the barrier can be had in the first turn of its helper. The second
one fails, and its helper is in line no more. -/
theorem timed_request_outcome_of_hurried :
    (∃ request : TimedRequest, request.Made silence firstAsks.1 firstAsks.1.asked ∧
      request.Spares firstAsks.1.asked firstCourse ∧
      (∃ deeds after later, firstCourse = (deeds, after) :: later ∧ after.scheduler.Got request.helper) ∧
      ∀ t helper limit cut, .quit t request.key helper (.timedOut limit) cut ∉ told firstCourse) ∧
    ∃ request : TimedRequest, request.Made silence secondAsks.1 secondAsks.1.asked ∧
      request.Spares secondAsks.1.asked secondCourse ∧
      ∃ earlier deeds after later, secondCourse = earlier ++ (deeds, after) :: later ∧
        after.current = some (request.task, request.next (.error (.timedOut request.limit))) ∧
        request.Chimes secondAsks.1.asked earlier ∧
        ∀ now ∈ after :: later.map (·.2), request.helper ∉ now.scheduler.line := by
  constructor
  · obtain ⟨request, made, task, -, helper, -⟩ := made_of_asker?
      (show firstAsks.1.asker? = some 0 by decide +kernel) rfl
    have helper : request.helper = 1 := helper
    have spares : request.Spares firstAsks.1.asked firstCourse :=
      spares_of_calm (task ▸ by decide +kernel)
    obtain ⟨-, -, free⟩ := timed_request_outcome reached_firstAsks rfl made (path_silence 40 _) spares
    obtain ⟨deeds, after, later, split, takes⟩ := firstCourse_begins
    obtain ⟨-, got, never⟩ := free [] _ _ _ split (helper ▸ takes) (helper ▸ rfl) (by decide +kernel)
      fun _ _ _ _ none => by simp at none
    exact ⟨request, made, spares, ⟨_, _, _, split, got (helper ▸ rfl)⟩, never⟩
  · obtain ⟨request, made, task, key, -, -⟩ := made_of_asker?
      (show secondAsks.1.asker? = some 2 by decide +kernel) rfl
    have key : request.key = 4 := key
    have spares : request.Spares secondAsks.1.asked secondCourse :=
      spares_of_calm (task ▸ by decide +kernel)
    obtain ⟨late, -, -⟩ := timed_request_outcome reached_secondAsks rfl made (path_silence 40 _) spares
    obtain ⟨earlier, deeds, after, later, t, helper, limit, cut, split, quit⟩ := secondCourse_fails
    obtain ⟨-, fails, ⟨first, _, _, rest, early, -, -, chimes, -⟩, outside⟩ :=
      late earlier deeds after later t helper limit cut split (key ▸ quit)
    exact ⟨request, made, spares, earlier, deeds, after, later, split, fails,
      early ▸ chimes.later _, outside⟩

end World
end ActionFlow
