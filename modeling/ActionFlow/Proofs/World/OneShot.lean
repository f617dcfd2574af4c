import ActionFlow.Proofs.World.Abandoned
import ActionFlow.Proofs.World.Pacts

/-!
# Keys open the barrier once

A key that was granted opens the barrier until it is given back for the first time, by whomever and
from wherever that is done. Giving it back then frees the barrier, which is held with this very key.
Giving back any other key, or the same one again, does nothing at all, and it never fails.

The barrier notes what it does, and so its notices tell in turn of a key that was taken and of the same
key given back.

## Main results

* `entered_step`: how a step changes the keys that open the barrier and what the barrier has noted.
* `key_opens_once`: what giving back a key does, in every world in which keys may be given back at any
  time, and what the notices of the barrier are.
-/

namespace ActionFlow

/-! ## Notices -/

/-- What the barrier notes of itself. -/
def Event.ofBarrier? : Event → Option Notice
  | .noted (.barrierTaken key) => some (.barrierTaken key)
  | .noted (.barrierReleased key) => some (.barrierReleased key)
  | _ => none

/-- Leaving it to the barrier to note what it does. -/
def Pact.candid : Pact where
  allows effect := ∀ event, effect = .op (.record event) → event.ofBarrier? = none

namespace Explorer

/-- What the barrier has noted, the oldest first. -/
def barrierNotices (explorer : Explorer) : List Notice :=
  (explorer.journal.filterMap fun entry => entry.2.ofBarrier?).reverse

theorem barrierNotices_record (explorer : Explorer) (who : Option TaskId) (event : Event) :
    (explorer.record who event).barrierNotices =
      explorer.barrierNotices ++ event.ofBarrier?.toList := by
  unfold barrierNotices record
  cases told : event.ofBarrier? <;> simp [told]

/-- Operations note nothing of the barrier, unless they are told to. -/
theorem barrierNotices_perform (explorer : Explorer) (who : Option TaskId) {op : Op}
    (candid : Pact.candid.allows (.op op)) :
    (explorer.perform who op).1.barrierNotices = explorer.barrierNotices := by
  cases op with
  | record event =>
      simp only [perform, barrierNotices_record, candid event rfl, Option.toList_none, List.append_nil]
  | setExpandable item truth =>
      simp only [perform, setExpandable]
      split <;> rfl
  | enter =>
      simp only [perform, enter]
      split <;> rfl
  | register table registration =>
      simp only [perform, register]
      split
      · rfl
      · rw [barrierNotices_record]
        cases table <;> exact List.append_nil _
  | change source change => cases change <;> rfl
  | resolve | gather | test | rootOf | partsOf | keep | keyOf | leave => rfl

end Explorer

/-- Notices that tell in turn of a key that was taken and of the same key given back, and the keys that
open the barrier after them. -/
inductive Alternate : List Notice → List PauseId → Prop where
  | nothing : Alternate [] []
  | taken {notices : List Notice} {key : PauseId} (before : Alternate notices []) :
      Alternate (notices ++ [.barrierTaken key]) [key]
  | returned {notices : List Notice} {key : PauseId} (before : Alternate notices [key]) :
      Alternate (notices ++ [.barrierReleased key]) []

theorem Alternate.parity {notices : List Notice} {keys : List PauseId} (h : Alternate notices keys) :
    notices.length % 2 = keys.length := by
  induction h with
  | nothing => rfl
  | taken before ih | returned before ih =>
      simp only [List.length_append, List.length_cons, List.length_nil] at ih ⊢
      omega

theorem last_noted {notices : List Notice} {last notice : Notice} {index : Nat}
    (new : ¬ index < notices.length) (noted : (notices ++ [last])[index]? = some notice) :
    index = notices.length ∧ last = notice := by
  rw [List.getElem?_append_right (Nat.le_of_not_lt new), List.getElem?_singleton] at noted
  split at noted
  next first => exact ⟨by omega, Option.some.inj noted⟩
  next => cases noted

/-- The wording of notices that alternate. -/
theorem Alternate.text {notices : List Notice} {keys : List PauseId} (h : Alternate notices keys)
    {index : Nat} {notice : Notice} (noted : notices[index]? = some notice) :
    notice.text = if index % 2 = 0 then "Action barrier acquired" else "Action barrier released" := by
  induction h with
  | nothing => cases noted
  | @taken notices key before ih =>
      by_cases old : index < notices.length
      · rw [List.getElem?_append_left old] at noted
        exact ih noted
      · obtain ⟨rfl, rfl⟩ := last_noted old noted
        have even : notices.length % 2 = 0 := before.parity
        exact (if_pos even).symm
  | @returned notices key before ih =>
      by_cases old : index < notices.length
      · rw [List.getElem?_append_left old] at noted
        exact ih noted
      · obtain ⟨rfl, rfl⟩ := last_noted old noted
        have odd : notices.length % 2 = 1 := before.parity
        exact (if_neg (by omega)).symm

/-! ## What is outstanding -/

/-- Whether a key was granted and has not been given back since. -/
def Outstanding (trace : List Deed) (key : PauseId) : Prop :=
  ∃ before t after, trace = before ++ .took t key :: after ∧ ∀ t', .did t' (.release key) ∉ after

section Outstanding

variable {trace : List Deed} {key : PauseId}

/-- What is done adds a key that is granted, and takes away one that is given back. -/
theorem outstanding_snoc (deed : Deed) : Outstanding (trace ++ [deed]) key ↔
    (∃ t, deed = .took t key) ∨ Outstanding trace key ∧ ∀ t, deed ≠ .did t (.release key) := by
  constructor
  · rintro ⟨before, t, after, same, kept⟩
    rcases List.eq_nil_or_concat after with rfl | ⟨rest, last, rfl⟩
    · obtain ⟨-, last⟩ := List.append_inj' same rfl
      exact .inl ⟨t, List.singleton_inj.mp last⟩
    · rw [List.concat_eq_append, ← List.cons_append, ← List.append_assoc] at same
      obtain ⟨rfl, last⟩ := List.append_inj' same rfl
      cases last
      rw [List.concat_eq_append] at kept
      refine .inr ⟨⟨before, t, rest, rfl, fun t' old => kept t' (List.mem_append_left _ old)⟩, ?_⟩
      rintro t' rfl
      exact kept t' (List.mem_append_right _ (List.mem_singleton_self _))
  · rintro (⟨t, rfl⟩ | ⟨⟨before, t, after, rfl, kept⟩, other⟩)
    · exact ⟨trace, t, [], rfl, nofun⟩
    · refine ⟨before, t, after ++ [deed], by simp, fun t' member => ?_⟩
      rcases List.mem_append.mp member with old | new
      · exact kept t' old
      · exact other t' (List.mem_singleton.mp new).symm

/-- Granting keys makes them outstanding. -/
theorem outstanding_append_took (t : TaskId) (keys : List PauseId) :
    Outstanding (trace ++ keys.map (.took t)) key ↔ key ∈ keys ∨ Outstanding trace key := by
  induction keys generalizing trace with
  | nil => simp
  | cons first rest ih =>
      have granted : (∃ t', Deed.took t first = .took t' key) ↔ key = first :=
        ⟨fun ⟨_, same⟩ => by cases same; rfl, fun same => ⟨t, by rw [same]⟩⟩
      have kept : ∀ t', Deed.took t first ≠ .did t' (.release key) := nofun
      rw [List.map_cons, List.append_cons, ih, outstanding_snoc, granted, and_iff_left kept,
        List.mem_cons, or_left_comm, or_assoc]

end Outstanding

/-- Whether a deed grants no key and gives back none of those that open the barrier. -/
def Deed.Idle (keys : List PauseId) : Deed → Prop
  | .took _ _ => False
  | .did _ (.release key) => key ∉ keys
  | _ => True

theorem outstanding_append_idle {trace deeds : List Deed} {key : PauseId} {keys : List PauseId}
    (idle : ∀ deed ∈ deeds, deed.Idle keys) (opens : Outstanding trace key → key ∈ keys) :
    Outstanding (trace ++ deeds) key ↔ Outstanding trace key := by
  induction deeds generalizing trace with
  | nil => rw [List.append_nil]
  | cons first rest ih =>
      have same : Outstanding (trace ++ [first]) key ↔ Outstanding trace key := by
        have untaken := idle first (List.mem_cons_self ..)
        rw [outstanding_snoc]
        constructor
        · rintro (⟨t, rfl⟩ | ⟨was, -⟩)
          · exact untaken.elim
          · exact was
        · intro was
          refine .inr ⟨was, ?_⟩
          rintro t rfl
          exact untaken (opens was)
      rw [List.append_cons, ih (fun deed member => idle deed (List.mem_cons_of_mem _ member))
        fun was => opens (same.mp was), same]

/-! ## How the keys and the notices change -/

/-- How the keys that open the barrier, and what the barrier has noted, change by what is done. -/
inductive Entered (keys : List PauseId) (notices : List Notice) (deeds : List Deed) :
    List PauseId → List Notice → Prop where
  /-- A task may be granted a key; whatever else is done gives back no key that opens the barrier. -/
  | granted (t : TaskId) (before : List Deed) (fresh : List PauseId)
      (same : deeds = before ++ fresh.map (.took t)) (idle : ∀ deed ∈ before, deed.Idle keys) :
      Entered keys notices deeds (keys ++ fresh) (notices ++ fresh.map .barrierTaken)
  /-- The key that opens the barrier is given back. -/
  | returned (t : TaskId) (key : PauseId) (same : deeds = [.did t (.release key)])
      (opens : keys = [key]) :
      Entered keys notices deeds [] (notices ++ [.barrierReleased key])

theorem entered_nothing {keys keys' : List PauseId} {notices notices' : List Notice}
    {deeds : List Deed} (sameKeys : keys' = keys) (sameNotices : notices' = notices)
    (idle : ∀ deed ∈ deeds, deed.Idle keys) : Entered keys notices deeds keys' notices' := by
  have nothing : Entered keys notices deeds (keys ++ []) (notices ++ []) :=
    .granted 0 deeds [] (List.append_nil _).symm idle
  rw [sameKeys, sameNotices]
  rwa [List.append_nil, List.append_nil] at nothing

namespace World

/-- The keys that open the barrier and the notices of the barrier change by what is done. -/
def EnteredBy (world after : World) (deeds : List Deed) : Prop :=
  Entered world.scheduler.keys world.explorer.barrierNotices deeds after.scheduler.keys
    after.explorer.barrierNotices

section Step

variable {world after : World} {trace deeds : List Deed} {t : TaskId}

/-- Giving a key back frees the barrier, and that is noted, if the key opens it; it is nothing
otherwise, and never fails. -/
theorem release_cases {hand : Scheduler.Hand} (h : world.scheduler.Keyed hand) (task : Option TaskId)
    (key : PauseId) :
    (key ∈ world.scheduler.keys ∧ world.scheduler.holder = some key ∧ world.scheduler.keys = [key] ∧
      world.release task key =
        ({ world with scheduler := { world.scheduler with holder := none, keys := [] }.wakeFirst }.record
          task (.noted (.barrierReleased key)), .ok ())) ∨
    (key ∉ world.scheduler.keys ∧ world.release task key = (world, .ok ())) := by
  rcases Scheduler.release_eq h key with ⟨opens, held, only, same⟩ | ⟨shut, same⟩
  · refine .inl ⟨opens, held, only, ?_⟩
    simp only [World.release, same]
  · refine .inr ⟨shut, ?_⟩
    simp only [World.release, same]

/-- A key is given back, by a task or from outside. -/
theorem entered_release {hand : Scheduler.Hand} (h : world.scheduler.Keyed hand) (t : TaskId)
    (task : Option TaskId) (key : PauseId) :
    world.EnteredBy (world.release task key).1 [.did t (.release key)] := by
  unfold EnteredBy
  rcases release_cases h task key with ⟨-, -, only, same⟩ | ⟨shut, same⟩
  · have keys : ({ world.scheduler with holder := none, keys := [] }.wakeFirst).keys = [] :=
      congrArg Latch.keys (Scheduler.latch_wakeFirst _)
    rw [same]
    simp only [World.record, Explorer.barrierNotices_record, keys]
    exact .returned t key rfl only
  · rw [same]
    refine entered_nothing rfl rfl fun deed member => ?_
    cases List.mem_singleton.mp member
    exact shut

/-- A task asks for a pause. -/
theorem entered_await {host : Host} {pause : Pause} {next : Except Failure PauseId → Job}
    (current : world.current = some (t, .act (.await pause) next)) :
    world.EnteredBy (world.perform host t (.await pause) next) world.deeds := by
  have deeds : world.deeds = [.did t (.await pause)] ++ (Scheduler.grantedAt pause
      ((world.scheduler.setResume t next).await t pause).2).map (.took t) := by
    rw [← Scheduler.deedsOfAwait_eq]
    simp only [World.deeds, current, List.singleton_append]
  have keys := Scheduler.keys_await (world.scheduler.setResume t next) t pause
  have before : (world.scheduler.setResume t next).keys = world.scheduler.keys :=
    congrArg Latch.keys (Scheduler.latch_setResume world.scheduler t next)
  rw [before] at keys
  unfold EnteredBy
  simp only [World.perform]
  generalize (world.scheduler.setResume t next).await t pause = result at deeds keys ⊢
  obtain ⟨scheduler, answer⟩ := result
  have keys : scheduler.keys = world.scheduler.keys ++ Scheduler.grantedAt pause answer := keys
  have noted : ∀ {fresh : List PauseId} {scheduler : Scheduler Job} {notices : List Notice},
      world.deeds = [.did t (.await pause)] ++ fresh.map (.took t) →
      scheduler.keys = world.scheduler.keys ++ fresh →
      notices = world.explorer.barrierNotices ++ fresh.map .barrierTaken →
      Entered world.scheduler.keys world.explorer.barrierNotices world.deeds scheduler.keys
        notices := by
    rintro fresh scheduler notices deeds keys rfl
    rw [keys]
    refine .granted t [.did t (.await pause)] fresh deeds fun deed member => ?_
    cases List.mem_singleton.mp member
    trivial
  cases answer with
  | none =>
    refine noted deeds keys ?_
    cases pause <;> exact (List.append_nil _).symm
  | some answer =>
    cases pause with
    | gate | sleep => exact noted deeds keys (List.append_nil _).symm
    | barrier =>
      cases answer with
      | error => exact noted deeds keys (List.append_nil _).symm
      | ok key => exact noted deeds keys (Explorer.barrierNotices_record ..)

/-- An effect changes the keys and the notices as it should, if the tasks leave it to the barrier to note
what it does. -/
theorem entered_perform {host : Host} (h : world.Sound trace) (honours : world.Honours .candid fun _ => False)
    {effect : Effect} {next : effect.Reply → Job} (current : world.current = some (t, .act effect next)) :
    world.EnteredBy (world.perform host t effect next) world.deeds := by
  have nothing : ∀ {after : World}, world.deeds = [.did t effect] → (∀ key, effect ≠ .release key) →
      after.scheduler.latch = world.scheduler.latch →
      after.explorer.barrierNotices = world.explorer.barrierNotices →
      world.EnteredBy after world.deeds := by
    intro after deeds other latch notices
    refine entered_nothing (congrArg Latch.keys latch) notices fun deed member => ?_
    rw [deeds] at member
    cases List.mem_singleton.mp member
    cases effect with
    | release key => exact absurd rfl (other key)
    | op | call | await | setGate | cancel => trivial
  cases effect with
  | op op =>
    refine nothing (by simp only [World.deeds, current]) (fun _ same => by cases same) rfl ?_
    exact world.explorer.barrierNotices_perform (some t) (honours.current current id).1
  | call call => exact nothing (by simp only [World.deeds, current]) (fun _ same => by cases same) rfl rfl
  | setGate gate opened =>
    exact nothing (by simp only [World.deeds, current]) (fun _ same => by cases same)
      (Scheduler.latch_setGate ..) rfl
  | cancel name =>
    refine nothing (by simp only [World.deeds, current]) (fun _ same => by cases same) ?_ ?_
    · simp only [World.perform, continueWith, World.cancel]
      split
      · exact Scheduler.latch_cancel ..
      · rfl
    · simp only [World.perform, continueWith, World.cancel]
      split <;> rfl
  | release key =>
    have deeds : world.deeds = [.did t (.release key)] := by simp only [World.deeds, current]
    rw [deeds]
    exact entered_release h.keyed t (some t) key
  | await pause => exact entered_await current

/-- A turn changes the keys and the notices as it should. -/
theorem entered_takeTurn (world : World) (turn : Turn) :
    world.EnteredBy (world.takeTurn turn) (world.scheduler.deedsOfTurn turn) := by
  have keys := Scheduler.keys_takeTurn world.scheduler turn
  have told := Scheduler.deedsOfTurn_cases world.scheduler turn
  have nothing : ∀ {after : World}, after.scheduler.keys = world.scheduler.keys →
      after.explorer.barrierNotices = world.explorer.barrierNotices →
      (∀ deed ∈ world.scheduler.deedsOfTurn turn,
        ∃ t key helper failure cut, deed = .quit t key helper failure cut) →
      world.EnteredBy after (world.scheduler.deedsOfTurn turn) := by
    intro after sameKeys sameNotices quits
    refine entered_nothing sameKeys sameNotices fun deed member => ?_
    obtain ⟨t, key, helper, failure, cut, rfl⟩ := quits deed member
    trivial
  unfold World.takeTurn
  generalize world.scheduler.takeTurn turn = result at keys told ⊢
  obtain ⟨scheduler, went⟩ := result
  rcases told with ⟨t, key, granted, deeds⟩ | ⟨granted, quits⟩
  · rw [granted] at keys
    cases went with
    | none => cases granted
    | some went =>
      obtain ⟨other, resume, answer, own⟩ := went
      cases own with
      | none => cases granted
      | some own =>
        cases granted
        have keys : scheduler.keys = world.scheduler.keys ++ [key] := keys
        rw [deeds]
        unfold EnteredBy
        simp only [continueWith, World.record, keys, Explorer.barrierNotices_record]
        exact .granted t [] [key] rfl fun _ member => absurd member List.not_mem_nil
  · rw [granted, List.append_nil] at keys
    cases went with
    | none => exact nothing keys rfl quits
    | some went =>
      obtain ⟨other, resume, answer, own⟩ := went
      cases own with
      | some own => cases granted
      | none => exact nothing keys rfl quits

/-- **A step** changes the keys and the notices as it should. -/
theorem entered_step {host : Host} (h : world.Sound trace)
    (honours : world.Honours .candid fun _ => False) (steps : world.step host = some after) :
    world.EnteredBy after world.deeds := by
  unfold World.step at steps
  split at steps
  next t effect next current =>
    cases steps
    exact entered_perform h honours current
  next t ending current =>
    cases steps
    have deeds : world.deeds = [] := by simp only [World.deeds, current]
    rw [deeds]
    exact entered_nothing (congrArg Latch.keys (Scheduler.latch_finish ..)) rfl fun _ member =>
      absurd member List.not_mem_nil
  next idle =>
    obtain ⟨⟨turn, scheduler⟩, next, rfl⟩ := Option.map_eq_some_iff.mp steps
    have deeds : world.deeds = scheduler.deedsOfTurn turn := by simp only [World.deeds, idle, next]
    have keys : scheduler.keys = world.scheduler.keys :=
      congrArg Latch.keys (Scheduler.latch_nextTurn next)
    have taken := entered_takeTurn { world with scheduler } turn
    unfold EnteredBy at taken ⊢
    rw [deeds, ← keys]
    exact taken

end Step

/-- Where nothing is done, the keys that open the barrier stay. -/
theorem keys_of_nothing {hosts : Host → Prop} {jobs : Job → Prop} {world after : World}
    {trace : List Deed} (h : world.Sound trace) (honours : world.Honours .candid fun _ => False)
    (moves : Move hosts jobs world [] after) : after.scheduler.keys = world.scheduler.keys := by
  generalize nothing : [] = deeds at moves
  cases moves with
  | step allowed steps =>
    have entered := entered_step h honours steps
    unfold EnteredBy at entered
    rw [← nothing] at entered
    generalize after.scheduler.keys = keys, after.explorer.barrierNotices = notices at entered
    cases entered with
    | granted t before fresh same idle =>
      obtain ⟨-, fresh⟩ := List.append_eq_nil_iff.mp same.symm
      rw [List.map_eq_nil_iff.mp fresh, List.append_nil]
    | returned t key same => cases same
  | spawn | explore | setClock | reorder => rfl
  | setGate gate opened => exact congrArg Latch.keys (Scheduler.latch_setGate ..)
  | cancel t => exact congrArg Latch.keys (Scheduler.latch_cancel ..)

/-! ## Worlds in which keys are given back at any time -/

/-- The worlds that can be reached, with their traces, if keys can also be given back from outside the
tasks. From there a trace does not tell who it was. Nothing but the barrier tells of the barrier. -/
inductive Recorded (hosts : Host → Prop) (jobs : Job → Prop) : World → List Deed → Prop where
  /-- At first there are no tasks, and the barrier has noted nothing. -/
  | begin (explorer : Explorer) (silent : explorer.barrierNotices = []) (limit : Option Value)
      (clock : Binary64) (opened : String → Bool) :
      Recorded hosts jobs { explorer, scheduler := { limit, clock, opened } } []
  /-- A step under a host. -/
  | step {world after : World} {trace : List Deed} {host : Host}
      (recorded : Recorded hosts jobs world trace) (allowed : hosts host)
      (steps : world.step host = some after) : Recorded hosts jobs after (trace ++ world.deeds)
  /-- Something is done from outside. -/
  | outside {world after : World} {trace : List Deed} (recorded : Recorded hosts jobs world trace)
      (moves : Move hosts jobs world [] after)
      (silent : after.explorer.barrierNotices = world.explorer.barrierNotices) :
      Recorded hosts jobs after trace
  /-- A key is given back from outside. -/
  | giveBack {world : World} {trace : List Deed} (recorded : Recorded hosts jobs world trace)
      (t : TaskId) (key : PauseId) :
      Recorded hosts jobs (world.release none key).1 (trace ++ [.did t (.release key)])

/-- The keys that open the barrier and the notices of the barrier are those that the trace tells of. -/
structure Booked (world : World) (trace : List Deed) : Prop where
  sound : world.Sound trace
  candid : world.Honours .candid fun _ => False
  opens : ∀ key, key ∈ world.scheduler.keys ↔ Outstanding trace key
  alternate : Alternate world.explorer.barrierNotices world.scheduler.keys
  taken : ∀ key, .barrierTaken key ∈ world.explorer.barrierNotices ↔ ∃ t, .took t key ∈ trace
  returned : ∀ key, .barrierReleased key ∈ world.explorer.barrierNotices ↔
    (∃ t, .took t key ∈ trace) ∧ ¬ Outstanding trace key
  untaken : ∀ {t key helper failure cut}, .quit t key helper failure cut ∈ trace →
    ∀ t', .took t' key ∉ trace

/-- Only who was taken is outstanding. -/
theorem took_of_outstanding {trace : List Deed} {key : PauseId} (h : Outstanding trace key) :
    ∃ t, .took t key ∈ trace := by
  obtain ⟨before, t, after, rfl, -⟩ := h
  exact ⟨t, List.mem_append_right _ (List.mem_cons_self ..)⟩

namespace Booked

variable {world after : World} {trace deeds : List Deed}

/-- No more than one key opens the barrier at a time. -/
theorem fresh_of_granted (sound : after.Sound trace) {keys fresh : List PauseId}
    (same : after.scheduler.keys = keys ++ fresh) : fresh = [] ∨ keys = [] ∧ ∃ key, fresh = [key] := by
  rcases sound.keyed.opening with closed | ⟨key, -, only⟩
  · rw [same, List.append_eq_nil_iff] at closed
    exact .inl closed.2
  · rw [same, List.append_eq_singleton_iff] at only
    rcases only with ⟨rfl, rfl⟩ | ⟨-, rfl⟩
    · exact .inr ⟨rfl, key, rfl⟩
    · exact .inl rfl

/-- The books are kept, whatever is done. -/
theorem enter (h : world.Booked trace) (entered : world.EnteredBy after deeds)
    (sound : after.Sound (trace ++ deeds)) (candid : after.Honours .candid fun _ => False)
    (untold : ∀ t key, .took t key ∈ deeds → Scheduler.Untold trace key ∧
      ∀ t' helper failure cut, .quit t' key helper failure cut ∉ deeds)
    (untaken : ∀ t key helper failure cut, .quit t key helper failure cut ∈ deeds →
      ∀ t', .took t' key ∉ trace) : after.Booked (trace ++ deeds) := by
  have quits : ∀ {t key helper failure cut}, .quit t key helper failure cut ∈ trace ++ deeds →
      ∀ t', .took t' key ∉ trace ++ deeds := by
    intro t key helper failure cut quit t' took
    rcases List.mem_append.mp took with told | tells
    · rcases List.mem_append.mp quit with was | now
      · exact h.untaken was t' told
      · exact untaken _ _ _ _ _ now t' told
    · obtain ⟨⟨-, unquit⟩, elsewhere⟩ := untold _ _ tells
      rcases List.mem_append.mp quit with was | now
      · exact unquit _ _ _ _ was
      · exact elsewhere _ _ _ _ now
  unfold EnteredBy at entered
  generalize keys' : after.scheduler.keys = newKeys at entered
  generalize notices' : after.explorer.barrierNotices = newNotices at entered
  cases entered with
  | granted t before fresh same idle =>
    have untaken : ∀ key ∈ fresh, ¬ ∃ t, .took t key ∈ trace := by
      rintro key granted ⟨t', told⟩
      refine (untold t key ?_).1.1 t' told
      rw [same]
      exact List.mem_append_right _ (List.mem_map_of_mem granted)
    have taken : ∀ key, (∃ t, .took t key ∈ trace ++ deeds) ↔ key ∈ fresh ∨ ∃ t, .took t key ∈ trace := by
      intro key
      constructor
      · rintro ⟨t', took⟩
        rw [same, List.mem_append, List.mem_append, List.mem_map] at took
        rcases took with told | now | ⟨own, member, own_eq⟩
        · exact .inr ⟨t', told⟩
        · exact (idle _ now).elim
        · cases own_eq
          exact .inl member
      · rintro (member | ⟨t', told⟩)
        · refine ⟨t, List.mem_append_right _ ?_⟩
          rw [same]
          exact List.mem_append_right _ (List.mem_map_of_mem member)
        · exact ⟨t', List.mem_append_left _ told⟩
    have outstanding : ∀ key, Outstanding (trace ++ deeds) key ↔ key ∈ fresh ∨ Outstanding trace key := by
      intro key
      rw [same, ← List.append_assoc, outstanding_append_took,
        outstanding_append_idle idle (h.opens key).mpr]
    refine ⟨sound, candid, fun key => ?_, ?_, fun key => ?_, fun key => ?_, quits⟩
    · rw [keys', outstanding, ← h.opens, List.mem_append, or_comm]
    · rw [keys', notices']
      rcases fresh_of_granted sound keys' with rfl | ⟨none, key, rfl⟩
      · simpa using h.alternate
      · have alternate := h.alternate
        rw [none] at alternate ⊢
        exact .taken alternate
    · rw [notices', taken, ← h.taken]
      simp [or_comm]
    · -- A key that is granted now was not given back before.
      have told := h.returned key
      have new := untaken key
      rw [notices', taken, outstanding, List.mem_append]
      have elsewhere : .barrierReleased key ∉ fresh.map Notice.barrierTaken := by simp
      grind
  | returned t key same opens =>
    have outstanding : ∀ other, Outstanding trace other ↔ other = key := by
      intro other
      rw [← h.opens, opens, List.mem_singleton]
    have taken : ∀ other, (∃ t, .took t other ∈ trace ++ deeds) ↔ ∃ t, .took t other ∈ trace := by
      simp [same]
    have settled : ∀ other, ¬ Outstanding (trace ++ deeds) other := by
      intro other still
      rw [same, outstanding_snoc, outstanding] at still
      rcases still with ⟨t', granted⟩ | ⟨rfl, kept⟩
      · cases granted
      · exact kept t rfl
    have alternate := h.alternate
    rw [opens] at alternate
    refine ⟨sound, candid, fun other => ?_, ?_, fun other => ?_, fun other => ?_, quits⟩
    · rw [keys']
      exact iff_of_false List.not_mem_nil (settled other)
    · rw [keys', notices']
      exact .returned alternate
    · rw [notices', taken, ← h.taken]
      simp
    · have was := h.returned other
      have own : other = key → ∃ t, .took t other ∈ trace := fun same =>
        took_of_outstanding ((outstanding other).mpr same)
      rw [outstanding] at was
      rw [notices', taken, List.mem_append, List.mem_singleton, Notice.barrierReleased.injEq]
      have still := settled other
      grind

end Booked

section Recorded

variable {hosts : Host → Prop} {jobs : Job → Prop} {world : World} {trace : List Deed}

theorem Recorded.steps (recorded : Recorded hosts jobs world trace) {host : Host}
    (allowed : hosts host) (n : Nat) :
    Recorded hosts jobs (World.steps host n (world, trace)).1 (World.steps host n (world, trace)).2 := by
  induction n generalizing world trace with
  | zero => exact recorded
  | succ n ih =>
      unfold World.steps
      split
      next after same => exact ih (recorded.step allowed same)
      next => exact recorded

/-- In every world that is reached in this way the books are right, if everybody leaves it to the barrier
to note what it does. -/
theorem Recorded.booked
    (recorded : Recorded (·.Honours .candid) (Program.Honours .candid) world trace) :
    world.Booked trace := by
  induction recorded with
  | begin explorer silent limit clock opened =>
    have outstanding : ∀ key, ¬ Outstanding [] key := by
      rintro key ⟨before, t, after, same, -⟩
      simp at same
    refine ⟨sound_begin explorer limit clock opened, ?_, ?_, ?_, ?_, ?_, ?_⟩
    · exact honours_begin (fun _ => trivial) limit clock opened _
    · exact fun key => iff_of_false List.not_mem_nil (outstanding key)
    · rw [silent]
      exact .nothing
    · simp [silent]
    · simp [silent]
    · exact fun quit => absurd quit List.not_mem_nil
  | @step world after trace host recorded allowed steps ih =>
    have moves : Move (·.Honours .candid) (Program.Honours .candid) world world.deeds after :=
      .step allowed steps
    refine ih.enter (entered_step ih.sound ih.candid steps) (ih.sound.step steps) ?_ ?_ ?_
    · exact ih.candid.move ih.sound (fun _ => id) (fun _ => id)
        ⟨fun _ _ => trivial, fun _ => trivial⟩ moves
    · exact fun t key took => moves.untold_of_took ih.sound took
    · exact fun t key helper failure cut quit => moves.untaken_of_quit ih.sound quit
  | @outside world after trace recorded moves silent ih =>
    have sound := ih.sound.move moves
    have keys := keys_of_nothing ih.sound ih.candid moves
    have nothing : ∀ {deed : Deed}, deed ∉ [] := List.not_mem_nil
    rw [← List.append_nil trace]
    refine ih.enter (entered_nothing keys silent fun deed member => absurd member nothing) sound ?_ ?_ ?_
    · exact ih.candid.move ih.sound (fun _ => id) (fun _ => id)
        ⟨fun took _ => absurd took nothing, fun kept => absurd kept nothing⟩ moves
    · exact fun t key took => absurd took nothing
    · exact fun t key helper failure cut quit => absurd quit nothing
  | @giveBack world trace recorded t key ih =>
    have sound : (world.release none key).1.Sound (trace ++ [.did t (.release key)]) := by
      unfold World.Sound World.hand
      rw [scheduler_release, current_release]
      exact ih.sound.release t key
    refine ih.enter (entered_release ih.sound.keyed t none key) sound ?_ ?_ ?_
    · refine ih.candid.frame ?_ (fun t' rest rests _ => .inl ?_) fun t' job same others => ?_
      · unfold World.release
        split <;> rfl
      · rw [scheduler_release] at rests
        exact (Scheduler.unmoved_release _ _).rested _ _ rests
      · rw [current_release] at same
        exact ih.candid.current same others
    · simp
    · simp

/-- **Keys open the barrier once.** Tasks may ask for the barrier, be cancelled, wait in vain and give back
any keys, any number of times and in any order, and so may anybody outside the tasks. Whatever has
happened, giving a key back never fails. It does nothing at all unless the key was granted and has not
been given back since; then the barrier was held with this key, and it is free afterwards. The notices of
the barrier tell in turn that it was acquired and released, once for every key that was granted and once
for every key that was given back after that, and of nothing else; a request that failed was not granted
its key. -/
theorem key_opens_once
    (recorded : Recorded (·.Honours .candid) (Program.Honours .candid) world trace) :
    (∀ task key, (world.release task key).2 = .ok () ∧
      (¬ Outstanding trace key → (world.release task key).1 = world) ∧
      (Outstanding trace key → world.scheduler.holder = some key ∧
        (world.release task key).1.scheduler.holder = none ∧
        (world.release task key).1.explorer.journal =
          (task, .noted (.barrierReleased key)) :: world.explorer.journal)) ∧
    (∀ index notice, world.explorer.barrierNotices[index]? = some notice → notice.text =
      if index % 2 = 0 then "Action barrier acquired" else "Action barrier released") ∧
    (∀ key, (.barrierTaken key ∈ world.explorer.barrierNotices ↔ ∃ t, .took t key ∈ trace) ∧
      (.barrierReleased key ∈ world.explorer.barrierNotices ↔
        (∃ t, .took t key ∈ trace) ∧ ¬ Outstanding trace key)) ∧
    ∀ t key helper failure cut, .quit t key helper failure cut ∈ trace →
      (∀ t', .took t' key ∉ trace) ∧ .barrierTaken key ∉ world.explorer.barrierNotices ∧
        .barrierReleased key ∉ world.explorer.barrierNotices := by
  have booked := recorded.booked
  refine ⟨fun task key => ?_, fun index notice => booked.alternate.text, fun key =>
    ⟨booked.taken key, booked.returned key⟩, fun t key helper failure cut quit => ?_⟩
  · rw [← booked.opens]
    rcases release_cases booked.sound.keyed task key with ⟨opens, held, -, same⟩ | ⟨shut, same⟩
    · rw [same]
      refine ⟨rfl, absurd opens, fun _ => ⟨held, ?_, rfl⟩⟩
      exact congrArg Latch.holder (Scheduler.latch_wakeFirst _)
    · rw [same]
      exact ⟨rfl, fun _ => rfl, fun opens => absurd opens shut⟩
  · have untaken : ¬ ∃ t, .took t key ∈ trace := fun ⟨t', took⟩ => booked.untaken quit t' took
    rw [booked.taken, booked.returned]
    exact ⟨booked.untaken quit, untaken, fun told => untaken told.1⟩

end Recorded

/-! ## A key that is given back twice -/

theorem allowsScripts_candid : Pact.candid.AllowsScripts where
  scripted effect scripted := by
    rintro event rfl
    cases event with
    | noted notice => cases notice <;> first | rfl | cases scripted
    | _ => rfl
  returns key _ := nofun

theorem candid_holdUntil (gate : String) : (holdUntil gate).Honours .candid := by
  have waits : ∀ pause, (Run.await pause).Honours .candid := fun pause =>
    Run.honours_await fun event same => by cases same
  have gives : ∀ key, (Run.release key).Honours .candid := fun key => ⟨nofun, fun _ _ => trivial⟩
  exact (waits .barrier).bind fun key => (waits (.gate gate)).bind fun _ => gives key

/-- The first of two tasks has got the barrier, and its key was given back from outside; now the second
task has it. -/
def handedOn : World × List Deed :=
  let first := (({} : World).spawn "first" (holdUntil "gate").run).1
  let held := steps silence 40 ((first.spawn "second" (holdUntil "gate").run).1, [])
  steps silence 40 ((held.1.release none 1).1, held.2 ++ [.did 0 (.release 1)])

theorem recorded_handedOn :
    Recorded (·.Honours .candid) (Program.Honours .candid) handedOn.1 handedOn.2 := by
  have candid : silence.Honours .candid := honours_scriptedHost allowsScripts_candid _
  have begun : Recorded (·.Honours .candid) (Program.Honours .candid) {} [] :=
    .begin {} rfl none .zero fun _ => false
  have first := begun.outside (.spawn "first" (candid_holdUntil "gate")) rfl
  have second := first.outside (.spawn "second" (candid_holdUntil "gate")) rfl
  have held := second.steps candid 40
  exact (held.giveBack 0 1).steps candid 40

/-- Giving the first key back once more leaves the second task its hold. -/
theorem second_keeps_hold :
    Recorded (·.Honours .candid) (Program.Honours .candid) handedOn.1 handedOn.2 ∧
      handedOn.1.scheduler.holder = some 4 ∧ (handedOn.1.release none 1).1 = handedOn.1 ∧
        (handedOn.1.release none 4).1.scheduler.holder = none := by
  obtain ⟨gives, -⟩ := key_opens_once recorded_handedOn
  have booked := recorded_handedOn.booked
  have shut : 1 ∉ handedOn.1.scheduler.keys := by decide +kernel
  have opens : 4 ∈ handedOn.1.scheduler.keys := by decide +kernel
  obtain ⟨held, freed, -⟩ := (gives none 4).2.2 ((booked.opens 4).mp opens)
  exact ⟨recorded_handedOn, held, (gives none 1).2.1 (mt (booked.opens 1).mpr shut), freed⟩

end World
end ActionFlow
