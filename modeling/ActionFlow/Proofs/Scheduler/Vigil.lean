import ActionFlow.Proofs.Scheduler.Beside

/-!
# Waiting for a helper

Who asks for the barrier within a limit of time waits for the helper to end or for a timer; and who has
called the helper off waits for its end alone. Here such a wait is followed from its beginning to the turn
of the task: what there is that may rouse the task, and what its turn comes to then.

## Main results

* `Bides`: a task waits for its helper, and is roused by nothing but the timer or the helper's end.
* `bides_suspend`, `Bides.beside`, `Bides.takeTurn`: how such a wait begins, and that it lasts.
* `watch_ended`, `watch_late`, `leave_ended`: what the task's turn comes to.
-/

namespace ActionFlow

variable {κ : Type}

/-- How a task waits for its helper: under which number, with which aim, until when, and what it goes on
with. -/
structure Vigil (κ : Type) where
  task : TaskId
  next : Except Failure PauseId → κ
  id : PauseId
  aim : Aim
  due? : Option Binary64 := none

/-- The task that waits so. -/
def Vigil.keeper (v : Vigil κ) (signal : Signal) : Task κ :=
  { role := .body v.next, status := .waiting { id := v.id, aim := v.aim, signal } }

/-- What is told of a request whose helper has ended before its caller's turn. -/
def Deed.verdict (t : TaskId) (key : PauseId) (helper : TaskId) : Except Failure Unit → Deed
  | .ok () => .took t key
  | .error failure => .quit t key helper failure false

namespace Scheduler

variable {s s' : Scheduler κ} {v : Vigil κ} {rung rung' : Prop} {trace : List Deed} {turn : Turn}

/-- Whether there is something that may rouse a task that waits for its helper: its timer has rung, or the
helper has ended. -/
def Roused (s : Scheduler κ) (v : Vigil κ) (rung : Prop) : Prop :=
  rung ∨ ∃ helper ending, v.aim.helper? = some helper ∧ s.status? helper = some (.finished ending)

/-- A task waits for its helper, and is roused, or about to be, only if there is something to rouse it.
Nobody has asked it to end. -/
structure Bides (s : Scheduler κ) (v : Vigil κ) (rung : Prop) : Prop where
  waits : ∃ signal, s.task v.task = some (v.keeper signal) ∧ signal ≠ .cancelled ∧
    (signal = .met → s.Roused v rung)
  word : .signal v.task v.id ∈ s.turns → s.Roused v rung
  timer : ∀ timer ∈ s.timers, timer.task = v.task → timer.wait = v.id → v.due? = some timer.due

theorem Roused.ended (h : s.Roused v rung) (ends : Ends s s') : s'.Roused v rung :=
  h.imp_right fun ⟨helper, ending, aims, ended⟩ => ⟨helper, ending, aims, ends ended⟩

theorem Roused.mono (h : s.Roused v rung) (more : rung → rung') : s.Roused v rung' := h.imp_left more

/-- Turns are dealt that were queued before, or that timers which are due call for. -/
theorem nextTurn_eq (next : s.nextTurn? = some (turn, s')) :
    s'.task = s.task ∧ (∀ timer ∈ s'.timers, timer ∈ s.timers) ∧
      ∀ other ∈ turn :: s'.turns, other ∈ s.turns ∨
        ∃ timer ∈ s.timers, s.clock.lt timer.due = false ∧ other = .signal timer.task timer.wait := by
  unfold nextTurn? at next
  split at next
  next first rest round =>
    cases next
    refine ⟨rfl, fun _ => id, fun other member => .inl ?_⟩
    simpa [turns, round] using member
  next round =>
    simp only at next
    split at next
    next => cases next
    next first rest queued =>
      cases next
      refine ⟨rfl, fun timer member => (List.mem_filter.mp member).1, fun other member => ?_⟩
      have member : other ∈ turn :: rest := by simpa [turns] using member
      rw [← queued] at member
      rcases List.mem_append.mp member with member | reminds
      · exact .inl (List.mem_append_right _ member)
      · obtain ⟨timer, due, same⟩ := List.mem_map.mp reminds
        obtain ⟨listed, isDue⟩ := List.mem_filter.mp due
        exact .inr ⟨timer, listed, by simpa [Scheduler.isDue] using isDue, same.symm⟩

namespace Bides

theorem mono (h : s.Bides v rung) (more : rung → rung') : s.Bides v rung' := by
  obtain ⟨signal, mine, spared, roused⟩ := h.waits
  exact ⟨⟨signal, mine, spared, fun met => (roused met).mono more⟩, fun word => (h.word word).mono more,
    h.timer⟩

theorem status (h : s.Bides v rung) :
    ∃ signal, s.status? v.task = some (.waiting { id := v.id, aim := v.aim, signal }) := by
  obtain ⟨signal, mine, -, -⟩ := h.waits
  exact ⟨signal, status_of_task mine⟩

theorem afar (h : s.Bides v rung) {helper : TaskId} (aims : v.aim.helper? = some helper) :
    s.Afar v.task := by
  obtain ⟨signal, waits⟩ := h.status
  exact .helped waits aims

/-! ## How long a vigil lasts -/

/-- It lasts through whatever goes past the task. -/
theorem beside (h : s.Bides v rung) (beside : Beside s s' v.task) : s'.Bides v rung where
  waits := by
    obtain ⟨signal, mine, spared, roused⟩ := h.waits
    exact ⟨signal, beside.task.trans mine, spared, fun met => (roused met).ended beside.ended⟩
  word word := by
    rcases beside.words word with word | ⟨wait, helper, ending, waits, -, aims, ended⟩
    · exact (h.word word).ended beside.ended
    · obtain ⟨signal, waiting⟩ := h.status
      cases waits.symm.trans waiting
      exact .inr ⟨helper, ending, aims, ended⟩
  timer timer member mine := h.timer timer (beside.timers timer member mine) mine

/-- A timer that is due may rouse the task from now on. -/
theorem deal (h : s.Bides v rung) (next : s.nextTurn? = some (turn, s'))
    (late : ∀ due, v.due? = some due → s.clock.lt due = false → rung) :
    s'.Bides v rung ∧ (turn = .signal v.task v.id → s'.Roused v rung) := by
  obtain ⟨task, timers, turns⟩ := nextTurn_eq next
  have ends : Ends s s' := fun other ending ended => by simpa only [status?, task] using ended
  have word : .signal v.task v.id ∈ turn :: s'.turns → s'.Roused v rung := fun member => by
    rcases turns _ member with queued | ⟨timer, listed, isDue, same⟩
    · exact (h.word queued).ended ends
    · obtain ⟨mine, numbered⟩ := Turn.signal.inj same
      exact .inl (late timer.due (h.timer timer listed mine.symm numbered.symm) isDue)
  obtain ⟨signal, mine, spared, roused⟩ := h.waits
  refine ⟨⟨⟨signal, ?_, spared, fun met => (roused met).ended ends⟩,
      fun queued => ?_, fun timer member => ?_⟩,
    fun same => word (same ▸ List.mem_cons_self)⟩
  · rw [task]
    exact mine
  · exact word (List.mem_cons_of_mem _ queued)
  · exact h.timer timer (timers timer member)

/-- The word that comes to the task rouses it. -/
theorem takeSignal (h : s.Bides v rung) (roused : s.Roused v rung) :
    (s.takeTurn (.signal v.task v.id)).1.Bides v rung := by
  obtain ⟨signal, mine, spared, -⟩ := h.waits
  have waiting := status_of_task mine
  cases signal with
  | cancelled => exact absurd rfl spared
  | met =>
    have none : s.pendingWait? v.task = none := by
      simp only [pendingWait?, mine, Vigil.keeper, reduceCtorEq, ↓reduceIte]
    simp only [takeTurn, none]
    exact h
  | pending =>
    have pending := pendingWait?_eq_some_iff.mpr ⟨waiting, rfl⟩
    obtain ⟨task, ht, same⟩ := settle_eq waiting rfl .met
    cases mine.symm.trans ht
    simp only [takeTurn, pending, ↓reduceIte, same]
    have ends : Ends s ((s.setTask v.task (v.keeper .met)).push (.resume v.task)) :=
      fun other ending ended => by
        rw [status?_push, status?_setTask, if_neg]
        · exact ended
        · rintro rfl
          cases waiting.symm.trans ended
    have uncancelled : Signal.met ≠ .cancelled := by decide
    refine ⟨⟨.met, amend_self _ _ _, uncancelled, fun _ => roused.ended ends⟩, fun word => ?_, h.timer⟩
    rw [turns_push] at word
    refine (h.word ((List.mem_append.mp word).resolve_right ?_)).ended ends
    simp

/-- It lasts through every turn but the task's own. -/
theorem takeTurn (h : s.Bides v rung) (sound : s.Sound none trace) {helper : TaskId}
    (aims : v.aim.helper? = some helper) (foreign : turn ≠ .resume v.task)
    (word : turn = .signal v.task v.id → s.Roused v rung) : (s.takeTurn turn).1.Bides v rung := by
  by_cases mine : turn = .signal v.task v.id
  · rw [mine]
    exact h.takeSignal (word mine)
  · refine h.beside (beside_takeTurn sound (h.afar aims) foreign fun wait waits same => mine ?_)
    obtain ⟨signal, waiting⟩ := h.status
    cases waits.symm.trans waiting
    exact same

/-- Whose turn has come was roused. -/
theorem met (h : s.Bides v rung) (ready : s.Ready v.task) :
    s.task v.task = some (v.keeper .met) ∧ s.Roused v rung := by
  obtain ⟨signal, mine, spared, roused⟩ := h.waits
  have waiting := status_of_task mine
  rcases ready with queued | ⟨wait, waits, settled⟩
  · cases waiting.symm.trans queued
  · cases waiting.symm.trans waits
    cases signal with
    | pending => exact absurd rfl settled
    | cancelled => exact absurd rfl spared
    | met => exact ⟨mine, roused rfl⟩

end Bides

/-! ## How a vigil begins -/

/-- No word and no timer is for the number that the next wait gets. -/
theorem Sound.unalarmed {hand : Hand} (sound : s.Sound hand trace) (t : TaskId) : ¬ s.Alarm t s.waits :=
  fun alarm => Nat.lt_irrefl _ (sound.orderly.alarmNumbered alarm)

section Suspend

variable {role : Role κ} {status : Status} (mine : s.task v.task = some { role, status })
  (body : role = .body v.next) (numbered : v.id = s.waits)

include mine body numbered

/-- How a task waits that is not asked to end. -/
theorem suspend_keeper : s.suspend v.task v.aim =
    { s with waits := s.waits + 1 }.setTask v.task (v.keeper .pending) := by
  simp only [suspend, mine, Vigil.keeper, body, numbered, Bool.false_eq_true, ↓reduceIte]

/-- A vigil begins if no word is on its way to a wait of its number. -/
theorem bides_suspend (wordless : .signal v.task v.id ∉ s.turns)
    (timer : ∀ timer ∈ s.timers, timer.task = v.task → timer.wait = v.id → v.due? = some timer.due) :
    (s.suspend v.task v.aim).Bides v rung := by
  rw [suspend_keeper mine body numbered]
  exact ⟨⟨.pending, amend_self _ _ _, nofun, nofun⟩, fun word => absurd word wordless, timer⟩

end Suspend

/-- Who asks for the barrier within a limit of time waits for a new helper, or for the limit. -/
theorem bides_await {t : TaskId} (sound : s.Sound (some (t, none)) trace) {task : Task κ}
    {next : Except Failure PauseId → κ} (mine : s.task t = some task) (body : task.role = .body next)
    {limit : Value} {span : Binary64} (limited : s.limit = some limit) (inTime : limit.seconds = .ok span)
    (spared : (s.await t .barrier).1.status? t ≠ some (.waiting
      { id := s.waits, aim := .watch s.waits s.size limit, signal := .cancelled })) :
    let v : Vigil κ := {
      task := t, next, id := s.waits, aim := .watch s.waits s.size limit
      due? := some (s.clock.add span) }
    (s.await t .barrier).1.task t = some (v.keeper .pending) ∧ (s.await t .barrier).1.Bides v False := by
  intro v
  let helped := (s.spawn (.helper s.waits t)).1
  let timer : Timer := { due := s.clock.add span, task := t, wait := s.waits }
  let reminded : Scheduler κ := { helped with timers := timer.insert helped.timers }
  have same : s.await t .barrier = (reminded.suspend t (.watch s.waits s.size limit), none) := by
    simp only [await, limited, inTime]
    rfl
  have older : t ≠ s.size := Nat.ne_of_lt (sound.orderly.known (status_of_task mine))
  have still : reminded.task t = some task := (amend_of_ne older _ _).trans mine
  rw [same] at spared ⊢
  obtain ⟨role, status, asked⟩ := task
  cases asked with
  | true =>
    refine absurd ?_ spared
    simp only [suspend, still, ↓reduceIte, status?_push, status?_setTask]
    rfl
  | false =>
    have waits := suspend_keeper (v := v) still body rfl
    refine ⟨?_, bides_suspend (v := v) still body rfl (fun word => ?_) fun other member own same => ?_⟩
    · exact (congrArg (fun now : Scheduler κ => now.task t) waits).trans (amend_self _ _ _)
    · have queued : .signal t s.waits ∈ helped.turns := word
      simp only [helped, spawn, turns_push, List.mem_append, List.mem_singleton, reduceCtorEq, or_false]
        at queued
      exact sound.unalarmed t (.inl queued)
    · rcases Sound.mem_insert_timer member with rfl | member
      · rfl
      · exact absurd (.inr ⟨other, member, own, same⟩) (sound.unalarmed t)

/-! ## What the turn comes to -/

/-- Who waits for a helper asks for his key. -/
theorem asks_keeper {signal : Signal} (mine : s.task v.task = some (v.keeper signal)) {key : PauseId}
    (named : v.aim.key? = some key) : s.Asks none v.task v.aim :=
  ⟨helper_of_task mine, by simp [named], .inl ⟨_, status_of_task mine, rfl⟩⟩

/-- The helper is another task than the caller. -/
theorem helper_ne_keeper {signal : Signal} (mine : s.task v.task = some (v.keeper signal))
    (sound : s.Sound none trace) {key : PauseId} (named : v.aim.key? = some key) {helper : TaskId}
    (aims : v.aim.helper? = some helper) : helper ≠ v.task := by
  rintro rfl
  have helps := sound.keyed.caller (asks_keeper mine named) named aims
  rw [helper_of_task mine] at helps
  cases helps

section Turn

variable {key : PauseId} {helper : TaskId} {limit : Value} {why : Failure}
  {ending : Except Failure Unit} (mine : s.task v.task = some (v.keeper .met))

theorem status?_start_keeper (different : helper ≠ v.task) :
    (s.start v.task (v.keeper .met)).status? helper = s.status? helper := by
  rw [start, status?_setTask, if_neg different]

include mine

/-- The turn of a task that was roused. -/
theorem takeTurn_keeper : s.takeTurn (.resume v.task) =
    let went := (s.start v.task (v.keeper .met)).resumeWaiting v.task (.body v.next)
      { id := v.id, aim := v.aim, signal := .met } false
    (went.1, went.2.map fun handover => (v.task, handover)) := by
  simp only [Scheduler.takeTurn, mine, Vigil.keeper, reduceCtorEq, decide_false, Bool.or_self]

theorem deedsOfTurn_keeper : s.deedsOfTurn (.resume v.task) =
    deedsOfHandover (v.keeper .met) v.task ((s.takeTurn (.resume v.task)).2.map (·.2)) := by
  simp only [deedsOfTurn, mine]

/-- A caller whose helper has ended goes on as the helper has ended. -/
theorem watch_ended (sound : s.Sound none trace) (aims : v.aim = .watch key helper limit)
    (ended : s.status? helper = some (.finished ending)) :
    (∃ granted, (s.takeTurn (.resume v.task)).2 =
      some (v.task, { resume := v.next, answer := ending.map fun _ => key, granted })) ∧
      s.deedsOfTurn (.resume v.task) = [.verdict v.task key helper ending] := by
  have different := helper_ne_keeper mine sound (by rw [aims]; rfl) (by rw [aims]; rfl)
  have known := ending?_eq_some_iff.mpr ((status?_start_keeper different).trans ended)
  rw [deedsOfTurn_keeper mine, takeTurn_keeper mine]
  simp only [resumeWaiting, aims, Bool.false_eq_true, ↓reduceIte]
  split
  next got =>
    cases known.symm.trans got
    exact ⟨⟨_, rfl⟩, rfl⟩
  next failure lost =>
    cases known.symm.trans lost
    refine ⟨⟨_, rfl⟩, ?_⟩
    simp only [goOn, Option.map_some, deedsOfHandover, Task.deedsOfFailure, Vigil.keeper, aims]
    rfl
  next going => cases known.symm.trans going

/-- A caller whose helper has not ended calls it off, and then waits for its end alone. -/
theorem watch_late (sound : s.Sound none trace) (aims : v.aim = .watch key helper limit)
    (going : s.Going helper) : s.deedsOfTurn (.resume v.task) = [] ∧
    (s.takeTurn (.resume v.task)).1.Bides
      { v with id := s.waits, aim := .leave key helper (.timedOut limit), due? := none } False := by
  have different := helper_ne_keeper mine sound (by rw [aims]; rfl) (by rw [aims]; rfl)
  let now : Scheduler κ := { s.start v.task (v.keeper .met) with
    timers := s.timers.filter fun timer => timer.wait ≠ v.id }
  have still : now.Going helper := fun ending ended =>
    going ending ((status?_start_keeper different).symm.trans ended)
  have unended : now.ending? helper = none := by
    cases ended : now.ending? helper with
    | none => rfl
    | some ending => exact absurd (ending?_eq_some_iff.mp ended) (still ending)
  have late : s.takeTurn (.resume v.task) =
      ((now.cancel helper).suspend v.task (.leave key helper (.timedOut limit)), none) := by
    rw [takeTurn_keeper mine]
    simp only [resumeWaiting, aims, Bool.false_eq_true, ↓reduceIte]
    split
    next got => cases unended.symm.trans got
    next lost => cases unended.symm.trans lost
    next =>
      have left : now.abandon v.task key helper (.timedOut limit) =
          (now.cancel helper).suspend v.task (.leave key helper (.timedOut limit)) := by
        simp only [abandon, unended]
      exact congrArg (fun left : Scheduler κ => (left, none)) left
  have cancelled : Beside now (now.cancel helper) v.task := beside_cancel (.inl (Ne.symm different))
  have running : now.task v.task = some { v.keeper .met with status := .running, cancelAsked := false } :=
    task_start s v.task (v.keeper .met)
  refine ⟨by rw [deedsOfTurn_keeper mine, late]; rfl, ?_⟩
  rw [late]
  refine bides_suspend (v := { v with id := s.waits, aim := _, due? := none })
    (cancelled.task.trans running) rfl (waits_cancel (s := now) (t := helper)).symm (fun word => ?_)
    fun timer member own same => ?_
  · rcases cancelled.words word with word | ⟨wait, _, _, waits, -⟩
    · exact sound.unalarmed v.task (.inl word)
    · cases (status_of_task running).symm.trans waits
  · have member := (List.mem_filter.mp (cancelled.timers timer member own)).1
    exact absurd (.inr ⟨timer, member, own, same⟩) (sound.unalarmed v.task)

/-- A caller that has called its helper off fails once the helper has ended. -/
theorem leave_ended (sound : s.Sound none trace) (aims : v.aim = .leave key helper why)
    (ended : s.status? helper = some (.finished ending)) :
    (s.takeTurn (.resume v.task)).2 = some (v.task, { resume := v.next, answer := .error why }) ∧
      s.deedsOfTurn (.resume v.task) = [.quit v.task key helper why false] := by
  have named : v.aim.key? = some key := by rw [aims]; rfl
  have follows : v.aim.helper? = some helper := by rw [aims]; rfl
  have different := helper_ne_keeper mine sound named follows
  have known := ending?_eq_some_iff.mpr ((status?_start_keeper different).trans ended)
  have went : (s.takeTurn (.resume v.task)).2 =
      some (v.task, { resume := v.next, answer := .error why }) := by
    rw [takeTurn_keeper mine]
    simp only [resumeWaiting, aims, Bool.false_eq_true, ↓reduceIte]
    split
    next got =>
      cases known.symm.trans got
      have held := sound.keyed.kept (asks_keeper mine named) named follows ended
      split
      next => rfl
      next failure locked =>
        cases (unlock_of_held (s := { s.start v.task (v.keeper .met) with timers := _ }) held).symm.trans
          locked
    next => rfl
  refine ⟨went, ?_⟩
  rw [deedsOfTurn_keeper mine, went]
  simp only [Option.map_some, deedsOfHandover, Task.deedsOfFailure, Vigil.keeper, aims]
  rfl

end Turn

/-! ## The first turn of a helper -/

/-- Whether the barrier can be had depends on nothing but its holder and those in line. -/
theorem isFree_congr (holder : s'.holder = s.holder) (line : s'.line = s.line)
    (tasks : ∀ t ∈ s.line, s'.task t = s.task t) : s'.isFree = s.isFree := by
  unfold isFree
  rw [holder, line]
  congr 1
  rw [Bool.eq_iff_iff, List.all_eq_true, List.all_eq_true]
  exact forall₂_congr fun t member => by rw [tasks t member]

/-- A helper whose first turn comes while the barrier can be had gets it, unless it was called off; in
either case it ends. -/
theorem finished_of_isFree {trace : List Deed} (sound : s.Sound none trace) {helper caller : TaskId}
    {key : PauseId} (helps : s.helper? helper = some (key, caller))
    (queued : s.status? helper = some .queued) (free : s.isFree) :
    ∃ ending, (s.takeTurn (.resume helper)).1.status? helper = some (.finished ending) ∧
      (s.asked helper = false → ending = .ok ()) := by
  obtain ⟨task, ht, status⟩ := task_of_status queued
  have role : task.role = .helper key caller := by
    rw [helper_of_task ht] at helps
    cases is : task.role with
    | body => simp [is, Role.helper?] at helps
    | helper own other =>
      rw [is] at helps
      cases helps
      rfl
  have outside : helper ∉ s.line :=
    sound.orderly.notMem_line queued fun wait waits => by cases waits
  have free : (s.start helper task).isFree := by
    have same : (s.start helper task).isFree = s.isFree := isFree_congr rfl rfl fun t member =>
      amend_of_ne (by rintro rfl; exact outside member) _ _
    exact same.trans free
  have went : (s.takeTurn (.resume helper)).1 =
      if task.cancelAsked then (s.start helper task).finish helper (.error .cancelled)
      else ((s.start helper task).take key).finish helper (.ok ()) := by
    simp only [takeTurn, ht, status, resumeQueued, role, free, ↓reduceIte]
    split <;> rfl
  have ends (now : Scheduler κ) (mine : now.task helper = (s.start helper task).task helper)
      (how : Except Failure Unit) : (now.finish helper how).status? helper = some (.finished how) := by
    have started := mine.trans (task_start s helper task)
    have same : endingOf { task with status := .running, cancelAsked := false } how = how := by
      cases how <;> rfl
    rcases finish_helper started (congrArg Role.helper? role) how with told | ⟨wait, -, -, told⟩
    · rw [told, same, status?_setTask, if_pos rfl]
    · rw [told, same, status?_push, status?_setTask, if_pos rfl]
  rw [went, asked_of_task ht]
  split
  next asked => exact ⟨_, ends _ rfl _, fun calm => by cases asked.symm.trans calm⟩
  next => exact ⟨_, ends ((s.start helper task).take key) rfl _, fun _ => rfl⟩

end Scheduler
end ActionFlow
