import ActionFlow.Proofs.Scheduler.Alike

/-!
# Tasks that share a scheduler

Some of the tasks are looked at, and the others are not. Two schedulers are the same for those tasks if
they stand alike in both, with the same turns and timers ahead of them; in which order turns are queued
does not count, nor how many pauses there have been. As long as nobody has anything to do with the barrier,
what one of those tasks does, or what is done from outside, is done alike in both schedulers, and what
another task does makes no difference.

## Main results

* `SameFor`: two schedulers are the same for some of their tasks.
* `SameFor.await`, `SameFor.takeTurn`, `SameFor.setGate`: what is done alike.
* `sameFor_await`, `sameFor_takeTurn`, `sameFor_finish`: what makes no difference.
-/

namespace ActionFlow

variable {κ : Type}

/-- The task that a turn is for. -/
def Turn.task : Turn → TaskId
  | resume t | signal t _ => t

theorem filter_filter_comm {α : Type} (p q : α → Bool) (items : List α) :
    (items.filter p).filter q = (items.filter q).filter p := by
  simp only [List.filter_filter, Bool.and_comm]

theorem Timer.perm_insert (timer : Timer) (timers : List Timer) :
    (timer.insert timers).Perm (timer :: timers) := by
  induction timers with
  | nil => exact .refl _
  | cons first rest ih =>
    unfold Timer.insert
    split
    · exact (ih.cons first).trans (.swap ..)
    · exact .refl _

/-- Whether a task has nothing to do with the barrier: it has a job to do, and waits for a gate or a timer
if it waits. -/
structure Task.Unlocked (task : Task κ) : Prop where
  body : ∃ resume, task.role = .body resume
  aims : ∀ wait, task.status = .waiting wait → wait.aim.key? = none

namespace Scheduler

variable {s s' : Scheduler κ} {mine : TaskId → Bool} {t : TaskId} {task : Task κ}

/-- A timer rings: word that it is due is queued for its wait. -/
def ring (s : Scheduler κ) (timer : Timer) : Scheduler κ :=
  { s with timers := s.timers.erase timer }.push (.signal timer.task timer.wait)

/-- Two schedulers are the same for some of their tasks. -/
structure SameFor (s : Scheduler κ) (mine : TaskId → Bool) (s' : Scheduler κ) : Prop where
  task : ∀ t, mine t → s'.task t = s.task t
  size : s'.size = s.size
  clock : s'.clock = s.clock
  opened : s'.opened = s.opened
  turns : (s'.turns.filter (mine ·.task)).Perm (s.turns.filter (mine ·.task))
  timers : (s'.timers.filter (mine ·.task)).Perm (s.timers.filter (mine ·.task))
  atGates : s'.atGates.filter mine = s.atGates.filter mine

namespace SameFor

theorem refl (s : Scheduler κ) (mine : TaskId → Bool) : s.SameFor mine s :=
  ⟨fun _ _ => rfl, rfl, rfl, rfl, .refl _, .refl _, rfl⟩

variable (h : s.SameFor mine s')

include h

theorem symm : s'.SameFor mine s :=
  ⟨fun t own => (h.task t own).symm, h.size.symm, h.clock.symm, h.opened.symm, h.turns.symm, h.timers.symm,
    h.atGates.symm⟩

theorem trans {s'' : Scheduler κ} (h' : s'.SameFor mine s'') : s.SameFor mine s'' :=
  ⟨fun t own => (h'.task t own).trans (h.task t own), h'.size.trans h.size, h'.clock.trans h.clock,
    h'.opened.trans h.opened, h'.turns.trans h.turns, h'.timers.trans h.timers, h'.atGates.trans h.atGates⟩

/-! ## What is done alike -/

theorem setTask {task' : Task κ} (same : mine t → task' = task) :
    (s.setTask t task).SameFor mine (s'.setTask t task') := by
  refine { h with task := fun other own => ?_ }
  simp only [Scheduler.setTask, amend]
  split
  next here => rw [same (here ▸ own)]
  next => exact h.task other own

theorem push (turn : Turn) : (s.push turn).SameFor mine (s'.push turn) := by
  refine { h with turns := ?_ }
  rw [turns_push, turns_push, List.filter_append, List.filter_append]
  exact h.turns.append_right _

theorem tick (waits waits' : Nat) : { s with waits }.SameFor mine { s' with waits := waits' } := { h with }

theorem remind (timer : Timer) :
    { s with timers := timer.insert s.timers }.SameFor mine { s' with timers := timer.insert s'.timers } := by
  refine { h with timers := ?_ }
  have inserted (timers : List Timer) : ((timer.insert timers).filter (mine ·.task)).Perm
      ((timer :: timers).filter (mine ·.task)) := (Timer.perm_insert timer timers).filter _
  refine ((inserted _).trans ?_).trans (inserted _).symm
  simp only [List.filter_cons]
  split
  · exact h.timers.cons _
  · exact h.timers

theorem forget (id : PauseId) :
    { s with timers := s.timers.filter fun timer => timer.wait ≠ id }.SameFor mine
      { s' with timers := s'.timers.filter fun timer => timer.wait ≠ id } := by
  refine { h with timers := ?_ }
  simp only [filter_filter_comm (fun timer : Timer => timer.wait ≠ id)]
  exact h.timers.filter _

theorem join (t : TaskId) :
    { s with atGates := s.atGates ++ [t] }.SameFor mine { s' with atGates := s'.atGates ++ [t] } := by
  refine { h with atGates := ?_ }
  simp only [List.filter_append, h.atGates]

theorem leave (t : TaskId) :
    { s with atGates := s.atGates.erase t }.SameFor mine { s' with atGates := s'.atGates.erase t } := by
  refine { h with atGates := ?_ }
  simp only [← List.erase_filter, h.atGates]

theorem ring (timer : Timer) : (s.ring timer).SameFor mine (s'.ring timer) := by
  have rung : { s with timers := s.timers.erase timer }.SameFor mine
      { s' with timers := s'.timers.erase timer } := by
    refine { h with timers := ?_ }
    simp only [← List.erase_filter]
    exact h.timers.erase timer
  exact rung.push _

theorem spawn (role : Role κ) : (s.spawn role).1.SameFor mine (s'.spawn role).1 := by
  simp only [Scheduler.spawn, h.size]
  refine push (setTask ?_ fun _ => rfl) _
  exact { h with size := rfl }

end SameFor

/-! ## What makes no difference -/

section Others

variable (s)

theorem sameFor_setTask (others : ¬ mine t) (task : Task κ) : s.SameFor mine (s.setTask t task) := by
  refine { SameFor.refl s mine with task := fun other own => amend_of_ne ?_ _ _ }
  rintro rfl
  exact others own

theorem sameFor_push {turn : Turn} (others : ¬ mine turn.task) : s.SameFor mine (s.push turn) := by
  refine { SameFor.refl s mine with turns := ?_ }
  rw [turns_push, List.filter_append, List.filter_cons, if_neg others, List.filter_nil, List.append_nil]

theorem sameFor_tick (waits : Nat) : s.SameFor mine { s with waits } := { SameFor.refl s mine with }

theorem sameFor_remind {timer : Timer} (others : ¬ mine timer.task) :
    s.SameFor mine { s with timers := timer.insert s.timers } := by
  have inserted := (Timer.perm_insert timer s.timers).filter (mine ·.task)
  rw [List.filter_cons, if_neg others] at inserted
  exact { SameFor.refl s mine with timers := inserted }

theorem sameFor_forget {id : PauseId} (others : ∀ timer ∈ s.timers, mine timer.task → timer.wait ≠ id) :
    s.SameFor mine { s with timers := s.timers.filter fun timer => timer.wait ≠ id } := by
  refine { SameFor.refl s mine with timers := ?_ }
  rw [List.filter_filter]
  refine .of_eq (List.filter_congr fun timer member => ?_)
  cases own : mine timer.task with
  | false => rfl
  | true => simpa using others timer member own

theorem sameFor_join (others : ¬ mine t) : s.SameFor mine { s with atGates := s.atGates ++ [t] } := by
  refine { SameFor.refl s mine with atGates := ?_ }
  rw [List.filter_append, List.filter_cons_of_neg others, List.filter_nil, List.append_nil]

theorem sameFor_leave (others : ¬ mine t) : s.SameFor mine { s with atGates := s.atGates.erase t } := by
  refine { SameFor.refl s mine with atGates := ?_ }
  rw [← List.erase_filter, List.erase_of_not_mem fun member => others (List.mem_filter.mp member).2]

theorem sameFor_ring {timer : Timer} (others : ¬ mine timer.task) : s.SameFor mine (s.ring timer) := by
  have rung : s.SameFor mine { s with timers := s.timers.erase timer } := by
    have absent : timer ∉ s.timers.filter (mine ·.task) := fun member =>
      others (List.mem_filter.mp member).2
    refine { SameFor.refl s mine with timers := ?_ }
    rw [← List.erase_filter, List.erase_of_not_mem absent]
  exact rung.trans (sameFor_push _ others)

end Others

/-! ## Waking and cancelling -/

theorem sameFor_settle (s : Scheduler κ) (others : ¬ mine t) (signal : Signal) :
    s.SameFor mine (s.settle t signal) := by
  have same := SameFor.refl s mine
  unfold settle
  split
  · split
    · split
      · exact (s.sameFor_setTask others _).trans (sameFor_push _ others)
      · exact same
    · exact same
  · exact same

theorem waits_settle (s : Scheduler κ) (t : TaskId) (signal : Signal) :
    (s.settle t signal).waits = s.waits := by
  unfold settle
  split
  · split
    · split <;> rfl
    · rfl
  · rfl

theorem waits_setGate (s : Scheduler κ) (gate : String) (opened : Bool) :
    (s.setGate gate opened).waits = s.waits := by
  have settled (waiting : List TaskId) (now : Scheduler κ) :
      (waiting.foldl (fun now t => now.settle t .met) now).waits = now.waits := by
    induction waiting generalizing now with
    | nil => rfl
    | cons first rest ih => exact (ih _).trans (waits_settle now first .met)
  unfold setGate
  simp only
  split
  · exact settled _ _
  · rfl

theorem sameFor_cancel (s : Scheduler κ) (others : ¬ mine t) : s.SameFor mine (s.cancel t) := by
  rcases cancel_cases s t with ⟨same, -⟩ | ⟨wait, -, -, same⟩ | ⟨task, -, same⟩
  · rw [same]
    exact SameFor.refl s mine
  · rw [same]
    exact s.sameFor_settle others _
  · rw [same]
    exact s.sameFor_setTask others _

namespace SameFor

/-- What makes no difference in either of two schedulers that are the same leaves them the same. -/
theorem apart {u u' : Scheduler κ} (h : s.SameFor mine s') (first : s.SameFor mine u)
    (second : s'.SameFor mine u') : u.SameFor mine u' :=
  (first.symm.trans h).trans second

theorem settle (h : s.SameFor mine s') (t : TaskId) (signal : Signal) :
    (s.settle t signal).SameFor mine (s'.settle t signal) := by
  by_cases own : mine t
  · simp only [Scheduler.settle, h.task t own]
    split
    · split
      · split
        · exact (h.setTask fun _ => rfl).push _
        · exact h
      · exact h
    · exact h
  · exact h.apart (s.sameFor_settle own signal) (s'.sameFor_settle own signal)

theorem cancel (h : s.SameFor mine s') (t : TaskId) : (s.cancel t).SameFor mine (s'.cancel t) := by
  by_cases own : mine t
  · simp only [Scheduler.cancel, h.task t own]
    split
    · split
      · exact h
      · split
        · exact h.settle t _
        · exact h.setTask fun _ => rfl
      · exact h.setTask fun _ => rfl
      · exact h.setTask fun _ => rfl
    · exact h
  · exact h.apart (s.sameFor_cancel own) (s'.sameFor_cancel own)

/-- Of those that are woken, the others make no difference. -/
theorem settleAll_filter (h : s.SameFor mine s') (waiting : List TaskId) :
    (waiting.foldl (fun now t => now.settle t .met) s).SameFor mine
      ((waiting.filter mine).foldl (fun now t => now.settle t .met) s') := by
  induction waiting generalizing s s' with
  | nil => exact h
  | cons first rest ih =>
    rw [List.foldl_cons, List.filter_cons]
    split
    · exact ih (h.settle first .met)
    next others => exact ih ((s.sameFor_settle others .met).symm.trans h)

/-- Those of a gate's visitors that are looked at are the same. -/
theorem atGate (h : s.SameFor mine s') {waitsHere waitsHere' : TaskId → Bool}
    (same : ∀ t, mine t → waitsHere' t = waitsHere t) :
    (s'.atGates.filter waitsHere').filter mine = (s.atGates.filter waitsHere).filter mine := by
  rw [filter_filter_comm, h.atGates, filter_filter_comm waitsHere]
  exact List.filter_congr fun t member => same t (List.mem_filter.mp member).2

theorem setGate (h : s.SameFor mine s') (gate : String) (opened : Bool) :
    (s.setGate gate opened).SameFor mine (s'.setGate gate opened) := by
  have changed : { s with opened := amend s.opened gate opened }.SameFor mine
      { s' with opened := amend s'.opened gate opened } := by
    refine { h with opened := ?_ }
    simp only [h.opened]
  unfold Scheduler.setGate
  simp only [h.opened] at changed ⊢
  split
  · -- each wakes those that wait for this gate; which of them are looked at is the same in both
    refine (changed.settleAll_filter _).trans (SameFor.symm ?_)
    rw [← h.atGate fun t own => ?_]
    · exact (SameFor.refl _ mine).settleAll_filter _
    · simp only [pendingWait?, h.task t own]
  · exact changed

end SameFor

/-! ## Pauses -/

section Others

variable (s) (others : ¬ mine t)

include others

theorem sameFor_setResume (resume : Except Failure PauseId → κ) :
    s.SameFor mine (s.setResume t resume) := by
  unfold setResume
  split
  · exact s.sameFor_setTask others _
  · exact SameFor.refl s mine

theorem sameFor_suspend (aim : Aim) : s.SameFor mine (s.suspend t aim) := by
  have ticked : s.SameFor mine { s with waits := s.waits + 1 } := s.sameFor_tick _
  unfold suspend
  split
  · simp only
    split
    · exact (ticked.trans (sameFor_setTask _ others _)).trans (sameFor_push _ others)
    · exact ticked.trans (sameFor_setTask _ others _)
  · exact SameFor.refl s mine

theorem sameFor_yieldTurn : s.SameFor mine (s.yieldTurn t) := by
  unfold yieldTurn
  split
  · exact (s.sameFor_setTask others _).trans (sameFor_push _ others)
  · exact SameFor.refl s mine

/-- **A pause of another task** makes no difference. -/
theorem sameFor_await {pause : Pause} (elsewhere : pause ≠ .barrier) :
    s.SameFor mine (s.await t pause).1 := by
  cases pause with
  | barrier => exact absurd rfl elsewhere
  | gate name =>
    simp only [await]
    split
    · exact s.sameFor_tick _
    · exact (s.sameFor_join others).trans (sameFor_suspend _ others _)
  | sleep span =>
    simp only [await]
    split
    · exact s.sameFor_yieldTurn others
    · have reminded (due : Binary64) (wait : PauseId) :
          s.SameFor mine { s with timers := (⟨due, t, wait⟩ : Timer).insert s.timers } :=
        s.sameFor_remind others
      exact (reminded _ _).trans (sameFor_suspend _ others _)

end Others

namespace SameFor

variable (h : s.SameFor mine s') (own : mine t)

include h own

theorem setResume (resume : Except Failure PauseId → κ) :
    (s.setResume t resume).SameFor mine (s'.setResume t resume) := by
  simp only [Scheduler.setResume, h.task t own]
  split
  · exact h.setTask fun _ => rfl
  · exact h

variable (waits : s'.waits = s.waits)

include waits

theorem suspend (aim : Aim) :
    (s.suspend t aim).SameFor mine (s'.suspend t aim) ∧
      (s'.suspend t aim).waits = (s.suspend t aim).waits := by
  simp only [Scheduler.suspend, h.task t own, waits]
  split
  · split
    · exact ⟨((h.tick _ _).setTask fun _ => rfl).push _, rfl⟩
    · exact ⟨(h.tick _ _).setTask fun _ => rfl, rfl⟩
  · exact ⟨h, waits⟩

theorem yieldTurn :
    (s.yieldTurn t).SameFor mine (s'.yieldTurn t) ∧ (s'.yieldTurn t).waits = (s.yieldTurn t).waits := by
  simp only [Scheduler.yieldTurn, h.task t own]
  split
  · exact ⟨(h.setTask fun _ => rfl).push _, waits⟩
  · exact ⟨h, waits⟩

/-- **A pause** of a task that is looked at is the same in both, if it has the same number. -/
theorem await {pause : Pause} (elsewhere : pause ≠ .barrier) :
    (s'.await t pause).2 = (s.await t pause).2 ∧ (s.await t pause).1.SameFor mine (s'.await t pause).1 ∧
      (s'.await t pause).1.waits = (s.await t pause).1.waits := by
  cases pause with
  | barrier => exact absurd rfl elsewhere
  | gate name =>
    have same := congrFun h.opened name
    cases isOpen : s.opened name with
    | true =>
      have isOpen' : s'.opened name = true := same.trans isOpen
      simp only [Scheduler.await, isOpen, isOpen', ↓reduceIte, waits]
      exact ⟨trivial, h.tick _ _, trivial⟩
    | false =>
      have isOpen' : s'.opened name = false := same.trans isOpen
      simp only [Scheduler.await, isOpen, isOpen', Bool.false_eq_true, ↓reduceIte]
      exact ⟨trivial, (h.join t).suspend own waits _⟩
  | sleep span =>
    have timer : (⟨s'.clock.add span, t, s'.waits⟩ : Timer) = ⟨s.clock.add span, t, s.waits⟩ := by
      rw [h.clock, waits]
    simp only [Scheduler.await]
    split
    · exact ⟨rfl, h.yieldTurn own waits⟩
    · simp only [timer]
      exact ⟨trivial, (h.remind _).suspend own waits _⟩

end SameFor

/-! ## Ends and turns -/

theorem finish_eq (ht : s.task t = some task) (unlocked : task.Unlocked) (ending : Except Failure Unit) :
    s.finish t ending =
      s.setTask t { task with status := .finished (endingOf task ending), cancelAsked := false } := by
  obtain ⟨resume, body⟩ := unlocked.body
  exact finish_body ht (by rw [body]; rfl) ending

theorem waits_finish (s : Scheduler κ) (unlocked : ∀ task, s.task t = some task → task.Unlocked)
    (ending : Except Failure Unit) : (s.finish t ending).waits = s.waits := by
  cases ht : s.task t with
  | none => simp only [finish, ht]
  | some task =>
    rw [finish_eq ht (unlocked task ht)]
    rfl

theorem sameFor_finish (s : Scheduler κ) (others : ¬ mine t)
    (unlocked : ∀ task, s.task t = some task → task.Unlocked) (ending : Except Failure Unit) :
    s.SameFor mine (s.finish t ending) := by
  cases ht : s.task t with
  | none =>
    simp only [finish, ht]
    exact SameFor.refl s mine
  | some task =>
    rw [finish_eq ht (unlocked task ht)]
    exact s.sameFor_setTask others _

theorem SameFor.finish (h : s.SameFor mine s') (own : mine t)
    (unlocked : ∀ task, s.task t = some task → task.Unlocked) (ending : Except Failure Unit) :
    (s.finish t ending).SameFor mine (s'.finish t ending) := by
  cases ht : s.task t with
  | none =>
    simp only [Scheduler.finish, h.task t own, ht]
    exact h
  | some task =>
    rw [finish_eq ht (unlocked task ht), finish_eq ((h.task t own).trans ht) (unlocked task ht)]
    exact h.setTask fun _ => rfl

/-- A task waits no more: the timer for its wait is forgotten, and it leaves the gate. -/
def leaveWait (s : Scheduler κ) (t : TaskId) (wait : Wait) : Scheduler κ :=
  let forgot := { s with timers := s.timers.filter fun timer => timer.wait ≠ wait.id }
  match wait.aim with
  | .gate _ => { forgot with atGates := forgot.atGates.erase t }
  | _ => forgot

theorem waits_leaveWait (s : Scheduler κ) (t : TaskId) (wait : Wait) :
    (s.leaveWait t wait).waits = s.waits := by
  unfold leaveWait
  split <;> rfl

/-- The first turn of a round is dealt out to another task. -/
theorem sameFor_deal (s : Scheduler κ) {turn : Turn} (others : ¬ mine turn.task) {rest : List Turn}
    (first : s.round = turn :: rest) : s.SameFor mine { s with round := rest } := by
  refine { SameFor.refl s mine with turns := ?_ }
  simp only [turns, first, List.cons_append, List.filter_cons, if_neg others]
  exact .refl _

/-- The first turn of a round is dealt out to a task that is looked at. Wherever that turn is queued in the
other scheduler, it may be dealt out there. -/
theorem SameFor.deal (h : s.SameFor mine s') {turn : Turn} (own : mine turn.task) {rest : List Turn}
    (first : s.round = turn :: rest) :
    turn ∈ s'.turns ∧
      { s with round := rest }.SameFor mine { s' with round := s'.turns.erase turn, queue := [] } := by
  have ahead : s.turns.filter (mine ·.task) = turn :: (rest ++ s.queue).filter (mine ·.task) := by
    simp only [Scheduler.turns, first, List.cons_append, List.filter_cons, if_pos own]
  have same := h.turns
  rw [ahead] at same
  have queued : turn ∈ s'.turns := (List.mem_filter.mp (same.mem_iff.mpr List.mem_cons_self)).1
  refine ⟨queued, { h with turns := ?_ }⟩
  have taken := (List.perm_cons_erase queued).filter (mine ·.task)
  rw [List.filter_cons, if_pos own] at taken
  simp only [Scheduler.turns, List.append_nil]
  exact (taken.symm.trans same).cons_inv

section Turns

variable {resume : Except Failure PauseId → κ} (ht : s.task t = some task)

include ht

theorem takeTurn_queued (role : task.role = .body resume) (status : task.status = .queued) :
    s.takeTurn (.resume t) =
      ({ s.start t task with waits := if task.cancelAsked then s.waits else s.waits + 1 },
        some (t, { resume, answer := if task.cancelAsked then .error .cancelled else .ok s.waits })) := by
  simp only [takeTurn, ht, status, role]
  cases task.cancelAsked <;> rfl

theorem takeTurn_waiting (role : task.role = .body resume) {wait : Wait}
    (status : task.status = .waiting wait) (aims : wait.aim.key? = none) :
    s.takeTurn (.resume t) = ((s.start t task).leaveWait t wait,
      some (t, { resume, answer := if task.thrown then .error .cancelled else .ok wait.id })) := by
  simp only [takeTurn, ht, status, role, Task.thrown, leaveWait, resumeWaiting]
  cases aim : wait.aim with
  | gate | time => rfl
  | line | watch | leave =>
    rw [aim] at aims
    cases aims

theorem takeTurn_idle (idle : task.status = .running ∨ ∃ ending, task.status = .finished ending) :
    s.takeTurn (.resume t) = (s, none) := by
  rcases idle with status | ⟨ending, status⟩ <;> simp only [takeTurn, ht, status, Option.map_none]

end Turns

theorem SameFor.leaveWait (h : s.SameFor mine s') (t : TaskId) (wait : Wait) :
    (s.leaveWait t wait).SameFor mine (s'.leaveWait t wait) := by
  unfold Scheduler.leaveWait
  cases wait.aim with
  | gate => exact (h.forget wait.id).leave t
  | time | line | watch | leave => exact h.forget wait.id

theorem sameFor_leaveWait (s : Scheduler κ) (others : ¬ mine t) {wait : Wait}
    (foreign : ∀ timer ∈ s.timers, mine timer.task → timer.wait ≠ wait.id) :
    s.SameFor mine (s.leaveWait t wait) := by
  have forgot := s.sameFor_forget foreign
  unfold leaveWait
  cases wait.aim with
  | gate => exact forgot.trans (sameFor_leave _ others)
  | time | line | watch | leave => exact forgot

/-- **A turn of another task** makes no difference, as long as the timers for its wait are its own. -/
theorem sameFor_takeTurn (s : Scheduler κ) {turn : Turn} (others : ¬ mine turn.task)
    (unlocked : ∀ task, s.task turn.task = some task → task.Unlocked)
    (foreign : ∀ wait, s.status? turn.task = some (.waiting wait) →
      ∀ timer ∈ s.timers, mine timer.task → timer.wait ≠ wait.id) :
    s.SameFor mine (s.takeTurn turn).1 := by
  cases turn with
  | signal t id =>
    simp only [takeTurn]
    split
    · simp only
      split
      · exact s.sameFor_settle others _
      · exact SameFor.refl s mine
    · exact SameFor.refl s mine
  | resume t =>
    cases ht : s.task t with
    | none =>
      simp only [takeTurn, ht]
      exact SameFor.refl s mine
    | some task =>
      obtain ⟨⟨resume, role⟩, aims⟩ := unlocked task ht
      have started := s.sameFor_setTask others { task with status := .running, cancelAsked := false }
      cases status : task.status with
      | queued =>
        rw [takeTurn_queued ht role status]
        exact started.trans (sameFor_tick _ _)
      | waiting wait =>
        rw [takeTurn_waiting ht role status (aims wait status)]
        refine started.trans (sameFor_leaveWait _ others (foreign wait ?_))
        rw [← status]
        exact status_of_task ht
      | running =>
        rw [takeTurn_idle ht (.inl status)]
        exact SameFor.refl s mine
      | finished ending =>
        rw [takeTurn_idle ht (.inr ⟨ending, status⟩)]
        exact SameFor.refl s mine

/-- **A turn of a task that is looked at** is the same in both: the same job goes on. -/
theorem SameFor.takeTurn (h : s.SameFor mine s') (waits : s'.waits = s.waits) {turn : Turn}
    (own : mine turn.task) (unlocked : ∀ task, s.task turn.task = some task → task.Unlocked) :
    (s'.takeTurn turn).2 = (s.takeTurn turn).2 ∧ (s.takeTurn turn).1.SameFor mine (s'.takeTurn turn).1 ∧
      (s'.takeTurn turn).1.waits = (s.takeTurn turn).1.waits := by
  cases turn with
  | signal t id =>
    have pending : s'.pendingWait? t = s.pendingWait? t := by
      simp only [pendingWait?, h.task t own]
    simp only [Scheduler.takeTurn, pending]
    split
    · simp only
      split
      · exact ⟨trivial, h.settle t _, by rw [waits_settle, waits_settle, waits]⟩
      · exact ⟨trivial, h, waits⟩
    · exact ⟨rfl, h, waits⟩
  | resume t =>
    have same := h.task t own
    cases ht : s.task t with
    | none =>
      simp only [Scheduler.takeTurn, same, ht]
      exact ⟨trivial, h, waits⟩
    | some task =>
      rw [ht] at same
      obtain ⟨⟨resume, role⟩, aims⟩ := unlocked task ht
      have started : (s.start t task).SameFor mine (s'.start t task) := h.setTask fun _ => rfl
      cases status : task.status with
      | queued =>
        rw [takeTurn_queued ht role status, takeTurn_queued same role status]
        simp only [waits]
        exact ⟨trivial, started.tick _ _, trivial⟩
      | waiting wait =>
        rw [takeTurn_waiting ht role status (aims wait status),
          takeTurn_waiting same role status (aims wait status)]
        refine ⟨rfl, started.leaveWait t wait, ?_⟩
        rw [waits_leaveWait, waits_leaveWait]
        exact waits
      | running =>
        rw [takeTurn_idle ht (.inl status), takeTurn_idle same (.inl status)]
        exact ⟨rfl, h, waits⟩
      | finished ending =>
        rw [takeTurn_idle ht (.inr ⟨ending, status⟩), takeTurn_idle same (.inr ⟨ending, status⟩)]
        exact ⟨rfl, h, waits⟩

end Scheduler
end ActionFlow
