import ActionFlow.Scheduler.Turn

/-!
# How tasks stand

The scheduler changes one task at a time, and what its laws are about is not the task as a whole but a
few things that can be asked of it: its status, for whom it stands in line if it is a helper, and
whether it was asked to end. Here is how every change of the scheduler shows in the answers, so that
nothing later looks inside a task.

## Main results

* `Moves`: how the scheduler may go on with one task, leaving the others alone.
* `settle_eq`, `suspend_eq`, `cancel_cases`, `finish_body`, `finish_helper`: what the scheduler's changes
  of a task come to, given its status.
-/

namespace ActionFlow

/-- The key that a helper asks for, and the caller on whose behalf it does. -/
def Role.helper? {κ : Type} : Role κ → Option (PauseId × TaskId)
  | body _ => none
  | helper key caller => some (key, caller)

namespace Aim

/-- The key that is aimed at. -/
def key? : Aim → Option PauseId
  | line key | watch key _ _ | leave key _ _ => some key
  | gate _ | time => none

/-- The helper that is watched, or that was called off. -/
def helper? : Aim → Option TaskId
  | watch _ helper _ | leave _ helper _ => some helper
  | gate _ | time | line _ => none

theorem isEndOf_iff {helper : TaskId} {aim : Aim} :
    aim.isEndOf helper ↔ aim.helper? = some helper := by
  cases aim <;> simp [isEndOf, helper?]

end Aim

namespace Scheduler

variable {κ : Type}

/-! ## Questions about a task -/

/-- The status of a task. -/
def status? (s : Scheduler κ) (t : TaskId) : Option Status := (s.task t).map (·.status)

/-- For which key and which caller a task stands in line, if it is a helper. -/
def helper? (s : Scheduler κ) (t : TaskId) : Option (PauseId × TaskId) :=
  (s.task t).bind (·.role.helper?)

/-- Whether a task was asked to end and has not met that yet. -/
def asked (s : Scheduler κ) (t : TaskId) : Bool := (s.task t).any (·.cancelAsked)

/-- The turns that are queued, in the present round and behind it. -/
def turns (s : Scheduler κ) : List Turn := s.round ++ s.queue

/-- Whether a task is going to be told that what some wait was for has come. -/
def Alarm (s : Scheduler κ) (t : TaskId) (wait : PauseId) : Prop :=
  .signal t wait ∈ s.turns ∨ ∃ timer ∈ s.timers, timer.task = t ∧ timer.wait = wait

/-- Whether a task is ready for its turn. -/
def Ready (s : Scheduler κ) (t : TaskId) : Prop :=
  s.status? t = some .queued ∨ ∃ wait, s.status? t = some (.waiting wait) ∧ wait.signal ≠ .pending

/-- Whether a task is certain not to end well from now on, if it is a helper. -/
def Doomed (s : Scheduler κ) (t : TaskId) : Prop :=
  (∃ ending, s.status? t = some (.finished ending)) ∨ s.asked t ∨
    ∃ wait, s.status? t = some (.waiting wait) ∧ wait.signal = .cancelled

theorem task_of_status {s : Scheduler κ} {t : TaskId} {status : Status}
    (h : s.status? t = some status) : ∃ task, s.task t = some task ∧ task.status = status :=
  Option.map_eq_some_iff.mp h

theorem status_of_task {s : Scheduler κ} {t : TaskId} {task : Task κ} (h : s.task t = some task) :
    s.status? t = some task.status := by
  simp [status?, h]

theorem helper_of_task {s : Scheduler κ} {t : TaskId} {task : Task κ} (h : s.task t = some task) :
    s.helper? t = task.role.helper? := by
  simp [helper?, h]

theorem asked_of_task {s : Scheduler κ} {t : TaskId} {task : Task κ} (h : s.task t = some task) :
    s.asked t = task.cancelAsked := by
  simp [asked, h]

theorem doomed_of_task {s : Scheduler κ} {t : TaskId} {task : Task κ} (h : s.task t = some task) :
    s.Doomed t ↔ (∃ ending, task.status = .finished ending) ∨ task.cancelAsked ∨
      ∃ wait, task.status = .waiting wait ∧ wait.signal = .cancelled := by
  simp only [Doomed, status_of_task h, asked_of_task h, Option.some.injEq]

theorem pendingWait?_eq_some_iff {s : Scheduler κ} {t : TaskId} {wait : Wait} :
    s.pendingWait? t = some wait ↔
      s.status? t = some (.waiting wait) ∧ wait.signal = .pending := by
  unfold pendingWait? status?
  cases s.task t with
  | none => simp
  | some task =>
    obtain ⟨role, status, cancelAsked⟩ := task
    cases status <;> simp
    constructor
    · rintro ⟨pending, rfl⟩
      exact ⟨rfl, pending⟩
    · rintro ⟨rfl, pending⟩
      exact ⟨pending, rfl⟩

theorem ending?_eq_some_iff {s : Scheduler κ} {t : TaskId} {ending : Except Failure Unit} :
    s.ending? t = some ending ↔ s.status? t = some (.finished ending) := by
  unfold ending? status?
  cases s.task t with
  | none => simp
  | some task =>
    obtain ⟨role, status, cancelAsked⟩ := task
    cases status <;> simp

/-! ## Setting a task -/

section SetTask

variable (s : Scheduler κ) (t other : TaskId) (task : Task κ)

@[simp] theorem status?_setTask : (s.setTask t task).status? other =
    if other = t then some task.status else s.status? other := by
  simp only [status?, setTask, amend]
  split <;> rfl

@[simp] theorem helper?_setTask : (s.setTask t task).helper? other =
    if other = t then task.role.helper? else s.helper? other := by
  simp only [helper?, setTask, amend]
  split <;> rfl

@[simp] theorem asked_setTask : (s.setTask t task).asked other =
    if other = t then task.cancelAsked else s.asked other := by
  simp only [asked, setTask, amend]
  split <;> simp

@[simp] theorem line_setTask : (s.setTask t task).line = s.line := rfl

end SetTask

section Push

variable (s : Scheduler κ) (t : TaskId) (turn : Turn)

@[simp] theorem status?_push : (s.push turn).status? t = s.status? t := rfl
@[simp] theorem timers_push : (s.push turn).timers = s.timers := rfl

@[simp] theorem turns_push : (s.push turn).turns = s.turns ++ [turn] := by
  simp [turns, push]

@[simp] theorem alarm_push {wait : PauseId} :
    (s.push turn).Alarm t wait ↔ s.Alarm t wait ∨ turn = .signal t wait := by
  simp only [Alarm, turns_push, timers_push, List.mem_append, List.mem_singleton, eq_comm]
  exact or_right_comm

end Push

section Spawn

variable (s : Scheduler κ) (role : Role κ) (t : TaskId)

@[simp] theorem status?_spawn :
    (s.spawn role).1.status? t = if t = s.size then some .queued else s.status? t :=
  (status?_setTask _ _ _ _).trans rfl

@[simp] theorem helper?_spawn :
    (s.spawn role).1.helper? t = if t = s.size then role.helper? else s.helper? t :=
  (helper?_setTask _ _ _ _).trans rfl

@[simp] theorem asked_spawn :
    (s.spawn role).1.asked t = if t = s.size then false else s.asked t :=
  (asked_setTask _ _ _ _).trans rfl

end Spawn

/-! ## One task at a time -/

/-- How a scheduler may go on with one task: that has another status, and what is not said of the others
stays. The line and the barrier are left open. -/
structure Moves (s s' : Scheduler κ) (t : TaskId) (status : Status) : Prop where
  status : ∀ other, s'.status? other = if other = t then some status else s.status? other
  helper : ∀ other, s'.helper? other = s.helper? other
  asked : ∀ other, other ≠ t → s'.asked other = s.asked other
  size : s'.size = s.size
  waits : s.waits ≤ s'.waits
  turns : s'.turns = s.turns
  alarm : ∀ other id, s'.Alarm other id ↔ s.Alarm other id
  known : ∃ before, s.status? t = some before

/-- Replacing a task by one that is a helper exactly if it was. -/
theorem moves_setTask {s : Scheduler κ} (s' : Scheduler κ) {t : TaskId} {task : Task κ} (after : Task κ)
    (ht : s.task t = some task) (role : after.role.helper? = task.role.helper?)
    (tasks : ∀ other, other ≠ t → s'.task other = s.task other) (size : s'.size = s.size)
    (waits : s.waits ≤ s'.waits) (turns : s'.turns = s.turns)
    (alarm : ∀ other id, s'.Alarm other id ↔ s.Alarm other id) :
    Moves s (s'.setTask t after) t after.status where
  status other := by
    rw [status?_setTask]
    split
    next => rfl
    next different => simp only [status?, tasks other different]
  helper other := by
    rw [helper?_setTask, role, ← helper_of_task ht]
    split
    next same => rw [same]
    next different => simp only [helper?, tasks other different]
  asked other different := by
    rw [asked_setTask, if_neg different]
    simp only [Scheduler.asked, tasks other different]
  size := size
  waits := waits
  turns := turns
  alarm := alarm
  known := ⟨_, status_of_task ht⟩

/-- A task whose turn begins. -/
theorem task_start (s : Scheduler κ) (t : TaskId) (task : Task κ) :
    (s.start t task).task t = some { task with status := .running, cancelAsked := false } :=
  amend_self _ _ _

/-! ## What the changes of a task come to -/

section Changes

variable {s : Scheduler κ} {t : TaskId}

/-- A pending wait that is settled. -/
theorem settle_eq {wait : Wait} (h : s.status? t = some (.waiting wait))
    (pending : wait.signal = .pending) (signal : Signal) :
    ∃ task, s.task t = some task ∧ s.settle t signal =
      (s.setTask t { task with status := .waiting { wait with signal } }).push (.resume t) := by
  obtain ⟨task, ht, hs⟩ := task_of_status h
  exact ⟨task, ht, by simp only [settle, ht, hs, pending, ↓reduceIte]⟩

/-- Settling does something only to a pending wait. -/
theorem settle_eq_self (h : ¬ ∃ wait, s.status? t = some (.waiting wait) ∧ wait.signal = .pending)
    (signal : Signal) : s.settle t signal = s := by
  unfold settle
  split
  next task ht =>
    split
    next wait hs => exact if_neg fun pending => h ⟨wait, hs ▸ status_of_task ht, pending⟩
    next => rfl
  next => rfl

/-- Settling changes no aim. -/
theorem aim_of_settle {signal : Signal} {other : TaskId} {wait : Wait}
    (h : (s.settle t signal).status? other = some (.waiting wait)) :
    ∃ before, s.status? other = some (.waiting before) ∧ before.aim = wait.aim := by
  by_cases waits : ∃ wait, s.status? t = some (.waiting wait) ∧ wait.signal = .pending
  · obtain ⟨before, waiting, pending⟩ := waits
    obtain ⟨task, ht, same⟩ := settle_eq waiting pending signal
    rw [same, status?_push, status?_setTask] at h
    split at h
    next mine =>
      cases h
      exact ⟨before, mine ▸ waiting, rfl⟩
    next => exact ⟨wait, h, rfl⟩
  · rw [settle_eq_self waits] at h
    exact ⟨wait, h, rfl⟩

/-- Settling the wait of one task does not touch another. -/
theorem settle_other {other : TaskId} (different : other ≠ t) (signal : Signal) :
    (s.settle t signal).task other = s.task other := by
  unfold settle
  split
  next =>
    split
    next =>
      split
      · exact amend_of_ne different _ _
      · rfl
    next => rfl
  next => rfl

theorem settle_setTask {other : TaskId} (different : other ≠ t) (signal : Signal) (task : Task κ) :
    (s.settle t signal).setTask other task = (s.setTask other task).settle t signal := by
  have same : (s.setTask other task).task t = s.task t := amend_of_ne (Ne.symm different) _ _
  unfold settle
  rw [same]
  split
  next found _ =>
    split
    next wait _ =>
      split
      · simp only [setTask, push, amend_comm (Ne.symm different)]
      · rfl
    next => rfl
  next => rfl

/-- A cancellation calls a pending wait off, or else is kept in mind; a task that has ended is left
alone. -/
theorem cancel_cases (s : Scheduler κ) (t : TaskId) :
    (s.cancel t = s ∧ ∀ status, s.status? t = some status → ∃ ending, status = .finished ending) ∨
    (∃ wait, s.status? t = some (.waiting wait) ∧ wait.signal = .pending ∧
      s.cancel t = s.settle t .cancelled) ∨
    ∃ task, s.task t = some task ∧ s.cancel t = s.setTask t { task with cancelAsked := true } := by
  unfold cancel
  split
  next task ht =>
    have hs := status_of_task ht
    split
    next ending heq =>
      refine .inl ⟨rfl, fun status known => ⟨ending, ?_⟩⟩
      rw [hs, heq] at known
      exact (Option.some.inj known).symm
    next wait heq =>
      by_cases pending : wait.signal = .pending
      · exact .inr (.inl ⟨wait, by rw [hs, heq], pending, if_pos pending⟩)
      · exact .inr (.inr ⟨task, ht, if_neg pending⟩)
    next => exact .inr (.inr ⟨task, ht, rfl⟩)
    next => exact .inr (.inr ⟨task, ht, rfl⟩)
  next ht => exact .inl ⟨rfl, fun status known => by simp [status?, ht] at known⟩

/-- A task that was asked to end is certain not to end well, unless it has ended. -/
theorem doomed_cancel {status : Status} (known : s.status? t = some status) :
    (s.cancel t).Doomed t := by
  rcases cancel_cases s t with ⟨same, ended⟩ | ⟨wait, waiting, pending, same⟩ | ⟨task, ht, same⟩
  · obtain ⟨ending, rfl⟩ := ended status known
    exact .inl ⟨ending, by rwa [same]⟩
  · obtain ⟨task, -, settled⟩ := settle_eq waiting pending .cancelled
    refine .inr (.inr ⟨{ wait with signal := .cancelled }, ?_, rfl⟩)
    rw [same, settled]
    simp
  · refine .inr (.inl ?_)
    rw [same]
    simp

theorem waits_cancel : (s.cancel t).waits = s.waits := by
  rcases cancel_cases s t with ⟨same, -⟩ | ⟨wait, waiting, pending, same⟩ | ⟨task, ht, same⟩
  · rw [same]
  · obtain ⟨task, -, settled⟩ := settle_eq waiting pending .cancelled
    rw [same, settled]
    rfl
  · rw [same]
    rfl

/-- Waking the first in line does not touch those who are not in line. -/
theorem wakeFirst_setTask {other : TaskId} (outside : other ∉ s.line) (task : Task κ) :
    s.wakeFirst.task other = s.task other ∧
      s.wakeFirst.setTask other task = (s.setTask other task).wakeFirst := by
  unfold wakeFirst
  rw [line_setTask]
  split
  next => exact ⟨rfl, rfl⟩
  next first rest line =>
    have different : other ≠ first := fun same => outside (by simp [line, same])
    exact ⟨settle_other different _, settle_setTask different _ _⟩

/-- A task waits from now on; if it was asked to end before, the wait is called off at once. -/
theorem suspend_eq {task : Task κ} (h : s.task t = some task) (aim : Aim) :
    let waiting := { s with waits := s.waits + 1 }.setTask t
      { task with status := .waiting { id := s.waits, aim }, cancelAsked := false }
    s.suspend t aim = if task.cancelAsked then waiting.settle t .cancelled else waiting := by
  intro waiting
  have rested : waiting.task t =
      some { task with status := .waiting { id := s.waits, aim }, cancelAsked := false } :=
    amend_self _ _ _
  unfold suspend
  rw [h]
  simp only
  cases asked : task.cancelAsked with
  | false =>
    obtain ⟨role, status, _⟩ := task
    cases asked
    rfl
  | true =>
    simp only [settle, rested, ↓reduceIte]
    simp only [waiting, setTask, amend_amend]

/-- How a task ends that was to end in a given way. -/
def endingOf (task : Task κ) : Except Failure Unit → Except Failure Unit
  | .ok () => if task.cancelAsked then .error .cancelled else .ok ()
  | failed => failed

theorem finish_body {task : Task κ} (h : s.task t = some task) (body : task.role.helper? = none)
    (ending : Except Failure Unit) :
    s.finish t ending = s.setTask t
      { task with status := .finished (endingOf task ending), cancelAsked := false } := by
  simp only [finish, h]
  split
  · cases ending <;> rfl
  · next hrole => simp [hrole, Role.helper?] at body

/-- The end of a helper is signalled to its caller if that still waits for it. -/
theorem finish_helper {task : Task κ} {key : PauseId} {caller : TaskId} (h : s.task t = some task)
    (helper : task.role.helper? = some (key, caller)) (ending : Except Failure Unit) :
    let ended := s.setTask t
      { task with status := .finished (endingOf task ending), cancelAsked := false }
    s.finish t ending = ended ∨
    ∃ wait, s.status? caller = some (.waiting wait) ∧ wait.aim.helper? = some t ∧
      s.finish t ending = ended.push (.signal caller wait.id) := by
  intro ended
  have hended : ended = s.setTask t
    { task with status := .finished (endingOf task ending), cancelAsked := false } := rfl
  simp only [finish, h]
  split
  · next hrole => simp [hrole, Role.helper?] at helper
  · next key' caller' hrole =>
    obtain ⟨rfl, rfl⟩ : key' = key ∧ caller' = caller := by simpa [hrole, Role.helper?] using helper
    cases hwait : s.pendingWait? caller' with
    | none => exact .inl (by rw [hended]; cases ending <;> rfl)
    | some wait =>
      obtain ⟨hs, -⟩ := pendingWait?_eq_some_iff.mp hwait
      by_cases hend : wait.aim.isEndOf t
      · refine .inr ⟨wait, hs, Aim.isEndOf_iff.mp hend, ?_⟩
        simp only [hend, ↓reduceIte, hended]
        cases ending <;> rfl
      · refine .inl ?_
        simp only [hend, Bool.false_eq_true, ↓reduceIte, hended]
        cases ending <;> rfl

end Changes

end Scheduler
end ActionFlow
