import ActionFlow.Proofs.Scheduler.GoingOn
import ActionFlow.Proofs.Scheduler.Latch

/-!
# What a task can tell of the scheduler

A task can tell which gates are open, and it knows how it stands itself: what it is to go on with, what it
waits for, and whether it was called off or asked to end. It cannot tell how many pauses there have been
before its own, what other tasks there are, and how the barrier stands. So two schedulers may look alike to a
task of each, and then what the task does of its own accord, apart from asking for the barrier, makes of them
schedulers that look alike again.

## Main results

* `Alike`: two schedulers look alike to a task of each.
* `Alike.await`, `Alike.setGate`, `Alike.cancel`: they do so after the tasks have done the same.
* `Alike.takeTurn`: and after a turn of each, in which the tasks go on alike.
* `takeTurn_of_rest`, `latch_await`: all this leaves the barrier as it is.
-/

namespace ActionFlow

variable {κ : Type}

/-- A status without the number of its wait. -/
def Status.unnumbered : Status → Status
  | .waiting wait => .waiting { wait with id := 0 }
  | status => status

/-- A task without the number of its wait. -/
def Task.unnumbered (task : Task κ) : Task κ := { task with status := task.status.unnumbered }

/-- Whether a task meets a cancellation at its next turn. -/
def Task.thrown (task : Task κ) : Bool :=
  task.cancelAsked || match task.status with
    | .waiting wait => decide (wait.signal = .cancelled)
    | _ => false

theorem Task.thrown_unnumbered (task : Task κ) : task.unnumbered.thrown = task.thrown := by
  obtain ⟨role, status, asked⟩ := task
  cases status <;> rfl

/-- A task whose turn it is has no wait. -/
theorem Task.eq_of_unnumbered {task other : Task κ} (same : other.unnumbered = task.unnumbered)
    (running : task.status = .running) : other = task := by
  obtain ⟨role, status, asked⟩ := task
  obtain ⟨role', status', asked'⟩ := other
  cases running
  cases status' <;> simp_all [unnumbered, Status.unnumbered]

theorem Task.rest?_unnumbered (task : Task κ) : task.unnumbered.rest? = task.rest? := by
  obtain ⟨role, status, asked⟩ := task
  cases status <;> rfl

/-- Who has not asked for the barrier has no request that fails. -/
theorem Task.deedsOfFailure_of_rest {task : Task κ} {resume : Except Failure PauseId → κ}
    (rests : task.rest? = some (resume, false)) (t : TaskId) (failure : Failure) :
    task.deedsOfFailure t failure = [] := by
  obtain ⟨role, status, asked⟩ := task
  cases status with
  | queued | running | finished => rfl
  | waiting wait =>
    obtain ⟨id, aim, signal⟩ := wait
    cases aim with
    | gate | time => rfl
    | line | watch | leave => cases role <;> cases rests

namespace Scheduler

variable {s s' : Scheduler κ} {t t' : TaskId} {task : Task κ}

/-- A task as it knows itself. -/
def own? (s : Scheduler κ) (t : TaskId) : Option (Task κ) := (s.task t).map Task.unnumbered

theorem own?_of_task (ht : s.task t = some task) : s.own? t = some task.unnumbered := by
  simp only [own?, ht, Option.map_some]

theorem own?_of_eq (same : s'.task t = s.task t) : s'.own? t = s.own? t := by
  simp only [own?, same]

theorem own?_setTask (s : Scheduler κ) (t : TaskId) (task : Task κ) :
    (s.setTask t task).own? t = some task.unnumbered :=
  own?_of_task (amend_self _ _ _)

/-- Two schedulers look alike to a task of each. -/
structure Alike (s : Scheduler κ) (t : TaskId) (s' : Scheduler κ) (t' : TaskId) : Prop where
  opened : s'.opened = s.opened
  own : s'.own? t' = s.own? t

/-- What a task of either cannot tell of what is done to them. -/
theorem Alike.change {u u' : Scheduler κ} (h : Alike s t s' t') (first : Alike s t u t)
    (second : Alike s' t' u' t') : Alike u t u' t' where
  opened := by rw [second.opened, h.opened, first.opened]
  own := by rw [second.own, h.own, first.own]

theorem alike_self (s : Scheduler κ) (t : TaskId) : Alike s t s t := ⟨rfl, rfl⟩

/-! ## What a task does in its turn -/

/-- Tasks whose turn it is and that look alike are the same. -/
theorem Alike.task_of_running (h : Alike s t s' t') (running : s.status? t = some .running) :
    ∃ task, task.status = .running ∧ s.task t = some task ∧ s'.task t' = some task := by
  obtain ⟨task, ht, status⟩ := task_of_status running
  have same := h.own
  rw [own?_of_task ht] at same
  obtain ⟨other, ht', unnumbered⟩ := Option.map_eq_some_iff.mp same
  exact ⟨task, status, ht, Task.eq_of_unnumbered unnumbered status ▸ ht'⟩

theorem opened_setResume (s : Scheduler κ) (t : TaskId) (resume : Except Failure PauseId → κ) :
    (s.setResume t resume).opened = s.opened := by
  unfold setResume
  split <;> rfl

theorem task_setResume (ht : s.task t = some task) (resume : Except Failure PauseId → κ) :
    (s.setResume t resume).task t = some { task with role := .body resume } := by
  unfold setResume
  rw [ht]
  exact amend_self _ _ _

theorem opened_suspend (s : Scheduler κ) (t : TaskId) (aim : Aim) : (s.suspend t aim).opened = s.opened := by
  unfold suspend
  split
  · simp only
    split <;> rfl
  · rfl

theorem own?_suspend (ht : s.task t = some task) (aim : Aim) :
    (s.suspend t aim).own? t = some { task with
      status := .waiting { id := 0, aim, signal := if task.cancelAsked then .cancelled else .pending }
      cancelAsked := false } := by
  obtain ⟨role, status, asked⟩ := task
  unfold suspend
  rw [ht]
  cases asked <;> exact own?_setTask _ t _

/-- Two tasks that are the same wait for the same. -/
theorem Alike.suspend (opened : s'.opened = s.opened) (ht : s.task t = some task)
    (ht' : s'.task t' = some task) (aim : Aim) : Alike (s.suspend t aim) t (s'.suspend t' aim) t' where
  opened := by rw [opened_suspend, opened_suspend, opened]
  own := by rw [own?_suspend ht, own?_suspend ht']

theorem Alike.yieldTurn (opened : s'.opened = s.opened) (ht : s.task t = some task)
    (ht' : s'.task t' = some task) : Alike (s.yieldTurn t) t (s'.yieldTurn t') t' := by
  unfold Scheduler.yieldTurn
  rw [ht, ht']
  exact ⟨opened, (own?_setTask s' t' _).trans (own?_setTask s t _).symm⟩

/-- Two tasks that are the same ask for the same pause, and not for the barrier: they get the same answer, or
both have to wait. -/
theorem Alike.await (opened : s'.opened = s.opened) (ht : s.task t = some task)
    (ht' : s'.task t' = some task) {pause : Pause} (elsewhere : pause ≠ .barrier) :
    Alike (s.await t pause).1 t (s'.await t' pause).1 t' ∧
      ((∃ key key', (s.await t pause).2 = some (.ok key) ∧ (s'.await t' pause).2 = some (.ok key')) ∨
        (s.await t pause).2 = none ∧ (s'.await t' pause).2 = none) := by
  have still : s'.own? t' = s.own? t := by rw [own?_of_task ht, own?_of_task ht']
  cases pause with
  | barrier => exact absurd rfl elsewhere
  | gate name =>
    simp only [Scheduler.await, opened]
    split
    · exact ⟨⟨rfl, still⟩, .inl ⟨_, _, rfl, rfl⟩⟩
    · refine ⟨?_, .inr ⟨rfl, rfl⟩⟩
      apply Alike.suspend
      · rfl
      · exact ht
      · exact ht'
  | sleep span =>
    simp only [Scheduler.await]
    split
    · exact ⟨.yieldTurn opened ht ht', .inr ⟨rfl, rfl⟩⟩
    · refine ⟨?_, .inr ⟨rfl, rfl⟩⟩
      apply Alike.suspend
      · exact opened
      · exact ht
      · exact ht'

/-- Who asks for something else leaves the barrier as it is. -/
theorem latch_await (s : Scheduler κ) (t : TaskId) {pause : Pause} (elsewhere : pause ≠ .barrier) :
    (s.await t pause).1.latch = s.latch := by
  cases pause with
  | barrier => exact absurd rfl elsewhere
  | gate name =>
    unfold Scheduler.await
    simp only
    split
    · rfl
    · rw [latch_suspend]
      rfl
  | sleep span =>
    unfold Scheduler.await
    simp only
    split
    · rw [latch_yieldTurn]
    · rw [latch_suspend]
      rfl

/-! ## What a task does to others -/

/-- Waking others does not touch who is not waiting. -/
theorem task_settle_of_running (running : s.status? t = some .running) (other : TaskId) (signal : Signal) :
    (s.settle other signal).task t = s.task t := by
  by_cases same : t = other
  · subst same
    rw [settle_eq_self]
    rintro ⟨wait, waiting, -⟩
    cases running.symm.trans waiting
  · exact settle_other same signal

theorem task_settleAll_of_running (running : s.status? t = some .running) (waiting : List TaskId) :
    (waiting.foldl (fun now other => now.settle other .met) s).task t = s.task t := by
  induction waiting generalizing s with
  | nil => rfl
  | cons first rest ih =>
    have still := task_settle_of_running running first .met
    have running' : (s.settle first .met).status? t = some .running := by
      rw [status?, still]
      exact running
    rw [List.foldl_cons, ih running', still]

theorem task_setGate_of_running (running : s.status? t = some .running) (gate : String) (opened : Bool) :
    (s.setGate gate opened).task t = s.task t := by
  unfold setGate
  simp only
  split
  · exact task_settleAll_of_running (s := { s with opened := amend s.opened gate opened }) running _
  · rfl

theorem opened_settle (s : Scheduler κ) (t : TaskId) (signal : Signal) :
    (s.settle t signal).opened = s.opened := by
  unfold settle
  split
  · split
    · split <;> rfl
    · rfl
  · rfl

theorem opened_setGate (s : Scheduler κ) (gate : String) (opened : Bool) :
    (s.setGate gate opened).opened = amend s.opened gate opened := by
  have woken : ∀ (waiting : List TaskId) (now : Scheduler κ),
      (waiting.foldl (fun now other => now.settle other .met) now).opened = now.opened := by
    intro waiting
    induction waiting with
    | nil => exact fun _ => rfl
    | cons first rest ih =>
      intro now
      rw [List.foldl_cons, ih, opened_settle]
  unfold setGate
  simp only
  split
  · exact woken _ _
  · rfl

/-- Two tasks open or close the same gate. -/
theorem Alike.setGate (h : Alike s t s' t') (running : s.status? t = some .running)
    (running' : s'.status? t' = some .running) (gate : String) (opened : Bool) :
    Alike (s.setGate gate opened) t (s'.setGate gate opened) t' where
  opened := by rw [opened_setGate, opened_setGate, h.opened]
  own := by
    rw [own?_of_eq (task_setGate_of_running running gate opened),
      own?_of_eq (task_setGate_of_running running' gate opened), h.own]

theorem opened_cancel (s : Scheduler κ) (t : TaskId) : (s.cancel t).opened = s.opened := by
  rcases cancel_cases s t with ⟨same, -⟩ | ⟨wait, -, -, same⟩ | ⟨task, -, same⟩
  · rw [same]
  · rw [same, opened_settle]
  · rw [same]
    rfl

theorem task_cancel_of_ne {other : TaskId} (different : t ≠ other) : (s.cancel other).task t = s.task t := by
  rcases cancel_cases s other with ⟨same, -⟩ | ⟨wait, -, -, same⟩ | ⟨task, -, same⟩
  · rw [same]
  · rw [same, settle_other different]
  · rw [same]
    exact amend_of_ne different _ _

/-- A task cancels another one. -/
theorem alike_cancel_of_ne {other : TaskId} (different : t ≠ other) : Alike s t (s.cancel other) t :=
  ⟨opened_cancel s other, own?_of_eq (task_cancel_of_ne different)⟩

/-- Two tasks that are the same cancel themselves. -/
theorem Alike.cancel (opened : s'.opened = s.opened) (ht : s.task t = some task)
    (ht' : s'.task t' = some task) (running : task.status = .running) :
    Alike (s.cancel t) t (s'.cancel t') t' := by
  have asked : ∀ {s : Scheduler κ} {t : TaskId}, s.task t = some task →
      s.cancel t = s.setTask t { task with cancelAsked := true } := by
    intro s t ht
    simp only [Scheduler.cancel, ht, running]
  refine ⟨by rw [opened_cancel, opened_cancel, opened], ?_⟩
  rw [asked ht, asked ht', own?_setTask, own?_setTask]

/-! ## The turn of a task -/

/-- That a turn is taken off the queue makes no difference to a task. -/
theorem alike_nextTurn {turn : Turn} (next : s.nextTurn? = some (turn, s')) (t : TaskId) :
    Alike s t s' t := by
  unfold nextTurn? at next
  split at next
  · cases next
    exact ⟨rfl, rfl⟩
  · simp only at next
    split at next
    · cases next
    · cases next
      exact ⟨rfl, rfl⟩

/-- The turn of a task that does not wait for the barrier: it goes on, told that it is cancelled or that
what it waited for has come, and the barrier is left as it is. -/
theorem takeTurn_of_rest {resume : Except Failure PauseId → κ} (rests : s.rest? t = some (resume, false))
    (ht : s.task t = some task) :
    ∃ after id, s.takeTurn (.resume t) =
        (after, some (t, { resume, answer := if task.thrown then .error .cancelled else .ok id })) ∧
      after.task t = some { task with status := .running, cancelAsked := false } ∧
      after.opened = s.opened ∧ after.latch = s.latch := by
  have start := task_start s t task
  rw [rest?_of_task ht] at rests
  generalize hstarted : s.start t task = started at start
  have opened : started.opened = s.opened := hstarted ▸ rfl
  have latch : started.latch = s.latch := hstarted ▸ rfl
  obtain ⟨role, status, asked⟩ := task
  cases role with
  | helper => cases rests
  | body before =>
    cases status with
    | queued =>
      cases rests
      cases asked with
      | true => exact ⟨started, 0, by simp only [takeTurn, ht, hstarted]; rfl, start, opened, latch⟩
      | false =>
        exact ⟨{ started with waits := started.waits + 1 }, started.waits,
          by simp only [takeTurn, ht, hstarted]; rfl, start, opened, latch⟩
    | waiting wait =>
      obtain ⟨id, aim, signal⟩ := wait
      let timers := started.timers.filter fun timer => timer.wait ≠ id
      cases aim with
      | line | watch | leave => cases rests
      | gate name =>
        cases rests
        exact ⟨{ started with timers, atGates := started.atGates.erase t }, id,
          by simp only [takeTurn, ht, hstarted]; rfl, start, opened, latch⟩
      | time =>
        cases rests
        exact ⟨{ started with timers }, id, by simp only [takeTurn, ht, hstarted]; rfl, start, opened, latch⟩
    | running | finished => cases rests

/-- No request for the barrier comes to its end by that. -/
theorem deedsOfTurn_of_rest {resume : Except Failure PauseId → κ}
    (rests : s.rest? t = some (resume, false)) : s.deedsOfTurn (.resume t) = [] := by
  obtain ⟨task, ht, own⟩ := Option.bind_eq_some_iff.mp rests
  obtain ⟨after, id, taken, -⟩ := takeTurn_of_rest rests ht
  have nothing : ∀ failure, task.deedsOfFailure t failure = [] := fun failure =>
    Task.deedsOfFailure_of_rest own t failure
  simp only [deedsOfTurn, ht, taken]
  cases task.thrown with
  | true => exact nothing .cancelled
  | false => rfl

theorem rest?_eq_own? (s : Scheduler κ) (t : TaskId) : s.rest? t = (s.own? t).bind Task.rest? := by
  unfold rest? own?
  cases s.task t with
  | none => rfl
  | some task => exact (Task.rest?_unnumbered task).symm

/-- Two tasks that look alike, and do not wait for the barrier, go on with the same, and are told the same
apart from the number of the pause. -/
theorem Alike.takeTurn (h : Alike s t s' t') {resume : Except Failure PauseId → κ}
    (rests : s.rest? t = some (resume, false)) :
    ∃ after after' answer answer', s.takeTurn (.resume t) = (after, some (t, { resume, answer })) ∧
      s'.takeTurn (.resume t') = (after', some (t', { resume, answer := answer' })) ∧
      (answer = answer' ∨ ∃ id id', answer = .ok id ∧ answer' = .ok id') ∧
      Alike after t after' t' ∧ after.latch = s.latch ∧ after'.latch = s'.latch := by
  have rests' : s'.rest? t' = some (resume, false) := by rw [rest?_eq_own?, h.own, ← rest?_eq_own?, rests]
  obtain ⟨task, ht, -⟩ := Option.bind_eq_some_iff.mp rests
  have same := h.own
  rw [own?_of_task ht] at same
  obtain ⟨task', ht', unnumbered⟩ := Option.map_eq_some_iff.mp same
  obtain ⟨after, id, taken, now, opened, latch⟩ := takeTurn_of_rest rests ht
  obtain ⟨after', id', taken', now', opened', latch'⟩ := takeTurn_of_rest rests' ht'
  have role : task'.role = task.role := by
    show task'.unnumbered.role = task.unnumbered.role
    rw [unnumbered]
  have thrown : task'.thrown = task.thrown := by
    rw [← Task.thrown_unnumbered, unnumbered, Task.thrown_unnumbered]
  refine ⟨after, after', _, _, taken, taken', ?_, ⟨?_, ?_⟩, latch, latch'⟩
  · rw [thrown]
    cases task.thrown with
    | true => exact .inl rfl
    | false => exact .inr ⟨id, id', rfl, rfl⟩
  · rw [opened, opened', h.opened]
  · rw [own?_of_task now, own?_of_task now', role]

/-! ## What follows from looking alike -/

theorem Alike.status (h : Alike s t s' t') :
    (s'.status? t').map Status.unnumbered = (s.status? t).map Status.unnumbered := by
  have same := congrArg (Option.map Task.status) h.own
  simp only [own?, Option.map_map] at same
  simp only [status?, Option.map_map]
  exact same

/-- Both tasks are ready for their turn, or neither is. -/
theorem Alike.ready (h : Alike s t s' t') (ready : s.Ready t) : s'.Ready t' := by
  have same := h.status
  rcases ready with queued | ⟨wait, waiting, signal⟩
  · rw [queued] at same
    obtain ⟨status, now, unnumbered⟩ := Option.map_eq_some_iff.mp same
    cases status <;> cases unnumbered
    exact .inl now
  · rw [waiting] at same
    obtain ⟨status, now, unnumbered⟩ := Option.map_eq_some_iff.mp same
    cases status with
    | queued | running | finished => cases unnumbered
    | waiting wait' =>
      have signals : wait'.signal = wait.signal := by
        injection unnumbered with waits
        injection waits
      exact .inr ⟨wait', now, signals ▸ signal⟩

theorem Alike.symm (h : Alike s t s' t') : Alike s' t' s t := ⟨h.opened.symm, h.own.symm⟩

end Scheduler
end ActionFlow
