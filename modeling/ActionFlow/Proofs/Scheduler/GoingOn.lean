import ActionFlow.Proofs.Scheduler.Resting

/-!
# Who goes on resting

A task that rests goes on resting with the same thing, whatever happens to the others, until its own turn
comes; and then it goes on with what it rested with, unless it has to wait for its helper to end first.

## Main results

* `Aside`: nobody but one task comes to rest otherwise; `aside_finish`, `aside_await`, …: what one task
  does is such a change.
* `rest?_await_self`: a task that has to wait rests with what it is to go on with.
* `rest?_takeTurn`: a task goes on resting through every turn, or goes on.
-/

namespace ActionFlow
namespace Scheduler

variable {κ : Type} {s s' : Scheduler κ} {t : TaskId}

/-! ## The others -/

/-- Nobody but one task comes to rest otherwise, or ceases to. -/
def Aside (s s' : Scheduler κ) (t : TaskId) : Prop := ∀ other, other ≠ t → s'.rest? other = s.rest? other

theorem Unmoved.aside (h : Unmoved s s') (t : TaskId) : Aside s s' t := fun other _ => h other

theorem Aside.trans {s'' : Scheduler κ} (first : Aside s s' t) (second : Aside s' s'' t) :
    Aside s s'' t := fun other different => (second other different).trans (first other different)

/-- What does not touch the tasks may come first. -/
theorem Aside.of_same {s'' : Scheduler κ} (h : Aside s' s'' t) (same : s'.task = s.task) :
    Aside s s'' t :=
  ((unmoved_of_eq same).aside t).trans h

theorem aside_self (s : Scheduler κ) (t : TaskId) : Aside s s t := fun _ _ => rfl

theorem aside_of_eq (same : s'.task = s.task) (t : TaskId) : Aside s s' t := (unmoved_of_eq same).aside t

theorem aside_setTask (s : Scheduler κ) (t : TaskId) (task : Task κ) : Aside s (s.setTask t task) t :=
  fun other different => by rw [rest?_setTask, if_neg different]

theorem aside_start (s : Scheduler κ) (t : TaskId) (task : Task κ) : Aside s (s.start t task) t :=
  aside_setTask s t _

theorem aside_setResume (s : Scheduler κ) (t : TaskId) (resume : Except Failure PauseId → κ) :
    Aside s (s.setResume t resume) t := by
  unfold setResume
  split
  · exact aside_setTask s t _
  · exact aside_self s t

theorem aside_finish (s : Scheduler κ) (t : TaskId) (ending : Except Failure Unit) :
    Aside s (s.finish t ending) t := by
  have pushed : ∀ task turn, Aside s ((s.setTask t task).push turn) t := fun task turn =>
    (aside_setTask s t task).trans (aside_of_eq rfl t)
  unfold finish
  split
  · simp only
    split
    · exact aside_setTask s t _
    · split
      · split
        · exact pushed _ _
        · exact aside_setTask s t _
      · exact aside_setTask s t _
  · exact aside_self s t

theorem aside_suspend (s : Scheduler κ) (t : TaskId) (aim : Aim) : Aside s (s.suspend t aim) t := by
  have waiting : ∀ task, Aside s ({ s with waits := s.waits + 1 }.setTask t task) t := fun task =>
    (aside_setTask _ t task).of_same rfl
  unfold suspend
  split
  · simp only
    split
    · exact (waiting _).trans (aside_of_eq rfl t)
    · exact waiting _
  · exact aside_self s t

theorem aside_yieldTurn (s : Scheduler κ) (t : TaskId) : Aside s (s.yieldTurn t) t := by
  unfold yieldTurn
  split
  · exact (aside_setTask s t _).trans (aside_of_eq rfl t)
  · exact aside_self s t

theorem aside_abandon (s : Scheduler κ) (t : TaskId) (key : PauseId) (helper : TaskId) (why : Failure) :
    Aside s (s.abandon t key helper why) t := by
  have leaving : Aside s ((s.cancel helper).suspend t (.leave key helper why)) t :=
    ((unmoved_cancel s helper).aside t).trans (aside_suspend _ t _)
  unfold abandon
  simp only
  split
  · exact leaving.trans (aside_of_eq rfl t)
  · exact leaving

/-- A helper rests with nothing. -/
theorem unmoved_spawnHelper (unknown : s.rest? s.size = none) (key : PauseId) (caller : TaskId) :
    Unmoved s (s.spawn (.helper key caller)).1 := by
  intro other
  have same : (s.spawn (.helper key caller)).1.rest? other =
      if other = s.size then none else s.rest? other :=
    (rest?_setTask { s with size := s.size + 1 } s.size other { role := .helper key caller }).trans rfl
  rw [same]
  split
  next mine => rw [mine, unknown]
  next => rfl

theorem aside_spawn (s : Scheduler κ) (role : Role κ) : Aside s (s.spawn role).1 s.size :=
  fun other different =>
    (rest?_setTask { s with size := s.size + 1 } s.size other { role }).trans (if_neg different)

theorem aside_await (unknown : s.rest? s.size = none) (t : TaskId) (pause : Pause) :
    Aside s (s.await t pause).1 t := by
  unfold await
  cases pause with
  | gate name =>
    simp only
    split
    · exact aside_of_eq rfl t
    · exact (aside_suspend _ t _).of_same rfl
  | sleep span =>
    simp only
    split
    · exact aside_yieldTurn s t
    · exact (aside_suspend _ t _).of_same rfl
  | barrier =>
    simp only
    split
    · split
      · exact aside_of_eq rfl t
      · exact (aside_suspend _ t _).of_same rfl
    · have helped := (unmoved_spawnHelper unknown s.waits t).aside t
      split
      · exact helped.trans (aside_of_eq rfl t)
      · exact helped.trans ((aside_suspend _ t _).of_same rfl)

/-! ### In a turn -/

theorem aside_goOn (s : Scheduler κ) (t : TaskId) (role : Role κ) (answer : Except Failure PauseId) :
    Aside s (s.goOn t role answer).1 t := by
  cases role with
  | body => exact aside_self s t
  | helper => exact aside_finish s t _

theorem aside_goOnWith (s : Scheduler κ) (t : TaskId) (role : Role κ) (key : PauseId) :
    Aside s (s.goOnWith t role key).1 t := by
  cases role with
  | body => exact aside_of_eq rfl t
  | helper => exact aside_finish s t _

theorem aside_resumeQueued (s : Scheduler κ) (t : TaskId) (role : Role κ) (thrown : Bool) :
    Aside s (s.resumeQueued t role thrown).1 t := by
  unfold resumeQueued
  split
  · exact aside_goOn s t role _
  · cases role with
    | body => exact aside_of_eq rfl t
    | helper =>
      simp only
      split
      · exact (aside_finish (s.take _) t _).of_same rfl
      · exact (aside_suspend _ t _).of_same rfl

theorem aside_resumeWaiting (s : Scheduler κ) (t : TaskId) (role : Role κ) (wait : Wait)
    (thrown : Bool) : Aside s (s.resumeWaiting t role wait thrown).1 t := by
  unfold resumeWaiting
  simp only
  split
  next => exact (aside_goOn _ t role _).of_same rfl
  next => exact (aside_goOn _ t role _).of_same rfl
  next =>
    split
    · refine Aside.trans ?_ (aside_goOn _ t role _)
      split
      · exact ((unmoved_wakeFirst _).aside t).of_same rfl
      · exact aside_of_eq rfl t
    · exact (aside_goOnWith _ t role _).of_same rfl
  next =>
    split
    · exact (aside_abandon _ t _ _ _).of_same rfl
    · split
      · exact (aside_goOnWith _ t role _).of_same rfl
      · exact (aside_goOn _ t role _).of_same rfl
      · exact (aside_abandon _ t _ _ _).of_same rfl
  next =>
    split
    · exact (aside_goOn _ t role _).of_same rfl
    · split
      · split
        next freed frees =>
          have freeing : Aside s freed t := ((unmoved_unlock frees).aside t).of_same rfl
          exact freeing.trans (aside_goOn _ t role _)
        next => exact (aside_goOn _ t role _).of_same rfl
      · exact (aside_goOn _ t role _).of_same rfl

/-- The turn of one task does not concern the others. -/
theorem aside_takeTurn (s : Scheduler κ) (t : TaskId) : Aside s (s.takeTurn (.resume t)).1 t := by
  unfold takeTurn
  simp only
  split
  next => exact aside_self s t
  next task _ =>
    have start := aside_start s t task
    cases task.status with
    | queued => exact start.trans (aside_resumeQueued _ t _ _)
    | waiting wait => exact start.trans (aside_resumeWaiting _ t _ wait _)
    | running | finished => exact aside_self s t

/-! ## The task itself -/

section Self

variable {resume : Except Failure PauseId → κ}

theorem resume?_setResume_self {task : Task κ} (ht : s.task t = some task)
    (resume : Except Failure PauseId → κ) : (s.setResume t resume).resume? t = some resume := by
  unfold setResume
  rw [ht]
  exact (resume?_setTask s t t { task with role := .body resume }).trans (if_pos rfl)

/-- A task that waits rests with what it goes on with. -/
theorem rest?_suspend_self (resumes : s.resume? t = some resume) (aim : Aim) :
    (s.suspend t aim).rest? t = some (resume, aim.key?.isSome) := by
  obtain ⟨task, ht, role⟩ := Option.bind_eq_some_iff.mp resumes
  have waiting : ({ s with waits := s.waits + 1 }.setTask t
      { task with status := .waiting { id := s.waits, aim }, cancelAsked := false }).rest? t =
        some (resume, aim.key?.isSome) := by
    rw [rest?_setTask, if_pos rfl]
    simp only [Task.rest?, role, Option.bind_some]
  rw [suspend_eq ht]
  split
  · exact (unmoved_settle _ t .cancelled t).trans waiting
  · exact waiting

theorem rest?_yieldTurn_self (resumes : s.resume? t = some resume) :
    (s.yieldTurn t).rest? t = some (resume, false) := by
  obtain ⟨task, ht, role⟩ := Option.bind_eq_some_iff.mp resumes
  have queued : (s.setTask t { task with status := .queued }).rest? t = some (resume, false) := by
    rw [rest?_setTask, if_pos rfl]
    simp only [Task.rest?, role, Option.bind_some]
  unfold yieldTurn
  rw [ht]
  exact queued

/-- **Waiting.** A task that has to wait rests with what it goes on with. -/
theorem rest?_await_self (resumes : s.resume? t = some resume) (older : t ≠ s.size) {pause : Pause}
    (waits : (s.await t pause).2 = none) :
    (s.await t pause).1.rest? t = some (resume, decide (pause = .barrier)) := by
  cases pause with
  | gate name =>
    by_cases opened : s.opened name
    · simp [await, opened] at waits
    · simp only [await, opened, Bool.false_eq_true, ↓reduceIte]
      exact rest?_suspend_self (s := { s with atGates := s.atGates ++ [t] }) resumes (.gate name)
  | sleep span =>
    unfold await
    simp only
    split
    · exact rest?_yieldTurn_self resumes
    · let timer : Timer := { due := s.clock.add span, task := t, wait := s.waits }
      exact rest?_suspend_self (s := { s with timers := timer.insert s.timers }) resumes .time
  | barrier =>
    unfold await
    simp only
    split
    next limited =>
      split
      next free => simp [await, limited, free] at waits
      next => exact rest?_suspend_self (s := { s with line := s.line ++ [t] }) resumes (.line s.waits)
    next limit limited =>
      split
      next failed => simp [await, limited, failed] at waits
      next span _ =>
        let timer : Timer := { due := s.clock.add span, task := t, wait := s.waits }
        let helped := (s.spawn (.helper s.waits t)).1
        have still : { helped with timers := timer.insert helped.timers }.resume? t = some resume :=
          ((resume?_setTask { s with size := s.size + 1 } s.size t _).trans (if_neg older)).trans resumes
        exact rest?_suspend_self still (.watch s.waits s.size limit)

/-- A task that calls its helper off rests as it did. -/
theorem rest?_abandon_self (resumes : s.resume? t = some resume) (key : PauseId) (helper : TaskId)
    (why : Failure) : (s.abandon t key helper why).rest? t = some (resume, true) := by
  have still := (resume?_cancel s helper t).trans resumes
  have leaving := rest?_suspend_self still (.leave key helper why)
  unfold abandon
  simp only
  split <;> exact leaving

/-- The turn of a task after a wait. -/
theorem resumeWaiting_body (resumes : s.resume? t = some resume) (wait : Wait) (thrown : Bool) :
    (s.resumeWaiting t (.body resume) wait thrown).2.isSome ∨
      (s.resumeWaiting t (.body resume) wait thrown).1.rest? t = some (resume, wait.aim.key?.isSome) := by
  have still : ∀ timers, { s with timers }.resume? t = some resume := fun _ => resumes
  unfold resumeWaiting
  simp only
  split
  next => exact .inl rfl
  next => exact .inl rfl
  next =>
    split
    · exact .inl rfl
    · exact .inl rfl
  next key helper limit aims =>
    have leaves : ∀ timers why, ({ s with timers }.abandon t key helper why).rest? t =
        some (resume, wait.aim.key?.isSome) := fun timers why => by
      rw [aims]
      exact rest?_abandon_self (still timers) key helper why
    split
    · exact .inr (leaves _ _)
    · split
      · exact .inl rfl
      · exact .inl rfl
      · exact .inr (leaves _ _)
  next =>
    split
    · exact .inl rfl
    · split
      · split
        · exact .inl rfl
        · exact .inl rfl
      · exact .inl rfl

/-- **Going on.** A task whose turn comes goes on, or has to wait for its helper to end and rests on. -/
theorem rest?_takeTurn_self {aimed : Bool} (rests : s.rest? t = some (resume, aimed)) :
    (∃ handover, (s.takeTurn (.resume t)).2 = some (t, handover)) ∨
      (s.takeTurn (.resume t)).1.rest? t = some (resume, aimed) := by
  obtain ⟨task, ht, own⟩ := Option.bind_eq_some_iff.mp rests
  have goes : ∀ {result : Scheduler κ × Option (Handover κ)}, result.2.isSome → ∃ handover,
      result.2.map (fun handover => (t, handover)) = some (t, handover) := by
    rintro ⟨after, handover⟩ some
    obtain ⟨handover, rfl⟩ := Option.isSome_iff_exists.mp some
    exact ⟨handover, rfl⟩
  obtain ⟨role, status, asked⟩ := task
  cases role with
  | helper => cases own
  | body before =>
    cases status with
    | queued =>
      left
      simp only [takeTurn, ht]
      refine goes ?_
      unfold resumeQueued
      split <;> rfl
    | waiting wait =>
      cases own
      have resumes := resume?_of_task (task_start s t ⟨.body resume, .waiting wait, asked⟩)
      simp only [takeTurn, ht]
      exact (resumeWaiting_body resumes wait _).imp_left goes
    | running | finished => cases own

/-- **Through every turn** a task rests on, or it goes on with what it rested with, and with a key in
answer to a request for the barrier only if it was granted that key. -/
theorem rest?_takeTurn {aimed : Bool} (rests : s.rest? t = some (resume, aimed)) (turn : Turn) :
    (s.takeTurn turn).1.rest? t = some (resume, aimed) ∨
      ∃ handover, (s.takeTurn turn).2 = some (t, handover) ∧ handover.resume = resume ∧
        ∀ key, aimed = true → handover.answer = .ok key → handover.granted = some key := by
  cases turn with
  | signal other id =>
    refine .inl (Eq.trans ?_ rests)
    unfold takeTurn
    simp only
    split
    · split
      · exact unmoved_settle s other .met t
      · rfl
    · rfl
  | resume other =>
    by_cases same : t = other
    · subst same
      rcases rest?_takeTurn_self rests with ⟨handover, went⟩ | stays
      · obtain ⟨-, before, rested, granted⟩ := rest?_of_takeTurn went
        cases rests.symm.trans rested
        exact .inr ⟨handover, went, rfl, granted⟩
      · exact .inl stays
    · exact .inl ((aside_takeTurn s other t same).trans rests)

end Self

end Scheduler
end ActionFlow
