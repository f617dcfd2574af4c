import ActionFlow.Proofs.Scheduler.Standing

/-!
# What tasks go on with

A task that is not running keeps what it does when its turn comes. Nothing that happens to other tasks
changes that, and nothing that wakes or cancels the task itself: a task goes on with what it left
behind when it gave the turn away, and it gets a key only in answer to a request for the barrier.

## Main results

* `Scheduler.Rested`: nobody rests who did not rest before, in the same way.
* `rested_takeTurn`, `rest?_of_takeTurn`: taking a turn lets one task go on and no other rest.
* `rest?_of_await`: a task that asks for a pause rests with what it is to go on with.
-/

namespace ActionFlow

variable {κ : Type}

/-- What a task goes on with, unless it is a helper. -/
def Role.resume? : Role κ → Option (Except Failure PauseId → κ)
  | body resume => some resume
  | helper .. => none

/-- What a task goes on with at its next turn, and whether it has asked for the barrier. -/
def Task.rest? (task : Task κ) : Option ((Except Failure PauseId → κ) × Bool) :=
  task.role.resume?.bind fun resume =>
    match task.status with
    | .queued => some (resume, false)
    | .waiting wait => some (resume, wait.aim.key?.isSome)
    | .running | .finished _ => none

namespace Scheduler

variable {s s' : Scheduler κ} {t other : TaskId}

/-- What a task goes on with at its next turn, and whether it has asked for the barrier. -/
def rest? (s : Scheduler κ) (t : TaskId) : Option ((Except Failure PauseId → κ) × Bool) :=
  (s.task t).bind Task.rest?

/-- What a task goes on with, whether it is its turn or not. -/
def resume? (s : Scheduler κ) (t : TaskId) : Option (Except Failure PauseId → κ) :=
  (s.task t).bind (·.role.resume?)

/-- Nobody rests who did not rest before, in the same way. -/
def Rested (s s' : Scheduler κ) : Prop := ∀ t rest, s'.rest? t = some rest → s.rest? t = some rest

theorem rested_self (s : Scheduler κ) : Rested s s := fun _ _ rests => rests

theorem Rested.trans {s'' : Scheduler κ} (first : Rested s s') (second : Rested s' s'') :
    Rested s s'' := fun t rest h => first t rest (second t rest h)

theorem rested_of_eq (same : s'.task = s.task) : Rested s s' := fun t rest h => by
  simpa only [rest?, same] using h

/-- What does not touch the tasks may come first. -/
theorem Rested.of_same {s'' : Scheduler κ} (h : Rested s' s'') (same : s'.task = s.task) :
    Rested s s'' :=
  (rested_of_eq same).trans h

theorem rest?_setTask (s : Scheduler κ) (t other : TaskId) (task : Task κ) :
    (s.setTask t task).rest? other = if other = t then task.rest? else s.rest? other := by
  simp only [rest?, setTask, amend]
  split <;> rfl

theorem resume?_setTask (s : Scheduler κ) (t other : TaskId) (task : Task κ) :
    (s.setTask t task).resume? other =
      if other = t then task.role.resume? else s.resume? other := by
  simp only [resume?, setTask, amend]
  split <;> rfl

theorem rest?_of_task {task : Task κ} (h : s.task t = some task) : s.rest? t = task.rest? := by
  simp [rest?, h]

theorem resume?_of_task {task : Task κ} (h : s.task t = some task) :
    s.resume? t = task.role.resume? := by
  simp [resume?, h]

/-- A task that keeps its rest, or gives it up. -/
theorem rested_setTask {task after : Task κ} (h : s.task t = some task)
    (fewer : ∀ rest, after.rest? = some rest → task.rest? = some rest) :
    Rested s (s.setTask t after) := by
  intro other rest rests
  rw [rest?_setTask] at rests
  split at rests
  next same => rw [same, rest?_of_task h, fewer rest rests]
  next => exact rests

/-! ## What leaves the resting tasks alone -/

/-- Everybody rests, or does not, as before. -/
def Unmoved (s s' : Scheduler κ) : Prop := ∀ t, s'.rest? t = s.rest? t

theorem Unmoved.rested (h : Unmoved s s') : Rested s s' := fun t _ rests => (h t).symm.trans rests

theorem Unmoved.trans {s'' : Scheduler κ} (first : Unmoved s s') (second : Unmoved s' s'') :
    Unmoved s s'' := fun t => (second t).trans (first t)

theorem unmoved_self (s : Scheduler κ) : Unmoved s s := fun _ => rfl

theorem unmoved_of_eq (same : s'.task = s.task) : Unmoved s s' := fun t => by simp only [rest?, same]

/-- A task is replaced by one that rests in the same way. -/
theorem unmoved_setTask {task after : Task κ} (h : s.task t = some task)
    (same : after.rest? = task.rest?) : Unmoved s (s.setTask t after) := by
  intro other
  rw [rest?_setTask]
  split
  next mine => rw [mine, rest?_of_task h, same]
  next => rfl

theorem unmoved_settle (s : Scheduler κ) (t : TaskId) (signal : Signal) :
    Unmoved s (s.settle t signal) := by
  by_cases waits : ∃ wait, s.status? t = some (.waiting wait) ∧ wait.signal = .pending
  · obtain ⟨wait, waiting, pending⟩ := waits
    obtain ⟨task, ht, same⟩ := settle_eq waiting pending signal
    have status : task.status = .waiting wait := by
      simpa [status_of_task ht] using waiting
    rw [same]
    exact unmoved_setTask ht (by simp only [Task.rest?, status])
  · rw [settle_eq_self waits]
    exact unmoved_self _

theorem unmoved_cancel (s : Scheduler κ) (t : TaskId) : Unmoved s (s.cancel t) := by
  rcases cancel_cases s t with ⟨same, -⟩ | ⟨_, _, _, same⟩ | ⟨task, ht, same⟩
  · rw [same]
    exact unmoved_self _
  · rw [same]
    exact unmoved_settle s t .cancelled
  · rw [same]
    exact unmoved_setTask ht rfl

theorem unmoved_wakeFirst (s : Scheduler κ) : Unmoved s s.wakeFirst := by
  unfold wakeFirst
  split
  · exact unmoved_self _
  · exact unmoved_settle s _ .met

theorem unmoved_unlock {freed : Scheduler κ} (h : s.unlock = .ok freed) : Unmoved s freed := by
  unfold unlock at h
  split at h
  · cases h
    have free : Unmoved s { s with holder := none } := unmoved_of_eq rfl
    exact free.trans (unmoved_wakeFirst _)
  · cases h

theorem unmoved_release (s : Scheduler κ) (key : PauseId) : Unmoved s (s.release key).1 := by
  unfold release
  split
  · have spent : Unmoved s { s with keys := s.keys.erase key } := unmoved_of_eq rfl
    simp only
    split
    next freed same => exact spent.trans (unmoved_unlock same)
    next => exact spent
  · exact unmoved_self _

theorem unmoved_settleAll (waiting : List TaskId) (s : Scheduler κ) :
    Unmoved s (waiting.foldl (fun now t => now.settle t .met) s) := by
  induction waiting generalizing s with
  | nil => exact unmoved_self s
  | cons t rest ih => exact (unmoved_settle s t .met).trans (ih _)

theorem unmoved_setGate (s : Scheduler κ) (gate : String) (opened : Bool) :
    Unmoved s (s.setGate gate opened) := by
  have changed : Unmoved s { s with opened := amend s.opened gate opened } := unmoved_of_eq rfl
  unfold setGate
  simp only
  split
  · exact changed.trans (unmoved_settleAll _ _)
  · exact changed

/-! ## Who comes to rest no more -/

theorem rested_finish (s : Scheduler κ) (t : TaskId) (ending : Except Failure Unit) :
    Rested s (s.finish t ending) := by
  unfold finish
  split
  next task ht =>
    have ended : ∀ ending, Rested s
        (s.setTask t { task with status := .finished ending, cancelAsked := false }) :=
      fun ending => rested_setTask ht fun rest rests => by
        simp [Task.rest?] at rests
    simp only
    split
    · exact ended _
    · split
      · split
        · exact (ended _).trans (rested_of_eq rfl)
        · exact ended _
      · exact ended _
  next => exact rested_self _

theorem rested_start {task : Task κ} (h : s.task t = some task) : Rested s (s.start t task) :=
  rested_setTask h fun rest rests => by
    simp [Task.rest?] at rests

theorem rested_spawnHelper (s : Scheduler κ) (key : PauseId) (caller : TaskId) :
    Rested s (s.spawn (.helper key caller)).1 := by
  intro other rest rests
  have rests : ({ s with size := s.size + 1 }.setTask s.size { role := .helper key caller }).rest? other =
    some rest := rests
  rw [rest?_setTask] at rests
  split at rests
  · cases rests
  · exact rests

/-! ## Who comes to rest -/

/-- A new task rests with its job. -/
theorem rest?_spawn {resume : Except Failure PauseId → κ} {rest : (Except Failure PauseId → κ) × Bool}
    (h : (s.spawn (.body resume)).1.rest? other = some rest) :
    rest = (resume, false) ∨ s.rest? other = some rest := by
  have h : ({ s with size := s.size + 1 }.setTask s.size { role := .body resume }).rest? other =
    some rest := h
  rw [rest?_setTask] at h
  split at h
  · exact .inl (Option.some.inj h).symm
  · exact .inr h

/-- A task that waits from now on rests with what it goes on with. -/
theorem rest?_suspend {aim : Aim} {rest : (Except Failure PauseId → κ) × Bool}
    (h : (s.suspend t aim).rest? other = some rest) :
    s.rest? other = some rest ∨ other = t ∧ s.resume? t = some rest.1 ∧ rest.2 = aim.key?.isSome := by
  cases ht : s.task t with
  | none =>
    have same : s.suspend t aim = s := by simp only [suspend, ht]
    exact .inl (same ▸ h)
  | some task =>
    rw [suspend_eq ht] at h
    have rests : ({ s with waits := s.waits + 1 }.setTask t
        { task with status := .waiting { id := s.waits, aim }, cancelAsked := false }).rest? other =
          some rest := by
      split at h
      · exact (unmoved_settle _ _ _).rested _ _ h
      · exact h
    rw [rest?_setTask] at rests
    split at rests
    next same =>
      refine .inr ⟨same, ?_⟩
      rw [resume?_of_task ht]
      cases role : task.role with
      | body resume =>
        simp only [Task.rest?, role, Role.resume?, Option.bind_some, Option.some.injEq] at rests
        rw [← rests]
        exact ⟨rfl, rfl⟩
      | helper => simp [Task.rest?, role, Role.resume?] at rests
    next => exact .inl rests

/-- A task that only gives its turn away rests with what it goes on with. -/
theorem rest?_yieldTurn {rest : (Except Failure PauseId → κ) × Bool}
    (h : (s.yieldTurn t).rest? other = some rest) :
    s.rest? other = some rest ∨ other = t ∧ s.resume? t = some rest.1 ∧ rest.2 = false := by
  unfold yieldTurn at h
  split at h
  next task ht =>
    have rests : (s.setTask t { task with status := .queued }).rest? other = some rest := h
    rw [rest?_setTask] at rests
    split at rests
    next same =>
      refine .inr ⟨same, ?_⟩
      rw [resume?_of_task ht]
      cases role : task.role with
      | body resume =>
        simp only [Task.rest?, role, Role.resume?, Option.bind_some, Option.some.injEq] at rests
        rw [← rests]
        exact ⟨rfl, rfl⟩
      | helper => simp [Task.rest?, role, Role.resume?] at rests
    next => exact .inl rests
  next => exact .inl h

theorem resume?_cancel (s : Scheduler κ) (t other : TaskId) :
    (s.cancel t).resume? other = s.resume? other := by
  have replaced : ∀ {task after : Task κ}, s.task t = some task → after.role = task.role →
      (s.setTask t after).resume? other = s.resume? other := by
    intro task after ht role
    rw [resume?_setTask]
    split
    next same => rw [same, resume?_of_task ht, role]
    next => rfl
  rcases cancel_cases s t with ⟨same, -⟩ | ⟨wait, waiting, pending, same⟩ | ⟨task, ht, same⟩
  · rw [same]
  · obtain ⟨task, ht, settled⟩ := settle_eq waiting pending .cancelled
    rw [same, settled]
    exact replaced ht rfl
  · rw [same]
    exact replaced ht rfl

/-- A task that calls its helper off rests as it did when it asked. -/
theorem rest?_abandon {key : PauseId} {helper : TaskId} {why : Failure}
    {rest : (Except Failure PauseId → κ) × Bool}
    (h : (s.abandon t key helper why).rest? other = some rest) :
    s.rest? other = some rest ∨ other = t ∧ s.resume? t = some rest.1 ∧ rest.2 = true := by
  have rests : ((s.cancel helper).suspend t (.leave key helper why)).rest? other = some rest := by
    unfold abandon at h
    simp only at h
    split at h <;> exact h
  rcases rest?_suspend rests with before | ⟨same, resumes, aimed⟩
  · exact .inl ((unmoved_cancel s helper).rested _ _ before)
  · exact .inr ⟨same, resume?_cancel s helper t ▸ resumes, aimed⟩

/-! ## Taking turns -/

theorem rested_goOn (s : Scheduler κ) (t : TaskId) (role : Role κ) (answer : Except Failure PauseId) :
    Rested s (s.goOn t role answer).1 := by
  cases role with
  | body => exact rested_self _
  | helper => exact rested_finish s t _

theorem rested_goOnWith (s : Scheduler κ) (t : TaskId) (role : Role κ) (key : PauseId) :
    Rested s (s.goOnWith t role key).1 := by
  cases role with
  | body => exact rested_of_eq rfl
  | helper => exact rested_finish s t _

theorem rested_resumeQueued {task : Task κ} (ht : s.task t = some task) (thrown : Bool) :
    Rested s ((s.start t task).resumeQueued t task.role thrown).1 := by
  refine (rested_start ht).trans ?_
  unfold resumeQueued
  split
  · exact rested_goOn _ _ _ _
  · cases role : task.role with
    | body resume => exact rested_of_eq rfl
    | helper key caller =>
      simp only
      split
      · exact (rested_finish ((s.start t task).take key) t (.ok ())).of_same rfl
      · intro other rest rests
        rcases rest?_suspend rests with before | ⟨-, resumes, -⟩
        · exact before
        · have none : (s.start t task).resume? t = none := by
            rw [resume?_of_task (task_start s t task)]
            simp only [role, Role.resume?]
          cases none.symm.trans resumes

theorem rested_resumeWaiting {task : Task κ} (ht : s.task t = some task) {wait : Wait}
    (waiting : task.status = .waiting wait) (thrown : Bool) :
    Rested s ((s.start t task).resumeWaiting t task.role wait thrown).1 := by
  have resumes : (s.start t task).resume? t = task.role.resume? := by
    rw [resume?_of_task (task_start s t task)]
  have start := rested_start ht
  have abandoned : ∀ key helper why timers, wait.aim.key? = some key →
      Rested s ({ s.start t task with timers }.abandon t key helper why) := by
    intro key helper why timers asked other rest rests
    rcases rest?_abandon rests with before | ⟨rfl, goes, aimed⟩
    · exact start _ _ before
    · have goes : task.role.resume? = some rest.1 := resumes.symm.trans goes
      rw [rest?_of_task ht]
      simp only [Task.rest?, goes, waiting, asked, Option.bind_some, Option.isSome_some, ← aimed]
  have gone : ∀ {s' : Scheduler κ}, s'.task = (s.start t task).task → Rested s s' :=
    fun same => start.trans (rested_of_eq same)
  unfold resumeWaiting
  simp only
  split
  next => exact (gone rfl).trans (rested_goOn _ _ _ _)
  next => exact (gone rfl).trans (rested_goOn _ _ _ _)
  next key =>
    split
    · refine Rested.trans ?_ (rested_goOn _ _ _ _)
      split
      · exact (gone rfl).trans (unmoved_wakeFirst _).rested
      · exact gone rfl
    · exact (gone rfl).trans (rested_goOnWith _ _ _ _)
  next key helper limit aims =>
    split
    · exact abandoned _ _ _ _ (by rw [aims]; rfl)
    · split
      · exact (gone rfl).trans (rested_goOnWith _ _ _ _)
      · exact (gone rfl).trans (rested_goOn _ _ _ _)
      · exact abandoned _ _ _ _ (by rw [aims]; rfl)
  next key helper why =>
    split
    · exact (gone rfl).trans (rested_goOn _ _ _ _)
    · split
      · split
        next freed same =>
          exact (start.trans ((unmoved_unlock same).rested.of_same rfl)).trans (rested_goOn _ _ _ _)
        next => exact (gone rfl).trans (rested_goOn _ _ _ _)
      · exact (gone rfl).trans (rested_goOn _ _ _ _)

theorem rested_takeTurn (s : Scheduler κ) (turn : Turn) : Rested s (s.takeTurn turn).1 := by
  cases turn with
  | signal t id =>
    unfold takeTurn
    simp only
    split
    · split
      · exact (unmoved_settle s t .met).rested
      · exact rested_self _
    · exact rested_self _
  | resume t =>
    unfold takeTurn
    simp only
    split
    next => exact rested_self _
    next task ht =>
      cases status : task.status with
      | queued => exact rested_resumeQueued ht _
      | waiting wait => exact rested_resumeWaiting ht status _
      | running | finished => exact rested_self _

theorem unmoved_nextTurn {turn : Turn} (next : s.nextTurn? = some (turn, s')) : Unmoved s s' := by
  unfold nextTurn? at next
  split at next
  · cases next
    exact unmoved_of_eq rfl
  · simp only at next
    split at next
    · cases next
    · cases next
      exact unmoved_of_eq rfl

/-! ### Who goes on -/

theorem goOn_eq_some {role : Role κ} {answer : Except Failure PauseId} {handover : Handover κ}
    (h : (s.goOn t role answer).2 = some handover) :
    ∃ resume, role.resume? = some resume ∧ handover = { resume, answer } := by
  cases role with
  | body resume => exact ⟨resume, rfl, (Option.some.inj h).symm⟩
  | helper => cases h

theorem goOnWith_eq_some {role : Role κ} {key : PauseId} {handover : Handover κ}
    (h : (s.goOnWith t role key).2 = some handover) :
    ∃ resume, role.resume? = some resume ∧
      handover = { resume, answer := .ok key, granted := some key } := by
  cases role with
  | body resume => exact ⟨resume, rfl, (Option.some.inj h).symm⟩
  | helper => cases h

theorem resumeQueued_eq_some {role : Role κ} {thrown : Bool} {handover : Handover κ}
    (h : (s.resumeQueued t role thrown).2 = some handover) : role.resume? = some handover.resume := by
  unfold resumeQueued at h
  split at h
  · obtain ⟨resume, resumes, rfl⟩ := goOn_eq_some h
    exact resumes
  · split at h
    · cases h
      rfl
    · split at h <;> cases h

/-- A task that has waited for the barrier goes on with a key that it was granted, or with a failure. -/
theorem resumeWaiting_eq_some {role : Role κ} {wait : Wait} {thrown : Bool} {handover : Handover κ}
    (h : (s.resumeWaiting t role wait thrown).2 = some handover) :
    role.resume? = some handover.resume ∧
      ∀ key, wait.aim.key?.isSome → handover.answer = .ok key → handover.granted = some key := by
  have failed : ∀ {s : Scheduler κ} {failure : Failure},
      (s.goOn t role (.error failure)).2 = some handover →
      role.resume? = some handover.resume ∧
        ∀ key, wait.aim.key?.isSome → handover.answer = .ok key → handover.granted = some key := by
    intro s failure h
    obtain ⟨resume, resumes, rfl⟩ := goOn_eq_some h
    exact ⟨resumes, nofun⟩
  have got : ∀ {s : Scheduler κ} {key : PauseId}, (s.goOnWith t role key).2 = some handover →
      role.resume? = some handover.resume ∧
        ∀ key, wait.aim.key?.isSome → handover.answer = .ok key → handover.granted = some key := by
    intro s key h
    obtain ⟨resume, resumes, rfl⟩ := goOnWith_eq_some h
    exact ⟨resumes, fun other _ same => by cases same; rfl⟩
  unfold resumeWaiting at h
  simp only at h
  split at h
  next aims =>
    obtain ⟨resume, resumes, rfl⟩ := goOn_eq_some h
    exact ⟨resumes, fun key asked => by simp [aims, Aim.key?] at asked⟩
  next aims =>
    obtain ⟨resume, resumes, rfl⟩ := goOn_eq_some h
    exact ⟨resumes, fun key asked => by simp [aims, Aim.key?] at asked⟩
  next =>
    split at h
    · exact failed h
    · exact got h
  next =>
    split at h
    · cases h
    · split at h
      · exact got h
      · exact failed h
      · cases h
  next =>
    split at h
    · exact failed h
    · split at h
      · split at h <;> exact failed h
      · exact failed h

/-- **Going on.** The task whose turn it is now rested before, goes on with what it rested with, and
gets a key in answer to a request for the barrier only if that key was granted. -/
theorem rest?_of_takeTurn {turn : Turn} {handover : Handover κ}
    (h : (s.takeTurn turn).2 = some (t, handover)) :
    turn = .resume t ∧ ∃ aimed, s.rest? t = some (handover.resume, aimed) ∧
      ∀ key, aimed = true → handover.answer = .ok key → handover.granted = some key := by
  cases turn with
  | signal =>
    unfold takeTurn at h
    simp only at h
    split at h <;> cases h
  | resume other =>
    unfold takeTurn at h
    simp only at h
    split at h
    next => cases h
    next task ht =>
      cases status : task.status with
      | queued =>
        simp only [status] at h
        obtain ⟨handover', same, goes⟩ := Option.map_eq_some_iff.mp h
        cases goes
        refine ⟨rfl, false, ?_, nofun⟩
        simp only [rest?_of_task ht, Task.rest?, resumeQueued_eq_some same, status, Option.bind_some]
      | waiting wait =>
        simp only [status] at h
        obtain ⟨handover', same, goes⟩ := Option.map_eq_some_iff.mp h
        cases goes
        obtain ⟨resumes, granted⟩ := resumeWaiting_eq_some same
        refine ⟨rfl, wait.aim.key?.isSome, ?_, granted⟩
        simp only [rest?_of_task ht, Task.rest?, resumes, status, Option.bind_some]
      | running | finished =>
        simp only [status] at h
        cases h

/-! ## Asking for a pause -/

theorem rested_setResume (running : s.status? t = some .running) (resume : Except Failure PauseId → κ) :
    Rested s (s.setResume t resume) := by
  obtain ⟨task, ht, status⟩ := task_of_status running
  unfold setResume
  rw [ht]
  refine rested_setTask ht fun rest rests => ?_
  simp [Task.rest?, status] at rests

theorem resume?_setResume (s : Scheduler κ) (t : TaskId) (resume : Except Failure PauseId → κ)
    {resume' : Except Failure PauseId → κ} (h : (s.setResume t resume).resume? t = some resume') :
    resume' = resume := by
  unfold setResume at h
  split at h
  next =>
    rw [resume?_setTask, if_pos rfl] at h
    exact (Option.some.inj h).symm
  next none => simp [resume?, none] at h

theorem resume?_spawnHelper {key : PauseId} {caller : TaskId} {resume : Except Failure PauseId → κ}
    (h : (s.spawn (.helper key caller)).1.resume? t = some resume) : s.resume? t = some resume := by
  have h : ({ s with size := s.size + 1 }.setTask s.size { role := .helper key caller }).resume? t =
    some resume := h
  rw [resume?_setTask] at h
  split at h
  · cases h
  · exact h

/-- A task that asks for a pause rests with what it goes on with, and every other one as before. -/
theorem rest?_of_await {pause : Pause} {rest : (Except Failure PauseId → κ) × Bool}
    (h : (s.await t pause).1.rest? other = some rest) :
    s.rest? other = some rest ∨
      other = t ∧ s.resume? t = some rest.1 ∧ (pause = .barrier → rest.2 = true) := by
  unfold await at h
  cases pause with
  | gate name =>
    simp only at h
    split at h
    · exact .inl h
    · exact (rest?_suspend h).imp id fun ⟨same, resumes, _⟩ => ⟨same, resumes, nofun⟩
  | sleep span =>
    simp only at h
    split at h
    · exact (rest?_yieldTurn h).imp id fun ⟨same, resumes, _⟩ => ⟨same, resumes, nofun⟩
    · exact (rest?_suspend h).imp id fun ⟨same, resumes, _⟩ => ⟨same, resumes, nofun⟩
  | barrier =>
    simp only at h
    split at h
    · split at h
      · exact .inl h
      · exact (rest?_suspend h).imp id fun ⟨same, resumes, aimed⟩ => ⟨same, resumes, fun _ => aimed⟩
    · split at h
      · exact .inl (rested_spawnHelper s _ _ _ _ h)
      · exact (rest?_suspend h).imp (rested_spawnHelper s _ _ _ _) fun ⟨same, resumes, aimed⟩ =>
          ⟨same, resume?_spawnHelper resumes, fun _ => aimed⟩

end Scheduler
end ActionFlow
