import ActionFlow.Proofs.Scheduler.Sharing

/-!
# Schedulers without anybody at the barrier

As long as nobody asks for the barrier, every task has a job to do and waits for a gate or a timer if it
waits. Waits are numbered as they begin, and a timer has the number of the wait that it was set for; so it
never rings for the wait of another task.

## Main results

* `Lockfree`: nobody is at the barrier, and whose timer is whose can be told by its number.
* `Lockfree.continues`: whatever begins no wait keeps it so.
* `Lockfree.await`, `Lockfree.spawn`: so do pauses and new tasks.
-/

namespace ActionFlow
namespace Scheduler

variable {κ : Type} {s s' : Scheduler κ} {t : TaskId} {task : Task κ}
  {keeps : TaskId → (Except Failure PauseId → κ) → Prop}

/-- Nobody is at the barrier. What the tasks go on with may be confined. -/
structure Lockfree (s : Scheduler κ) (keeps : TaskId → (Except Failure PauseId → κ) → Prop) : Prop where
  unlocked : ∀ {t task}, s.task t = some task → task.Unlocked
  resumes : ∀ {t task resume}, s.task t = some task → task.role = .body resume → keeps t resume
  numbered : ∀ {t task wait}, s.task t = some task → task.status = .waiting wait → wait.id < s.waits
  timers : ∀ timer ∈ s.timers, timer.wait < s.waits
  own : ∀ timer ∈ s.timers, ∀ {t task wait}, s.task t = some task → task.status = .waiting wait →
    timer.wait = wait.id → timer.task = t

/-- Nobody is there in the beginning. -/
theorem lockfree_begin (limit : Option Value) (clock : Binary64) (opened : String → Bool) :
    ({ limit, clock, opened } : Scheduler κ).Lockfree keeps where
  unlocked ht := by cases ht
  resumes ht := by cases ht
  numbered ht := by cases ht
  timers _ member := by cases member
  own _ member := by cases member

/-! ## What begins no wait -/

/-- A scheduler goes on without any task beginning to wait. -/
structure Continues (s s' : Scheduler κ) : Prop where
  known : ∀ {t}, (s.task t).isSome → (s'.task t).isSome
  task : ∀ {t task'}, s'.task t = some task' → ∃ task, s.task t = some task ∧ task'.role = task.role ∧
    ∀ wait', task'.status = .waiting wait' →
      ∃ wait, task.status = .waiting wait ∧ wait'.id = wait.id ∧ wait'.aim = wait.aim
  timers : ∀ timer ∈ s'.timers, timer ∈ s.timers
  waits : s.waits ≤ s'.waits

/-- Whatever begins no wait keeps everybody from the barrier. -/
theorem Lockfree.continues (h : s.Lockfree keeps) (goes : s.Continues s') : s'.Lockfree keeps where
  unlocked {t task'} ht' := by
    obtain ⟨task, ht, role, waits⟩ := goes.task ht'
    obtain ⟨body, aims⟩ := h.unlocked ht
    refine ⟨role ▸ body, fun wait' status' => ?_⟩
    obtain ⟨wait, status, -, aim⟩ := waits wait' status'
    exact aim ▸ aims wait status
  resumes ht' role' := by
    obtain ⟨task, ht, role, -⟩ := goes.task ht'
    exact h.resumes ht (role.symm.trans role')
  numbered ht' status' := by
    obtain ⟨task, ht, -, waits⟩ := goes.task ht'
    obtain ⟨wait, status, id, -⟩ := waits _ status'
    exact id ▸ Nat.lt_of_lt_of_le (h.numbered ht status) goes.waits
  timers timer member := Nat.lt_of_lt_of_le (h.timers timer (goes.timers timer member)) goes.waits
  own timer member {t task' wait'} ht' status' same := by
    obtain ⟨task, ht, -, waits⟩ := goes.task ht'
    obtain ⟨wait, status, id, -⟩ := waits wait' status'
    exact h.own timer (goes.timers timer member) ht status (same.trans id)

namespace Continues

/-- Nothing is done to the tasks. -/
theorem of_tasks (tasks : s'.task = s.task) (timers : ∀ timer ∈ s'.timers, timer ∈ s.timers)
    (waits : s.waits ≤ s'.waits) : s.Continues s' where
  known known := tasks ▸ known
  task ht := ⟨_, tasks ▸ ht, rfl, fun wait status => ⟨wait, status, rfl, rfl⟩⟩
  timers := timers
  waits := waits

theorem refl (s : Scheduler κ) : s.Continues s := of_tasks rfl (fun _ => id) (Nat.le_refl _)

theorem trans {s'' : Scheduler κ} (h : s.Continues s') (h' : s'.Continues s'') : s.Continues s'' where
  known known := h'.known (h.known known)
  task ht'' := by
    obtain ⟨task', ht', role', waits'⟩ := h'.task ht''
    obtain ⟨task, ht, role, waits⟩ := h.task ht'
    refine ⟨task, ht, role'.trans role, fun wait'' status'' => ?_⟩
    obtain ⟨wait', status', id', aim'⟩ := waits' wait'' status''
    obtain ⟨wait, status, id, aim⟩ := waits wait' status'
    exact ⟨wait, status, id'.trans id, aim'.trans aim⟩
  timers timer member := h.timers timer (h'.timers timer member)
  waits := Nat.le_trans h.waits h'.waits

/-- A task is replaced by one with the same role that waits for nothing new. -/
theorem setTask (ht : s.task t = some task) {task' : Task κ} (role : task'.role = task.role)
    (waits : ∀ wait', task'.status = .waiting wait' →
      ∃ wait, task.status = .waiting wait ∧ wait'.id = wait.id ∧ wait'.aim = wait.aim) :
    s.Continues (s.setTask t task') where
  known {other} known := by
    simp only [Scheduler.setTask, amend]
    split
    · rfl
    · exact known
  task {other other'} ht' := by
    simp only [Scheduler.setTask, amend] at ht'
    split at ht'
    next here =>
      cases ht'
      exact ⟨task, here ▸ ht, role, waits⟩
    next => exact ⟨other', ht', rfl, fun wait status => ⟨wait, status, rfl, rfl⟩⟩
  timers _ := id
  waits := Nat.le_refl _

theorem push (s : Scheduler κ) (turn : Turn) : s.Continues (s.push turn) :=
  of_tasks rfl (fun _ => id) (Nat.le_refl _)

theorem ring (s : Scheduler κ) (timer : Timer) : s.Continues (s.ring timer) :=
  of_tasks rfl (fun _ => List.mem_of_mem_erase) (Nat.le_refl _)

theorem settle (s : Scheduler κ) (t : TaskId) (signal : Signal) : s.Continues (s.settle t signal) := by
  unfold Scheduler.settle
  split
  next task ht =>
    split
    next wait status =>
      split
      · have settled : s.Continues (s.setTask t { task with status := .waiting { wait with signal } }) := by
          refine setTask ht rfl fun wait' status' => ?_
          cases status'
          exact ⟨wait, status, rfl, rfl⟩
        exact settled.trans (push _ _)
      · exact refl s
    next => exact refl s
  next => exact refl s

theorem cancel (s : Scheduler κ) (t : TaskId) : s.Continues (s.cancel t) := by
  rcases cancel_cases s t with ⟨same, -⟩ | ⟨wait, -, -, same⟩ | ⟨task, ht, same⟩
  · rw [same]
    exact refl s
  · rw [same]
    exact settle s t _
  · rw [same]
    exact setTask ht rfl fun wait status => ⟨wait, status, rfl, rfl⟩

theorem setGate (s : Scheduler κ) (gate : String) (opened : Bool) : s.Continues (s.setGate gate opened) := by
  have settled (waiting : List TaskId) (now : Scheduler κ) :
      now.Continues (waiting.foldl (fun now t => now.settle t .met) now) := by
    induction waiting generalizing now with
    | nil => exact refl now
    | cons first rest ih => exact (settle now first .met).trans (ih _)
  have changed : s.Continues { s with opened := amend s.opened gate opened } :=
    of_tasks rfl (fun _ => id) (Nat.le_refl _)
  unfold Scheduler.setGate
  simp only
  split
  · exact changed.trans (settled _ _)
  · exact changed

theorem yieldTurn (s : Scheduler κ) (t : TaskId) : s.Continues (s.yieldTurn t) := by
  unfold Scheduler.yieldTurn
  split
  next task ht =>
    have queued : s.Continues (s.setTask t { task with status := .queued }) :=
      setTask ht rfl fun _ status => by cases status
    exact queued.trans (push _ _)
  next => exact refl s

theorem finish (unlocked : ∀ task, s.task t = some task → task.Unlocked) (ending : Except Failure Unit) :
    s.Continues (s.finish t ending) := by
  cases ht : s.task t with
  | none =>
    simp only [Scheduler.finish, ht]
    exact refl s
  | some task =>
    rw [finish_eq ht (unlocked task ht)]
    exact setTask ht rfl fun _ status => by cases status

theorem leaveWait (s : Scheduler κ) (t : TaskId) (wait : Wait) : s.Continues (s.leaveWait t wait) := by
  unfold Scheduler.leaveWait
  split <;> exact of_tasks rfl (fun _ member => (List.mem_filter.mp member).1) (Nat.le_refl _)

/-- **A turn** begins no wait. -/
theorem takeTurn {turn : Turn} (unlocked : ∀ task, s.task turn.task = some task → task.Unlocked) :
    s.Continues (s.takeTurn turn).1 := by
  cases turn with
  | signal t id =>
    simp only [Scheduler.takeTurn]
    split
    · simp only
      split
      · exact settle s t _
      · exact refl s
    · exact refl s
  | resume t =>
    cases ht : s.task t with
    | none =>
      simp only [Scheduler.takeTurn, ht]
      exact refl s
    | some task =>
      obtain ⟨⟨resume, role⟩, aims⟩ := unlocked task ht
      have started : s.Continues (s.start t task) := setTask ht rfl fun _ status => by cases status
      cases status : task.status with
      | queued =>
        rw [takeTurn_queued ht role status]
        refine started.trans (of_tasks rfl (fun _ => id) ?_)
        simp only
        split
        · exact Nat.le_refl _
        · exact Nat.le_succ _
      | waiting wait =>
        rw [takeTurn_waiting ht role status (aims wait status)]
        exact started.trans (leaveWait _ t wait)
      | running =>
        rw [takeTurn_idle ht (.inl status)]
        exact refl s
      | finished ending =>
        rw [takeTurn_idle ht (.inr ⟨ending, status⟩)]
        exact refl s

end Continues

/-- Whose job goes on in a turn: it is what the task was to go on with, and no key to the barrier comes with
it. -/
theorem handover_of_takeTurn {turn : Turn} (unlocked : ∀ task, s.task turn.task = some task → task.Unlocked)
    {handover : Handover κ} (went : (s.takeTurn turn).2 = some (t, handover)) :
    t = turn.task ∧ handover.granted = none ∧
      ∃ task, s.task t = some task ∧ task.role = .body handover.resume := by
  cases turn with
  | signal own id =>
    simp only [Scheduler.takeTurn] at went
    split at went <;> cases went
  | resume own =>
    cases ht : s.task own with
    | none =>
      simp only [Scheduler.takeTurn, ht] at went
      cases went
    | some task =>
      obtain ⟨⟨resume, role⟩, aims⟩ := unlocked task ht
      cases status : task.status with
      | queued =>
        rw [takeTurn_queued ht role status] at went
        cases went
        exact ⟨rfl, rfl, task, ht, role⟩
      | waiting wait =>
        rw [takeTurn_waiting ht role status (aims wait status)] at went
        cases went
        exact ⟨rfl, rfl, task, ht, role⟩
      | running =>
        rw [takeTurn_idle ht (.inl status)] at went
        cases went
      | finished ending =>
        rw [takeTurn_idle ht (.inr ⟨ending, status⟩)] at went
        cases went

/-! ## New tasks and new waits -/

namespace Lockfree

variable (h : s.Lockfree keeps)

include h

/-- A task takes its place among the others, if its wait is its own. -/
theorem setTask (unlocked : task.Unlocked) (resumes : ∀ resume, task.role = .body resume → keeps t resume)
    (numbered : ∀ wait, task.status = .waiting wait → wait.id < s.waits ∧
      ∀ timer ∈ s.timers, timer.wait = wait.id → timer.task = t) :
    (s.setTask t task).Lockfree keeps := by
  have known {other : TaskId} {task' : Task κ} (ht : (s.setTask t task).task other = some task') :
      other = t ∧ task' = task ∨ s.task other = some task' := by
    simp only [Scheduler.setTask, amend] at ht
    split at ht
    next here => exact .inl ⟨here, (Option.some.inj ht).symm⟩
    next => exact .inr ht
  refine ⟨fun ht => ?_, fun ht role => ?_, fun ht status => ?_, h.timers,
    fun timer member _ _ _ ht status same => ?_⟩
  all_goals rcases known ht with ⟨rfl, rfl⟩ | ht
  · exact unlocked
  · exact h.unlocked ht
  · exact resumes _ role
  · exact h.resumes ht role
  · exact (numbered _ status).1
  · exact h.numbered ht status
  · exact (numbered _ status).2 timer member same
  · exact h.own timer member ht status same

theorem spawn {resume : Except Failure PauseId → κ} (confined : keeps s.size resume) :
    (s.spawn (.body resume)).1.Lockfree keeps := by
  have larger : { s with size := s.size + 1 }.Lockfree keeps :=
    h.continues (.of_tasks rfl (fun _ => id) (Nat.le_refl _))
  refine (larger.setTask ⟨⟨resume, rfl⟩, fun _ status => by cases status⟩ ?_ ?_).continues (.push _ _)
  · rintro _ ⟨⟩
    exact confined
  · exact fun _ status => by cases status

theorem setResume {resume : Except Failure PauseId → κ} (confined : keeps t resume) :
    (s.setResume t resume).Lockfree keeps := by
  unfold Scheduler.setResume
  split
  next task ht =>
    refine h.setTask ⟨⟨resume, rfl⟩, (h.unlocked ht).aims⟩ ?_ fun wait status => ⟨h.numbered ht status, ?_⟩
    · rintro _ ⟨⟩
      exact confined
    · exact fun timer member same => h.own timer member ht status same
  next => exact h

/-- A task begins to wait, for a gate or with a timer that is set now. -/
theorem suspend (known : (s.task t).isSome) {aim : Aim} (aims : aim.key? = none) {timers : List Timer}
    {atGates : List TaskId}
    (new : ∀ timer ∈ timers, timer ∈ s.timers ∨ timer.task = t ∧ timer.wait = s.waits) :
    ({ s with timers, atGates }.suspend t aim).Lockfree keeps := by
  obtain ⟨task, ht⟩ := Option.isSome_iff_exists.mp known
  have counted : { s with timers, atGates, waits := s.waits + 1 }.Lockfree keeps := by
    refine ⟨h.unlocked, h.resumes, fun ht status => Nat.lt_succ_of_lt (h.numbered ht status),
      fun timer member => ?_, fun timer member _ _ _ ht status same => ?_⟩
    · rcases new timer member with old | ⟨-, now⟩
      · exact Nat.lt_succ_of_lt (h.timers timer old)
      · exact now ▸ Nat.lt_succ_self _
    · rcases new timer member with old | ⟨-, now⟩
      · exact h.own timer old ht status same
      · exact absurd (h.numbered ht status) (same ▸ now ▸ Nat.lt_irrefl _)
  have fresh : ∀ timer ∈ timers, timer.wait = s.waits → timer.task = t := fun timer member same => by
    rcases new timer member with old | ⟨own, -⟩
    · exact absurd (h.timers timer old) (same ▸ Nat.lt_irrefl _)
    · exact own
  have waiting (signal : Signal) (asked : Bool) :
      ({ s with timers, atGates, waits := s.waits + 1 }.setTask t { task with
        status := .waiting { id := s.waits, aim, signal }
        cancelAsked := asked }).Lockfree keeps := by
    refine counted.setTask ⟨(h.unlocked ht).body, ?_⟩ (fun _ role => h.resumes ht role) ?_
    · rintro _ ⟨⟩
      exact aims
    · rintro _ ⟨⟩
      exact ⟨Nat.lt_succ_self _, fresh⟩
  simp only [Scheduler.suspend, ht]
  split
  · exact (waiting .cancelled false).continues (.push _ _)
  · exact waiting .pending _

/-- **A pause** that is not for the barrier. -/
theorem await (known : (s.task t).isSome) {pause : Pause} (elsewhere : pause ≠ .barrier) :
    (s.await t pause).1.Lockfree keeps := by
  cases pause with
  | barrier => exact absurd rfl elsewhere
  | gate name =>
    simp only [Scheduler.await]
    split
    · exact h.continues (.of_tasks rfl (fun _ => id) (Nat.le_succ _))
    · exact h.suspend known rfl fun _ => .inl
  | sleep span =>
    simp only [Scheduler.await]
    split
    · exact h.continues (.yieldTurn s t)
    · refine h.suspend known rfl fun timer member => ?_
      rcases List.mem_cons.mp ((Timer.perm_insert _ s.timers).mem_iff.mp member) with rfl | old
      · exact .inr ⟨rfl, rfl⟩
      · exact .inl old

end Lockfree

theorem waits_le_suspend (s : Scheduler κ) (t : TaskId) (aim : Aim) : s.waits ≤ (s.suspend t aim).waits := by
  unfold suspend
  split
  · simp only
    split <;> exact Nat.le_succ _
  · exact Nat.le_refl _

/-- Pauses are numbered upwards. -/
theorem waits_le_await (s : Scheduler κ) (t : TaskId) {pause : Pause} (elsewhere : pause ≠ .barrier) :
    s.waits ≤ (s.await t pause).1.waits := by
  cases pause with
  | barrier => exact absurd rfl elsewhere
  | gate name =>
    simp only [await]
    split
    · exact Nat.le_succ _
    · exact waits_le_suspend { s with atGates := s.atGates ++ [t] } t (.gate name)
  | sleep span =>
    simp only [await]
    split
    · exact (Continues.yieldTurn s t).waits
    · have later (timers : List Timer) : s.waits ≤ ({ s with timers }.suspend t .time).waits :=
        waits_le_suspend { s with timers } t .time
      exact later _

theorem isSome_spawn (known : (s.task t).isSome) (role : Role κ) : ((s.spawn role).1.task t).isSome := by
  show (amend s.task s.size (some { role }) t).isSome
  unfold amend
  split
  · rfl
  · exact known

theorem isSome_setResume (known : (s.task t).isSome) (resume : Except Failure PauseId → κ) :
    ((s.setResume t resume).task t).isSome := by
  obtain ⟨task, ht⟩ := Option.isSome_iff_exists.mp known
  rw [task_setResume ht]
  rfl

theorem waits_setResume (s : Scheduler κ) (t : TaskId) (resume : Except Failure PauseId → κ) :
    (s.setResume t resume).waits = s.waits := by
  unfold setResume
  split <;> rfl

/-- Who goes on at once behind a pause has waited for nothing. -/
theorem task_await_of_answer {pause : Pause} (elsewhere : pause ≠ .barrier) {answer : Except Failure PauseId}
    (awaits : (s.await t pause).2 = some answer) : (s.await t pause).1.task = s.task := by
  cases pause with
  | barrier => exact absurd rfl elsewhere
  | gate name =>
    simp only [await] at awaits ⊢
    split at awaits
    next isOpen => rw [if_pos isOpen]
    next => cases awaits
  | sleep span =>
    simp only [await] at awaits
    split at awaits <;> cases awaits

end Scheduler
end ActionFlow
