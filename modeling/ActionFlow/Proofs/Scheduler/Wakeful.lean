import ActionFlow.Proofs.Scheduler.Stakes

/-!
# Nobody sleeps through

Whoever is ready has a turn coming, and whoever waits for a helper that has ended is going to be told.
Whatever the scheduler does, and however requests are given up, no such turn gets lost.

## Main results

* `Wakeful`: the invariant.
* `Wakeful.change`: what one task has to keep to when its status changes.
* `Wakeful.await`, `Wakeful.takeTurn`: asking for a pause and taking a turn keep the invariant.
-/

namespace ActionFlow
namespace Scheduler

variable {κ : Type}

/-! ## Who is to be told -/

/-- Nobody sleeps through what comes to him. `running` is the task whose turn it is, and `dealt` are
turns that are taken before those that are queued. -/
structure Wakeful (s : Scheduler κ) (running : Option TaskId) (dealt : List Turn) : Prop where
  ready : ∀ {t}, s.Ready t → .resume t ∈ dealt ++ s.turns
  running : ∀ {t}, s.status? t = some .running → running = some t
  /-- A task is told of the end of its helper. -/
  told : ∀ {t wait helper ending}, s.status? t = some (.waiting wait) → wait.signal = .pending →
    wait.aim.helper? = some helper → s.status? helper = some (.finished ending) →
    .signal t wait.id ∈ dealt ++ s.turns

/-- Whether those who wait for a helper wait for one of their own. -/
def Followed (s : Scheduler κ) : Prop :=
  ∀ ⦃t wait helper⦄, s.status? t = some (.waiting wait) → wait.aim.helper? = some helper →
    ∃ key, s.helper? helper = some (key, t)

theorem Sound.followed {s : Scheduler κ} {hand : Hand} {trace : List Deed} (h : s.Sound hand trace) :
    s.Followed := by
  intro t wait helper waiting aims
  cases helps : s.helper? t with
  | some own =>
    obtain ⟨key, caller⟩ := own
    have inLine := h.orderly.helperWaits helps waiting
    rw [inLine] at aims
    cases aims
  | none =>
    cases named : wait.aim.key? with
    | none => cases aim : wait.aim <;> simp [aim, Aim.key?, Aim.helper?] at named aims
    | some key =>
      exact ⟨key, h.keyed.caller ⟨helps, by simp [named], .inl ⟨wait, waiting, rfl⟩⟩ named aims⟩

/-- Nobody follows anybody new. -/
theorem Followed.of_aims {s s' : Scheduler κ} (h : s.Followed)
    (helper : ∀ t, s'.helper? t = s.helper? t)
    (aims : ∀ t wait, s'.status? t = some (.waiting wait) →
      ∃ before, s.status? t = some (.waiting before) ∧ before.aim = wait.aim) : s'.Followed := by
  intro t wait own waiting follows
  obtain ⟨before, was, same⟩ := aims t wait waiting
  rw [helper]
  exact h was (same ▸ follows)

theorem Followed.wakeFirst {s : Scheduler κ} (h : s.Followed) : s.wakeFirst.Followed := by
  refine h.of_aims (fades_wakeFirst s).helper fun t wait waiting => ?_
  unfold Scheduler.wakeFirst at waiting
  split at waiting
  · exact ⟨wait, waiting, rfl⟩
  · exact aim_of_settle waiting

theorem Followed.start {s : Scheduler κ} (h : s.Followed) {t : TaskId} {task : Task κ}
    (ht : s.task t = some task) : (s.start t task).Followed := by
  refine h.of_aims (fades_start ht).helper fun other wait waiting => ?_
  rw [Scheduler.start, status?_setTask] at waiting
  split at waiting
  · cases waiting
  · exact ⟨wait, waiting, rfl⟩

/-! ## The status of the others -/

section Others

variable {s : Scheduler κ} {t other : TaskId}

theorem status?_suspend_of_ne (different : other ≠ t) (aim : Aim) :
    (s.suspend t aim).status? other = s.status? other := by
  unfold suspend
  split
  · simp only
    split
    · rw [status?_push, status?_setTask, if_neg different]
      rfl
    · rw [status?_setTask, if_neg different]
      rfl
  · rfl

theorem status?_settle_of_ne (different : other ≠ t) (signal : Signal) :
    (s.settle t signal).status? other = s.status? other := by
  simp only [status?, settle_other different]

theorem status?_finish_of_ne (different : other ≠ t) (ending : Except Failure Unit) :
    (s.finish t ending).status? other = s.status? other := by
  have ended : ∀ task : Task κ, (s.setTask t task).status? other = s.status? other := fun task => by
    rw [status?_setTask, if_neg different]
  unfold finish
  split
  · simp only
    split
    · exact ended _
    · split
      · split
        · exact ended _
        · exact ended _
      · exact ended _
  · rfl

/-- What has been settled stays so. -/
theorem ready_settle {signal : Signal} (settled : signal ≠ .pending) (ready : s.Ready other) :
    (s.settle t signal).Ready other := by
  by_cases same : other = t
  · subst same
    by_cases waits : ∃ wait, s.status? other = some (.waiting wait) ∧ wait.signal = .pending
    · obtain ⟨wait, waiting, pending⟩ := waits
      obtain ⟨task, -, settles⟩ := settle_eq waiting pending signal
      refine .inr ⟨{ wait with signal }, ?_, settled⟩
      rw [settles, status?_push, status?_setTask, if_pos rfl]
    · rwa [settle_eq_self waits]
  · unfold Ready
    rwa [status?_settle_of_ne same]

theorem ready_cancel (ready : s.Ready other) : (s.cancel t).Ready other := by
  rcases cancel_cases s t with ⟨same, -⟩ | ⟨_, _, _, same⟩ | ⟨task, ht, same⟩
  · rwa [same]
  · rw [same]
    exact ready_settle nofun ready
  · have kept : (s.cancel t).status? other = s.status? other := by
      rw [same, status?_setTask]
      split
      next mine => rw [mine, status_of_task ht]
      next => rfl
    unfold Ready
    rwa [kept]

theorem status?_cancel_of_ne (different : other ≠ t) : (s.cancel t).status? other = s.status? other := by
  rcases cancel_cases s t with ⟨same, -⟩ | ⟨_, _, _, same⟩ | ⟨task, ht, same⟩
  · rw [same]
  · rw [same, status?_settle_of_ne different]
  · rw [same, status?_setTask, if_neg different]

/-- Cancelling ends nobody. -/
theorem finished_of_cancel {ending : Except Failure Unit}
    (ended : (s.cancel t).status? t = some (.finished ending)) :
    s.status? t = some (.finished ending) := by
  rcases cancel_cases s t with ⟨same, -⟩ | ⟨wait, waiting, pending, same⟩ | ⟨task, ht, same⟩
  · rwa [same] at ended
  · obtain ⟨task, -, settles⟩ := settle_eq waiting pending .cancelled
    rw [same, settles, status?_push, status?_setTask, if_pos rfl] at ended
    cases ended
  · rw [same, status?_setTask, if_pos rfl] at ended
    rw [status_of_task ht]
    exact ended

theorem ready_settleAll (waiting : List TaskId) (ready : s.Ready other) :
    (waiting.foldl (fun now t => now.settle t .met) s).Ready other := by
  induction waiting generalizing s with
  | nil => exact ready
  | cons first rest ih => exact ih (ready_settle nofun ready)

end Others

/-! ## One task at a time -/

namespace Wakeful

variable {s s' : Scheduler κ} {running running' : Option TaskId} {dealt dealt' : List Turn} {t : TaskId}

/-- What touches no task's status, and drops no turn. -/
theorem frame (h : s.Wakeful running dealt) (status : ∀ t, s'.status? t = s.status? t)
    (turns : ∀ turn ∈ dealt ++ s.turns, turn ∈ dealt' ++ s'.turns) : s'.Wakeful running dealt' where
  ready {t} ready := by
    unfold Ready at ready
    rw [status] at ready
    exact turns _ (h.ready ready)
  running {t} runs := h.running (status t ▸ runs)
  told {t _ helper _} waiting pending aims ended :=
    turns _ (h.told (status t ▸ waiting) pending aims (status helper ▸ ended))

/-- **One task at a time.** What a task has to keep to whose status changes, while the others stay as
they are and no turn of theirs is dropped. -/
theorem change (h : s.Wakeful running dealt)
    (others : ∀ other, other ≠ t → s'.status? other = s.status? other)
    (turns : ∀ turn ∈ dealt ++ s.turns, turn ≠ .resume t → turn ∈ dealt' ++ s'.turns)
    (ready : s'.Ready t → .resume t ∈ dealt' ++ s'.turns)
    (runs : s'.status? t = some .running → running' = some t)
    (run : ∀ other, other ≠ t → running = some other → running' = some other)
    (told : ∀ wait helper ending, s'.status? t = some (.waiting wait) → wait.signal = .pending →
      wait.aim.helper? = some helper → s'.status? helper = some (.finished ending) →
      .signal t wait.id ∈ dealt' ++ s'.turns)
    (ended : ∀ ending, s'.status? t = some (.finished ending) → ∀ other wait, other ≠ t →
      s.status? other = some (.waiting wait) → wait.signal = .pending → wait.aim.helper? = some t →
      .signal other wait.id ∈ dealt' ++ s'.turns) : s'.Wakeful running' dealt' where
  ready {other} readyNow := by
    by_cases same : other = t
    · subst same
      exact ready readyNow
    · unfold Ready at readyNow
      rw [others other same] at readyNow
      refine turns _ (h.ready readyNow) fun mine => ?_
      cases mine
      exact same rfl
  running {other} runsNow := by
    by_cases same : other = t
    · subst same
      exact runs runsNow
    · exact run other same (h.running (others other same ▸ runsNow))
  told {other wait helper ending} waiting pending aims endedNow := by
    by_cases same : other = t
    · subst same
      exact told wait helper ending waiting pending aims endedNow
    · rw [others other same] at waiting
      by_cases mine : helper = t
      · subst mine
        exact ended ending endedNow other wait same waiting pending aims
      · rw [others helper mine] at endedNow
        exact turns _ (h.told waiting pending aims endedNow) nofun

/-! ## What goes on around the tasks -/

theorem mem_queued {turn : Turn} {turns more : List Turn} (h : turn ∈ dealt ++ turns) :
    turn ∈ dealt ++ (turns ++ more) := by
  rw [← List.append_assoc]
  exact List.mem_append_left _ h

theorem mem_last (turns : List Turn) (turn : Turn) : turn ∈ dealt ++ (turns ++ [turn]) := by
  rw [← List.append_assoc]
  exact List.mem_append_right _ (List.mem_singleton_self turn)

theorem settle (h : s.Wakeful running dealt) (t : TaskId) (signal : Signal) :
    (s.settle t signal).Wakeful running dealt := by
  by_cases waits : ∃ wait, s.status? t = some (.waiting wait) ∧ wait.signal = .pending
  · obtain ⟨wait, waiting, pending⟩ := waits
    obtain ⟨task, ht, same⟩ := settle_eq waiting pending signal
    have now : (s.settle t signal).status? t = some (.waiting { wait with signal }) := by
      rw [same, status?_push, status?_setTask, if_pos rfl]
    have turns : (s.settle t signal).turns = s.turns ++ [.resume t] := by
      rw [same, turns_push]
      rfl
    refine h.change (fun other different => status?_settle_of_ne different signal) ?_ ?_ ?_
      (fun _ _ => id) ?_ ?_
    · intro turn queued _
      rw [turns]
      exact mem_queued queued
    · intro _
      rw [turns]
      exact mem_last s.turns _
    · intro runs
      cases now.symm.trans runs
    · intro other helper ending waits _ aims ended
      cases now.symm.trans waits
      have different : helper ≠ t := by
        rintro rfl
        cases now.symm.trans ended
      rw [status?_settle_of_ne different] at ended
      have was := h.told waiting pending aims ended
      rw [turns]
      exact mem_queued was
    · intro ending ended
      cases now.symm.trans ended
  · rw [settle_eq_self waits]
    exact h

theorem cancel (h : s.Wakeful running dealt) (t : TaskId) : (s.cancel t).Wakeful running dealt := by
  rcases cancel_cases s t with ⟨same, -⟩ | ⟨_, _, _, same⟩ | ⟨task, ht, same⟩
  · rw [same]
    exact h
  · rw [same]
    exact h.settle t .cancelled
  · rw [same]
    refine h.frame (fun other => ?_) fun _ => id
    rw [status?_setTask]
    split
    next mine => rw [mine, status_of_task ht]
    next => rfl

theorem wakeFirst (h : s.Wakeful running dealt) : s.wakeFirst.Wakeful running dealt := by
  unfold Scheduler.wakeFirst
  split
  · exact h
  · exact h.settle _ .met

theorem unlock (h : s.Wakeful running dealt) {freed : Scheduler κ} (frees : s.unlock = .ok freed) :
    freed.Wakeful running dealt := by
  unfold Scheduler.unlock at frees
  split at frees
  · cases frees
    have free : { s with holder := none }.Wakeful running dealt := h.frame (fun _ => rfl) fun _ => id
    exact free.wakeFirst
  · cases frees

theorem release (h : s.Wakeful running dealt) (key : PauseId) :
    (s.release key).1.Wakeful running dealt := by
  unfold Scheduler.release
  split
  · have spent : { s with keys := s.keys.erase key }.Wakeful running dealt :=
      h.frame (fun _ => rfl) fun _ => id
    simp only
    split
    next freed frees => exact spent.unlock frees
    next => exact spent
  · exact h

theorem settleAll (h : s.Wakeful running dealt) (waiting : List TaskId) :
    (waiting.foldl (fun now t => now.settle t .met) s).Wakeful running dealt := by
  induction waiting generalizing s with
  | nil => exact h
  | cons first rest ih => exact ih (h.settle first .met)

theorem setGate (h : s.Wakeful running dealt) (gate : String) (opened : Bool) :
    (s.setGate gate opened).Wakeful running dealt := by
  have changed : { s with opened := amend s.opened gate opened }.Wakeful running dealt :=
    h.frame (fun _ => rfl) fun _ => id
  unfold Scheduler.setGate
  simp only
  split
  · exact changed.settleAll _
  · exact changed

theorem spawn (h : s.Wakeful running dealt) (role : Role κ) :
    (s.spawn role).1.Wakeful running dealt := by
  have now : (s.spawn role).1.status? s.size = some .queued := by
    rw [status?_spawn, if_pos rfl]
  have turns : (s.spawn role).1.turns = s.turns ++ [.resume s.size] := by
    simp only [Scheduler.spawn, turns_push]
    rfl
  refine h.change (t := s.size) (fun other different => ?_) ?_ ?_ ?_ (fun _ _ => id) ?_ ?_
  · rw [status?_spawn, if_neg different]
  · intro turn queued _
    rw [turns]
    exact mem_queued queued
  · intro _
    rw [turns]
    exact mem_last s.turns _
  · intro runs
    cases now.symm.trans runs
  · intro wait helper ending waits
    cases now.symm.trans waits
  · intro ending ended
    cases now.symm.trans ended

/-! ## The task whose turn it is -/

theorem start (h : s.Wakeful none [.resume t]) (task : Task κ) : (s.start t task).Wakeful (some t) [] := by
  have now : (s.start t task).status? t = some .running := by
    rw [Scheduler.start, status?_setTask, if_pos rfl]
  refine h.change (t := t) (fun other different => ?_) ?_ ?_ (fun _ => rfl) (fun _ _ none => by cases none)
    ?_ ?_
  · rw [Scheduler.start, status?_setTask, if_neg different]
  · intro turn queued other
    rcases List.mem_append.mp queued with dealt | queued
    · exact absurd (List.mem_singleton.mp dealt) other
    · exact queued
  · rintro (queued | ⟨wait, waits, -⟩)
    · cases now.symm.trans queued
    · cases now.symm.trans waits
  · intro wait helper ending waits
    cases now.symm.trans waits
  · intro ending ended
    cases now.symm.trans ended

/-- How a task waits that was just suspended. -/
theorem suspended {task : Task κ} (ht : s.task t = some task) (aim : Aim) : ∃ signal more,
    (s.suspend t aim).status? t = some (.waiting { id := s.waits, aim, signal }) ∧
      (s.suspend t aim).turns = s.turns ++ more ∧ (signal ≠ .pending → .resume t ∈ more) := by
  unfold Scheduler.suspend
  rw [ht]
  simp only
  split
  · refine ⟨.cancelled, [.resume t], ?_, ?_, fun _ => List.mem_singleton_self _⟩
    · rw [status?_push, status?_setTask, if_pos rfl]
    · rw [turns_push]
      rfl
  · refine ⟨.pending, [], ?_, (List.append_nil _).symm, fun settled => absurd rfl settled⟩
    rw [status?_setTask, if_pos rfl]

/-- The task whose turn it is waits; it is told of what has come already. -/
theorem suspend (h : s.Wakeful (some t) []) {task : Task κ} (ht : s.task t = some task) (aim : Aim)
    {after : Scheduler κ} (status : ∀ other, after.status? other = (s.suspend t aim).status? other)
    (turns : ∀ turn ∈ (s.suspend t aim).turns, turn ∈ after.turns)
    (told : ∀ helper ending, aim.helper? = some helper → s.status? helper = some (.finished ending) →
      .signal t s.waits ∈ after.turns) : after.Wakeful none [] := by
  obtain ⟨signal, more, now, queued, due⟩ := suspended ht aim
  have waits := (status t).trans now
  have others : ∀ other, other ≠ t → after.status? other = s.status? other := fun other different =>
    (status other).trans (status?_suspend_of_ne different aim)
  refine h.change others (fun turn member _ => ?_) ?_ ?_ ?_ ?_ ?_
  · exact turns turn (queued ▸ List.mem_append_left _ member)
  · rintro (ready | ⟨wait, waiting, settled⟩)
    · cases waits.symm.trans ready
    · cases waits.symm.trans waiting
      exact turns _ (queued ▸ List.mem_append_right _ (due settled))
  · intro runs
    cases waits.symm.trans runs
  · rintro other different ⟨⟩
    exact absurd rfl different
  · intro wait helper ending waiting _ aims ended
    cases waits.symm.trans waiting
    have different : helper ≠ t := by
      rintro rfl
      cases waits.symm.trans ended
    exact told helper ending aims (others helper different ▸ ended)
  · intro ending ended
    cases waits.symm.trans ended

/-- The task whose turn it is waits for no helper. -/
theorem suspend_alone (h : s.Wakeful (some t) []) {task : Task κ} (ht : s.task t = some task) {aim : Aim}
    (alone : aim.helper? = none) : (s.suspend t aim).Wakeful none [] :=
  h.suspend ht aim (fun _ => rfl) (fun _ => id) fun helper ending aims => by cases alone.symm.trans aims

theorem yieldTurn (h : s.Wakeful (some t) []) {task : Task κ} (ht : s.task t = some task) :
    (s.yieldTurn t).Wakeful none [] := by
  unfold Scheduler.yieldTurn
  rw [ht]
  have now : ((s.setTask t { task with status := .queued }).push (.resume t)).status? t = some .queued := by
    rw [status?_push, status?_setTask, if_pos rfl]
  have turns : ((s.setTask t { task with status := .queued }).push (.resume t)).turns =
      s.turns ++ [.resume t] := turns_push _ _
  refine h.change (t := t) (fun other different => ?_) (fun turn member _ => ?_) (fun _ => ?_) ?_ ?_ ?_ ?_
  · rw [status?_push, status?_setTask, if_neg different]
  · exact turns ▸ mem_queued member
  · exact turns ▸ mem_last s.turns _
  · intro runs
    cases now.symm.trans runs
  · rintro other different ⟨⟩
    exact absurd rfl different
  · intro wait helper ending waits
    cases now.symm.trans waits
  · intro ending ended
    cases now.symm.trans ended

/-- How a task has ended. -/
theorem finished {task : Task κ} (ht : s.task t = some task) (ending : Except Failure Unit) :
    ∃ how more, (s.finish t ending).status? t = some (.finished how) ∧
      (s.finish t ending).turns = s.turns ++ more ∧
      ∀ key caller wait, task.role.helper? = some (key, caller) → s.pendingWait? caller = some wait →
        wait.aim.helper? = some t → .signal caller wait.id ∈ more := by
  have ended : ∀ how, (s.setTask t { task with status := .finished how, cancelAsked := false }).status? t =
      some (.finished how) := fun how => by rw [status?_setTask, if_pos rfl]
  unfold Scheduler.finish
  rw [ht]
  simp only
  split
  next role =>
    refine ⟨_, [], ended _, (List.append_nil _).symm, fun key caller wait helps => ?_⟩
    rw [role] at helps
    cases helps
  next key caller role =>
    have own : ∀ {key' caller'}, task.role.helper? = some (key', caller') → caller' = caller := by
      intro key' caller' helps
      rw [role] at helps
      cases helps
      rfl
    split
    next wait waits =>
      split
      next =>
        refine ⟨_, [.signal caller wait.id], ended _, turns_push _ _, fun _ caller' wait' helps waits' _ => ?_⟩
        cases own helps
        cases waits.symm.trans waits'
        exact List.mem_singleton_self _
      next other =>
        refine ⟨_, [], ended _, (List.append_nil _).symm, fun _ caller' wait' helps waits' aims => ?_⟩
        cases own helps
        cases waits.symm.trans waits'
        exact absurd (Aim.isEndOf_iff.mpr aims) other
    next none =>
      refine ⟨_, [], ended _, (List.append_nil _).symm, fun _ caller' wait' helps waits' => ?_⟩
      cases own helps
      cases none.symm.trans waits'

/-- The task whose turn it is ends; who waits for its end is told. -/
theorem finish (h : s.Wakeful (some t) []) (followed : s.Followed) (running : s.status? t = some .running)
    (ending : Except Failure Unit) : (s.finish t ending).Wakeful none [] := by
  obtain ⟨task, ht, -⟩ := task_of_status running
  obtain ⟨how, more, now, turns, tells⟩ := finished ht ending
  refine h.change (t := t) (fun other different => status?_finish_of_ne different ending)
    (fun turn member _ => ?_) ?_ ?_ ?_ ?_ ?_
  · rw [turns]
    exact mem_queued member
  · rintro (ready | ⟨wait, waiting, -⟩)
    · cases now.symm.trans ready
    · cases now.symm.trans waiting
  · intro runs
    cases now.symm.trans runs
  · rintro other different ⟨⟩
    exact absurd rfl different
  · intro wait helper ending waits
    cases now.symm.trans waits
  · intro _ _ other wait _ waiting pending aims
    obtain ⟨key, helps⟩ := followed waiting aims
    rw [helper_of_task ht] at helps
    rw [turns]
    have told := tells key other wait helps (pendingWait?_eq_some_iff.mpr ⟨waiting, pending⟩) aims
    exact List.mem_append_right [] (List.mem_append_right _ told)

/-- The task whose turn it is calls its helper off. -/
theorem abandon (h : s.Wakeful (some t) []) (running : s.status? t = some .running) (key : PauseId)
    {helper : TaskId} (different : t ≠ helper) (why : Failure) :
    (s.abandon t key helper why).Wakeful none [] := by
  have still := (status?_cancel_of_ne different).trans running
  obtain ⟨task, ht, -⟩ := task_of_status still
  unfold Scheduler.abandon
  simp only
  split
  next =>
    refine (h.cancel helper).suspend ht (.leave key helper why) (fun _ => rfl) (fun turn member => ?_) ?_
    · rw [turns_push]
      exact List.mem_append_left _ member
    · rintro _ ending ⟨⟩ _
      rw [turns_push, waits_cancel]
      exact List.mem_append_right _ (List.mem_singleton_self _)
  next unended =>
    refine (h.cancel helper).suspend ht (.leave key helper why) (fun _ => rfl) (fun _ => id) ?_
    rintro _ ending ⟨⟩ ended
    have was := ending?_eq_some_iff.mpr (finished_of_cancel ended)
    cases unended.symm.trans was

/-! ## Taking turns -/

/-- Turns that were dealt to nobody may be dropped. -/
theorem undeal {turn : Turn} (h : s.Wakeful running [turn]) (unready : ∀ t, turn = .resume t → ¬ s.Ready t)
    (untold : ∀ t wait, turn = .signal t wait.id → s.status? t = some (.waiting wait) →
      wait.signal ≠ .pending) : s.Wakeful running [] where
  ready {t} ready := by
    rcases List.mem_cons.mp (h.ready ready) with same | queued
    · exact absurd ready (unready t same.symm)
    · exact queued
  running := h.running
  told {t wait _ _} waiting pending aims ended := by
    rcases List.mem_cons.mp (h.told waiting pending aims ended) with same | queued
    · exact absurd pending (untold t wait same.symm waiting)
    · exact queued

end Wakeful

/-! ### Acting -/

/-- All is well while it is a task's turn. -/
structure Acting (s : Scheduler κ) (t : TaskId) : Prop where
  wakeful : s.Wakeful (some t) []
  followed : s.Followed
  running : s.status? t = some .running

/-- Whether all is well after what a task's turn comes to. -/
def Rouses (t : TaskId) (result : Scheduler κ × Option (Handover κ)) : Prop :=
  result.1.Wakeful (result.2.map fun _ => t) []

namespace Acting

variable {s : Scheduler κ} {t : TaskId}

theorem frame (h : s.Acting t) (s' : Scheduler κ) (task : s'.task = s.task) (turns : s'.turns = s.turns) :
    s'.Acting t := by
  have status : s'.status? = s.status? := by
    funext other
    simp only [status?, task]
  refine ⟨h.wakeful.frame (fun _ => congrFun status _) fun turn => turns ▸ id, ?_, ?_⟩
  · exact h.followed.of_aims (fun _ => helper_of_tasks task) fun other wait waiting =>
      ⟨wait, status ▸ waiting, rfl⟩
  · rw [status]
    exact h.running

theorem wakeFirst (h : s.Acting t) : s.wakeFirst.Acting t where
  wakeful := h.wakeful.wakeFirst
  followed := h.followed.wakeFirst
  running := by
    unfold Scheduler.wakeFirst
    split
    next => exact h.running
    next first rest line =>
      by_cases same : t = first
      · subst same
        rw [settle_eq_self]
        · exact h.running
        · rintro ⟨wait, waiting, -⟩
          cases h.running.symm.trans waiting
      · rw [status?_settle_of_ne same]
        exact h.running

theorem unlock (h : s.Acting t) {freed : Scheduler κ} (frees : s.unlock = .ok freed) : freed.Acting t := by
  unfold Scheduler.unlock at frees
  split at frees
  · cases frees
    exact (h.frame { s with holder := none } rfl rfl).wakeFirst
  · cases frees

theorem finish (h : s.Acting t) (ending : Except Failure Unit) : (s.finish t ending).Wakeful none [] :=
  h.wakeful.finish h.followed h.running ending

theorem goOn (h : s.Acting t) (role : Role κ) (answer : Except Failure PauseId) :
    Rouses t (s.goOn t role answer) := by
  cases role with
  | body => exact h.wakeful
  | helper => exact h.finish _

theorem goOnWith (h : s.Acting t) (role : Role κ) (key : PauseId) : Rouses t (s.goOnWith t role key) := by
  cases role with
  | body => exact (h.frame (s.grant key) rfl rfl).wakeful
  | helper => exact h.finish (.ok ())

theorem abandon (h : s.Acting t) (key : PauseId) {helper : TaskId} (different : t ≠ helper)
    (why : Failure) : Rouses t (s.abandon t key helper why, none) :=
  h.wakeful.abandon h.running key different why

/-- The first turn of a task. -/
theorem resumeQueued (h : s.Acting t) (role : Role κ) (thrown : Bool) :
    Rouses t (s.resumeQueued t role thrown) := by
  obtain ⟨task, ht, -⟩ := task_of_status h.running
  unfold Scheduler.resumeQueued
  split
  · exact h.goOn role _
  · cases role with
    | body resume => exact (h.frame { s with waits := s.waits + 1 } rfl rfl).wakeful
    | helper key caller =>
      simp only
      split
      · exact (h.frame (s.take key) rfl rfl).finish (.ok ())
      · exact (h.frame { s with line := s.line ++ [t] } rfl rfl).wakeful.suspend_alone ht rfl

/-- The turn of a task after a wait. -/
theorem resumeWaiting (h : s.Acting t) (role : Role κ) (wait : Wait) (thrown : Bool)
    (other : ∀ helper, wait.aim.helper? = some helper → t ≠ helper) :
    Rouses t (s.resumeWaiting t role wait thrown) := by
  have tidied : ∀ timers atGates line holder, { s with timers, atGates, line, holder }.Acting t :=
    fun _ _ _ _ => h.frame _ rfl rfl
  unfold Scheduler.resumeWaiting
  simp only
  split
  next => exact (tidied _ _ _ _).goOn role _
  next => exact (tidied _ _ _ _).goOn role _
  next key aims =>
    split
    next =>
      refine Acting.goOn ?_ role _
      split
      next => exact (tidied _ _ _ _).wakeFirst
      next => exact tidied _ _ _ _
    next => exact (tidied _ _ _ _).goOnWith role key
  next key helper limit aims =>
    have different := other helper (by rw [aims]; rfl)
    split
    next => exact (tidied _ _ _ _).abandon key different .cancelled
    next =>
      split
      next => exact (tidied _ _ _ _).goOnWith role key
      next => exact (tidied _ _ _ _).goOn role _
      next => exact (tidied _ _ _ _).abandon key different _
  next key helper why aims =>
    split
    next => exact (tidied _ _ _ _).goOn role _
    next =>
      split
      next =>
        split
        next freed frees => exact ((tidied _ _ _ _).unlock frees).goOn role _
        next => exact (tidied _ _ _ _).goOn role _
      next => exact (tidied _ _ _ _).goOn role _

end Acting

namespace Wakeful

variable {s s' : Scheduler κ} {t : TaskId} {trace : List Deed}

theorem status_of_settle {wait : Wait} (waiting : s.status? t = some (.waiting wait))
    (pending : wait.signal = .pending) (signal : Signal) :
    (s.settle t signal).status? t = some (.waiting { wait with signal }) := by
  obtain ⟨task, -, same⟩ := settle_eq waiting pending signal
  rw [same, status?_push, status?_setTask, if_pos rfl]

theorem takeSignal {id : PauseId} (h : s.Wakeful none [.signal t id]) :
    (s.takeTurn (.signal t id)).1.Wakeful none [] := by
  unfold Scheduler.takeTurn
  simp only
  split
  next wait pendingWait =>
    obtain ⟨waiting, pending⟩ := pendingWait?_eq_some_iff.mp pendingWait
    split
    next =>
      refine (h.settle t .met).undeal nofun fun other wait same waits => ?_
      cases same
      cases (status_of_settle waiting pending .met).symm.trans waits
      nofun
    next other =>
      refine h.undeal nofun fun _ wait same waits => ?_
      cases same
      cases waiting.symm.trans waits
      exact absurd rfl other
  next none =>
    refine h.undeal nofun fun _ wait same waits pending => ?_
    cases same
    cases none.symm.trans (pendingWait?_eq_some_iff.mpr ⟨waits, pending⟩)

/-- **Every turn.** Nobody comes to sleep through by a turn that is taken. -/
theorem takeTurn {turn : Turn} (h : s.Wakeful none [turn]) (sound : s.Sound none trace) :
    (s.takeTurn turn).1.Wakeful ((s.takeTurn turn).2.map (·.1)) [] := by
  cases turn with
  | signal t id =>
    have nobody : (s.takeTurn (.signal t id)).2 = none := by
      unfold Scheduler.takeTurn
      simp only
      split <;> rfl
    rw [nobody]
    exact h.takeSignal
  | resume t =>
    have idle : ¬ s.Ready t → s.Wakeful none [] := fun unready =>
      h.undeal (fun _ same => by cases same; exact unready) nofun
    cases ht : s.task t with
    | none =>
      have same : s.takeTurn (.resume t) = (s, none) := by simp only [Scheduler.takeTurn, ht]
      rw [same]
      refine idle ?_
      rintro (ready | ⟨wait, waits, -⟩)
      · simp [status?, ht] at ready
      · simp [status?, ht] at waits
    | some task =>
      have known := status_of_task ht
      have went : ∀ result : Scheduler κ × Option (Handover κ),
          s.takeTurn (.resume t) = (result.1, result.2.map fun handover => (t, handover)) →
          Rouses t result →
          (s.takeTurn (.resume t)).1.Wakeful ((s.takeTurn (.resume t)).2.map (·.1)) [] := by
        rintro ⟨after, handover⟩ same rouses
        rw [same]
        cases handover <;> exact rouses
      have acting : (s.start t task).Acting t := by
        refine ⟨h.start task, sound.followed.start ht, ?_⟩
        rw [Scheduler.start, status?_setTask, if_pos rfl]
      cases status : task.status with
      | queued =>
        exact went _ (by simp only [Scheduler.takeTurn, ht, status])
          (acting.resumeQueued task.role task.cancelAsked)
      | waiting wait =>
        have waits : s.status? t = some (.waiting wait) := known.trans (congrArg some status)
        refine went _ (by simp only [Scheduler.takeTurn, ht, status]) (acting.resumeWaiting task.role wait
          (task.cancelAsked || decide (wait.signal = .cancelled)) ?_)
        rintro helper aims rfl
        obtain ⟨key, helps⟩ := sound.followed waits aims
        have inLine := sound.orderly.helperWaits helps waits
        rw [inLine] at aims
        cases aims
      | running | finished =>
        have same : s.takeTurn (.resume t) = (s, none) := by
          simp only [Scheduler.takeTurn, ht, status, Option.map_none]
        rw [same]
        refine idle ?_
        rintro (ready | ⟨wait, waits, -⟩)
        · rw [known, status] at ready
          cases ready
        · rw [known, status] at waits
          cases waits

/-- **Every request for a pause.** -/
theorem await (h : s.Wakeful (some t) []) (sound : s.Sound (some (t, none)) trace) (pause : Pause) :
    (s.await t pause).1.Wakeful ((s.await t pause).2.map fun _ => t) [] := by
  have acting : s.Acting t := ⟨h, sound.followed, sound.orderly.inHand rfl⟩
  obtain ⟨task, ht, -⟩ := task_of_status acting.running
  cases pause with
  | gate name =>
    unfold Scheduler.await
    simp only
    split
    · exact (acting.frame { s with waits := s.waits + 1 } rfl rfl).wakeful
    · exact (acting.frame { s with atGates := s.atGates ++ [t] } rfl rfl).wakeful.suspend_alone ht rfl
  | sleep span =>
    unfold Scheduler.await
    simp only
    split
    · exact h.yieldTurn ht
    · let timer : Timer := { due := s.clock.add span, task := t, wait := s.waits }
      have reminded := acting.frame { s with timers := timer.insert s.timers } rfl rfl
      exact reminded.wakeful.suspend_alone ht rfl
  | barrier =>
    unfold Scheduler.await
    simp only
    split
    next =>
      split
      next =>
        have taken := acting.frame (({ s with waits := s.waits + 1 }.take s.waits).grant s.waits) rfl rfl
        exact taken.wakeful
      next =>
        exact (acting.frame { s with line := s.line ++ [t] } rfl rfl).wakeful.suspend_alone ht rfl
    next limit _ =>
      have helped := h.spawn (.helper s.waits t)
      have older : t ≠ s.size := Nat.ne_of_lt (sound.orderly.known acting.running)
      have known : (s.spawn (.helper s.waits t)).1.task t = some task :=
        (amend_of_ne older _ _).trans ht
      split
      next => exact helped.frame (fun _ => rfl) fun _ => id
      next span _ =>
        let timer : Timer := { due := s.clock.add span, task := t, wait := s.waits }
        have reminded : { (s.spawn (.helper s.waits t)).1 with
            timers := timer.insert (s.spawn (.helper s.waits t)).1.timers }.Wakeful (some t) [] :=
          helped.frame (fun _ => rfl) fun _ => id
        refine reminded.suspend known (.watch s.waits s.size limit) (fun _ => rfl) (fun _ => id) ?_
        rintro helper ending ⟨⟩ ended
        have queued : (s.spawn (.helper s.waits t)).1.status? s.size = some .queued := by
          rw [status?_spawn, if_pos rfl]
        cases queued.symm.trans ended

/-- Dealing the next turn. -/
theorem nextTurn {turn : Turn} (h : s.Wakeful none []) (next : s.nextTurn? = some (turn, s')) :
    s'.Wakeful none [turn] := by
  unfold nextTurn? at next
  split at next
  next first rest round =>
    cases next
    exact h.frame (fun _ => rfl) fun other member => by simpa [turns, round] using member
  next round =>
    simp only at next
    split at next
    next => cases next
    next first rest queued =>
      cases next
      refine h.frame (fun _ => rfl) fun other member => ?_
      have member : other ∈ s.queue := by simpa [turns, round] using member
      have dealt := List.mem_append_left ((s.timers.filter (isDue s.clock)).map fun timer =>
        Turn.signal timer.task timer.wait) member
      rw [queued] at dealt
      simpa [turns] using dealt

end Wakeful

end Scheduler
end ActionFlow
