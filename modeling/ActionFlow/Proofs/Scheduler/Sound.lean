import ActionFlow.Proofs.Scheduler.Accounted

/-!
# What every change of the scheduler keeps

The order among the tasks, the keys and the account of them are kept together by whatever the scheduler
does by itself or for the task whose turn it is, except for asking for a pause and taking a turn, which
come in modules of their own.

## Main results

* `Sound`: the invariant.
* `Sound.cancel`, `Sound.setGate`, `Sound.spawnBody`, `Sound.finish`, `Sound.release`: changes that may
  be made at any time, or by the task whose turn it is.
-/

namespace ActionFlow
namespace Scheduler

variable {κ : Type}

/-- All is well with the tasks, the barrier and the trace. -/
structure Sound (s : Scheduler κ) (hand : Hand) (trace : List Deed) : Prop where
  orderly : s.Orderly hand
  keyed : s.Keyed hand
  accounted : s.Accounted hand trace

namespace Sound

variable {s s' : Scheduler κ} {hand : Hand} {trace : List Deed} {t : TaskId}

/-- What leaves the helpers and the barrier alone has only the order among the tasks to keep. -/
theorem of_quiet {hand' : Hand} (h : s.Sound hand trace) (orderly : s'.Orderly hand')
    (quiet : Quiet s s') (inHand : ∀ t aim, hand' = some (t, aim) → s.helper? t = none)
    (asks : ∀ t aim, s'.Asks hand' t aim → s.Asks hand t aim) : s'.Sound hand' trace where
  orderly := orderly
  keyed := h.keyed.frame quiet inHand asks
  accounted := h.accounted.frame_of_quiet quiet asks

/-! ## What changes no task -/

/-- Turns may get lost, and words may be sent to waits outside the line. -/
theorem frame (h : s.Sound hand trace) (status : ∀ t, s'.status? t = s.status? t)
    (helper : ∀ t, s'.helper? t = s.helper? t) (asked : ∀ t, s'.asked t = s.asked t)
    (size : s'.size = s.size) (line : s'.line = s.line) (holder : s'.holder = s.holder)
    (keys : s'.keys = s.keys) (waits : s.waits ≤ s'.waits)
    (turns : ∀ t, s'.turns.count (.resume t) ≤ s.turns.count (.resume t))
    (alarms : ∀ t id, s'.Alarm t id → s.Alarm t id ∨ id < s'.waits ∧
      ∀ wait key, s.status? t = some (.waiting wait) → wait.aim = .line key → wait.id ≠ id) :
    s'.Sound hand trace := by
  have quiet : Quiet s s' := {
    helper, holder, keys, waits
    got := fun t _ => by unfold Got; rw [status]
    doomed := fun t _ => by unfold Doomed; rw [status, asked]; exact id }
  have asks : ∀ t aim, s'.Asks hand t aim → s.Asks hand t aim := fun t aim => by
    unfold Asks
    rw [helper, status]
    exact id
  exact h.of_quiet (h.orderly.frame status helper size line holder waits turns alarms) quiet
    (fun _ _ => h.keyed.inHand) asks

/-- What the task whose turn it is still follows up may be dropped. -/
theorem letGo {aim : Option Aim} (h : s.Sound (some (t, aim)) trace) :
    s.Sound (some (t, none)) trace :=
  ⟨h.orderly.letGo none, h.keyed.letGo, h.accounted.letGo⟩

theorem note (h : s.Sound hand trace) (task : TaskId) (effect : Effect) :
    s.Sound hand (trace ++ [.did task effect]) :=
  ⟨h.orderly, h.keyed, h.accounted.note task effect⟩

/-- The numbers of waits may be used up otherwise. -/
theorem tick (h : s.Sound hand trace) : { s with waits := s.waits + 1 }.Sound hand trace :=
  h.frame (fun _ => rfl) (fun _ => rfl) (fun _ => rfl) rfl rfl rfl rfl (Nat.le_succ _)
    (fun _ => Nat.le_refl _) (fun _ _ => .inl)

/-- A word is sent to a wait outside the line. -/
theorem pushSignal (h : s.Sound hand trace) {id : PauseId} (numbered : id < s.waits)
    (elsewhere : ∀ wait key, s.status? t = some (.waiting wait) → wait.aim = .line key →
      wait.id ≠ id) : (s.push (.signal t id)).Sound hand trace := by
  refine h.frame (fun _ => rfl) (fun _ => rfl) (fun _ => rfl) rfl rfl rfl rfl (Nat.le_refl _)
    (fun other => ?_) (fun other other' alarm => ?_)
  · simp
  · rcases (alarm_push _ _ _).mp alarm with was | same
    · exact .inl was
    · cases same
      exact .inr ⟨numbered, elsewhere⟩

/-- Timers that are dropped remind nobody. -/
theorem filterTimers (h : s.Sound hand trace) (keep : Timer → Bool) :
    { s with timers := s.timers.filter keep }.Sound hand trace :=
  h.frame (fun _ => rfl) (fun _ => rfl) (fun _ => rfl) rfl rfl rfl rfl (Nat.le_refl _)
    (fun _ => Nat.le_refl _) (fun _ _ alarm => .inl (alarm.imp_right fun ⟨timer, member, same⟩ =>
      ⟨timer, (List.mem_filter.mp member).1, same⟩))

theorem mem_insert_timer {timer other : Timer} {timers : List Timer}
    (h : other ∈ timer.insert timers) : other = timer ∨ other ∈ timers := by
  induction timers with
  | nil => exact .inl (List.mem_singleton.mp h)
  | cons first rest ih =>
      unfold Timer.insert at h
      split at h
      · rcases List.mem_cons.mp h with rfl | h
        · exact .inr (List.mem_cons_self ..)
        · exact (ih h).imp_right (List.mem_cons_of_mem _)
      · exact List.mem_cons.mp h

/-- A timer is set for a wait outside the line. -/
theorem insertTimer (h : s.Sound hand trace) (timer : Timer) (numbered : timer.wait < s.waits)
    (elsewhere : ∀ wait key, s.status? timer.task = some (.waiting wait) → wait.aim = .line key →
      wait.id ≠ timer.wait) : { s with timers := timer.insert s.timers }.Sound hand trace := by
  refine h.frame (fun _ => rfl) (fun _ => rfl) (fun _ => rfl) rfl rfl rfl rfl (Nat.le_refl _)
    (fun _ => Nat.le_refl _) (fun t id alarm => ?_)
  rcases alarm with queued | ⟨other, member, rfl, rfl⟩
  · exact .inl (.inl queued)
  · rcases mem_insert_timer member with rfl | member
    · exact .inr ⟨numbered, elsewhere⟩
    · exact .inl (.inr ⟨other, member, rfl, rfl⟩)

/-! ## Waking and cancelling -/

/-- A wait is settled. -/
theorem settle (h : s.Sound hand trace) {wait : Wait} (waiting : s.status? t = some (.waiting wait))
    (pending : wait.signal = .pending) {signal : Signal} (settled : signal ≠ .pending)
    (first : signal = .met → ∀ key, wait.aim = .line key →
      s.holder = none ∧ s.line.head? = some t) :
    (s.settle t signal).Sound hand trace := by
  have orderly := h.orderly.settle waiting pending settled first
  obtain ⟨task, ht, same⟩ := settle_eq waiting pending signal
  have moves := moves_setTask s { task with status := .waiting { wait with signal } } ht rfl
    (fun _ _ => rfl) rfl (Nat.le_refl _) rfl (fun _ _ => Iff.rfl)
  have status : task.status = .waiting wait := Option.some.inj ((status_of_task ht).symm.trans waiting)
  have ungot : ¬ s.Got t := fun got => by cases waiting.symm.trans got
  -- Who waited with the wait unsettled was certain not to end well only if it was asked to end.
  have doomed : s.Doomed t →
      (s.setTask t { task with status := .waiting { wait with signal } }).Doomed t := by
    intro was
    rcases (doomed_of_task ht).mp was with ⟨ending, ended⟩ | asked | ⟨other, waits, cancelled⟩
    · cases status.symm.trans ended
    · exact .inr (.inl ((asked_setTask s t t _).trans ((if_pos rfl).trans asked)))
    · cases status.symm.trans waits
      cases pending.symm.trans cancelled
  have quiet := moves.quiet_of_own (fun _ => iff_of_false (moves.not_got nofun) ungot) (fun _ => doomed)
    rfl rfl
  rw [same] at orderly ⊢
  refine h.of_quiet orderly { quiet with } (fun _ _ => h.keyed.inHand) fun other aim => ?_
  refine moves.asks_of_aim ?_ (fun _ => id)
  rintro _ ⟨⟩
  exact ⟨wait, waiting, rfl⟩

/-- Somebody outside the line is told that what the wait was for has come. -/
theorem settle_met (h : s.Sound hand trace)
    (elsewhere : ∀ wait key, s.status? t = some (.waiting wait) → wait.aim ≠ .line key) :
    (s.settle t .met).Sound hand trace := by
  by_cases waits : ∃ wait, s.status? t = some (.waiting wait) ∧ wait.signal = .pending
  · obtain ⟨wait, waiting, pending⟩ := waits
    exact h.settle waiting pending nofun fun _ key aims => absurd aims (elsewhere wait key waiting)
  · rw [settle_eq_self waits]
    exact h

/-- A task is asked to end. -/
theorem cancel (h : s.Sound hand trace) (t : TaskId) : (s.cancel t).Sound hand trace := by
  rcases cancel_cases s t with ⟨same, -⟩ | ⟨wait, waiting, pending, same⟩ | ⟨task, ht, same⟩
  · rw [same]
    exact h
  · rw [same]
    exact h.settle waiting pending nofun nofun
  · rw [same]
    have moves := moves_setTask s { task with cancelAsked := true } ht rfl (fun _ _ => rfl) rfl
      (Nat.le_refl _) rfl (fun _ _ => Iff.rfl)
    have status : ∀ other, (s.setTask t { task with cancelAsked := true }).status? other =
        s.status? other := by
      intro other
      rw [moves.status, ← status_of_task ht]
      split
      next same => rw [same]
      next => rfl
    have quiet := moves.quiet_of_own (fun _ => by unfold Got; rw [status])
      (fun _ _ => .inr (.inl ((asked_setTask s t t _).trans (if_pos rfl)))) rfl rfl
    refine h.of_quiet (h.orderly.frame status quiet.helper rfl rfl rfl (Nat.le_refl _)
      (fun _ => Nat.le_refl _) (fun _ _ => .inl)) quiet (fun _ _ => h.keyed.inHand) fun other aim => ?_
    refine moves.asks_of_aim (fun wait waits => ?_) (fun _ => id)
    exact ⟨wait, (status_of_task ht).trans (congrArg some waits), rfl⟩

/-- The first in line is woken, since nobody holds the barrier. -/
theorem wakeFirst (h : s.Sound hand trace) (free : s.holder = none) :
    s.wakeFirst.Sound hand trace := by
  unfold Scheduler.wakeFirst
  split
  next => exact h
  next first rest line =>
    by_cases waits : ∃ wait, s.status? first = some (.waiting wait) ∧ wait.signal = .pending
    · obtain ⟨wait, waiting, pending⟩ := waits
      exact h.settle waiting pending nofun fun _ _ _ => ⟨free, by rw [line]; rfl⟩
    · rw [settle_eq_self waits]
      exact h

/-- Those who wait at a gate are told that it has been opened. -/
theorem settleAll (h : s.Sound hand trace) {waiting : List TaskId}
    (elsewhere : ∀ t ∈ waiting, ∀ wait key, s.status? t = some (.waiting wait) →
      wait.aim ≠ .line key) :
    (waiting.foldl (fun now t => now.settle t .met) s).Sound hand trace := by
  induction waiting generalizing s with
  | nil => exact h
  | cons first rest ih =>
      refine ih (h.settle_met (elsewhere first (List.mem_cons_self ..)))
        fun t member wait key waits => ?_
      obtain ⟨before, was, same⟩ := aim_of_settle waits
      exact same ▸ elsewhere t (List.mem_cons_of_mem _ member) before key was

/-- A gate is opened or closed. -/
theorem setGate (h : s.Sound hand trace) (gate : String) (opened : Bool) :
    (s.setGate gate opened).Sound hand trace := by
  have changed : { s with opened := amend s.opened gate opened }.Sound hand trace :=
    h.frame (fun _ => rfl) (fun _ => rfl) (fun _ => rfl) rfl rfl rfl rfl (Nat.le_refl _)
      (fun _ => Nat.le_refl _) (fun _ _ => .inl)
  unfold Scheduler.setGate
  simp only
  split
  · refine changed.settleAll fun t member wait key waiting aims => ?_
    have atGate := (List.mem_filter.mp member).2
    split at atGate
    next name id signal pending =>
      have waits := (pendingWait?_eq_some_iff.mp pending).1
      have same : some (Status.waiting wait) = some (.waiting _) := waiting.symm.trans waits
      cases same
      cases aims
    next => cases atGate
  · exact changed

/-! ## Beginning and ending -/

theorem helper_of_size (h : s.Sound hand trace) : s.helper? s.size = none := by
  cases ht : s.task s.size with
  | none => simp [helper?, ht]
  | some task => exact absurd (h.orderly.known (status_of_task ht)) (Nat.lt_irrefl _)

/-- A task is started that is no helper. -/
theorem spawnBody (h : s.Sound hand trace) (resume : Except Failure PauseId → κ) :
    (s.spawn (.body resume)).1.Sound hand trace := by
  have unknown := h.helper_of_size
  have fresh : ∀ status, s.status? s.size ≠ some status := fun status has =>
    Nat.lt_irrefl _ (h.orderly.known has)
  have helper : ∀ t, (s.spawn (.body resume)).1.helper? t = s.helper? t := by
    intro t
    rw [helper?_spawn]
    split
    next same => exact (same ▸ unknown).symm
    next => rfl
  have older : ∀ t, s.helper? t ≠ none → t ≠ s.size := fun t helps same => helps (same ▸ unknown)
  have quiet : Quiet s (s.spawn (.body resume)).1 := {
    helper
    got := fun t helps => by
      unfold Got
      rw [status?_spawn, if_neg (older t helps)]
    doomed := fun t helps was => by
      unfold Doomed
      rw [status?_spawn, asked_spawn, if_neg (older t helps), if_neg (older t helps)]
      exact was
    holder := rfl
    keys := rfl
    waits := Nat.le_refl _ }
  refine h.of_quiet (h.orderly.spawn _) quiet (fun _ _ => h.keyed.inHand) fun t aim asks => ?_
  obtain ⟨body, named, ⟨wait, waiting, aims⟩ | held⟩ := asks
  · rw [status?_spawn] at waiting
    split at waiting
    next => cases waiting
    next => exact ⟨helper t ▸ body, named, .inl ⟨wait, waiting, aims⟩⟩
  · exact ⟨helper t ▸ body, named, .inr held⟩

/-- The task whose turn it is does something else than wait. -/
theorem asks_of_moves {status : Status} (moves : Moves s s' t status)
    (waitless : ∀ wait, status ≠ .waiting wait) (hand : Hand) (other : TaskId) (aim : Aim)
    (asks : s'.Asks none other aim) : s.Asks hand other aim := by
  refine moves.asks_of_aim (fun wait waits => ?_) (fun own held => ?_) asks
  · exact absurd waits (waitless wait)
  · cases held

/-- The task whose turn it is ends. -/
theorem finish {aim : Option Aim} (h : s.Sound (some (t, aim)) trace)
    (ending : Except Failure Unit) : (s.finish t ending).Sound none trace := by
  obtain ⟨task, ht, -⟩ := task_of_status (h.orderly.inHand rfl)
  have body := h.keyed.inHand rfl
  rw [finish_body ht ((helper_of_task ht).symm.trans body)]
  have moves : Moves s _ t (.finished (endingOf task ending)) :=
    moves_setTask s { task with
      status := .finished (endingOf task ending), cancelAsked := false } ht rfl
      (fun _ _ => rfl) rfl (Nat.le_refl _) rfl (fun _ _ => Iff.rfl)
  have quiet := moves.quiet body rfl rfl
  exact h.of_quiet (h.orderly.halt moves rfl rfl fun _ helper => absurd body helper) quiet nofun
    (asks_of_moves moves nofun (some (t, aim)))

/-- A key is given back. -/
theorem release (h : s.Sound hand trace) (t : TaskId) (key : PauseId) :
    (s.release key).1.Sound hand (trace ++ [.did t (.release key)]) := by
  unfold Scheduler.release
  split
  next member =>
    obtain closed | ⟨opening, held, opens⟩ := h.keyed.opening
    · rw [closed] at member
      cases member
    · obtain rfl : key = opening := by simpa [opens] using member
      have spent : { s with holder := none, keys := [] }.Sound hand
          (trace ++ [Deed.did t (.release key)]) :=
        ⟨h.orderly.setFree [], h.keyed.setFree held (fun t aim asks named =>
          h.keyed.shut asks named member) rfl, h.accounted.spend held opens t⟩
      have woken := spent.wakeFirst rfl
      simpa [unlock, held, opens] using woken
  next => exact h.note t (.release key)

end Sound
end Scheduler
end ActionFlow
