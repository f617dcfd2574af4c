import ActionFlow.Proofs.Scheduler.Sound

/-!
# Asking for a pause

The task whose turn it is asks for a pause. It may go on at once or have to wait, and if it asks for the
barrier within a limit of time it sends out a helper first. Whatever it asks for, the invariant is kept;
and if it got the barrier, the trace says so.

## Main results

* `Sound.suspend`: waiting keeps the invariant, if the key that is asked for is the task's to ask for.
* `Sound.await`: so does every request for a pause.
-/

namespace ActionFlow
namespace Scheduler

variable {κ : Type}

/-! ## Waiting -/

/-- Whether a task may ask for a key by waiting with an aim: the key is new, or the task has asked for
it all along. -/
structure Claim (s : Scheduler κ) (t : TaskId) (trace : List Deed) (aim : Aim) (key : PauseId) :
    Prop where
  unasked : ∀ t' aim', t' ≠ t → s.Asks none t' aim' → aim'.key? ≠ some key
  shut : key ∉ s.keys
  untaken : ∀ t, .took t key ∉ trace
  unquit : ∀ t h failure cut, .quit t key h failure cut ∉ trace
  caller : ∀ h, aim.helper? = some h → s.helper? h = some (key, t) ∧ (s.Got h → s.holder = some key)
  alone : aim = .line key → ∀ h t', s.helper? h ≠ some (key, t')
  leaving : ∀ h why, aim = .leave key h why → s.Doomed h ∧ why.Excused

namespace Sound

variable {s s' : Scheduler κ} {trace : List Deed} {t : TaskId} {before : Option Aim}

theorem asks_other {hand : Option Aim} {other : TaskId} {aim : Aim} (different : other ≠ t) :
    s.Asks (some (t, hand)) other aim ↔ s.Asks none other aim := by
  have elsewhere : (some (t, hand) : Hand) ≠ some (other, some aim) := by
    intro same
    cases same
    exact different rfl
  simp only [Asks, elsewhere, reduceCtorEq]

/-- The task whose turn it is waits from now on. -/
theorem rest (h : s.Sound (some (t, before)) trace) {wait : Wait} (moves : Moves s s' t (.waiting wait))
    (numbered : wait.id < s'.waits) (pending : wait.signal = .pending)
    (holder : s'.holder = s.holder) (keys : s'.keys = s.keys)
    (joins : ∀ key, wait.aim = .line key → s'.line = s.line ++ [t] ∧ ¬ s.Alarm t wait.id)
    (stays : (∀ key, wait.aim ≠ .line key) → s'.line = s.line)
    (claim : ∀ key, wait.aim.key? = some key → key < s'.waits ∧ s.Claim t trace wait.aim key) :
    s'.Sound none trace := by
  have body := h.keyed.inHand rfl
  have quiet := moves.quiet body holder keys
  have asks : ∀ t' aim', s'.Asks none t' aim' →
      t' ≠ t ∧ s.Asks (some (t, before)) t' aim' ∨ t' = t ∧ aim' = wait.aim := by
    intro t' aim' asks
    by_cases same : t' = t
    · obtain ⟨-, -, ⟨own, waiting, aims⟩ | held⟩ := asks
      · rw [moves.status, if_pos same] at waiting
        cases waiting
        exact .inr ⟨same, aims.symm⟩
      · cases held
    · exact .inl ⟨same, moves.asks asks same nofun⟩
  have orderly := h.orderly.rest moves numbered pending holder joins stays fun key caller helps => by
    rw [body] at helps
    cases helps
  cases named : wait.aim.key? with
  | none =>
    have asks : ∀ t' aim', s'.Asks none t' aim' → s.Asks (some (t, before)) t' aim' := by
      intro t' aim' asked
      rcases asks t' aim' asked with ⟨-, was⟩ | ⟨rfl, rfl⟩
      · exact was
      · exact absurd named asked.2.1
    exact h.of_quiet orderly quiet nofun asks
  | some key =>
    obtain ⟨keyNumbered, unasked, shut, untaken, unquit, caller, alone, leaving⟩ := claim key named
    have keyed := h.keyed.ask quiet body asks named keyNumbered
      (fun t' aim' different asked => unasked t' aim' different ((asks_other different).mp asked))
      shut caller alone leaving
    exact ⟨orderly, keyed, h.accounted.ask quiet
      (fun t' aim' asked => (asks t' aim' asked).imp And.right And.right) named ⟨untaken, unquit⟩⟩

/-- The task whose turn it is waits, also if it was asked to end before. -/
theorem suspend_in (h : s.Sound (some (t, before)) trace) {aim : Aim} {line : List TaskId}
    (joins : ∀ key, aim = .line key → line = s.line ++ [t])
    (stays : (∀ key, aim ≠ .line key) → line = s.line)
    (claim : ∀ key, aim.key? = some key → key < s.waits + 1 ∧ s.Claim t trace aim key) :
    ({ s with line }.suspend t aim).Sound none trace := by
  obtain ⟨task, ht, -⟩ := task_of_status (h.orderly.inHand rfl)
  have moves := moves_setTask { s with line, waits := s.waits + 1 }
    { task with status := .waiting { id := s.waits, aim }, cancelAsked := false } ht rfl
    (fun _ _ => rfl) rfl (Nat.le_succ _) rfl (fun _ _ => Iff.rfl)
  have rested := h.rest moves (Nat.lt_succ_self _) rfl rfl rfl
    (fun key aims => ⟨joins key aims, fun alarm => Nat.lt_irrefl _ (h.orderly.alarmNumbered alarm)⟩)
    stays claim
  rw [suspend_eq (s := { s with line }) ht aim]
  split
  · exact rested.settle ((status?_setTask _ _ _ _).trans (if_pos rfl)) rfl nofun nofun
  · exact rested

/-- The task whose turn it is waits outside the line. -/
theorem suspend (h : s.Sound (some (t, before)) trace) {aim : Aim} (outside : ∀ key, aim ≠ .line key)
    (claim : ∀ key, aim.key? = some key → key < s.waits + 1 ∧ s.Claim t trace aim key) :
    (s.suspend t aim).Sound none trace :=
  h.suspend_in (fun key aims => absurd aims (outside key)) (fun _ => rfl) claim

/-- Where a task waits that has just been suspended. -/
theorem status_of_suspend {status : Status} (known : s.status? t = some status) {aim : Aim}
    {wait : Wait} (waiting : (s.suspend t aim).status? t = some (.waiting wait)) :
    wait.aim = aim := by
  obtain ⟨task, ht, -⟩ := task_of_status known
  rw [suspend_eq ht] at waiting
  have suspended : ∀ {wait : Wait}, ({ s with waits := s.waits + 1 }.setTask t
      { task with status := .waiting { id := s.waits, aim }, cancelAsked := false }).status? t =
        some (.waiting wait) → wait.aim = aim := by
    intro wait has
    rw [status?_setTask, if_pos rfl] at has
    cases has
    rfl
  split at waiting
  · obtain ⟨before, was, same⟩ := aim_of_settle waiting
    exact same.symm.trans (suspended was)
  · exact suspended waiting

/-- Timers are no concern of a task that begins to wait. -/
theorem suspend_timers (s : Scheduler κ) (timers : List Timer) (t : TaskId) (aim : Aim) :
    { s with timers }.suspend t aim = { s.suspend t aim with timers } := by
  cases ht : s.task t with
  | none => simp only [Scheduler.suspend, ht]
  | some task =>
    simp only [Scheduler.suspend, ht]
    split <;> rfl

theorem waits_of_suspend {status : Status} (known : s.status? t = some status) (aim : Aim) :
    (s.suspend t aim).waits = s.waits + 1 := by
  obtain ⟨task, ht, -⟩ := task_of_status known
  unfold Scheduler.suspend
  rw [ht]
  simp only
  split <;> rfl

theorem timers_of_suspend (aim : Aim) : (s.suspend t aim).timers = s.timers := by
  have same := suspend_timers s s.timers t aim
  exact (congrArg Scheduler.timers same).trans rfl

/-- A timer is set for the task that begins to wait outside the line. -/
theorem remind {status : Status} {aim : Aim} (h : (s.suspend t aim).Sound none trace)
    (known : s.status? t = some status) (outside : ∀ key, aim ≠ .line key) (due : Binary64) :
    let timer : Timer := { due, task := t, wait := s.waits }
    ({ s with timers := timer.insert s.timers }.suspend t aim).Sound none trace := by
  intro timer
  have count := waits_of_suspend known aim
  have timed := h.insertTimer timer (by rw [count]; exact Nat.lt_succ_self _)
    fun wait key waiting aims => absurd (status_of_suspend known waiting ▸ aims) (outside key)
  rw [timers_of_suspend] at timed
  rw [suspend_timers]
  exact timed

/-- What a task does next is no concern of the scheduler. -/
theorem setResume (h : s.Sound (some (t, before)) trace) (resume : Except Failure PauseId → κ) :
    (s.setResume t resume).Sound (some (t, before)) trace := by
  obtain ⟨task, ht, running⟩ := task_of_status (h.orderly.inHand rfl)
  have body := (helper_of_task ht).symm.trans (h.keyed.inHand rfl)
  have moves := moves_setTask s { task with role := .body resume } ht body.symm (fun _ _ => rfl) rfl
    (Nat.le_refl _) rfl (fun _ _ => Iff.rfl)
  unfold Scheduler.setResume
  rw [ht]
  refine h.frame (fun other => ?_) moves.helper (fun other => ?_) rfl rfl rfl rfl (Nat.le_refl _)
    (fun _ => Nat.le_refl _) (fun _ _ => .inl)
  · rw [moves.status, ← status_of_task ht]
    split
    next same => rw [same]
    next => rfl
  · rw [asked_setTask, ← asked_of_task ht]
    split
    next same => rw [same]
    next => rfl

/-! ## Asking for the barrier -/

/-- While the barrier can be had at once, nobody in line is awake. -/
theorem unwoken_of_isFree (h : s.Orderly (some (t, before))) (free : s.isFree) :
    s.holder = none ∧ s.Unwoken := by
  unfold isFree at free
  rw [Bool.and_eq_true, Option.isNone_iff_eq_none, List.all_eq_true] at free
  refine ⟨free.1, fun other wait key waiting aims met => ?_⟩
  have calledOff := free.2 other (h.inLine.mpr ⟨wait, key, waiting, aims⟩)
  obtain ⟨task, ht, status⟩ := task_of_status waiting
  obtain ⟨role, _, asked⟩ := task
  cases status
  rw [ht] at calledOff
  simp [met] at calledOff

/-- The task whose turn it is gets the free barrier at once. -/
theorem takeFree (h : s.Sound (some (t, none)) trace) (free : s.isFree) :
    (({ s with waits := s.waits + 1 }.take s.waits).grant s.waits).Sound (some (t, none))
      (trace ++ [Deed.took t s.waits]) := by
  obtain ⟨unheld, unwoken⟩ := unwoken_of_isFree h.orderly free
  obtain ⟨unasked, unhelped, shut, -⟩ := h.keyed.fresh
  have untold := h.accounted.fresh h.keyed
  have keyed := h.keyed.take (({ s with waits := s.waits + 1 }.take s.waits).grant s.waits) rfl
    (Nat.lt_succ_self _) (Nat.le_succ _) (.inl unheld) shut unasked
    (fun helper t helps => absurd helps (unhelped helper t)) rfl rfl
  have accounted := h.accounted.tell_took
    (({ s with waits := s.waits + 1 }.take s.waits).grant s.waits) rfl
    (Nat.lt_succ_self _) (Nat.le_succ _) (.inl unheld) unasked untold rfl rfl
  exact ⟨h.tick.orderly.handOver unwoken _ _, keyed, accounted⟩

/-- The task whose turn it is joins the line. -/
theorem joinLine (h : s.Sound (some (t, none)) trace) :
    ({ s with line := s.line ++ [t] }.suspend t (.line s.waits)).Sound none trace := by
  obtain ⟨unasked, unhelped, shut, -⟩ := h.keyed.fresh
  obtain ⟨untaken, unquit⟩ := h.accounted.fresh h.keyed
  refine h.suspend_in (fun _ _ => rfl) (fun outside => absurd rfl (outside _)) fun key named => ?_
  cases named
  exact ⟨Nat.lt_succ_self _, {
    unasked := fun t' aim' different asks => unasked t' aim' ((asks_other different).mpr asks)
    shut, untaken, unquit
    caller := nofun
    alone := fun _ => unhelped
    leaving := nofun }⟩

/-- A helper is sent out by being spawned, and uses up the number of a wait as its key. -/
theorem sends_spawn (h : s.Sound (some (t, before)) trace) (caller : TaskId) :
    Sends s { (s.spawn (.helper s.waits caller)).1 with waits := s.waits + 1 } caller where
  unknown := h.helper_of_size
  others other different :=
    ⟨(status?_spawn s _ other).trans (if_neg different),
      (asked_spawn s _ other).trans (if_neg different)⟩
  helper := helper?_spawn s (.helper s.waits caller)
  holder := rfl
  keys := rfl
  waits := rfl

/-- A helper is sent out, whether or not its caller is going to wait for it. -/
theorem spawnHelper (h : s.Sound (some (t, none)) trace) :
    { (s.spawn (.helper s.waits t)).1 with waits := s.waits + 1 }.Sound (some (t, none)) trace := by
  have sends := h.sends_spawn t
  have running := h.orderly.known (h.orderly.inHand rfl)
  have orderly : { (s.spawn (.helper s.waits t)).1 with waits := s.waits + 1 }.Orderly
      (some (t, none)) :=
    (h.orderly.spawn (.helper s.waits t)).frame (fun _ => rfl) (fun _ => rfl) rfl rfl rfl
      (Nat.le_succ _) (fun _ => Nat.le_refl _) (fun _ _ => .inl)
  refine ⟨orderly, h.keyed.spawnHelper sends ?_, ?_⟩
  · rintro aim same
    cases same
    exact Nat.lt_irrefl _ running
  · refine h.accounted.frame (fun other helps => ?_) (fun other helps => sends.got_iff helps)
      (fun other helps => (sends.doomed_iff helps).mpr) rfl rfl (Nat.le_succ _) (fun _ _ => sends.asks)
    rw [sends.helper, if_neg (sends.older helps)]

/-- The task whose turn it is sends out a helper, and waits for its end or for the limit of time. -/
theorem watch (h : s.Sound (some (t, none)) trace) (limit : Value) (due : Binary64) :
    let helped := (s.spawn (.helper s.waits t)).1
    let timer : Timer := { due, task := t, wait := s.waits }
    ({ helped with timers := timer.insert helped.timers }.suspend t
      (.watch s.waits s.size limit)).Sound none trace := by
  intro helped timer
  have sends := h.sends_spawn t
  have spawned := h.spawnHelper
  obtain ⟨unasked, unhelped, shut, -⟩ := h.keyed.fresh
  obtain ⟨untaken, unquit⟩ := h.accounted.fresh h.keyed
  have sent : helped.helper? s.size = some (s.waits, t) := by
    rw [helper?_spawn, if_pos rfl]
    rfl
  have claim : { helped with waits := s.waits + 1 }.Claim t trace (.watch s.waits s.size limit)
      s.waits := {
    unasked := fun t' aim' different asks =>
      unasked t' aim' ((asks_other different).mpr (sends.asks asks))
    shut, untaken, unquit
    caller := by
      rintro helper ⟨⟩
      refine ⟨sent, fun got => ?_⟩
      have got : helped.status? s.size = some (.finished (.ok ())) := got
      rw [status?_spawn, if_pos rfl] at got
      cases got
    alone := nofun
    leaving := nofun }
  obtain ⟨task, ht, running⟩ := task_of_status (spawned.orderly.inHand rfl)
  have ht : helped.task t = some task := ht
  have moves := moves_setTask (s := { helped with waits := s.waits + 1 })
    { helped with waits := s.waits + 1 }
    { task with
      status := .waiting { id := s.waits, aim := .watch s.waits s.size limit }
      cancelAsked := false } ht rfl (fun _ _ => rfl) rfl (Nat.le_refl _) rfl (fun _ _ => Iff.rfl)
  have rested := spawned.rest moves (Nat.lt_succ_self _) rfl rfl rfl nofun (fun _ => rfl)
    fun key named => by
      cases named
      exact ⟨Nat.lt_succ_self _, claim⟩
  have waits : (helped.suspend t (.watch s.waits s.size limit)).Sound none trace := by
    rw [suspend_eq ht]
    split
    · exact rested.settle ((status?_setTask _ _ _ _).trans (if_pos rfl)) rfl nofun nofun
    · exact rested
  exact waits.remind (status_of_task ht) nofun due

/-- The task whose turn it is gives way. -/
theorem yieldTurn (h : s.Sound (some (t, none)) trace) : (s.yieldTurn t).Sound none trace := by
  obtain ⟨task, ht, -⟩ := task_of_status (h.orderly.inHand rfl)
  have body := h.keyed.inHand rfl
  have moves := moves_setTask s { task with status := .queued } ht rfl
    (fun _ _ => rfl) rfl (Nat.le_refl _) rfl (fun _ _ => Iff.rfl)
  have quiet := moves.quiet body rfl rfl
  have asks := asks_of_moves moves nofun (some (t, none))
  unfold Scheduler.yieldTurn
  rw [ht]
  refine ⟨h.orderly.requeue moves rfl rfl, ?_, ?_⟩
  · exact h.keyed.frame ⟨quiet.helper, quiet.got, quiet.doomed, rfl, rfl, quiet.waits⟩ nofun asks
  · exact h.accounted.frame_of_quiet
      ⟨quiet.helper, quiet.got, quiet.doomed, rfl, rfl, quiet.waits⟩ asks

end Sound

/-! ## Every request for a pause -/

/-- What a request for a pause adds to the trace, given what it is answered at once. -/
def deedsOfAwait (t : TaskId) : Pause → Option (Except Failure PauseId) → List Deed
  | .barrier, some (.ok key) => [.took t key]
  | _, _ => []

theorem did_notMem_deedsOfAwait (t other : TaskId) (pause : Pause)
    (answer : Option (Except Failure PauseId)) (effect : Effect) :
    .did other effect ∉ deedsOfAwait t pause answer := by
  unfold deedsOfAwait
  split <;> simp

/-- Where the turn is after a request for a pause: with the same task, or with nobody if it has to
wait. -/
def handOfAwait (t : TaskId) : Option (Except Failure PauseId) → Hand
  | some _ => some (t, none)
  | none => none

/-- Whatever pause the task whose turn it is asks for, all stays well. -/
theorem Sound.await {s : Scheduler κ} {t : TaskId} {trace : List Deed}
    (h : s.Sound (some (t, none)) trace) (pause : Pause) :
    (s.await t pause).1.Sound (handOfAwait t (s.await t pause).2)
      (trace ++ deedsOfAwait t pause (s.await t pause).2) := by
  have running := h.orderly.inHand rfl
  cases pause with
  | gate name =>
    unfold Scheduler.await
    simp only [deedsOfAwait, List.append_nil]
    split
    · exact h.tick
    · have gated : { s with atGates := s.atGates ++ [t] }.Sound (some (t, none)) trace :=
        h.frame (fun _ => rfl) (fun _ => rfl) (fun _ => rfl) rfl rfl rfl rfl (Nat.le_refl _)
          (fun _ => Nat.le_refl _) (fun _ _ => .inl)
      exact gated.suspend nofun nofun
  | sleep span =>
    unfold Scheduler.await
    simp only [deedsOfAwait, List.append_nil]
    split
    · exact h.yieldTurn
    · have rested : (s.suspend t .time).Sound none trace := h.suspend nofun nofun
      exact rested.remind running nofun _
  | barrier =>
    unfold Scheduler.await
    simp only
    split
    next =>
      split
      next free => exact h.takeFree free
      next =>
        simp only [deedsOfAwait, List.append_nil]
        exact h.joinLine
    next limit _ =>
      split
      next =>
        simp only [deedsOfAwait, List.append_nil]
        exact h.spawnHelper
      next =>
        simp only [deedsOfAwait, List.append_nil]
        exact h.watch limit _

end Scheduler
end ActionFlow
