import ActionFlow.Proofs.Scheduler.Asking

/-!
# Taking turns

A turn is taken off the queue, and the task whose turn it is follows up what it waited for: it leaves
the line, takes the barrier or gives it back, calls its helper off, or ends if it is a helper itself.
All of that keeps the invariant, and the trace tells which request came to its end.

## Main results

* `Sound.nextTurn`: a turn that is taken off the queue is due.
* `Sound.takeTurn`: whatever turn is due, taking it keeps the invariant.
-/

namespace ActionFlow

/-- The deed of a task whose request fails, if it was one within a limit of time. -/
def Task.deedsOfFailure {κ : Type} (task : Task κ) (t : TaskId) (failure : Failure) : List Deed :=
  match task.status with
  | .waiting { aim := .watch key helper _, .. } => [.quit t key helper failure false]
  | .waiting { aim := .leave key helper _, signal, .. } =>
      [.quit t key helper failure (task.cancelAsked || decide (signal = .cancelled))]
  | _ => []

namespace Scheduler

variable {κ : Type}

/-- What it adds to the trace that a task goes on. -/
def deedsOfHandover (task : Task κ) (t : TaskId) : Option (Handover κ) → List Deed
  | some { granted := some key, .. } => [.took t key]
  | some { answer := .error failure, .. } => task.deedsOfFailure t failure
  | _ => []

/-- What a turn adds to the trace. -/
def deedsOfTurn (s : Scheduler κ) : Turn → List Deed
  | .signal .. => []
  | .resume t =>
      match s.task t with
      | some task => deedsOfHandover task t ((s.takeTurn (.resume t)).2.map (·.2))
      | none => []

theorem did_notMem_deedsOfTurn (s : Scheduler κ) (turn : Turn) (t : TaskId) (effect : Effect) :
    .did t effect ∉ s.deedsOfTurn turn := by
  unfold deedsOfTurn
  split
  next => simp
  next =>
    split
    · unfold deedsOfHandover
      split
      · simp
      · unfold Task.deedsOfFailure
        split <;> simp
      · simp
    · simp

/-- The key that a task is granted is taken. -/
theorem took_mem_deedsOfTurn {s : Scheduler κ} {t : TaskId} {handover : Handover κ} {key : PauseId}
    (h : (s.takeTurn (.resume t)).2 = some (t, handover)) (granted : handover.granted = some key) :
    .took t key ∈ s.deedsOfTurn (.resume t) := by
  obtain ⟨resume, answer, _⟩ := handover
  cases granted
  unfold deedsOfTurn
  simp only [h]
  split
  next => simp [deedsOfHandover]
  next none => simp [takeTurn, none] at h

/-! ## The next turn -/

/-- Whether a turn can be taken now: a task is ready for it and has no other one queued, or a word goes
to a wait outside the line. -/
def Due (s : Scheduler κ) : Turn → Prop
  | .resume t => .resume t ∉ s.turns ∧ s.Ready t
  | .signal t id => ∀ wait key, s.status? t = some (.waiting wait) → wait.aim = .line key →
      wait.id ≠ id

/-- What is known of the key that the task whose turn it is has asked for. -/
structure Pursued (s : Scheduler κ) (t : TaskId) (trace : List Deed) (key : PauseId) : Prop where
  numbered : key < s.waits
  unasked : ∀ t' aim', s.Asks (some (t, none)) t' aim' → aim'.key? ≠ some key
  shut : key ∉ s.keys
  untaken : ∀ t, .took t key ∉ trace
  unquit : ∀ t h failure cut, .quit t key h failure cut ∉ trace

namespace Sound

variable {s s' : Scheduler κ} {trace : List Deed} {t : TaskId}

/-- A turn is dealt, after reminders have joined the queue. -/
theorem deal (h : s.Sound none trace) {turn : Turn} (reminders : List Turn) {round queue : List Turn}
    {timers : List Timer} (turns : turn :: (round ++ queue) = s.turns ++ reminders)
    (reminds : ∀ reminder ∈ reminders, ∃ t id, reminder = .signal t id ∧ s.Alarm t id)
    (fewer : ∀ timer ∈ timers, timer ∈ s.timers) :
    { s with round, queue, timers }.Sound none trace ∧ { s with round, queue, timers }.Due turn := by
  have left : { s with round, queue, timers }.turns = round ++ queue := rfl
  have noResume : ∀ t, reminders.count (.resume t) = 0 := fun t =>
    List.count_eq_zero_of_not_mem fun member => by
      obtain ⟨_, _, same, -⟩ := reminds _ member
      cases same
  have count : ∀ t, (turn :: (round ++ queue)).count (.resume t) = s.turns.count (.resume t) :=
    fun t => by rw [turns, List.count_append, noResume, Nat.add_zero]
  have queued : ∀ t id, .signal t id ∈ turn :: (round ++ queue) → s.Alarm t id := fun t id member => by
    rw [turns] at member
    rcases List.mem_append.mp member with member | member
    · exact .inl member
    · obtain ⟨t', id', same, alarm⟩ := reminds _ member
      cases same
      exact alarm
  constructor
  · refine h.frame (fun _ => rfl) (fun _ => rfl) (fun _ => rfl) rfl rfl rfl rfl (Nat.le_refl _)
      (fun t => ?_) (fun t id alarm => .inl ?_)
    · rw [left, ← count t]
      exact List.Sublist.count_le _ (List.sublist_cons_self ..)
    · rcases alarm with member | ⟨timer, member, same⟩
      · exact queued t id (List.mem_cons_of_mem _ (left ▸ member))
      · exact .inr ⟨timer, fewer timer member, same⟩
  · cases turn with
    | resume t =>
      have once := h.orderly.once t
      have here := count t
      rw [List.count_cons_self] at here
      constructor
      · intro again
        have := List.count_pos_iff.mpr (left ▸ again)
        omega
      · exact h.orderly.ready (List.count_pos_iff.mp (by omega))
    | signal t id =>
      intro wait key waiting aims same
      refine h.orderly.alarmElsewhere waiting aims ?_
      rw [same]
      exact queued t id (List.mem_cons_self ..)

/-- A turn that is taken off the queue is due. -/
theorem nextTurn (h : s.Sound none trace) {turn : Turn} (next : s.nextTurn? = some (turn, s')) :
    s'.Sound none trace ∧ s'.Due turn := by
  unfold nextTurn? at next
  split at next
  next first rest round =>
    cases next
    exact h.deal [] (by simp [turns, round]) nofun fun _ => id
  next round =>
    simp only at next
    split at next
    next => cases next
    next first rest queued =>
      cases next
      refine h.deal ((s.timers.filter (isDue s.clock)).map fun timer =>
        Turn.signal timer.task timer.wait) (by simp [turns, round, queued]) (fun reminder listed => ?_)
        fun timer member => (List.mem_filter.mp member).1
      obtain ⟨timer, member, same⟩ := List.mem_map.mp listed
      exact ⟨_, _, same.symm, .inr ⟨timer, (List.mem_filter.mp member).1, rfl, rfl⟩⟩

/-! ## Starting a turn -/

/-- What a task aims at. -/
def aimOf (task : Task κ) : Option Aim :=
  match task.status with
  | .waiting wait => some wait.aim
  | _ => none

/-- A task that is no helper starts its turn, and leaves the line if it was there. -/
theorem start_in (h : s.Sound none trace) {task : Task κ} (ht : s.task t = some task)
    (body : task.role.helper? = none) (noTurn : .resume t ∉ s.turns) :
    ({ s with line := s.line.erase t }.start t task).Sound (some (t, aimOf task)) trace := by
  have status := status_of_task ht
  have body : s.helper? t = none := (helper_of_task ht).trans body
  have moves := moves_setTask { s with line := s.line.erase t }
    { task with status := .running, cancelAsked := false } ht rfl (fun _ _ => rfl) rfl
    (Nat.le_refl _) rfl (fun _ _ => Iff.rfl)
  have quiet := moves.quiet body rfl rfl
  have asks : ∀ other aim, ({ s with line := s.line.erase t }.start t task).Asks
      (some (t, aimOf task)) other aim → s.Asks none other aim := by
    intro other aim asks
    by_cases same : other = t
    · subst same
      obtain ⟨-, named, ⟨wait, waiting, -⟩ | held⟩ := asks
      · cases ((moves.status other).trans (if_pos rfl)).symm.trans waiting
      · refine ⟨body, named, .inl ?_⟩
        simp only [aimOf, Option.some.injEq, Prod.mk.injEq, true_and] at held
        split at held
        next wait waits => exact ⟨wait, status.trans (congrArg some waits), Option.some.inj held⟩
        next => cases held
    · refine moves.asks asks same fun other aim held => ?_
      cases held
      rfl
  refine h.of_quiet (h.orderly.start moves noTurn rfl rfl _) quiet (fun other aim held => ?_) asks
  cases held
  exact body

/-- A task starts its turn that is no helper and not in line. -/
theorem start (h : s.Sound none trace) {task : Task κ} (ht : s.task t = some task)
    (body : task.role.helper? = none) (noTurn : .resume t ∉ s.turns)
    (outside : ∀ wait key, task.status = .waiting wait → wait.aim ≠ .line key) :
    (s.start t task).Sound (some (t, aimOf task)) trace := by
  have notIn : t ∉ s.line := fun member => by
    obtain ⟨wait, key, waiting, aims⟩ := h.orderly.inLine.mp member
    rw [status_of_task ht] at waiting
    exact outside wait key (Option.some.inj waiting) aims
  have started := h.start_in ht body noTurn
  rw [List.erase_of_not_mem notIn] at started
  exact started

/-! ## Following up a request -/

theorem asks_inHand {aim : Aim} {key : PauseId} (h : s.Sound (some (t, some aim)) trace)
    (named : aim.key? = some key) : s.Asks (some (t, some aim)) t aim :=
  ⟨h.keyed.inHand rfl, by simp [named], .inr rfl⟩

theorem pursued {aim : Aim} {key : PauseId} (h : s.Sound (some (t, some aim)) trace)
    (named : aim.key? = some key) : s.Pursued t trace key := by
  have asks := h.asks_inHand named
  have running := h.orderly.inHand rfl
  refine ⟨h.keyed.askKey asks named, fun t' aim' asks' named' => ?_, h.keyed.shut asks named,
    fun other took => h.accounted.tookDone took asks named,
    fun other helper failure cut quit => h.accounted.quitDone quit asks named⟩
  obtain ⟨body, some, ⟨wait, waiting, aims⟩ | held⟩ := asks'
  · have same := h.keyed.askOne ⟨body, some, .inl ⟨wait, waiting, aims⟩⟩ asks named' named
    rw [same, running] at waiting
    cases waiting
  · cases held

/-- The task whose turn it is takes the barrier over with the key that it has asked for. -/
theorem takeOver {aim : Aim} {key : PauseId} (h : s.Sound (some (t, some aim)) trace)
    (named : aim.key? = some key) (free : s.holder = none ∧ s.Unwoken ∨ s.holder = some key)
    (origin : ∀ h t', s.helper? h = some (key, t') → s.Got h) :
    ((s.take key).grant key).Sound (some (t, none)) (trace ++ [Deed.took t key]) := by
  obtain ⟨numbered, unasked, shut, untaken, unquit⟩ := h.pursued named
  have free' : s.holder = none ∨ s.holder = some key := free.imp_left And.left
  have orderly : ((s.take key).grant key).Orderly (some (t, none)) := by
    rcases free with ⟨-, unwoken⟩ | held
    · exact (h.letGo.orderly.handOver unwoken (some key) (s.keys ++ [key]))
    · have same : (s.take key).grant key = { s with keys := s.keys ++ [key] } := by
        unfold Scheduler.take grant
        rw [← held]
      rw [same]
      exact { h.letGo.orderly with }
  exact ⟨orderly, h.keyed.take ((s.take key).grant key) rfl numbered (Nat.le_refl _) free' shut
    unasked origin rfl rfl, h.accounted.tell_took ((s.take key).grant key) rfl numbered
    (Nat.le_refl _) free' unasked ⟨untaken, unquit⟩ rfl rfl⟩

/-- The request of the task whose turn it is fails. -/
theorem quits {aim : Aim} {key : PauseId} (h : s.Sound (some (t, some aim)) trace)
    (named : aim.key? = some key) {helper : TaskId} (watched : aim.helper? = some helper)
    {failure : Failure} {cut : Bool} (doomed : s.Doomed helper) (excused : failure.Excused)
    (ungot : cut = false → ¬ s.Got helper) :
    s.Sound (some (t, none)) (trace ++ [Deed.quit t key helper failure cut]) := by
  obtain ⟨numbered, unasked, shut, untaken, unquit⟩ := h.pursued named
  have asks := h.asks_inHand named
  exact ⟨h.letGo.orderly, h.letGo.keyed, h.letGo.accounted.tell_quit
    (h.keyed.caller asks named watched) doomed excused unasked
    (fun uncut got => absurd got (ungot uncut))
    (fun _ got => ⟨h.keyed.kept asks named watched got, shut⟩)⟩

/-- The task whose turn it is gives back what was kept for it, and its request fails. -/
theorem handsBack {aim : Aim} {key : PauseId} (h : s.Sound (some (t, some aim)) trace)
    (named : aim.key? = some key) {helper : TaskId} (watched : aim.helper? = some helper)
    (got : s.Got helper) {failure : Failure} (excused : failure.Excused) :
    ({ s with holder := none }.wakeFirst).Sound (some (t, none))
      (trace ++ [Deed.quit t key helper failure false]) := by
  obtain ⟨numbered, unasked, shut, untaken, unquit⟩ := h.pursued named
  have asks := h.asks_inHand named
  have held := h.keyed.kept asks named watched got
  have closed : s.keys = [] := by
    rcases h.keyed.opening with closed | ⟨own, opens, keys⟩
    · exact closed
    · cases held.symm.trans opens
      simp [keys] at shut
  have freed : { s with holder := none }.Sound (some (t, none)) trace :=
    ⟨h.letGo.orderly.setFree s.keys, h.letGo.keyed.setFree held unasked closed,
      h.letGo.accounted.setFree held unquit⟩
  have told : { s with holder := none }.Sound (some (t, none))
      (trace ++ [Deed.quit t key helper failure false]) :=
    ⟨freed.orderly, freed.keyed, freed.accounted.tell_quit (h.keyed.caller asks named watched)
      got.doomed excused unasked nofun nofun⟩
  exact told.wakeFirst rfl

/-- The task whose turn it is calls its helper off, and waits for the helper to end. -/
theorem abandon {key : PauseId} {helper : TaskId} {limit : Value}
    (h : s.Sound (some (t, some (.watch key helper limit))) trace) {why : Failure}
    (excused : why.Excused) : (s.abandon t key helper why).Sound none trace := by
  have byCaller := h.keyed.caller (h.asks_inHand rfl) rfl rfl
  have body := h.keyed.inHand rfl
  have different : t ≠ helper := by
    rintro rfl
    rw [body] at byCaller
    cases byCaller
  obtain ⟨status, known⟩ : ∃ status, s.status? helper = some status := by
    cases ht : s.task helper with
    | none => simp [helper?, ht] at byCaller
    | some task => exact ⟨_, status_of_task ht⟩
  have doomed := doomed_cancel known
  have h := h.cancel helper
  obtain ⟨numbered, unasked, shut, untaken, unquit⟩ := h.pursued rfl
  have asks := h.asks_inHand rfl
  have left : ((s.cancel helper).suspend t (.leave key helper why)).Sound none trace := by
    refine h.suspend (fun key' same => by cases same) fun key' named => ?_
    cases named
    exact ⟨Nat.lt_succ_of_lt numbered, {
      unasked := fun t' aim' different asks => unasked t' aim' ((asks_other different).mpr asks)
      shut, untaken, unquit
      caller := by
        rintro other ⟨⟩
        exact ⟨h.keyed.caller asks rfl rfl, h.keyed.kept asks rfl rfl⟩
      alone := fun same => by cases same
      leaving := by
        rintro other failure ⟨⟩
        exact ⟨doomed, excused⟩ }⟩
  have running := h.orderly.inHand rfl
  unfold Scheduler.abandon
  simp only
  split
  · refine left.pushSignal ?_ fun wait key' waiting aims => ?_
    · rw [waits_of_suspend running, waits_cancel]
      exact Nat.lt_succ_self _
    · rw [status_of_suspend running waiting] at aims
      cases aims
  · exact left

/-! ## The turns of helpers -/

section Helper

variable {task : Task κ} {key : PauseId} {caller : TaskId}

/-- A helper is no longer ready once its turn has come. -/
theorem not_got_of_ready (ready : s.Ready t) : ¬ s.Got t := by
  unfold Got
  rcases ready with queued | ⟨wait, waiting, -⟩
  · rw [queued]
    nofun
  · rw [waiting]
    nofun

/-- A task is not certain to end otherwise than well while nobody asked it to end. -/
theorem calm_of (ht : s.task t = some task) (notAsked : task.cancelAsked = false)
    (unended : ∀ ending, task.status ≠ .finished ending)
    (uncancelled : ∀ wait, task.status = .waiting wait → wait.signal ≠ .cancelled) : ¬ s.Doomed t := by
  rw [doomed_of_task ht]
  rintro (⟨ending, ended⟩ | asked | ⟨wait, waits, cancelled⟩)
  · exact unended ending ended
  · cases notAsked.symm.trans asked
  · exact uncancelled wait waits cancelled

/-- A helper starts its turn, as far as the order among the tasks goes. -/
theorem startHelper (h : s.Sound none trace) (ht : s.task t = some task)
    (noTurn : .resume t ∉ s.turns) :
    ({ s with line := s.line.erase t }.start t task).Orderly (some (t, none)) :=
  h.orderly.start (moves_setTask { s with line := s.line.erase t }
    { task with status := .running, cancelAsked := false } ht rfl (fun _ _ => rfl) rfl
    (Nat.le_refl _) rfl (fun _ _ => Iff.rfl)) noTurn rfl rfl none

/-- A helper that was called off ends. -/
theorem helperStops (h : s.Sound none trace) (ht : s.task t = some task)
    (noTurn : .resume t ∉ s.turns) (ready : s.Ready t) :
    ({ s with line := s.line.erase t }.setTask t
      { task with status := .finished (.error .cancelled), cancelAsked := false }).Sound none
        trace := by
  have started := h.startHelper ht noTurn
  have ending := moves_setTask { s with line := s.line.erase t }
    { task with status := .finished (.error .cancelled), cancelAsked := false }
    (task_start { s with line := s.line.erase t } t task) rfl
    (fun _ different => (amend_of_ne different _ _).symm) rfl (Nat.le_refl _) rfl (fun _ _ => Iff.rfl)
  have orderly := started.halt ending rfl rfl fun failure _ same => by cases same; rfl
  have moves := moves_setTask { s with line := s.line.erase t }
    { task with status := .finished (.error .cancelled), cancelAsked := false } ht rfl
    (fun _ _ => rfl) rfl (Nat.le_refl _) rfl (fun _ _ => Iff.rfl)
  have quiet := moves.quiet_of_own
    (fun _ => iff_of_false (moves.not_got nofun) (not_got_of_ready ready))
    (fun _ => moves.doomed_of_finished) rfl rfl
  exact h.of_quiet orderly quiet nofun (asks_of_moves moves nofun none)

/-- A helper that was not called off takes the free barrier, and ends. -/
theorem helperTakes (h : s.Sound none trace) (ht : s.task t = some task)
    (helps : task.role.helper? = some (key, caller)) (noTurn : .resume t ∉ s.turns)
    (calm : ¬ s.Doomed t) (free : s.holder = none)
    (unwoken : ({ s with line := s.line.erase t }.start t task).Unwoken) :
    (({ s with line := s.line.erase t }.take key).setTask t
      { task with status := .finished (.ok ()), cancelAsked := false }).Sound none trace := by
  have started := (h.startHelper ht noTurn).handOver unwoken (some key) s.keys
  have mine : { { s with line := s.line.erase t }.start t task with
      holder := some key, keys := s.keys }.task t =
        some { task with status := .running, cancelAsked := false } := amend_self _ _ _
  have ending := moves_setTask ({ s with line := s.line.erase t }.take key)
    { task with status := .finished (.ok ()), cancelAsked := false } mine rfl
    (fun _ different => (amend_of_ne different _ _).symm) rfl (Nat.le_refl _) rfl (fun _ _ => Iff.rfl)
  have moves := moves_setTask ({ s with line := s.line.erase t }.take key)
    { task with status := .finished (.ok ()), cancelAsked := false } ht rfl
    (fun _ _ => rfl) rfl (Nat.le_refl _) rfl (fun _ _ => Iff.rfl)
  have helps := (helper_of_task ht).trans helps
  exact ⟨started.halt ending rfl rfl nofun, h.keyed.helperTakes moves helps free rfl rfl,
    h.accounted.helperTakes moves helps calm free h.keyed rfl rfl⟩

/-- A helper joins the line. -/
theorem helperRests (h : s.Sound none trace) (ht : s.task t = some task)
    (helps : task.role.helper? = some (key, caller)) (noTurn : .resume t ∉ s.turns)
    (queued : task.status = .queued) (calm : task.cancelAsked = false) (outside : t ∉ s.line) :
    ({ s.start t task with line := s.line ++ [t] }.suspend t (.line key)).Sound none trace := by
  have started := h.startHelper ht noTurn
  rw [List.erase_of_not_mem outside] at started
  have status := status_of_task ht
  have asked := asked_of_task ht
  have resting := moves_setTask { s.start t task with line := s.line ++ [t], waits := s.waits + 1 }
    { task with status := .waiting { id := s.waits, aim := .line key }, cancelAsked := false }
    (task_start s t task) rfl (fun _ _ => rfl) rfl (Nat.le_succ _) rfl (fun _ _ => Iff.rfl)
  have orderly := started.rest resting (Nat.lt_succ_self _) rfl rfl
    (fun _ _ => ⟨rfl, fun alarm => Nat.lt_irrefl _ (h.orderly.alarmNumbered alarm)⟩)
    (fun elsewhere => absurd rfl (elsewhere key)) fun key' caller' helps' => by
      have same := (helper?_setTask _ _ _ _).symm.trans helps'
      rw [if_pos rfl, helps] at same
      cases same
      rfl
  have moves := moves_setTask { s.start t task with line := s.line ++ [t], waits := s.waits + 1 }
    { task with status := .waiting { id := s.waits, aim := .line key }, cancelAsked := false } ht rfl
    (fun _ different => amend_of_ne different _ _) rfl (Nat.le_succ _) rfl (fun _ _ => Iff.rfl)
  have helps := (helper_of_task ht).trans helps
  have quiet := moves.quiet_of_own
    (fun _ => iff_of_false (moves.not_got nofun)
      (not_got_of_ready (.inl (status ▸ congrArg some queued))))
    (fun _ was => absurd was (calm_of ht calm (by simp [queued]) (by simp [queued]))) rfl rfl
  rw [suspend_eq (s := { s.start t task with line := s.line ++ [t] }) (task_start s t task)]
  exact h.of_quiet orderly quiet nofun fun other aim => moves.asks_of_helper (by simp [helps])

/-- The end of a helper is signalled to its caller. -/
theorem signalCaller (ht : s.task t = some task) (helps : task.role.helper? = some (key, caller))
    (running : task.status = .running) (ending : Except Failure Unit)
    (h : (s.setTask t { task with
      status := .finished (endingOf task ending), cancelAsked := false }).Sound none trace) :
    (s.finish t ending).Sound none trace := by
  rcases finish_helper ht helps ending with same | ⟨wait, waiting, watched, same⟩
  · rw [same]
    exact h
  · have different : caller ≠ t := by
      rintro rfl
      rw [status_of_task ht, running] at waiting
      cases waiting
    have still := (status?_setTask s t caller { task with
      status := .finished (endingOf task ending), cancelAsked := false }).trans
        ((if_neg different).trans waiting)
    rw [same]
    refine h.pushSignal (h.orderly.numbered still) fun wait' key' waiting' aims => ?_
    rw [still] at waiting'
    cases waiting'
    rw [aims] at watched
    cases watched

end Helper

/-! ## Every turn -/

/-- What a turn comes to is well: the task goes on, or its turn is over. -/
def Went (task : Task κ) (t : TaskId) (trace : List Deed)
    (result : Scheduler κ × Option (Handover κ)) : Prop :=
  result.1.Sound (result.2.map fun _ => (t, none)) (trace ++ deedsOfHandover task t result.2)

theorem went_over {task : Task κ} (h : s.Sound none trace) : Went task t trace (s, none) := by
  have h : s.Sound none (trace ++ []) := by rwa [List.append_nil]
  exact h

theorem went_on {task : Task κ} {resume : Except Failure PauseId → κ} {id : PauseId}
    (h : s.Sound (some (t, none)) trace) :
    Went task t trace (s, some { resume, answer := .ok id }) := by
  have h : s.Sound (some (t, none)) (trace ++ []) := by rwa [List.append_nil]
  exact h

theorem went_wrong {task : Task κ} {resume : Except Failure PauseId → κ} {failure : Failure}
    (h : s.Sound (some (t, none)) (trace ++ task.deedsOfFailure t failure)) :
    Went task t trace (s, some { resume, answer := .error failure }) := h

theorem went_with {task : Task κ} {resume : Except Failure PauseId → κ} {key : PauseId}
    (h : (s.grant key).Sound (some (t, none)) (trace ++ [Deed.took t key])) :
    Went task t trace (s.grant key, some { resume, answer := .ok key, granted := some key }) := h

/-- The first turn of a task, or one after it gave way. -/
theorem went_queued (h : s.Sound none trace) {task : Task κ} (ht : s.task t = some task)
    (queued : task.status = .queued) (noTurn : .resume t ∉ s.turns) :
    Went task t trace ((s.start t task).resumeQueued t task.role task.cancelAsked) := by
  have outside : t ∉ s.line := fun member => by
    obtain ⟨wait, key, waiting, -⟩ := h.orderly.inLine.mp member
    rw [status_of_task ht, queued] at waiting
    cases waiting
  have noFailure : ∀ failure, task.deedsOfFailure t failure = [] := fun failure => by
    simp only [Task.deedsOfFailure, queued]
  unfold resumeQueued
  cases role : task.role with
  | body resume =>
    have started := (h.start ht (by rw [role]; rfl) noTurn (by simp [queued])).letGo
    split
    · refine went_wrong ?_
      rw [noFailure, List.append_nil]
      exact started
    · exact went_on started.tick
  | helper key caller =>
    have helps : task.role.helper? = some (key, caller) := by rw [role]; rfl
    have mine := task_start s t task
    have ready : s.Ready t := .inl (by rw [status_of_task ht, queued])
    have unchanged : { s with line := s.line.erase t } = s := by
      rw [List.erase_of_not_mem outside]
    split
    next =>
      have stopped := h.helperStops ht noTurn ready
      rw [unchanged] at stopped
      exact went_over (signalCaller mine helps rfl (.error .cancelled)
        (by simpa [endingOf, Scheduler.start, setTask] using stopped))
    next notAsked =>
      have notAsked : task.cancelAsked = false := by simpa using notAsked
      simp only
      split
      next free =>
        have started := h.startHelper ht noTurn
        rw [unchanged] at started
        obtain ⟨unheld, unwoken⟩ := unwoken_of_isFree started free
        have calm := calm_of ht notAsked (by simp [queued]) (by simp [queued])
        have taken := h.helperTakes ht helps noTurn calm unheld (unchanged ▸ unwoken)
        rw [unchanged] at taken
        exact went_over (signalCaller (s := (s.start t task).take key) mine helps rfl (.ok ())
          (by simpa [endingOf, Scheduler.start, Scheduler.take, setTask] using taken))
      next => exact went_over (h.helperRests ht helps noTurn queued notAsked outside)

section Waiting

variable {task : Task κ} {wait : Wait}

theorem take_eq_self {key : PauseId} (held : s.holder = some key) : s.take key = s := by
  unfold Scheduler.take
  rw [← held]

/-- The turn of a caller that watched its helper and the clock. -/
theorem went_watch (h : s.Sound none trace) (ht : s.task t = some task)
    (body : task.role.helper? = none) (waiting : task.status = .waiting wait)
    (noTurn : .resume t ∉ s.turns) {key : PauseId} {helper : TaskId} {limit : Value}
    (aims : wait.aim = .watch key helper limit) (thrown : Bool) :
    Went task t trace ((s.start t task).resumeWaiting t task.role wait thrown) := by
  have aim : aimOf task = some (.watch key helper limit) := by simp only [aimOf, waiting, aims]
  have started := (h.start ht body noTurn fun other key' waits => by
    cases waiting.symm.trans waits
    simp [aims]).filterTimers fun timer => timer.wait ≠ wait.id
  rw [aim] at started
  have failed : ∀ failure, task.deedsOfFailure t failure = [.quit t key helper failure false] := by
    intro failure
    obtain ⟨id, _, signal⟩ := wait
    cases aims
    simp only [Task.deedsOfFailure, waiting]
  have asks := started.asks_inHand rfl
  have byCaller := started.keyed.caller asks rfl rfl
  unfold resumeWaiting
  cases role : task.role with
  | helper key caller => simp [role, Role.helper?] at body
  | body resume =>
    simp only [aims]
    split
    next => exact went_over (started.abandon (.inl rfl))
    next =>
      split
      next ended =>
        have got := ending?_eq_some_iff.mp ended
        have held := started.keyed.kept asks rfl rfl got
        have took := started.takeOver rfl (.inr held) fun other caller helps =>
          started.keyed.helperOne helps byCaller ▸ got
        rw [take_eq_self held] at took
        exact went_with took
      next failure ended =>
        have status := ending?_eq_some_iff.mp ended
        refine went_wrong ?_
        rw [failed]
        exact started.quits rfl rfl (.inl ⟨_, status⟩)
          (.inl (started.orderly.helperFailed byCaller status))
          fun _ got => by cases got.symm.trans status
      next => exact went_over (started.abandon (.inr ⟨limit, rfl⟩))

/-- The turn of a caller that waited for its helper to end. -/
theorem went_leave (h : s.Sound none trace) (ht : s.task t = some task)
    (body : task.role.helper? = none) (waiting : task.status = .waiting wait)
    (noTurn : .resume t ∉ s.turns) {key : PauseId} {helper : TaskId} {why : Failure}
    (aims : wait.aim = .leave key helper why) :
    Went task t trace ((s.start t task).resumeWaiting t task.role wait
      (task.cancelAsked || decide (wait.signal = .cancelled))) := by
  have aim : aimOf task = some (.leave key helper why) := by simp only [aimOf, waiting, aims]
  have started := (h.start ht body noTurn fun other key' waits => by
    cases waiting.symm.trans waits
    simp [aims]).filterTimers fun timer => timer.wait ≠ wait.id
  rw [aim] at started
  have failed : ∀ failure, task.deedsOfFailure t failure =
      [.quit t key helper failure (task.cancelAsked || decide (wait.signal = .cancelled))] := by
    intro failure
    obtain ⟨id, _, signal⟩ := wait
    cases aims
    simp only [Task.deedsOfFailure, waiting]
  have asks := started.asks_inHand rfl
  obtain ⟨doomed, excused⟩ := started.keyed.leaving asks
  generalize (task.cancelAsked || decide (wait.signal = .cancelled)) = thrown at failed ⊢
  unfold resumeWaiting
  cases role : task.role with
  | helper key caller => simp [role, Role.helper?] at body
  | body resume =>
    simp only [aims]
    cases thrown with
    | true =>
      refine went_wrong ?_
      rw [failed]
      exact started.quits rfl rfl doomed (.inl rfl) fun uncut => by cases uncut
    | false =>
      simp only [Bool.false_eq_true, ↓reduceIte]
      split
      next ended =>
        have got := ending?_eq_some_iff.mp ended
        have held : (s.start t task).holder = some key := started.keyed.kept asks rfl rfl got
        have freed := started.handsBack rfl rfl got excused
        simp only [unlock, held]
        refine went_wrong ?_
        rw [failed]
        exact freed
      next unended =>
        refine went_wrong ?_
        rw [failed]
        exact started.quits rfl rfl doomed excused fun _ got =>
          unended (ending?_eq_some_iff.mpr got)

/-- The turn of a task without a limit of time that was in line. -/
theorem went_line (h : s.Sound none trace) (ht : s.task t = some task)
    (body : task.role.helper? = none) (waiting : task.status = .waiting wait)
    (settled : wait.signal ≠ .pending) (noTurn : .resume t ∉ s.turns) {key : PauseId}
    (aims : wait.aim = .line key) :
    Went task t trace ((s.start t task).resumeWaiting t task.role wait
      (task.cancelAsked || decide (wait.signal = .cancelled))) := by
  have aim : aimOf task = some (.line key) := by simp only [aimOf, waiting, aims]
  have started := (h.start_in ht body noTurn).filterTimers fun timer => timer.wait ≠ wait.id
  rw [aim] at started
  have noFailure : ∀ failure, task.deedsOfFailure t failure = [] := by
    intro failure
    obtain ⟨id, _, signal⟩ := wait
    cases aims
    simp only [Task.deedsOfFailure, waiting]
  have asks := started.asks_inHand rfl
  unfold resumeWaiting
  cases role : task.role with
  | helper key caller => simp [role, Role.helper?] at body
  | body resume =>
    simp only [aims]
    split
    next =>
      refine went_wrong ?_
      rw [noFailure, List.append_nil]
      split
      next free => exact started.letGo.wakeFirst (Option.isNone_iff_eq_none.mp free)
      next => exact started.letGo
    next calm =>
      have met : wait.signal = .met := by
        cases signal : wait.signal with
        | pending => exact absurd signal settled
        | met => rfl
        | cancelled => simp [signal] at calm
      have moves := moves_setTask { s with line := s.line.erase t }
        { task with status := .running, cancelAsked := false } ht rfl (fun _ _ => rfl) rfl
        (Nat.le_refl _) rfl (fun _ _ => Iff.rfl)
      have free := h.orderly.start_woken moves rfl ((status_of_task ht).trans (by rw [waiting])) aims met
      exact went_with (started.takeOver rfl (.inl free)
        fun other caller helps => absurd helps (started.keyed.askAlone asks))

/-- A helper that was called off leaves the line. -/
theorem helperLeaves (h : s.Sound none trace) (ht : s.task t = some task) {key : PauseId}
    {caller : TaskId} (helps : task.role.helper? = some (key, caller)) (ready : s.Ready t)
    (noTurn : .resume t ∉ s.turns) :
    let left := { s with line := s.line.erase t }.start t task
    ((if left.holder.isNone then left.wakeFirst else left).finish t
      (.error .cancelled)).Sound none trace := by
  intro left
  have mine : left.task t = _ := task_start { s with line := s.line.erase t } t task
  have outside : t ∉ left.line := fun member =>
    ((List.Nodup.mem_erase_iff h.orderly.lineNodup).mp member).1 rfl
  have stopped : (left.setTask t
      { task with status := .finished (.error .cancelled), cancelAsked := false }).Sound none
        trace := by
    simpa [left, Scheduler.start, setTask] using h.helperStops ht noTurn ready
  split
  next free =>
    obtain ⟨still, same⟩ := wakeFirst_setTask outside
      { task with status := .finished (.error .cancelled), cancelAsked := false }
    refine signalCaller (still.trans mine) helps rfl _ ?_
    have woken := stopped.wakeFirst (Option.isNone_iff_eq_none.mp free)
    rw [← same] at woken
    exact woken
  next => exact signalCaller mine helps rfl _ stopped

/-- A helper that was woken takes the barrier. -/
theorem helperGets (h : s.Sound none trace) (ht : s.task t = some task) {key : PauseId}
    {caller : TaskId} (helps : task.role.helper? = some (key, caller))
    (waiting : task.status = .waiting wait) (met : wait.signal = .met)
    (notAsked : task.cancelAsked = false) (aims : wait.aim = .line key)
    (noTurn : .resume t ∉ s.turns) :
    ((({ s with line := s.line.erase t }.start t task).take key).finish t (.ok ())).Sound none
      trace := by
  have mine : (({ s with line := s.line.erase t }.start t task).take key).task t =
      some { task with status := .running, cancelAsked := false } := amend_self _ _ _
  have status := (status_of_task ht).trans (congrArg some waiting)
  have moves := moves_setTask { s with line := s.line.erase t }
    { task with status := .running, cancelAsked := false } ht rfl (fun _ _ => rfl) rfl
    (Nat.le_refl _) rfl (fun _ _ => Iff.rfl)
  obtain ⟨unheld, unwoken⟩ := h.orderly.start_woken moves rfl status aims met
  have calm := calm_of ht notAsked (by simp [waiting]) (by simp [waiting, met])
  have ended : ((({ s with line := s.line.erase t }.start t task).take key).setTask t
      { task with status := .finished (.ok ()), cancelAsked := false }).Sound none trace := by
    simpa [Scheduler.start, Scheduler.take, setTask] using
      h.helperTakes ht helps noTurn calm unheld unwoken
  exact signalCaller mine helps rfl (.ok ()) ended

/-- The turn of a helper that was in line. -/
theorem went_helper (h : s.Sound none trace) (ht : s.task t = some task) {key : PauseId}
    {caller : TaskId} (role : task.role = .helper key caller) (waiting : task.status = .waiting wait)
    (settled : wait.signal ≠ .pending) (noTurn : .resume t ∉ s.turns) (aims : wait.aim = .line key) :
    Went task t trace ((s.start t task).resumeWaiting t task.role wait
      (task.cancelAsked || decide (wait.signal = .cancelled))) := by
  have helps : task.role.helper? = some (key, caller) := by rw [role]; rfl
  have status := (status_of_task ht).trans (congrArg some waiting)
  have h := h.filterTimers fun timer => timer.wait ≠ wait.id
  unfold resumeWaiting
  simp only [aims, role]
  split
  next => exact went_over (h.helperLeaves ht helps (.inr ⟨wait, status, settled⟩) noTurn)
  next calm =>
    obtain ⟨notAsked, notCancelled⟩ : task.cancelAsked = false ∧ wait.signal ≠ .cancelled := by
      simpa using calm
    have met : wait.signal = .met := by
      cases signal : wait.signal with
      | pending => exact absurd signal settled
      | met => rfl
      | cancelled => exact absurd signal notCancelled
    exact went_over (h.helperGets ht helps waiting met notAsked aims noTurn)

/-- The turn of a task that waited for a gate or for time to pass. -/
theorem went_idle (h : s.Sound none trace) (ht : s.task t = some task)
    (body : task.role.helper? = none) (waiting : task.status = .waiting wait)
    (noTurn : .resume t ∉ s.turns) (aims : wait.aim.key? = none) (thrown : Bool) :
    Went task t trace ((s.start t task).resumeWaiting t task.role wait thrown) := by
  have started := ((h.start ht body noTurn fun other key' waits aims' => by
    cases waiting.symm.trans waits
    simp [aims', Aim.key?] at aims).filterTimers fun timer => timer.wait ≠ wait.id).letGo
  have noFailure : ∀ failure, task.deedsOfFailure t failure = [] := by
    intro failure
    obtain ⟨id, aim, signal⟩ := wait
    cases aim <;> simp_all [Task.deedsOfFailure, Aim.key?]
  have went : ∀ {s : Scheduler κ} {resume : Except Failure PauseId → κ},
      s.Sound (some (t, none)) trace → Went task t trace
        (s.goOn t (.body resume) (if thrown then .error .cancelled else .ok wait.id)) := by
    intro s resume started
    cases thrown with
    | true =>
      refine went_wrong ?_
      rw [noFailure, List.append_nil]
      exact started
    | false => exact went_on started
  unfold resumeWaiting
  cases role : task.role with
  | helper key caller => simp [role, Role.helper?] at body
  | body resume =>
    cases aim : wait.aim with
    | time => exact went started
    | gate name =>
      exact went (started.frame (fun _ => rfl) (fun _ => rfl) (fun _ => rfl) rfl rfl rfl rfl
        (Nat.le_refl _) (fun _ => Nat.le_refl _) (fun _ _ => .inl))
    | line | watch | leave => simp [aim, Aim.key?] at aims

end Waiting

/-- The turn of a task that is due. -/
theorem went (h : s.Sound none trace) {task : Task κ} (ht : s.task t = some task)
    (due : s.Due (.resume t)) {wait : Wait} (waiting : task.status = .waiting wait) :
    Went task t trace ((s.start t task).resumeWaiting t task.role wait
      (task.cancelAsked || decide (wait.signal = .cancelled))) := by
  obtain ⟨noTurn, ready⟩ := due
  have status := (status_of_task ht).trans (congrArg some waiting)
  have settled : wait.signal ≠ .pending := by
    rcases ready with queued | ⟨other, waits, settled⟩
    · cases status.symm.trans queued
    · cases status.symm.trans waits
      exact settled
  cases role : task.role.helper? with
  | some helps =>
    obtain ⟨key, caller⟩ := helps
    have aims := h.orderly.helperWaits ((helper_of_task ht).trans role) status
    cases is : task.role with
    | body resume => simp [is, Role.helper?] at role
    | helper key' caller' =>
      cases (congrArg Role.helper? is).symm.trans role
      rw [← is]
      exact h.went_helper ht is waiting settled noTurn aims
  | none =>
    cases aim : wait.aim with
    | gate | time => exact h.went_idle ht role waiting noTurn (by rw [aim]; rfl) _
    | line key => exact h.went_line ht role waiting settled noTurn aim
    | watch key helper limit => exact h.went_watch ht role waiting noTurn aim _
    | leave key helper why => exact h.went_leave ht role waiting noTurn aim

end Sound

/-! ## The scheduler's part of a step -/

/-- Whose turn it is after a turn was taken. -/
def handOfTurn : Option (TaskId × Handover κ) → Hand
  | some (t, _) => some (t, none)
  | none => none

/-- Whatever turn is due, taking it keeps the invariant. -/
theorem Sound.takeTurn {s : Scheduler κ} {trace : List Deed} (h : s.Sound none trace) {turn : Turn}
    (due : s.Due turn) :
    (s.takeTurn turn).1.Sound (handOfTurn (s.takeTurn turn).2) (trace ++ s.deedsOfTurn turn) := by
  cases turn with
  | signal t id =>
    unfold Scheduler.takeTurn
    rw [deedsOfTurn, List.append_nil]
    simp only
    split
    next wait pending =>
      obtain ⟨waiting, -⟩ := pendingWait?_eq_some_iff.mp pending
      split
      next same =>
        refine h.settle_met fun other key waits aims => ?_
        cases waits.symm.trans waiting
        exact due wait key waiting aims same
      next => exact h
    next => exact h
  | resume t =>
    cases ht : s.task t with
    | none =>
      have same : s.takeTurn (.resume t) = (s, none) := by simp only [Scheduler.takeTurn, ht]
      rw [same, deedsOfTurn, ht, List.append_nil]
      exact h
    | some task =>
      have went : ∀ {result}, Sound.Went task t trace result →
          s.takeTurn (.resume t) = (result.1, result.2.map fun handover => (t, handover)) →
          (s.takeTurn (.resume t)).1.Sound (handOfTurn (s.takeTurn (.resume t)).2)
            (trace ++ s.deedsOfTurn (.resume t)) := by
        intro result went same
        rw [same, deedsOfTurn, ht]
        simp only [same]
        obtain ⟨after, handover⟩ := result
        cases handover <;> exact went
      obtain ⟨-, ready⟩ := id due
      cases status : task.status with
      | queued =>
        refine went (h.went_queued ht status due.1) ?_
        simp only [Scheduler.takeTurn, ht, status]
      | waiting wait =>
        refine went (h.went ht due status) ?_
        simp only [Scheduler.takeTurn, ht, status]
      | running | finished =>
        unfold Ready at ready
        rw [status_of_task ht, status] at ready
        simp at ready

end Scheduler
end ActionFlow
