import ActionFlow.Proofs.Scheduler.Latch

/-!
# What is at stake in the line

A request for the barrier without a limit of time stands in line itself; with a limit a helper does so on
its behalf, once it has had its first turn. What a task has at stake is the key for which it stands in
line, or is on its way there, as long as it was not called off.

## Main results

* `Fades`: nobody comes to stand in line, or to be on the way there, who did not before.
* `fades_settle`, `fades_suspend`, …: what goes on around the line.
* `keeps_takeTurn`: taking a turn lets nobody join the line but a helper on its way there.
-/

namespace ActionFlow

variable {κ : Type}

/-- Where a request stands that may still come to the barrier. -/
inductive Stake where
  /-- Its helper is on its way to the line. -/
  | coming (key : PauseId)
  /-- It is in line, and was not called off there. -/
  | standing (key : PauseId)

namespace Stake

/-- The key of a request whose helper is on its way to the line. -/
def coming? : Stake → Option PauseId
  | coming key => some key
  | standing _ => none

/-- The key of a request in line. -/
def standing? : Stake → Option PauseId
  | coming _ => none
  | standing key => some key

end Stake

/-- What a task that waits has at stake. -/
def Wait.stake? (wait : Wait) : Option Stake :=
  match wait.aim with
  | .line key => if wait.signal = .cancelled then none else some (.standing key)
  | .gate _ | .time | .watch .. | .leave .. => none

/-- What a task has at stake, for itself or for its caller. -/
def Task.stake? (task : Task κ) : Option Stake :=
  match task.status with
  | .queued => task.role.helper?.map fun (key, _) => .coming key
  | .waiting wait => wait.stake?
  | .running | .finished _ => none

/-- A task in line that was not called off. -/
def Task.inLine (task : Task κ) (id key : PauseId) : Task κ :=
  { task with status := .waiting { id, aim := .line key }, cancelAsked := false }

namespace Scheduler

variable {s s' : Scheduler κ} {t : TaskId}

/-- What a task has at stake, for itself or for its caller. -/
def stake? (s : Scheduler κ) (t : TaskId) : Option Stake := (s.task t).bind Task.stake?

/-- The key for which a task stands in line. -/
def standing? (s : Scheduler κ) (t : TaskId) : Option PauseId := (s.stake? t).bind Stake.standing?

/-- The key for which a task joins the line in a turn, if it is its first. -/
def coming? (s : Scheduler κ) : Turn → Option PauseId
  | .resume t => (s.stake? t).bind Stake.coming?
  | .signal .. => none

theorem stake?_of_task {task : Task κ} (h : s.task t = some task) : s.stake? t = task.stake? := by
  simp [stake?, h]

theorem stake?_setTask (s : Scheduler κ) (t other : TaskId) (task : Task κ) :
    (s.setTask t task).stake? other = if other = t then task.stake? else s.stake? other := by
  simp only [stake?, setTask, amend]
  split <;> rfl

/-! ## What nobody joins -/

/-- Nobody comes to stand in line, or to be on the way there, who did not before; and turns are queued
behind the others only. -/
structure Fades (s s' : Scheduler κ) : Prop where
  stake : ∀ {t stake}, s'.stake? t = some stake → s.stake? t = some stake
  helper : ∀ t, s'.helper? t = s.helper? t
  turns : ∃ more, s'.turns = s.turns ++ more ∧ ∀ turn ∈ more, s'.coming? turn = none
  waits : s.waits ≤ s'.waits
  limit : s'.limit = s.limit

namespace Fades

theorem standing (h : Fades s s') {t : TaskId} {key : PauseId} (stands : s'.standing? t = some key) :
    s.standing? t = some key := by
  obtain ⟨stake, has, same⟩ := Option.bind_eq_some_iff.mp stands
  exact Option.bind_eq_some_iff.mpr ⟨stake, h.stake has, same⟩

theorem coming (h : Fades s s') {turn : Turn} {key : PauseId} (comes : s'.coming? turn = some key) :
    s.coming? turn = some key := by
  cases turn with
  | signal => cases comes
  | resume t =>
    obtain ⟨stake, has, same⟩ := Option.bind_eq_some_iff.mp comes
    exact Option.bind_eq_some_iff.mpr ⟨stake, h.stake has, same⟩

theorem notComing (h : Fades s s') {turn : Turn} (stays : s.coming? turn = none) :
    s'.coming? turn = none := by
  cases comes : s'.coming? turn with
  | none => rfl
  | some key => cases stays.symm.trans (h.coming comes)

theorem trans {s'' : Scheduler κ} (first : Fades s s') (second : Fades s' s'') : Fades s s'' where
  stake has := first.stake (second.stake has)
  helper t := (second.helper t).trans (first.helper t)
  turns := by
    obtain ⟨more, same, stay⟩ := first.turns
    obtain ⟨more', same', stay'⟩ := second.turns
    refine ⟨more ++ more', by rw [same', same, List.append_assoc], fun turn member => ?_⟩
    rcases List.mem_append.mp member with old | new
    · exact second.notComing (stay turn old)
    · exact stay' turn new
  waits := Nat.le_trans first.waits second.waits
  limit := second.limit.trans first.limit

end Fades

theorem fades_of_same (task : s'.task = s.task) (turns : s'.turns = s.turns)
    (waits : s.waits ≤ s'.waits) (limit : s'.limit = s.limit) : Fades s s' where
  stake has := by simpa only [stake?, task] using has
  helper _ := helper_of_tasks task
  turns := ⟨[], by rw [turns, List.append_nil], nofun⟩
  waits := waits
  limit := limit

/-- What touches neither the tasks nor the turns may come first. -/
theorem Fades.of_same {s'' : Scheduler κ} (h : Fades s' s'') (task : s'.task = s.task)
    (turns : s'.turns = s.turns) (waits : s'.waits = s.waits) (limit : s'.limit = s.limit) :
    Fades s s'' :=
  (fades_of_same task turns (Nat.le_of_eq waits.symm) limit).trans h

theorem fades_self (s : Scheduler κ) : Fades s s := fades_of_same rfl rfl (Nat.le_refl _) rfl

theorem fades_tick (s : Scheduler κ) : Fades s { s with waits := s.waits + 1 } :=
  fades_of_same rfl rfl (Nat.le_succ _) rfl

/-- A task that keeps what it has at stake, or gives it up. -/
theorem fades_setTask {task after : Task κ} (ht : s.task t = some task)
    (helper : after.role.helper? = task.role.helper?)
    (stake : ∀ stake, after.stake? = some stake → task.stake? = some stake) :
    Fades s (s.setTask t after) where
  stake {other has} had := by
    rw [stake?_setTask] at had
    split at had
    next same => rw [same, stake?_of_task ht, stake has had]
    next => exact had
  helper other := by
    rw [helper?_setTask]
    split
    next same => rw [same, helper, helper_of_task ht]
    next => rfl
  turns := ⟨[], (List.append_nil _).symm, nofun⟩
  waits := Nat.le_refl _
  limit := rfl

theorem fades_push {turn : Turn} (stays : s.coming? turn = none) : Fades s (s.push turn) where
  stake := id
  helper _ := rfl
  turns := ⟨[turn], turns_push s turn, fun _ member => List.mem_singleton.mp member ▸ stays⟩
  waits := Nat.le_refl _
  limit := rfl

theorem coming?_of_task {task : Task κ} (h : s.task t = some task) (unqueued : task.status ≠ .queued) :
    s.coming? (.resume t) = none := by
  unfold coming?
  simp only [stake?_of_task h, Task.stake?]
  split
  next queued => exact absurd queued unqueued
  next wait _ =>
    unfold Wait.stake?
    split
    · split <;> rfl
    · rfl
    · rfl
    · rfl
    · rfl
  next => rfl
  next => rfl

theorem pending_stake {wait : Wait} {signal : Signal} {stake : Stake} (pending : wait.signal = .pending)
    (has : Wait.stake? { wait with signal } = some stake) : wait.stake? = some stake := by
  obtain ⟨id, aim, before⟩ := wait
  cases pending
  cases aim with
  | line key =>
    simp only [Wait.stake?] at has
    split at has
    · cases has
    · exact has
  | gate | time | watch | leave => cases has

theorem fades_settle (s : Scheduler κ) (t : TaskId) (signal : Signal) : Fades s (s.settle t signal) := by
  by_cases waits : ∃ wait, s.status? t = some (.waiting wait) ∧ wait.signal = .pending
  · obtain ⟨wait, waiting, pending⟩ := waits
    obtain ⟨task, ht, same⟩ := settle_eq waiting pending signal
    have status : task.status = .waiting wait := by simpa [status_of_task ht] using waiting
    have replaced : Fades s (s.setTask t { task with status := .waiting { wait with signal } }) := by
      refine fades_setTask ht rfl fun stake has => ?_
      have has : Wait.stake? { wait with signal } = some stake := has
      simp only [Task.stake?, status]
      exact pending_stake pending has
    rw [same]
    exact replaced.trans (fades_push (coming?_of_task (amend_self _ _ _) nofun))
  · rw [settle_eq_self waits]
    exact fades_self s

theorem fades_cancel (s : Scheduler κ) (t : TaskId) : Fades s (s.cancel t) := by
  rcases cancel_cases s t with ⟨same, -⟩ | ⟨_, _, _, same⟩ | ⟨task, ht, same⟩
  · rw [same]
    exact fades_self s
  · rw [same]
    exact fades_settle s t .cancelled
  · rw [same]
    exact fades_setTask ht rfl fun _ => id

theorem fades_wakeFirst (s : Scheduler κ) : Fades s s.wakeFirst := by
  unfold wakeFirst
  split
  · exact fades_self s
  · exact fades_settle s _ .met

theorem fades_unlock {freed : Scheduler κ} (h : s.unlock = .ok freed) : Fades s freed := by
  unfold unlock at h
  split at h
  · cases h
    exact (fades_wakeFirst { s with holder := none }).of_same rfl rfl rfl rfl
  · cases h

theorem fades_release (s : Scheduler κ) (key : PauseId) : Fades s (s.release key).1 := by
  unfold release
  split
  · simp only
    split
    next freed same => exact (fades_unlock same).of_same rfl rfl rfl rfl
    next => exact fades_of_same rfl rfl (Nat.le_refl _) rfl
  · exact fades_self s

theorem fades_settleAll (waiting : List TaskId) (s : Scheduler κ) :
    Fades s (waiting.foldl (fun now t => now.settle t .met) s) := by
  induction waiting generalizing s with
  | nil => exact fades_self s
  | cons first rest ih => exact (fades_settle s first .met).trans (ih _)

theorem fades_setGate (s : Scheduler κ) (gate : String) (opened : Bool) :
    Fades s (s.setGate gate opened) := by
  unfold setGate
  simp only
  split
  · exact (fades_settleAll _ _).of_same rfl rfl rfl rfl
  · exact fades_of_same rfl rfl (Nat.le_refl _) rfl

theorem fades_finish (s : Scheduler κ) (t : TaskId) (ending : Except Failure Unit) :
    Fades s (s.finish t ending) := by
  unfold finish
  split
  next task ht =>
    have ended : ∀ ending, Fades s
        (s.setTask t { task with status := .finished ending, cancelAsked := false }) :=
      fun ending => fades_setTask ht rfl nofun
    simp only
    split
    · exact ended _
    · split
      · split
        · exact (ended _).trans (fades_push rfl)
        · exact ended _
      · exact ended _
  next => exact fades_self s

theorem fades_start {task : Task κ} (ht : s.task t = some task) : Fades s (s.start t task) :=
  fades_setTask ht rfl nofun

theorem fades_setResume (body : s.helper? t = none) (resume : Except Failure PauseId → κ) :
    Fades s (s.setResume t resume) := by
  unfold setResume
  split
  next task ht =>
    refine fades_setTask ht ((helper_of_task ht).symm.trans body).symm fun stake has => ?_
    unfold Task.stake? at has ⊢
    cases status : task.status with
    | queued =>
      rw [status] at has
      cases has
    | running | waiting | finished =>
      rw [status] at has
      exact has
  next => exact fades_self s

/-- Whoever waits outside the line has nothing at stake there. -/
theorem fades_suspend (s : Scheduler κ) (t : TaskId) {aim : Aim} (outside : ∀ key, aim ≠ .line key) :
    Fades s (s.suspend t aim) := by
  cases ht : s.task t with
  | none =>
    have same : s.suspend t aim = s := by simp only [suspend, ht]
    rw [same]
    exact fades_self s
  | some task =>
    have waiting : Fades s ({ s with waits := s.waits + 1 }.setTask t
        { task with status := .waiting { id := s.waits, aim }, cancelAsked := false }) := by
      refine (fades_tick s).trans (fades_setTask ht rfl fun stake has => ?_)
      cases aim with
      | line key => exact absurd rfl (outside key)
      | gate | time | watch | leave => cases has
    rw [suspend_eq ht]
    split
    · exact waiting.trans (fades_settle _ t .cancelled)
    · exact waiting

theorem fades_yieldTurn (body : s.helper? t = none) : Fades s (s.yieldTurn t) := by
  unfold yieldTurn
  split
  next task ht =>
    have idle : Task.stake? { task with status := .queued } = none := by
      simp only [Task.stake?, (helper_of_task ht).symm.trans body, Option.map_none]
    have queued : Fades s (s.setTask t { task with status := .queued }) :=
      fades_setTask ht rfl fun stake has => by cases idle.symm.trans has
    refine queued.trans (fades_push ?_)
    simp only [coming?, stake?_setTask, ↓reduceIte, idle, Option.bind_none]
  next => exact fades_self s

theorem fades_abandon (s : Scheduler κ) (t : TaskId) (key : PauseId) (helper : TaskId) (why : Failure) :
    Fades s (s.abandon t key helper why) := by
  have leaving : Fades s ((s.cancel helper).suspend t (.leave key helper why)) :=
    (fades_cancel s helper).trans (fades_suspend _ t nofun)
  unfold abandon
  simp only
  split
  · exact leaving.trans (fades_push rfl)
  · exact leaving

/-! ## Taking turns -/

theorem fades_goOn (s : Scheduler κ) (t : TaskId) (role : Role κ) (answer : Except Failure PauseId) :
    Fades s (s.goOn t role answer).1 := by
  cases role with
  | body => exact fades_self s
  | helper => exact fades_finish s t _

theorem fades_goOnWith (s : Scheduler κ) (t : TaskId) (role : Role κ) (key : PauseId) :
    Fades s (s.goOnWith t role key).1 := by
  cases role with
  | body => exact fades_of_same rfl rfl (Nat.le_refl _) rfl
  | helper => exact fades_finish s t (.ok ())

/-- Nobody joins the line after a wait. -/
theorem fades_resumeWaiting (s : Scheduler κ) (t : TaskId) (role : Role κ) (wait : Wait) (thrown : Bool) :
    Fades s (s.resumeWaiting t role wait thrown).1 := by
  unfold resumeWaiting
  simp only
  split
  next => exact (fades_goOn _ _ _ _).of_same rfl rfl rfl rfl
  next => exact (fades_goOn _ _ _ _).of_same rfl rfl rfl rfl
  next key =>
    split
    · refine Fades.trans ?_ (fades_goOn _ _ _ _)
      split
      · exact (fades_wakeFirst _).of_same rfl rfl rfl rfl
      · exact fades_of_same rfl rfl (Nat.le_refl _) rfl
    · exact (fades_goOnWith _ _ _ _).of_same rfl rfl rfl rfl
  next key helper limit =>
    split
    · exact (fades_abandon _ _ _ _ _).of_same rfl rfl rfl rfl
    · split
      · exact (fades_goOnWith _ _ _ _).of_same rfl rfl rfl rfl
      · exact (fades_goOn _ _ _ _).of_same rfl rfl rfl rfl
      · exact (fades_abandon _ _ _ _ _).of_same rfl rfl rfl rfl
  next key helper why =>
    split
    · exact (fades_goOn _ _ _ _).of_same rfl rfl rfl rfl
    · split
      · split
        next freed same =>
          have freeing : Fades s freed := (fades_unlock same).of_same rfl rfl rfl rfl
          exact freeing.trans (fades_goOn _ _ _ _)
        next => exact (fades_goOn _ _ _ _).of_same rfl rfl rfl rfl
      · exact (fades_goOn _ _ _ _).of_same rfl rfl rfl rfl

/-! ## Who joins -/

/-- Nobody joins the line but helpers. -/
structure Keeps (s s' : Scheduler κ) : Prop where
  helper : ∀ t, s'.helper? t = s.helper? t
  standing : ∀ {t key}, s.helper? t = none → s'.standing? t = some key → s.standing? t = some key
  waits : s.waits ≤ s'.waits
  limit : s'.limit = s.limit

theorem Fades.keeps (h : Fades s s') : Keeps s s' := ⟨h.helper, fun _ => h.standing, h.waits, h.limit⟩

theorem Keeps.trans {s'' : Scheduler κ} (first : Keeps s s') (second : Keeps s' s'') : Keeps s s'' where
  helper t := (second.helper t).trans (first.helper t)
  standing {t _} body stands := first.standing body (second.standing ((first.helper t).trans body) stands)
  waits := Nat.le_trans first.waits second.waits
  limit := second.limit.trans first.limit

/-- A task that joins the line may be called off at once. -/
theorem fades_join {task : Task κ} (ht : s.task t = some task) (line : List TaskId) (key : PauseId) :
    Fades ({ s with line, waits := s.waits + 1 }.setTask t (task.inLine s.waits key))
      ({ s with line }.suspend t (.line key)) := by
  have known : { s with line }.task t = some task := ht
  rw [suspend_eq known]
  split
  · exact fades_settle _ t .cancelled
  · exact fades_self _

theorem stake?_join (s : Scheduler κ) (t other : TaskId) (task : Task κ) (line : List TaskId)
    (id key : PauseId) :
    ({ s with line, waits := s.waits + 1 }.setTask t (task.inLine id key)).stake? other =
      if other = t then some (.standing key) else s.stake? other :=
  (stake?_setTask { s with line, waits := s.waits + 1 } t other (task.inLine id key)).trans rfl

/-- Only the task itself joins the line. -/
theorem standing_join {task : Task κ} (ht : s.task t = some task) (line : List TaskId) (key : PauseId)
    {other : TaskId} {own : PauseId}
    (stands : ({ s with line }.suspend t (.line key)).standing? other = some own) :
    other = t ∧ own = key ∨ s.standing? other = some own := by
  have stands := (fades_join ht line key).standing stands
  unfold standing? at stands ⊢
  rw [stake?_join] at stands
  split at stands
  next same => exact .inl ⟨same, (Option.some.inj stands).symm⟩
  next => exact .inr stands

theorem helper?_suspend (s : Scheduler κ) (t other : TaskId) (aim : Aim) :
    (s.suspend t aim).helper? other = s.helper? other := by
  have replaced : ∀ {s' : Scheduler κ} {task after : Task κ}, s'.task = s.task → s.task t = some task →
      after.role = task.role → (s'.setTask t after).helper? other = s.helper? other := by
    intro s' task after tasks ht role
    rw [helper?_setTask, helper_of_tasks tasks]
    split
    next same => rw [same, helper_of_task ht, role]
    next => rfl
  unfold suspend
  split
  next task ht =>
    simp only
    split <;> exact replaced rfl ht rfl
  next => rfl

theorem keeps_join {task : Task κ} (ht : s.task t = some task) (helps : s.helper? t ≠ none)
    (line : List TaskId) (key : PauseId) : Keeps s ({ s with line }.suspend t (.line key)) where
  helper other := helper?_suspend { s with line } t other (.line key)
  standing {other own} body stands := by
    rcases standing_join ht line key stands with ⟨same, -⟩ | stood
    · exact absurd (same ▸ body) helps
    · exact stood
  waits := by
    have ticked := Sound.waits_of_suspend (status_of_task (s := { s with line }) ht) (.line key)
    exact Nat.le_trans (Nat.le_succ _) (Nat.le_of_eq ticked.symm)
  limit := congrArg Latch.limit (latch_suspend { s with line } t (.line key))

theorem keeps_resumeQueued {task : Task κ} (ht : s.task t = some task) (thrown : Bool) :
    Keeps s ((s.start t task).resumeQueued t task.role thrown).1 := by
  have start := (fades_start ht).keeps
  unfold resumeQueued
  split
  next => exact start.trans (fades_goOn _ _ _ _).keeps
  next =>
    cases role : task.role with
    | body resume => exact start.trans (fades_tick _).keeps
    | helper key caller =>
      simp only
      split
      next =>
        have taking : Fades (s.start t task) (((s.start t task).take key).finish t (.ok ())) :=
          (fades_finish _ _ _).of_same rfl rfl rfl rfl
        exact start.trans taking.keeps
      next =>
        refine start.trans (keeps_join (task_start s t task) ?_ _ key)
        rw [helper_of_task (task_start s t task), role]
        nofun

/-- Taking a turn lets nobody join the line but a helper on its way there. -/
theorem keeps_takeTurn (s : Scheduler κ) (turn : Turn) : Keeps s (s.takeTurn turn).1 := by
  cases turn with
  | signal t id =>
    unfold takeTurn
    simp only
    split
    · split
      · exact (fades_settle s t .met).keeps
      · exact (fades_self s).keeps
    · exact (fades_self s).keeps
  | resume t =>
    unfold takeTurn
    simp only
    split
    next => exact (fades_self s).keeps
    next task ht =>
      cases status : task.status with
      | queued => exact keeps_resumeQueued ht _
      | waiting wait => exact ((fades_start ht).trans (fades_resumeWaiting _ t _ wait _)).keeps
      | running | finished => exact (fades_self s).keeps

theorem keeps_nextTurn {turn : Turn} (next : s.nextTurn? = some (turn, s')) : Keeps s s' := by
  have same : ∀ {dealt : Scheduler κ}, dealt.task = s.task → dealt.waits = s.waits →
      dealt.limit = s.limit → Keeps s dealt := fun task waits limit =>
    ⟨fun _ => helper_of_tasks task, fun _ stands => by simpa only [standing?, stake?, task] using stands,
      Nat.le_of_eq waits.symm, limit⟩
  unfold nextTurn? at next
  split at next
  · cases next
    exact same rfl rfl rfl
  · simp only at next
    split at next
    · cases next
    · cases next
      exact same rfl rfl rfl

/-! ## What was asked for -/

/-- The key of a request for the barrier. -/
def requested (s : Scheduler κ) : Pause → List PauseId
  | .barrier => [s.waits]
  | .gate _ | .sleep _ => []

/-- Whoever stands in line, or has a helper for it, asked for the key; and the keys were given out in
order. -/
structure Enlisted (s : Scheduler κ) (calls : List (TaskId × PauseId)) : Prop where
  helper : ∀ {helper key t}, s.helper? helper = some (key, t) → (t, key) ∈ calls
  standing : ∀ {t key}, s.helper? t = none → s.standing? t = some key → (t, key) ∈ calls
  /-- Without a limit of time there are no helpers. -/
  alone : s.limit = none → ∀ t, s.helper? t = none
  numbered : ∀ {t key}, (t, key) ∈ calls → key < s.waits
  ordered : calls.Pairwise fun first second => first.2 < second.2

namespace Enlisted

variable {calls : List (TaskId × PauseId)}

theorem keeps (h : s.Enlisted calls) (keeps : Keeps s s') : s'.Enlisted calls where
  helper {helper _ _} helps := h.helper ((keeps.helper helper).symm.trans helps)
  standing {t _} body stands := by
    have body := (keeps.helper t).symm.trans body
    exact h.standing body (keeps.standing body stands)
  alone unlimited t := (keeps.helper t).trans (h.alone (keeps.limit.symm.trans unlimited) t)
  numbered called := Nat.lt_of_lt_of_le (h.numbered called) keeps.waits
  ordered := h.ordered

/-- The key of the next wait may be asked for. -/
theorem call (h : s.Enlisted calls) (t : TaskId) (waits : s'.waits = s.waits + 1)
    (helper : ∀ {helper helps}, s'.helper? helper = some helps →
      s.helper? helper = some helps ∨ helps = (s.waits, t))
    (standing : ∀ {other key}, s'.helper? other = none → s'.standing? other = some key →
      s.helper? other = none ∧ s.standing? other = some key ∨ other = t ∧ key = s.waits)
    (alone : s'.limit = none → ∀ t, s'.helper? t = none) :
    s'.Enlisted (calls ++ [(t, s.waits)]) where
  helper helps := by
    rcases helper helps with helped | same
    · exact List.mem_append_left _ (h.helper helped)
    · cases same
      exact List.mem_append_right _ (List.mem_singleton_self _)
  standing body stands := by
    rcases standing body stands with ⟨body, stood⟩ | ⟨rfl, rfl⟩
    · exact List.mem_append_left _ (h.standing body stood)
    · exact List.mem_append_right _ (List.mem_singleton_self _)
  alone := alone
  numbered called := by
    rw [waits]
    rcases List.mem_append.mp called with old | new
    · exact Nat.lt_succ_of_lt (h.numbered old)
    · cases List.mem_singleton.mp new
      exact Nat.lt_succ_self _
  ordered := by
    refine List.pairwise_append.mpr ⟨h.ordered, List.pairwise_singleton .., ?_⟩
    intro earlier old last new
    cases List.mem_singleton.mp new
    exact h.numbered old

/-- Whoever asks for the barrier is enlisted with the key. -/
theorem await (h : s.Enlisted calls) {trace : List Deed} (sound : s.Sound (some (t, none)) trace)
    (pause : Pause) :
    (s.await t pause).1.Enlisted (calls ++ (s.requested pause).map fun key => (t, key)) := by
  have running := sound.orderly.inHand rfl
  have body := sound.keyed.inHand rfl
  obtain ⟨task, ht, -⟩ := task_of_status running
  have other : ∀ {s' : Scheduler κ}, Fades s s' → s'.Enlisted (calls ++ []) := fun fades =>
    (List.append_nil calls).symm ▸ h.keeps fades.keeps
  cases pause with
  | gate name =>
    unfold Scheduler.await
    simp only
    split
    · exact other (fades_tick s)
    · refine other ?_
      exact (fades_suspend _ t fun _ same => by cases same).of_same rfl rfl rfl rfl
  | sleep span =>
    unfold Scheduler.await
    simp only
    split
    · exact other (fades_yieldTurn body)
    · refine other ?_
      exact (fades_suspend _ t fun _ same => by cases same).of_same rfl rfl rfl rfl
  | barrier =>
    unfold Scheduler.await
    simp only
    split
    next unlimited =>
      have alone := h.alone unlimited
      split
      next =>
        refine h.call t rfl .inl (fun body stands => .inl ⟨body, stands⟩) fun _ => alone
      next =>
        have helper := helper?_suspend { s with line := s.line ++ [t] } t
        refine h.call t ?_ (fun helps => .inl ((helper _ _).symm.trans helps)) (fun body stands => ?_)
          fun _ other => (helper other _).trans (alone other)
        · exact Sound.waits_of_suspend (s := { s with line := s.line ++ [t] }) (status_of_task ht) _
        · rcases standing_join ht _ _ stands with joined | stood
          · exact .inr joined
          · exact .inl ⟨(helper _ _).symm.trans body, stood⟩
    next limit limited =>
      have sent : ∀ {s' : Scheduler κ}, Fades (s.spawn (.helper s.waits t)).1 s' →
          s'.waits = s.waits + 1 → s'.Enlisted (calls ++ [(t, s.waits)]) := by
        intro s' fades waits
        refine h.call t waits (fun helps => ?_) (fun {other own} body stands => ?_) fun unlimited => ?_
        · rw [fades.helper, helper?_spawn] at helps
          split at helps
          · exact .inr (Option.some.inj helps).symm
          · exact .inl helps
        · rw [fades.helper, helper?_spawn] at body
          split at body
          next => cases body
          next different =>
            have stood := fades.standing stands
            have stake : (s.spawn (.helper s.waits t)).1.stake? other = s.stake? other :=
              (stake?_setTask { s with size := s.size + 1 } s.size other _).trans (if_neg different)
            exact .inl ⟨body, by simpa only [standing?, stake] using stood⟩
        · cases (fades.limit.symm.trans unlimited).symm.trans limited
      have older : t ≠ s.size := Nat.ne_of_lt (sound.orderly.known running)
      have known : (s.spawn (.helper s.waits t)).1.status? t = some .running := by
        rw [status?_spawn, if_neg older, running]
      split
      next => exact sent (fades_tick _) rfl
      next =>
        refine sent ?_ ?_
        · exact (fades_suspend _ t fun _ same => by cases same).of_same rfl rfl rfl rfl
        · rw [Sound.suspend_timers]
          exact Sound.waits_of_suspend known _

end Enlisted

end Scheduler
end ActionFlow
