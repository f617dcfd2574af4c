import ActionFlow.Proofs.Scheduler.Wakeful

/-!
# Who is the first in line

While nobody holds the barrier, the first in line is awake: he was woken when the barrier became free or
when he came to be the first, or he was called off and is about to leave. So when no turn is left to take
and the barrier is free, nobody waits for it any more.

## Main results

* `Attended`: the invariant.
* `Attended.wakeFirst`, `Attended.join`: why it is enough to wake the first when somebody leaves the line
  or frees the barrier, and to wake nobody when somebody joins it.
* `Attended.await`, `Attended.takeTurn`: asking for a pause and taking a turn keep the invariant.
* `Attended.nobody_waits`: no wake-up gets lost.
-/

namespace ActionFlow
namespace Scheduler

variable {κ : Type}

theorem Orderly.waits_of_line {s : Scheduler κ} {hand : Hand} (h : s.Orderly hand) {t : TaskId}
    (member : t ∈ s.line) : ∃ wait, s.status? t = some (.waiting wait) := by
  obtain ⟨wait, -, waits, -⟩ := h.inLine.mp member
  exact ⟨wait, waits⟩

/-- While nobody holds the barrier, the first in line is awake. -/
def Attended (s : Scheduler κ) : Prop := s.holder = none → ∀ t, s.line.head? = some t → s.Ready t

namespace Attended

variable {s s' : Scheduler κ} {t : TaskId} {trace : List Deed}

theorem of_held {key : PauseId} (held : s.holder = some key) : s.Attended := fun free => by
  cases held.symm.trans free

/-- Those in line stay awake, and nobody else becomes the first there. -/
theorem frame (h : s.Attended) (holder : s'.holder = s.holder) (line : s'.line = s.line)
    (ready : ∀ t ∈ s.line, s.Ready t → s'.Ready t) : s'.Attended := by
  intro free first head
  rw [holder] at free
  rw [line] at head
  exact ready first (List.mem_of_head? head) (h free first head)

theorem of_latch (h : s.Attended) (latch : s'.latch = s.latch)
    (ready : ∀ t ∈ s.line, s.Ready t → s'.Ready t) : s'.Attended :=
  h.frame (congrArg Latch.holder latch) (congrArg Latch.line latch) ready

theorem ready_of_others (outside : t ∉ s.line)
    (others : ∀ other, other ≠ t → s'.status? other = s.status? other) :
    ∀ other ∈ s.line, s.Ready other → s'.Ready other := by
  intro other member ready
  have different : other ≠ t := fun same => outside (same ▸ member)
  unfold Ready
  rwa [others other different]

/-- What happens to a task that is not in line does not matter to those who are. -/
theorem of_others (h : s.Attended) (latch : s'.latch = s.latch) (outside : t ∉ s.line)
    (others : ∀ other, other ≠ t → s'.status? other = s.status? other) : s'.Attended :=
  h.of_latch latch (ready_of_others outside others)

theorem ready_of_waiting {wait : Wait} (waiting : s.status? t = some (.waiting wait)) :
    (s.settle t .met).Ready t := by
  by_cases pending : wait.signal = .pending
  · exact .inr ⟨_, Wakeful.status_of_settle waiting pending .met, nofun⟩
  · exact ready_settle nofun (.inr ⟨wait, waiting, pending⟩)

/-- Who waits in line and is the first there is awake once the first was woken. -/
theorem wakeFirst (waiting : ∀ t ∈ s.line, ∃ wait, s.status? t = some (.waiting wait)) :
    s.wakeFirst.Attended := by
  intro _ first head
  have line : s.wakeFirst.line = s.line := congrArg Latch.line (latch_wakeFirst s)
  rw [line] at head
  obtain ⟨rest, inLine⟩ := List.head?_eq_some_iff.mp head
  obtain ⟨wait, waits⟩ := waiting first (List.mem_of_head? head)
  unfold Scheduler.wakeFirst
  rw [inLine]
  exact ready_of_waiting waits

theorem unlock {freed : Scheduler κ} (waiting : ∀ t ∈ s.line, ∃ wait, s.status? t = some (.waiting wait))
    (frees : s.unlock = .ok freed) : freed.Attended := by
  unfold Scheduler.unlock at frees
  split at frees
  · cases frees
    have awake : { s with holder := none }.wakeFirst.Attended := wakeFirst waiting
    exact awake
  · cases frees

theorem suspend (h : s.Attended) (outside : t ∉ s.line) (aim : Aim) : (s.suspend t aim).Attended :=
  h.of_others (latch_suspend s t aim) outside fun _ different => status?_suspend_of_ne different aim

theorem finish (h : s.Attended) (outside : t ∉ s.line) (ending : Except Failure Unit) :
    (s.finish t ending).Attended :=
  h.of_others (latch_finish s t ending) outside fun _ different => status?_finish_of_ne different ending

theorem start (h : s.Attended) (outside : t ∉ s.line) (task : Task κ) : (s.start t task).Attended :=
  h.of_others rfl outside fun _ different => (status?_setTask s t _ _).trans (if_neg different)

theorem goOn (h : s.Attended) (outside : t ∉ s.line) (role : Role κ) (answer : Except Failure PauseId) :
    (s.goOn t role answer).1.Attended := by
  cases role with
  | body => exact h
  | helper => exact h.finish outside _

theorem goOnWith (h : s.Attended) (outside : t ∉ s.line) (role : Role κ) (key : PauseId) :
    (s.goOnWith t role key).1.Attended := by
  cases role with
  | body => exact h.frame rfl rfl fun _ _ => id
  | helper => exact h.finish outside (.ok ())

theorem abandon (h : s.Attended) (outside : t ∉ s.line) (key : PauseId) (helper : TaskId)
    (why : Failure) : (s.abandon t key helper why).Attended := by
  have cancelled : (s.cancel helper).Attended :=
    h.of_latch (latch_cancel s helper) fun _ _ => ready_cancel
  have outside : t ∉ (s.cancel helper).line := by
    rwa [show (s.cancel helper).line = s.line from congrArg Latch.line (latch_cancel s helper)]
  have left := cancelled.suspend outside (.leave key helper why)
  unfold Scheduler.abandon
  simp only
  split
  · exact left.of_latch rfl fun _ _ => id
  · exact left

/-- Who joins the line does so because somebody holds the barrier, or is there before him. -/
theorem join (h : s.Attended) (busy : ¬ s.isFree) (outside : t ∉ s.line) (key : PauseId) :
    ({ s with line := s.line ++ [t] }.suspend t (.line key)).Attended := by
  have latch := latch_suspend { s with line := s.line ++ [t] } t (.line key)
  have others : ∀ other, other ≠ t →
      ({ s with line := s.line ++ [t] }.suspend t (.line key)).status? other = s.status? other :=
    fun _ different => status?_suspend_of_ne (s := { s with line := s.line ++ [t] }) different (.line key)
  intro free first head
  have free : s.holder = none := (congrArg Latch.holder latch).symm.trans free
  have head : (s.line ++ [t]).head? = some first :=
    (congrArg (fun latch => latch.line.head?) latch).symm.trans head
  have old : s.line.head? = some first := by
    cases line : s.line with
    | nil => simp [isFree, free, line] at busy
    | cons => simpa [line] using head
  exact ready_of_others outside others first (List.mem_of_head? old) (h free first old)

/-! ## From outside -/

theorem cancel (h : s.Attended) (t : TaskId) : (s.cancel t).Attended :=
  h.of_latch (latch_cancel s t) fun _ _ => ready_cancel

theorem setGate (h : s.Attended) (gate : String) (opened : Bool) : (s.setGate gate opened).Attended := by
  refine h.of_latch (latch_setGate s gate opened) fun other _ ready => ?_
  unfold Scheduler.setGate
  simp only
  split
  · exact ready_settleAll _ ready
  · exact ready

theorem spawn (h : s.Attended) (outside : s.size ∉ s.line) (role : Role κ) : (s.spawn role).1.Attended :=
  h.of_others rfl outside fun other different => (status?_spawn s role other).trans (if_neg different)

theorem release {hand : Hand} (h : s.Attended) (sound : s.Sound hand trace) (key : PauseId) :
    (s.release key).1.Attended := by
  rcases release_eq sound.keyed key with ⟨-, -, -, released⟩ | ⟨-, released⟩
  · rw [released]
    have free : { s with holder := none, keys := [] }.wakeFirst.Attended :=
      wakeFirst fun _ => sound.orderly.waits_of_line
    exact free
  · rw [released]
    exact h

/-! ## Taking turns -/

/-- The first turn of a task. -/
theorem resumeQueued (h : s.Attended) (outside : t ∉ s.line) (role : Role κ) (thrown : Bool) :
    (s.resumeQueued t role thrown).1.Attended := by
  unfold Scheduler.resumeQueued
  split
  next => exact h.goOn outside role _
  next =>
    cases role with
    | body resume => exact h.frame rfl rfl fun _ _ => id
    | helper key caller =>
      simp only
      split
      next =>
        have held : ((s.take key).finish t (.ok ())).holder = some key :=
          congrArg Latch.holder (latch_finish (s.take key) t (.ok ()))
        exact of_held held
      next busy => exact h.join busy outside key

/-- The turn of a task that leaves the line. -/
theorem resumeLine {task : Task κ} {wait : Wait} {key : PauseId} (sound : s.Sound none trace)
    (aims : wait.aim = .line key) (role : Role κ)
    (thrown : Bool) : ((s.start t task).resumeWaiting t role wait thrown).1.Attended := by
  have gone : t ∉ s.line.erase t := sound.orderly.lineNodup.not_mem_erase
  have left : ∀ timers, ∀ other ∈ s.line.erase t, ∃ wait, { s.start t task with
      timers, line := s.line.erase t }.status? other = some (.waiting wait) := by
    intro timers other member
    have different : other ≠ t := fun same => gone (same ▸ member)
    obtain ⟨own, waits⟩ := sound.orderly.waits_of_line (List.mem_of_mem_erase member)
    exact ⟨own, ((status?_setTask s t other _).trans (if_neg different)).trans waits⟩
  unfold Scheduler.resumeWaiting
  simp only [aims]
  split
  next =>
    have leave : ∀ s' : Scheduler κ, s'.Attended → s'.line = s.line.erase t →
        (s'.goOn t role (.error .cancelled)).1.Attended := fun _ attended line =>
      attended.goOn (line ▸ gone) role _
    split
    next => exact leave _ (wakeFirst (left _)) (congrArg Latch.line (latch_wakeFirst _))
    next held =>
      obtain ⟨key, held⟩ := Option.ne_none_iff_exists'.mp (mt Option.isNone_iff_eq_none.mpr held)
      exact leave _ (of_held held) rfl
  next => exact goOnWith (of_held rfl) gone role key

/-- The turn of a task that did not wait in line. -/
theorem resumeElsewhere {task : Task κ} {wait : Wait} (h : s.Attended) (sound : s.Sound none trace)
    (outside : t ∉ s.line) (aims : ∀ key, wait.aim ≠ .line key) (role : Role κ) (thrown : Bool) :
    ((s.start t task).resumeWaiting t role wait thrown).1.Attended := by
  have tidied : ∀ timers atGates, { s.start t task with timers, atGates }.Attended := fun _ _ =>
    (h.start outside task).frame rfl rfl fun _ _ => id
  have waiting : ∀ other ∈ s.line, ∃ wait, (s.start t task).status? other = some (.waiting wait) := by
    intro other member
    have different : other ≠ t := fun same => outside (same ▸ member)
    obtain ⟨own, waits⟩ := sound.orderly.waits_of_line member
    exact ⟨own, ((status?_setTask s t other _).trans (if_neg different)).trans waits⟩
  unfold Scheduler.resumeWaiting
  simp only
  split
  next => exact (tidied _ _).goOn outside role _
  next => exact (tidied _ _).goOn outside role _
  next key aimed => exact absurd aimed (aims key)
  next key helper limit _ =>
    split
    next => exact (tidied _ _).abandon outside key helper _
    next =>
      split
      next => exact (tidied _ _).goOnWith outside role key
      next => exact (tidied _ _).goOn outside role _
      next => exact (tidied _ _).abandon outside key helper _
  next key helper why _ =>
    split
    next => exact (tidied _ _).goOn outside role _
    next =>
      split
      next =>
        split
        next freed frees =>
          have fewer : freed.line = s.line := by
            unfold Scheduler.unlock at frees
            split at frees
            · cases frees
              exact congrArg Latch.line (latch_wakeFirst _)
            · cases frees
          exact (unlock waiting frees).goOn (fewer ▸ outside) role _
        next => exact (tidied _ _).goOn outside role _
      next => exact (tidied _ _).goOn outside role _

/-- **Every turn** leaves the first in line awake while nobody holds the barrier. -/
theorem takeTurn (h : s.Attended) (sound : s.Sound none trace) (turn : Turn) :
    (s.takeTurn turn).1.Attended := by
  cases turn with
  | signal t id =>
    unfold Scheduler.takeTurn
    simp only
    split
    next =>
      split
      next => exact h.of_latch (latch_settle s t .met) fun _ _ => ready_settle nofun
      next => exact h
    next => exact h
  | resume t =>
    unfold Scheduler.takeTurn
    simp only
    split
    next => exact h
    next task ht =>
      have known := status_of_task ht
      cases status : task.status with
      | queued =>
        have outside := sound.orderly.notMem_line known (by rw [status]; nofun)
        exact (h.start outside task).resumeQueued outside task.role task.cancelAsked
      | waiting wait =>
        rw [status] at known
        by_cases inLine : ∃ key, wait.aim = .line key
        · obtain ⟨key, aims⟩ := inLine
          exact resumeLine sound aims task.role _
        · have outside : t ∉ s.line := fun member => by
            obtain ⟨own, key, waits, aims⟩ := sound.orderly.inLine.mp member
            cases known.symm.trans waits
            exact inLine ⟨key, aims⟩
          exact h.resumeElsewhere sound outside (fun key aims => inLine ⟨key, aims⟩) task.role _
      | running | finished => exact h

/-- Dealing the next turn. -/
theorem nextTurn {turn : Turn} (h : s.Attended) (next : s.nextTurn? = some (turn, s')) : s'.Attended := by
  refine h.of_latch (latch_nextTurn next) fun t _ ready => ?_
  have same : s'.status? t = s.status? t := by
    unfold nextTurn? at next
    split at next
    · cases next
      rfl
    · simp only at next
      split at next
      · cases next
      · cases next
        rfl
  unfold Ready
  rwa [same]

/-! ## Asking for a pause -/

/-- **Every request for a pause** leaves the first in line awake while nobody holds the barrier. -/
theorem await (h : s.Attended) (sound : s.Sound (some (t, none)) trace) (pause : Pause) :
    (s.await t pause).1.Attended := by
  have outside := sound.orderly.notMem_line (sound.orderly.inHand rfl) nofun
  have paused : ∀ atGates timers aim, ({ s with atGates, timers }.suspend t aim).Attended :=
    fun atGates timers aim => by
      have framed : { s with atGates, timers }.Attended := h.frame rfl rfl fun _ _ => id
      exact framed.suspend outside aim
  cases pause with
  | gate name =>
    unfold Scheduler.await
    simp only
    split
    · exact h.frame rfl rfl fun _ _ => id
    · exact paused _ _ _
  | sleep span =>
    unfold Scheduler.await
    simp only
    split
    · refine h.of_others (latch_yieldTurn s t) outside fun other different => ?_
      unfold Scheduler.yieldTurn
      split
      · exact (status?_setTask s t other _).trans (if_neg different)
      · rfl
    · exact paused _ _ _
  | barrier =>
    unfold Scheduler.await
    simp only
    split
    next =>
      split
      next => exact of_held rfl
      next busy => exact h.join busy outside s.waits
    next limit _ =>
      have unknown : s.size ∉ s.line := fun member => by
        obtain ⟨wait, -, waits, -⟩ := sound.orderly.inLine.mp member
        exact Nat.lt_irrefl _ (sound.orderly.known waits)
      have helped : ∀ timers waits, { (s.spawn (.helper s.waits t)).1 with timers, waits }.Attended :=
        fun _ _ => (h.spawn unknown _).frame rfl rfl fun _ _ => id
      split
      next => exact helped _ _
      next =>
        refine suspend ?_ ?_ _
        · exact helped _ _
        · exact outside

/-! ## No wake-up is lost -/

/-- **Nobody sleeps through.** When no turn is left to take and nobody holds the barrier, nobody waits for
it. -/
theorem nobody_waits (h : s.Attended) (wakeful : s.Wakeful none []) (sound : s.Sound none trace)
    (quiet : s.turns = []) (free : s.holder = none) {wait : Wait}
    (waits : s.status? t = some (.waiting wait)) : wait.aim.key? = none := by
  have asleep : ∀ t, ¬ s.Ready t := fun t ready => by
    have turn := wakeful.ready ready
    rw [quiet] at turn
    cases turn
  have nobody : ∀ {t wait key}, s.status? t = some (.waiting wait) → wait.aim ≠ .line key := by
    intro t wait key waits aims
    have inLine : t ∈ s.line := sound.orderly.inLine.mpr ⟨wait, key, waits, aims⟩
    cases line : s.line with
    | nil =>
      rw [line] at inLine
      cases inLine
    | cons first rest => exact asleep first (h free first (by rw [line]; rfl))
  have ended : ∀ helper, wait.aim.helper? ≠ some helper := by
    intro helper aims
    obtain ⟨key, helps⟩ := sound.followed waits aims
    obtain ⟨task, ht, -⟩ := Option.bind_eq_some_iff.mp helps
    have known := status_of_task ht
    cases status : task.status with
    | queued => exact asleep helper (.inl (known.trans (congrArg some status)))
    | running => cases wakeful.running (known.trans (congrArg some status))
    | waiting own =>
      rw [status] at known
      exact nobody known (sound.orderly.helperWaits helps known)
    | finished ending =>
      rw [status] at known
      by_cases pending : wait.signal = .pending
      · have told := wakeful.told waits pending aims known
        rw [quiet] at told
        cases told
      · exact asleep t (.inr ⟨wait, waits, pending⟩)
  cases aim : wait.aim with
  | gate | time => rfl
  | line key => exact absurd aim (nobody waits)
  | watch _ helper _ | leave _ helper _ => exact absurd (by rw [aim]; rfl) (ended helper)

end Attended

end Scheduler
end ActionFlow
