import ActionFlow.Proofs.Scheduler.Standing

/-!
# The order among tasks

Whatever the tasks do, a few things stay in order: a task has at most one turn queued, and only if it
is ready for it; those who are in line are exactly those who wait in line; and a task in line has been
woken only while nobody holds the barrier, and only if it is the first.

A wait is told that what it was for has come by its number. No such word is ever on its way to a wait
in line, so nothing but the barrier itself wakes it.

## Main results

* `Orderly`: the invariant.
* `Orderly.move`: the scheduler may go on with one task in any way that fits.
* `Orderly.settle`, `Orderly.start`, `Orderly.rest`, `Orderly.halt`, `Orderly.spawn`: each change of
  a task fits.
-/

namespace ActionFlow
namespace Scheduler

variable {κ : Type}

/-- The task whose turn it is. If it has just been waiting, it may still be following up what it aimed
at. -/
abbrev Hand : Type := Option (TaskId × Option Aim)

/-- Whether nobody in line has been woken. -/
def Unwoken (s : Scheduler κ) : Prop :=
  ∀ ⦃t wait key⦄, s.status? t = some (.waiting wait) → wait.aim = .line key → wait.signal ≠ .met

/-- Tasks, turns, waits and the line are in order. -/
structure Orderly (s : Scheduler κ) (hand : Hand) : Prop where
  known : ∀ {t status}, s.status? t = some status → t < s.size
  inHand : ∀ {t aim}, hand = some (t, aim) → s.status? t = some .running
  once : ∀ t, s.turns.count (.resume t) ≤ 1
  ready : ∀ {t}, .resume t ∈ s.turns → s.Ready t
  numbered : ∀ {t wait}, s.status? t = some (.waiting wait) → wait.id < s.waits
  alarmNumbered : ∀ {t id}, s.Alarm t id → id < s.waits
  /-- Nothing but the barrier wakes who is in line. -/
  alarmElsewhere : ∀ {t wait key}, s.status? t = some (.waiting wait) → wait.aim = .line key →
    ¬ s.Alarm t wait.id
  lineNodup : s.line.Nodup
  inLine : ∀ {t}, t ∈ s.line ↔
    ∃ wait key, s.status? t = some (.waiting wait) ∧ wait.aim = .line key
  /-- Who was woken in line is the first there, and nobody holds the barrier. -/
  woken : ∀ {t wait key}, s.status? t = some (.waiting wait) → wait.aim = .line key →
    wait.signal = .met → s.holder = none ∧ s.line.head? = some t
  /-- A helper waits for nothing but its place in line. -/
  helperWaits : ∀ {h key t wait}, s.helper? h = some (key, t) → s.status? h = some (.waiting wait) →
    wait.aim = .line key
  helperFailed : ∀ {h key t failure}, s.helper? h = some (key, t) →
    s.status? h = some (.finished (.error failure)) → failure = .cancelled

namespace Moves

variable {s s' : Scheduler κ} {t other : TaskId} {after status : Status}

/-- Who has a status afterwards is the task itself, or has had it before. -/
theorem status_cases (moves : Moves s s' t after) (h : s'.status? other = some status) :
    other = t ∧ after = status ∨ other ≠ t ∧ s.status? other = some status := by
  rw [moves.status] at h
  split at h
  next same => exact .inl ⟨same, Option.some.inj h⟩
  next different => exact .inr ⟨different, h⟩

/-- The others are as ready as they were. -/
theorem ready (moves : Moves s s' t after) (different : other ≠ t) (h : s.Ready other) :
    s'.Ready other := by
  unfold Ready
  rwa [moves.status, if_neg different]

end Moves

/-- What has to hold of the one task that the scheduler goes on with, and of the line and the holder of
the barrier, for the order to be kept. -/
structure Fits (s s' : Scheduler κ) (t : TaskId) (after : Status) : Prop where
  ready : .resume t ∈ s.turns → s'.Ready t
  nodup : s'.line.Nodup
  /-- The task is in line exactly if it waits there. -/
  mine : t ∈ s'.line ↔ ∃ wait key, after = .waiting wait ∧ wait.aim = .line key
  others : ∀ other, other ≠ t → (other ∈ s'.line ↔ other ∈ s.line)
  /-- Who was the first in line while nobody held the barrier still is. -/
  first : ∀ other, other ≠ t → s.holder = none ∧ s.line.head? = some other →
    s'.holder = none ∧ s'.line.head? = some other
  numbered : ∀ wait, after = .waiting wait → wait.id < s'.waits
  inLine : ∀ wait key, after = .waiting wait → wait.aim = .line key →
    ¬ s.Alarm t wait.id ∧ (wait.signal = .met → s'.holder = none ∧ s'.line.head? = some t)
  helps : ∀ key caller, s.helper? t = some (key, caller) →
    (∀ wait, after = .waiting wait → wait.aim = .line key) ∧
      ∀ failure, after = .finished (.error failure) → failure = .cancelled

/-- A task that is not in line afterwards, and was not before, leaves the line as it is. -/
theorem fits_outside {s s' : Scheduler κ} {t : TaskId} {after : Status}
    (ready : .resume t ∈ s.turns → s'.Ready t) (nodup : s.line.Nodup) (outside : t ∉ s.line)
    (line : s'.line = s.line) (holder : s'.holder = s.holder)
    (elsewhere : ∀ wait key, after = .waiting wait → wait.aim ≠ .line key)
    (numbered : ∀ wait, after = .waiting wait → wait.id < s'.waits)
    (helps : ∀ key caller, s.helper? t = some (key, caller) →
      (∀ wait, after = .waiting wait → wait.aim = .line key) ∧
        ∀ failure, after = .finished (.error failure) → failure = .cancelled) : Fits s s' t after where
  ready := ready
  nodup := line ▸ nodup
  mine := by
    rw [line]
    refine ⟨fun member => absurd member outside, ?_⟩
    rintro ⟨wait, key, waits, aims⟩
    exact absurd aims (elsewhere wait key waits)
  others _ _ := by rw [line]
  first _ _ was := by rwa [line, holder]
  numbered := numbered
  inLine wait key waits aims := absurd aims (elsewhere wait key waits)
  helps := helps

namespace Orderly

variable {s s' : Scheduler κ} {hand hand' : Hand} {t : TaskId} {aim : Option Aim}

/-! ## What changes no status -/

/-- Turns may get lost, and words may be sent to waits outside the line. -/
theorem frame (h : s.Orderly hand) (status : ∀ t, s'.status? t = s.status? t)
    (helper : ∀ t, s'.helper? t = s.helper? t) (size : s'.size = s.size) (line : s'.line = s.line)
    (holder : s'.holder = s.holder) (waits : s.waits ≤ s'.waits)
    (turns : ∀ t, s'.turns.count (.resume t) ≤ s.turns.count (.resume t))
    (alarms : ∀ t id, s'.Alarm t id → s.Alarm t id ∨ id < s'.waits ∧
      ∀ wait key, s.status? t = some (.waiting wait) → wait.aim = .line key → wait.id ≠ id) :
    s'.Orderly hand where
  known {t _} has := by
    rw [status t] at has
    exact size ▸ h.known has
  inHand {t _} same := (status t).trans (h.inHand same)
  once t := Nat.le_trans (turns t) (h.once t)
  ready {t} member := by
    have count := List.count_pos_iff.mpr member
    have was := h.ready (List.count_pos_iff.mp (Nat.lt_of_lt_of_le count (turns t)))
    unfold Ready at was ⊢
    rwa [status t]
  numbered {t _} waiting := Nat.lt_of_lt_of_le (h.numbered (status t ▸ waiting)) waits
  alarmNumbered {t id} alarm := by
    rcases alarms t id alarm with was | ⟨numbered, -⟩
    · exact Nat.lt_of_lt_of_le (h.alarmNumbered was) waits
    · exact numbered
  alarmElsewhere {t wait key} waiting aims alarm := by
    rw [status t] at waiting
    rcases alarms t _ alarm with was | ⟨-, elsewhere⟩
    · exact h.alarmElsewhere waiting aims was
    · exact elsewhere wait key waiting aims rfl
  lineNodup := line ▸ h.lineNodup
  inLine {t} := by
    rw [line, status t]
    exact h.inLine
  woken {t _ _} waiting aims met := by
    rw [holder, line]
    exact h.woken (status t ▸ waiting) aims met
  helperWaits {t _ _ _} helps waiting := h.helperWaits (helper t ▸ helps) (status t ▸ waiting)
  helperFailed {t _ _ _} helps ended := h.helperFailed (helper t ▸ helps) (status t ▸ ended)

/-- What the task whose turn it is still follows up does not matter. -/
theorem letGo (h : s.Orderly (some (t, aim))) (other : Option Aim) : s.Orderly (some (t, other)) :=
  { h with
    inHand := by
      rintro t aim same
      cases same
      exact h.inHand rfl }

/-- The barrier changes hands while nobody in line is awake. -/
theorem handOver (h : s.Orderly hand) (unwoken : s.Unwoken) (holder : Option PauseId)
    (keys : List PauseId) : { s with holder, keys }.Orderly hand :=
  { h with woken := fun waiting line met => absurd met (unwoken waiting line) }

/-- The barrier becomes free. -/
theorem setFree (h : s.Orderly hand) (keys : List PauseId) :
    { s with holder := none, keys }.Orderly hand :=
  { h with woken := fun waiting line met => ⟨rfl, (h.woken waiting line met).2⟩ }

/-- A task that is ready and has no turn coming gets one. -/
theorem pushResume (h : s.Orderly hand) (ready : s.Ready t) (noTurn : .resume t ∉ s.turns) :
    (s.push (.resume t)).Orderly hand :=
  { h with
    once := fun other => by
      rw [turns_push, List.count_append, List.count_singleton]
      by_cases same : other = t
      · rw [same, List.count_eq_zero_of_not_mem noTurn]
        split <;> decide
      · rw [if_neg (by simpa using fun same' : t = other => same same'.symm)]
        exact h.once other
    ready := fun {other} member => by
      rw [turns_push] at member
      rcases List.mem_append.mp member with old | new
      · exact h.ready old
      · cases List.mem_singleton.mp new
        exact ready
    alarmNumbered := fun alarm => h.alarmNumbered (((alarm_push _ _ _).mp alarm).resolve_right nofun)
    alarmElsewhere := fun waiting aims alarm =>
      h.alarmElsewhere waiting aims (((alarm_push _ _ _).mp alarm).resolve_right nofun) }

/-! ## What changes the status of one task -/

/-- **One task at a time.** The scheduler may go on with one task in any way that fits. -/
theorem move (h : s.Orderly hand) {after : Status} (moves : Moves s s' t after)
    (fits : Fits s s' t after)
    (inHand : ∀ {t aim}, hand' = some (t, aim) → s'.status? t = some .running) : s'.Orderly hand' where
  known has := by
    rw [moves.size]
    rcases moves.status_cases has with ⟨rfl, -⟩ | ⟨-, was⟩
    · obtain ⟨before, was⟩ := moves.known
      exact h.known was
    · exact h.known was
  inHand := inHand
  once := moves.turns ▸ h.once
  ready {other} member := by
    rw [moves.turns] at member
    by_cases same : other = t
    · subst same
      exact fits.ready member
    · exact moves.ready same (h.ready member)
  numbered {other wait} waiting := by
    rcases moves.status_cases waiting with ⟨-, now⟩ | ⟨-, was⟩
    · exact fits.numbered wait now
    · exact Nat.lt_of_lt_of_le (h.numbered was) moves.waits
  alarmNumbered alarm :=
    Nat.lt_of_lt_of_le (h.alarmNumbered ((moves.alarm _ _).mp alarm)) moves.waits
  alarmElsewhere {other wait key} waiting aims alarm := by
    have alarm := (moves.alarm _ _).mp alarm
    rcases moves.status_cases waiting with ⟨rfl, now⟩ | ⟨-, was⟩
    · exact (fits.inLine wait key now aims).1 alarm
    · exact h.alarmElsewhere was aims alarm
  lineNodup := fits.nodup
  inLine {other} := by
    by_cases same : other = t
    · subst same
      rw [fits.mine, moves.status, if_pos rfl]
      simp only [Option.some.injEq]
    · rw [fits.others other same, moves.status, if_neg same]
      exact h.inLine
  woken {other wait key} waiting aims met := by
    rcases moves.status_cases waiting with ⟨rfl, now⟩ | ⟨different, was⟩
    · exact (fits.inLine wait key now aims).2 met
    · exact fits.first other different (h.woken was aims met)
  helperWaits {other key caller wait} helps waiting := by
    rw [moves.helper] at helps
    rcases moves.status_cases waiting with ⟨rfl, now⟩ | ⟨-, was⟩
    · exact (fits.helps key caller helps).1 wait now
    · exact h.helperWaits helps was
  helperFailed {other key caller failure} helps ended := by
    rw [moves.helper] at helps
    rcases moves.status_cases ended with ⟨rfl, now⟩ | ⟨-, was⟩
    · exact (fits.helps key caller helps).2 failure now
    · exact h.helperFailed helps was

/-- A task that is not ready has no turn coming. -/
theorem noTurn (h : s.Orderly hand) (unready : ¬ s.Ready t) : .resume t ∉ s.turns :=
  fun member => unready (h.ready member)

/-- A task whose turn it is has no other one coming. -/
theorem noTurn_of_running (h : s.Orderly hand) (running : s.status? t = some .running) :
    .resume t ∉ s.turns := by
  refine h.noTurn fun ready => ?_
  rcases ready with queued | ⟨wait, waiting, -⟩
  · cases running.symm.trans queued
  · cases running.symm.trans waiting

/-- Who does not wait is not in line. -/
theorem notMem_line (h : s.Orderly hand) {status : Status} (has : s.status? t = some status)
    (waitless : ∀ wait, status ≠ .waiting wait) : t ∉ s.line := fun member => by
  obtain ⟨wait, key, waiting, -⟩ := h.inLine.mp member
  exact waitless wait (Option.some.inj (has.symm.trans waiting))

/-- A wait is settled. -/
theorem settle (h : s.Orderly hand) {wait : Wait} (waiting : s.status? t = some (.waiting wait))
    (pending : wait.signal = .pending) {signal : Signal} (settled : signal ≠ .pending)
    (first : signal = .met → ∀ key, wait.aim = .line key →
      s.holder = none ∧ s.line.head? = some t) :
    (s.settle t signal).Orderly hand := by
  obtain ⟨task, ht, same⟩ := settle_eq waiting pending signal
  have moves := moves_setTask s { task with status := .waiting { wait with signal } } ht rfl
    (fun _ _ => rfl) rfl (Nat.le_refl _) rfl (fun _ _ => Iff.rfl)
  have noTurn : .resume t ∉ s.turns := h.noTurn fun ready => by
    rcases ready with queued | ⟨other, waits, unsettled⟩
    · cases waiting.symm.trans queued
    · cases waiting.symm.trans waits
      exact unsettled pending
  have inHand : ∀ {other aim}, hand = some (other, aim) →
      (s.setTask t { task with status := .waiting { wait with signal } }).status? other =
        some .running := by
    intro other aim mine
    have running := h.inHand mine
    rw [status?_setTask, if_neg]
    · exact running
    · rintro rfl
      cases waiting.symm.trans running
  have moved := h.move moves {
    ready := fun member => absurd member noTurn
    nodup := h.lineNodup
    mine := by
      rw [line_setTask, h.inLine, waiting]
      simp
    others := fun _ _ => Iff.rfl
    first := fun _ _ => id
    numbered := by
      have numbered := h.numbered waiting
      rintro _ ⟨⟩
      exact numbered
    inLine := by
      rintro _ key ⟨⟩ aims
      have calm := h.alarmElsewhere waiting aims
      exact ⟨calm, fun met => first met key aims⟩
    helps := fun key caller helps => by
      have inLine := h.helperWaits helps waiting
      refine ⟨?_, nofun⟩
      rintro _ ⟨⟩
      exact inLine } inHand
  rw [same]
  exact moved.pushResume (.inr ⟨_, (moves.status t).trans (if_pos rfl), settled⟩) noTurn

theorem head?_erase_of_ne {line : List TaskId} {first : TaskId} (h : line.head? = some first)
    (different : first ≠ t) : (line.erase t).head? = some first := by
  obtain ⟨rest, rfl⟩ := List.head?_eq_some_iff.mp h
  rw [List.erase_cons_tail (by simpa using different)]
  rfl

/-- A task starts its turn, and leaves the line if it was there. -/
theorem start (h : s.Orderly none) (moves : Moves s s' t .running)
    (noTurn : .resume t ∉ s.turns) (line : s'.line = s.line.erase t) (holder : s'.holder = s.holder)
    (aim : Option Aim) : s'.Orderly (some (t, aim)) := by
  refine h.move moves {
    ready := fun member => absurd member noTurn
    nodup := line ▸ h.lineNodup.erase t
    mine := ?_
    others := fun other different => ?_
    first := fun other different was => ?_
    numbered := nofun
    inLine := nofun
    helps := fun _ _ _ => ⟨nofun, nofun⟩ } ?_
  · rw [line, h.lineNodup.mem_erase_iff]
    simp
  · rw [line, List.mem_erase_of_ne different]
  · rw [line, holder]
    exact ⟨was.1, head?_erase_of_ne was.2 different⟩
  · rintro _ _ ⟨⟩
    exact (moves.status t).trans (if_pos rfl)

/-- The first in line starts its turn because it was woken. Then nobody holds the barrier, and nobody
else in line is awake. -/
theorem start_woken (h : s.Orderly none) (moves : Moves s s' t .running)
    (holder : s'.holder = s.holder) {wait : Wait} {key : PauseId}
    (waiting : s.status? t = some (.waiting wait)) (line : wait.aim = .line key)
    (met : wait.signal = .met) : s'.holder = none ∧ s'.Unwoken := by
  obtain ⟨free, first⟩ := h.woken waiting line met
  refine ⟨holder.trans free, fun other otherWait otherKey otherWaits otherLine otherMet => ?_⟩
  rcases moves.status_cases otherWaits with ⟨-, now⟩ | ⟨different, was⟩
  · cases now
  · have otherFirst := (h.woken was otherLine otherMet).2
    exact different (Option.some.inj (otherFirst.symm.trans first))

/-- The task whose turn it is waits from now on. -/
theorem rest (h : s.Orderly (some (t, aim))) {wait : Wait} (moves : Moves s s' t (.waiting wait))
    (numbered : wait.id < s'.waits) (pending : wait.signal = .pending)
    (holder : s'.holder = s.holder)
    (joins : ∀ key, wait.aim = .line key → s'.line = s.line ++ [t] ∧ ¬ s.Alarm t wait.id)
    (stays : (∀ key, wait.aim ≠ .line key) → s'.line = s.line)
    (helps : ∀ key caller, s.helper? t = some (key, caller) → wait.aim = .line key) :
    s'.Orderly none := by
  have running := h.inHand rfl
  have noTurn := h.noTurn_of_running running
  have outside := h.notMem_line running nofun
  have numbered : ∀ other, Status.waiting wait = .waiting other → other.id < s'.waits := by
    rintro _ ⟨⟩
    exact numbered
  have helps : ∀ key caller, s.helper? t = some (key, caller) →
      (∀ other, Status.waiting wait = .waiting other → other.aim = .line key) ∧
        ∀ failure, Status.waiting wait = .finished (.error failure) → failure = .cancelled := by
    refine fun key caller helper => ⟨?_, nofun⟩
    rintro _ ⟨⟩
    exact helps key caller helper
  refine h.move moves ?_ nofun
  by_cases aims : ∃ key, wait.aim = .line key
  · obtain ⟨key, aims⟩ := aims
    obtain ⟨line, calm⟩ := joins key aims
    exact {
      ready := fun member => absurd member noTurn
      nodup := by
        rw [line, List.nodup_append]
        refine ⟨h.lineNodup, by simp, ?_⟩
        rintro other member joined mine rfl
        rw [List.mem_singleton] at mine
        exact outside (mine ▸ member)
      mine := by
        rw [line]
        exact ⟨fun _ => ⟨wait, key, rfl, aims⟩, fun _ => by simp⟩
      others := fun other different => by
        rw [line, List.mem_append, List.mem_singleton, or_iff_left different]
      first := fun other different was => by
        rw [line, holder, List.head?_append, was.2]
        exact ⟨was.1, rfl⟩
      numbered, helps
      inLine := by
        rintro _ key' ⟨⟩ -
        exact ⟨calm, fun met => by cases pending.symm.trans met⟩ }
  · have elsewhere : ∀ key, wait.aim ≠ .line key := fun key same => aims ⟨key, same⟩
    refine fits_outside (fun member => absurd member noTurn) h.lineNodup outside (stays elsewhere) holder
      ?_ numbered helps
    rintro _ key ⟨⟩
    exact elsewhere key

/-- The task whose turn it is ends. -/
theorem halt (h : s.Orderly (some (t, aim))) {ending : Except Failure Unit}
    (moves : Moves s s' t (.finished ending)) (line : s'.line = s.line)
    (holder : s'.holder = s.holder)
    (failed : ∀ failure, s.helper? t ≠ none → ending = .error failure → failure = .cancelled) :
    s'.Orderly none := by
  have running := h.inHand rfl
  refine h.move moves (fits_outside (fun member => absurd member (h.noTurn_of_running running))
    h.lineNodup (h.notMem_line running nofun) line holder nofun nofun fun key caller helps => ?_) nofun
  refine ⟨nofun, fun failure same => ?_⟩
  exact failed failure (by simp [helps]) (Status.finished.inj same)

/-- The task whose turn it is gives way, and has another turn coming. -/
theorem requeue (h : s.Orderly (some (t, aim))) (moves : Moves s s' t .queued)
    (line : s'.line = s.line) (holder : s'.holder = s.holder) :
    (s'.push (.resume t)).Orderly none := by
  have running := h.inHand rfl
  have noTurn := h.noTurn_of_running running
  have moved : s'.Orderly none :=
    h.move moves (fits_outside (fun member => absurd member noTurn) h.lineNodup
      (h.notMem_line running nofun) line holder nofun nofun fun _ _ _ => ⟨nofun, nofun⟩) nofun
  exact moved.pushResume (.inl ((moves.status t).trans (if_pos rfl))) (moves.turns ▸ noTurn)

/-- A new task has its first turn coming. -/
theorem spawn (h : s.Orderly hand) (role : Role κ) : (s.spawn role).1.Orderly hand := by
  have other : ∀ {t status}, s.status? t = some status → t ≠ s.size := fun has =>
    Nat.ne_of_lt (h.known has)
  have noTurn : .resume s.size ∉ s.turns := h.noTurn fun ready => by
    rcases ready with queued | ⟨wait, waiting, -⟩
    · exact other queued rfl
    · exact other waiting rfl
  -- The new task is queued, so whatever is said of tasks that wait, run or have ended is said of others.
  have cases : ∀ {t status}, ({ s with size := s.size + 1 }.setTask s.size { role }).status? t =
      some status → t = s.size ∧ .queued = status ∨ t ≠ s.size ∧ s.status? t = some status := by
    intro t status has
    rw [status?_setTask] at has
    split at has
    next same => exact .inl ⟨same, Option.some.inj has⟩
    next different => exact .inr ⟨different, has⟩
  have still : ∀ {t status}, s.status? t = some status →
      ({ s with size := s.size + 1 }.setTask s.size { role }).status? t = some status := fun has =>
    (status?_setTask _ _ _ _).trans ((if_neg (other has)).trans has)
  have waited : ∀ {t wait}, ({ s with size := s.size + 1 }.setTask s.size { role }).status? t =
      some (.waiting wait) → s.status? t = some (.waiting wait) := fun waiting =>
    ((cases waiting).resolve_left nofun).2
  have helped : ∀ {t} (helps : PauseId × TaskId), t ≠ s.size →
      ({ s with size := s.size + 1 }.setTask s.size { role }).helper? t = some helps →
      s.helper? t = some helps := fun helps different has => by
    rw [helper?_setTask, if_neg different] at has
    exact has
  have enrolled : ({ s with size := s.size + 1 }.setTask s.size { role }).Orderly hand := {
    known := fun has => by
      rcases cases has with ⟨rfl, -⟩ | ⟨-, was⟩
      · exact Nat.lt_succ_self _
      · exact Nat.lt_succ_of_lt (h.known was)
    inHand := fun same => still (h.inHand same)
    once := h.once
    ready := fun member => (h.ready member).imp still fun ⟨wait, waiting, settled⟩ =>
      ⟨wait, still waiting, settled⟩
    numbered := fun waiting => h.numbered (waited waiting)
    alarmNumbered := h.alarmNumbered
    alarmElsewhere := fun waiting => h.alarmElsewhere (waited waiting)
    lineNodup := h.lineNodup
    inLine := h.inLine.trans ⟨fun ⟨wait, key, waiting, aims⟩ => ⟨wait, key, still waiting, aims⟩,
      fun ⟨wait, key, waiting, aims⟩ => ⟨wait, key, waited waiting, aims⟩⟩
    woken := fun waiting => h.woken (waited waiting)
    helperWaits := fun helps waiting =>
      h.helperWaits (helped _ (other (waited waiting)) helps) (waited waiting)
    helperFailed := fun helps ended => by
      obtain ⟨different, was⟩ := (cases ended).resolve_left nofun
      exact h.helperFailed (helped _ different helps) was }
  exact enrolled.pushResume (.inl ((status?_setTask _ _ _ _).trans (if_pos rfl))) noTurn

end Orderly
end Scheduler
end ActionFlow
