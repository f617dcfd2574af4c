import ActionFlow.Proofs.Scheduler.Resting
import ActionFlow.Proofs.Scheduler.TakingTurns

/-!
# The barrier by itself

Most of what the scheduler does goes on around the barrier and leaves the barrier itself as it is. This
module takes what belongs to the barrier out of the state and says what each change makes of it: only
asking for it, taking a turn after waiting for it and giving it back make anything of it.

A key begins to open the barrier when it is granted, to a task that has asked for it and to nobody else,
and ceases to when it is given back.

## Main results

* `latch_settle`, `latch_suspend`, …: what goes on around the barrier.
* `keys_await`, `keys_takeTurn`: which keys open the barrier after a task asked for a pause, or had its
  turn.
* `release_eq`: what giving a key back comes to.
* `asks_of_deed`: a request that comes to its end had not done so before.
-/

namespace ActionFlow

/-- What belongs to the barrier. -/
structure Latch where
  limit : Option Value
  holder : Option PauseId
  line : List TaskId
  keys : List PauseId

namespace Scheduler

variable {κ : Type}

/-- The barrier of a scheduler. -/
def latch (s : Scheduler κ) : Latch := { s with }

section Around

variable (s : Scheduler κ) (t : TaskId)

/-! ## What goes on around the barrier -/

@[simp] theorem latch_setTask (task : Task κ) : (s.setTask t task).latch = s.latch := rfl

@[simp] theorem latch_push (turn : Turn) : (s.push turn).latch = s.latch := rfl

@[simp] theorem latch_spawn (role : Role κ) : (s.spawn role).1.latch = s.latch := rfl

@[simp] theorem latch_start (task : Task κ) : (s.start t task).latch = s.latch := rfl

@[simp] theorem latch_settle (signal : Signal) : (s.settle t signal).latch = s.latch := by
  by_cases waits : ∃ wait, s.status? t = some (.waiting wait) ∧ wait.signal = .pending
  · obtain ⟨wait, waiting, pending⟩ := waits
    obtain ⟨task, -, same⟩ := settle_eq waiting pending signal
    rw [same, latch_push, latch_setTask]
  · rw [settle_eq_self waits]

@[simp] theorem latch_cancel : (s.cancel t).latch = s.latch := by
  rcases cancel_cases s t with ⟨same, -⟩ | ⟨wait, -, -, same⟩ | ⟨task, -, same⟩
  · rw [same]
  · rw [same, latch_settle]
  · rw [same, latch_setTask]

@[simp] theorem latch_suspend (aim : Aim) : (s.suspend t aim).latch = s.latch := by
  unfold suspend
  split
  · simp only
    split <;> rfl
  · rfl

@[simp] theorem latch_yieldTurn : (s.yieldTurn t).latch = s.latch := by
  unfold yieldTurn
  split <;> rfl

@[simp] theorem latch_setResume (resume : Except Failure PauseId → κ) :
    (s.setResume t resume).latch = s.latch := by
  unfold setResume
  split <;> rfl

@[simp] theorem latch_finish (ending : Except Failure Unit) :
    (s.finish t ending).latch = s.latch := by
  unfold finish
  split
  · simp only
    split
    · rfl
    · split
      · split <;> rfl
      · rfl
  · rfl

@[simp] theorem latch_wakeFirst : s.wakeFirst.latch = s.latch := by
  unfold wakeFirst
  split
  · rfl
  · exact latch_settle s _ .met

@[simp] theorem latch_settleAll (waiting : List TaskId) :
    (waiting.foldl (fun now t => now.settle t .met) s).latch = s.latch := by
  induction waiting generalizing s with
  | nil => rfl
  | cons first rest ih => rw [List.foldl_cons, ih, latch_settle]

@[simp] theorem latch_setGate (gate : String) (opened : Bool) :
    (s.setGate gate opened).latch = s.latch := by
  unfold setGate
  simp only
  split
  · rw [latch_settleAll]
    rfl
  · rfl

@[simp] theorem latch_abandon (key : PauseId) (helper : TaskId) (why : Failure) :
    (s.abandon t key helper why).latch = s.latch := by
  unfold abandon
  simp only
  split <;> simp

theorem latch_nextTurn {s s' : Scheduler κ} {turn : Turn} (next : s.nextTurn? = some (turn, s')) :
    s'.latch = s.latch := by
  unfold nextTurn? at next
  split at next
  · cases next
    rfl
  · simp only at next
    split at next
    · cases next
    · cases next
      rfl

@[simp] theorem latch_goOn (role : Role κ) (answer : Except Failure PauseId) :
    (s.goOn t role answer).1.latch = s.latch := by
  cases role with
  | body => rfl
  | helper => exact latch_finish s t _

end Around

/-! ## Freeing the barrier -/

/-- Freeing a barrier that somebody holds. -/
theorem unlock_of_held {s : Scheduler κ} {key : PauseId} (held : s.holder = some key) :
    s.unlock = .ok { s with holder := none }.wakeFirst := by
  simp only [unlock, held]

/-- Giving a key back frees the barrier if the key opens it, and is nothing otherwise. -/
theorem release_eq {s : Scheduler κ} {hand : Hand} (h : s.Keyed hand) (key : PauseId) :
    (key ∈ s.keys ∧ s.holder = some key ∧ s.keys = [key] ∧
      s.release key = ({ s with holder := none, keys := [] }.wakeFirst, .ok true)) ∨
    (key ∉ s.keys ∧ s.release key = (s, .ok false)) := by
  by_cases opens : key ∈ s.keys
  · have held := h.holder_of_mem opens
    have only : s.keys = [key] := by
      rcases h.opening with closed | ⟨own, owns, keys⟩
      · rw [closed] at opens
        cases opens
      · cases held.symm.trans owns
        exact keys
    refine .inl ⟨opens, held, only, ?_⟩
    have spent : s.keys.erase key = [] := by rw [only, List.erase_cons_head]
    have freed : { s with keys := [] }.unlock = .ok { s with holder := none, keys := [] }.wakeFirst :=
      unlock_of_held (s := { s with keys := [] }) held
    simp only [release, opens, ↓reduceIte, spent, freed]
  · exact .inr ⟨opens, by simp only [release, opens, ↓reduceIte]⟩

/-! ## Asking for a pause -/

/-- The key that a request for a pause is granted at once. -/
def grantedAt : Pause → Option (Except Failure PauseId) → List PauseId
  | .barrier, some (.ok key) => [key]
  | _, _ => []

theorem deedsOfAwait_eq (t : TaskId) (pause : Pause) (answer : Option (Except Failure PauseId)) :
    deedsOfAwait t pause answer = (grantedAt pause answer).map (.took t) := by
  unfold deedsOfAwait
  split
  next => rfl
  next none =>
    unfold grantedAt
    split
    next key => exact absurd rfl (none key rfl)
    next => rfl

/-- A request for a pause adds the key that it is granted to those that open the barrier. -/
theorem keys_await (s : Scheduler κ) (t : TaskId) (pause : Pause) :
    (s.await t pause).1.latch.keys = s.keys ++ grantedAt pause (s.await t pause).2 := by
  have none : s.latch.keys = s.keys ++ [] := (List.append_nil _).symm
  cases pause with
  | gate name =>
    unfold await
    simp only
    split
    · exact none
    · rw [latch_suspend]
      exact none
  | sleep span =>
    unfold await
    simp only
    split
    · rw [latch_yieldTurn]
      exact none
    · rw [latch_suspend]
      exact none
  | barrier =>
    unfold await
    simp only
    split
    · split
      · rfl
      · rw [latch_suspend]
        exact none
    · split
      · exact none
      · rw [latch_suspend]
        exact none

/-- A key that is granted at once is the number of the next wait. -/
theorem grantedAt_await {s : Scheduler κ} {t : TaskId} {pause : Pause} {key : PauseId}
    (h : key ∈ grantedAt pause (s.await t pause).2) : key = s.waits := by
  cases pause with
  | gate | sleep => cases h
  | barrier =>
    unfold await at h
    simp only at h
    split at h
    · split at h
      · exact List.mem_singleton.mp h
      · cases h
    · split at h <;> cases h

/-! ## Taking turns -/

/-- The key that a task is granted in its turn. -/
def grantedIn (went : Option (Handover κ)) : List PauseId := (went.bind (·.granted)).toList

/-- Whether a turn adds the key that it grants to those that open the barrier. -/
def Grants (s : Scheduler κ) (result : Scheduler κ × Option (Handover κ)) : Prop :=
  result.1.latch.keys = s.keys ++ grantedIn result.2

theorem grants_none {s s' : Scheduler κ} (same : s'.latch.keys = s.keys) : Grants s (s', none) :=
  same.trans (List.append_nil _).symm

theorem grants_goOn {s s' : Scheduler κ} (same : s'.latch.keys = s.keys) (t : TaskId) (role : Role κ)
    (answer : Except Failure PauseId) : Grants s (s'.goOn t role answer) := by
  unfold Grants
  rw [latch_goOn, same]
  cases role <;> exact (List.append_nil _).symm

theorem grants_goOnWith {s s' : Scheduler κ} (same : s'.latch.keys = s.keys) (t : TaskId)
    (role : Role κ) (key : PauseId) : Grants s (s'.goOnWith t role key) := by
  cases role with
  | body => exact congrArg (· ++ [key]) same
  | helper => exact grants_none ((congrArg Latch.keys (latch_finish s' t _)).trans same)

theorem grants_resumeQueued (s : Scheduler κ) (t : TaskId) (role : Role κ) (thrown : Bool) :
    Grants s (s.resumeQueued t role thrown) := by
  unfold resumeQueued
  split
  · exact grants_goOn rfl t role _
  · split
    · exact (List.append_nil _).symm
    · split
      · exact grants_none (by rw [latch_finish]; rfl)
      · exact grants_none (by rw [latch_suspend]; rfl)

theorem grants_resumeWaiting (s : Scheduler κ) (t : TaskId) (role : Role κ) (wait : Wait)
    (thrown : Bool) : Grants s (s.resumeWaiting t role wait thrown) := by
  unfold resumeWaiting
  simp only
  split
  next => exact grants_goOn rfl t role _
  next => exact grants_goOn rfl t role _
  next key _ =>
    split
    · refine grants_goOn ?_ t role _
      split
      · rw [latch_wakeFirst]
        rfl
      · rfl
    · exact grants_goOnWith rfl t role key
  next key helper limit _ =>
    split
    · exact grants_none (by rw [latch_abandon]; rfl)
    · split
      · exact grants_goOnWith rfl t role key
      · exact grants_goOn rfl t role _
      · exact grants_none (by rw [latch_abandon]; rfl)
  next helper why =>
    split
    · exact grants_goOn rfl t role _
    · split
      · unfold unlock
        split
        next freed same =>
          split at same
          · cases same
            exact grants_goOn (by rw [latch_wakeFirst]; rfl) t role _
          · cases same
        next => exact grants_goOn rfl t role _
      · exact grants_goOn rfl t role _

/-- A turn adds the key that it grants to those that open the barrier. -/
theorem keys_takeTurn (s : Scheduler κ) (turn : Turn) :
    (s.takeTurn turn).1.latch.keys = s.keys ++ grantedIn ((s.takeTurn turn).2.map (·.2)) := by
  cases turn with
  | signal t id =>
    have none : s.latch.keys = s.keys ++ [] := (List.append_nil _).symm
    unfold takeTurn
    simp only
    split
    · split
      · rw [latch_settle]
        exact none
      · exact none
    · exact none
  | resume t =>
    unfold takeTurn
    simp only
    split
    next => exact (List.append_nil _).symm
    next task ht =>
      have went : ∀ result : Scheduler κ × Option (Handover κ), Grants s result →
          result.1.latch.keys = s.keys ++
            grantedIn ((result.2.map fun handover => (t, handover)).map (·.2)) := by
        rintro ⟨after, handover⟩ grants
        cases handover <;> exact grants
      cases status : task.status with
      | queued => exact went _ (grants_resumeQueued (s.start t task) t task.role _)
      | waiting wait => exact went _ (grants_resumeWaiting (s.start t task) t task.role wait _)
      | running | finished => exact went _ (grants_none rfl)

/-- A turn tells of the key that it grants, or else of nothing but of a request that failed. -/
theorem deedsOfTurn_cases (s : Scheduler κ) (turn : Turn) :
    (∃ t key, grantedIn ((s.takeTurn turn).2.map (·.2)) = [key] ∧ s.deedsOfTurn turn = [.took t key]) ∨
    (grantedIn ((s.takeTurn turn).2.map (·.2)) = [] ∧ ∀ deed ∈ s.deedsOfTurn turn,
      ∃ t key helper failure cut, deed = .quit t key helper failure cut) := by
  cases turn with
  | signal t id =>
    refine .inr ⟨?_, by simp [deedsOfTurn]⟩
    unfold takeTurn
    simp only
    split <;> rfl
  | resume t =>
    unfold deedsOfTurn
    cases ht : s.task t with
    | none => exact .inr ⟨by simp [takeTurn, ht, grantedIn], by simp [ht]⟩
    | some task =>
      simp only [ht]
      generalize (s.takeTurn (.resume t)).2.map (·.2) = went
      cases went with
      | none => exact .inr ⟨rfl, fun deed member => by cases member⟩
      | some handover =>
        obtain ⟨resume, answer, granted⟩ := handover
        cases granted with
        | some key => exact .inl ⟨t, key, rfl, rfl⟩
        | none =>
          refine .inr ⟨rfl, fun deed member => ?_⟩
          cases answer with
          | ok => cases member
          | error failure =>
            have member : deed ∈ task.deedsOfFailure t failure := member
            unfold Task.deedsOfFailure at member
            split at member
            next => exact ⟨_, _, _, _, _, List.mem_singleton.mp member⟩
            next => exact ⟨_, _, _, _, _, List.mem_singleton.mp member⟩
            next => cases member

/-! ## Requests that come to their end -/

/-- Only who has asked for a key is granted it. -/
theorem key_of_granted {s : Scheduler κ} {t : TaskId} {role : Role κ} {wait : Wait} {thrown : Bool}
    {handover : Handover κ} (h : (s.resumeWaiting t role wait thrown).2 = some handover)
    {key : PauseId} (granted : handover.granted = some key) : wait.aim.key? = some key := by
  have goes : ∀ {s : Scheduler κ} {answer : Except Failure PauseId},
      (s.goOn t role answer).2 = some handover → wait.aim.key? = some key := by
    intro s answer goes
    obtain ⟨resume, -, rfl⟩ := goOn_eq_some goes
    cases granted
  have goesWith : ∀ {s : Scheduler κ} {own : PauseId}, wait.aim.key? = some own →
      (s.goOnWith t role own).2 = some handover → wait.aim.key? = some key := by
    intro s own aims goes
    obtain ⟨resume, -, rfl⟩ := goOnWith_eq_some goes
    cases granted
    exact aims
  unfold resumeWaiting at h
  simp only at h
  split at h
  next => exact goes h
  next => exact goes h
  next aims =>
    split at h
    · exact goes h
    · exact goesWith (by rw [aims]; rfl) h
  next aims =>
    split at h
    · cases h
    · split at h
      · exact goesWith (by rw [aims]; rfl) h
      · exact goes h
      · cases h
  next =>
    split at h
    · exact goes h
    · split at h
      · split at h <;> exact goes h
      · exact goes h

/-- Nothing is granted in the first turn of a task. -/
theorem granted_resumeQueued {s : Scheduler κ} {t : TaskId} {role : Role κ} {thrown : Bool}
    {handover : Handover κ} (h : (s.resumeQueued t role thrown).2 = some handover) :
    handover.granted = none := by
  unfold resumeQueued at h
  split at h
  · obtain ⟨resume, -, rfl⟩ := goOn_eq_some h
    rfl
  · split at h
    · cases h
      rfl
    · split at h <;> cases h

/-- A task that is granted a key in its turn has waited for it. -/
theorem waited_of_granted {s : Scheduler κ} {t other : TaskId} {handover : Handover κ} {task : Task κ}
    (h : (s.takeTurn (.resume t)).2 = some (other, handover)) (ht : s.task t = some task)
    {key : PauseId} (granted : handover.granted = some key) :
    ∃ wait, task.status = .waiting wait ∧ wait.aim.key? = some key := by
  simp only [takeTurn, ht] at h
  obtain ⟨went, goes, same⟩ := Option.map_eq_some_iff.mp h
  cases same
  cases status : task.status with
  | queued =>
    rw [status] at goes
    cases (granted_resumeQueued goes).symm.trans granted
  | waiting wait =>
    rw [status] at goes
    exact ⟨wait, rfl, key_of_granted goes granted⟩
  | running | finished =>
    rw [status] at goes
    cases goes

/-- A request that fails has been waited for. -/
theorem waited_of_failure {task : Task κ} {t other : TaskId} {failure : Failure} {deed : Deed}
    {key : PauseId} (h : deed ∈ task.deedsOfFailure t failure)
    (ends : deed = .took other key ∨ ∃ helper failure cut, deed = .quit other key helper failure cut) :
    other = t ∧ ∃ wait, task.status = .waiting wait ∧ wait.aim.key? = some key := by
  unfold Task.deedsOfFailure at h
  split at h
  next status =>
    cases List.mem_singleton.mp h
    rcases ends with ends | ⟨helper, failure, cut, ends⟩
    · cases ends
    · cases ends
      exact ⟨rfl, _, status, rfl⟩
  next status =>
    cases List.mem_singleton.mp h
    rcases ends with ends | ⟨helper, failure, cut, ends⟩
    · cases ends
    · cases ends
      exact ⟨rfl, _, status, rfl⟩
  next => cases h

/-- A task that goes on after it has waited for a key has asked for it. -/
theorem asks_of_goesOn {s : Scheduler κ} {t other : TaskId} {handover : Handover κ} {task : Task κ}
    (h : (s.takeTurn (.resume t)).2 = some (other, handover)) (ht : s.task t = some task) {wait : Wait}
    (waiting : task.status = .waiting wait) {key : PauseId} (aims : wait.aim.key? = some key) :
    s.Asks none t wait.aim := by
  obtain ⟨same, aimed, rests, -⟩ := rest?_of_takeTurn h
  cases same
  have body : s.helper? t = none := by
    rw [rest?_of_task ht] at rests
    rw [helper_of_task ht]
    cases role : task.role with
    | body => rfl
    | helper => simp [Task.rest?, role, Role.resume?] at rests
  have status := (status_of_task ht).trans (congrArg some waiting)
  exact ⟨body, by simp [aims], .inl ⟨wait, status, rfl⟩⟩

/-- What a turn tells of a request that comes to its end is told of one that was going on. -/
theorem asks_of_deed {s : Scheduler κ} {turn : Turn} {t : TaskId} {key : PauseId} {deed : Deed}
    (h : deed ∈ s.deedsOfTurn turn)
    (ends : deed = .took t key ∨ ∃ helper failure cut, deed = .quit t key helper failure cut) :
    ∃ aim, s.Asks none t aim ∧ aim.key? = some key := by
  cases turn with
  | signal => cases h
  | resume other =>
    unfold deedsOfTurn at h
    cases ht : s.task other with
    | none => simp [ht] at h
    | some task =>
      simp only [ht] at h
      cases taken : (s.takeTurn (.resume other)).2 with
      | none => simp [taken, deedsOfHandover] at h
      | some went =>
        obtain ⟨goes, handover⟩ := went
        simp only [taken, Option.map_some] at h
        have waited : t = other ∧ ∃ wait, task.status = .waiting wait ∧ wait.aim.key? = some key := by
          unfold deedsOfHandover at h
          split at h
          next own same =>
            cases List.mem_singleton.mp h
            rcases ends with ends | ⟨helper, failure, cut, ends⟩
            · cases ends
              cases same
              exact ⟨rfl, waited_of_granted taken ht rfl⟩
            · cases ends
          next => exact waited_of_failure h ends
          next => cases h
        obtain ⟨rfl, wait, waiting, aims⟩ := waited
        exact ⟨wait.aim, asks_of_goesOn taken ht waiting aims, aims⟩

end Scheduler
end ActionFlow
