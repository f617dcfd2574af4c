import ActionFlow.Proofs.Scheduler.Vigil
import ActionFlow.Proofs.World.Consumed

/-!
# Moves that go past a task

A task that waits for its helper stays as it is in every move but three: its own turn, the turn in which it
is told that what it waits for has come, and a cancellation. And of the request that it waits for nothing is
told but in its own turn, once.

## Main results

* `Move.beside`: every move but a turn goes past such a task.
* `Move.finished`: who has ended stays so.
* `Move.bides`: the task's wait lasts through every move but its own turn.
* `Move.takes_of_end`, `Path.untold`: where a request comes to its end, and that it does so once.
-/

namespace ActionFlow

/-- The key of a request that has come to its end. -/
def Deed.ended? : Deed → Option PauseId
  | .took _ key | .quit _ key .. => some key
  | .did .. => none

theorem Deed.ended?_eq_some_iff {deed : Deed} {key : PauseId} : deed.ended? = some key ↔
    ∃ t, deed = .took t key ∨ ∃ helper failure cut, deed = .quit t key helper failure cut := by
  cases deed <;> simp [Deed.ended?]

namespace Scheduler

variable {κ : Type} {s s' : Scheduler κ} {t other : TaskId} {key : PauseId} {trace deeds : List Deed}
  {hand' : Hand} {requests : List (TaskId × PauseId)}

/-- Whether nobody has asked a task to end, as long as it waits for a key. -/
def Spared (s : Scheduler κ) (t : TaskId) (key : PauseId) : Prop := ∀ wait,
  s.status? t = some (.waiting wait) → wait.aim.key? = some key →
    wait.signal ≠ .cancelled ∧ s.asked t = false

/-- Who is cancelled while he waits for a key is not spared. -/
theorem not_spared_cancel {wait : Wait} (waits : s.status? t = some (.waiting wait))
    (named : wait.aim.key? = some key) : ¬ (s.cancel t).Spared t key := by
  intro spared
  rcases cancel_cases s t with ⟨-, ended⟩ | ⟨own, waiting, pending, same⟩ | ⟨task, ht, same⟩
  · obtain ⟨ending, ended⟩ := ended _ waits
    cases ended
  · cases waits.symm.trans waiting
    rw [same] at spared
    exact (spared _ (Wakeful.status_of_settle waits pending .cancelled) named).1 rfl
  · rw [same] at spared
    have still : (s.setTask t { task with cancelAsked := true }).status? t = some (.waiting wait) := by
      rw [status?_setTask, if_pos rfl, ← waits, status_of_task ht]
    have asked := (spared wait still named).2
    rw [asked_setTask, if_pos rfl] at asked
    cases asked

/-- What the task does whose turn it is goes past whoever is not concerned. -/
theorem beside_shift (sound : s.Sound (some (other, none)) trace)
    (shifts : Shift s (some (other, none)) requests deeds s' hand') (afar : s.Afar t)
    (spared : ∀ wait, s.status? t = some (.waiting wait) →
      ∃ key, wait.aim.key? = some key ∧ s'.Spared t key) : Beside s s' t := by
  have running := sound.orderly.inHand rfl
  have different : t ≠ other := by
    rintro rfl
    exact afar.resting running
  cases shifts with
  | stay => exact .refl s t
  | setGate _ gate opened => exact beside_setGate afar.elsewhere gate opened
  | release _ key => exact beside_release (afar.outside sound) key
  | finish _ ending => exact beside_finish different (going_of_status running nofun) ending
  | cancel _ who =>
    refine beside_cancel ?_
    cases afar with
    | ended has => exact .inr ⟨_, has⟩
    | helped waits =>
      refine .inl ?_
      rintro rfl
      obtain ⟨key, named, spared⟩ := spared _ waits
      exact not_spared_cancel waits named spared
  | await _ pause next =>
    have size : (s.setResume other next).size = s.size := by
      unfold setResume
      split <;> rfl
    have unknown : (s.setResume other next).status? s.size = none := by
      rw [status?_setResume]
      cases known : s.status? s.size with
      | none => rfl
      | some status => exact absurd (sound.orderly.known known) (Nat.lt_irrefl _)
    refine (beside_setResume different s next).trans (beside_await different ?_ ?_ ?_ pause)
    · exact size ▸ afar.known sound
    · rw [size]
      exact unknown
    · rw [status?_setResume]
      exact running

/-- What a turn tells of a request is told in the turn of the task that made it. -/
theorem turn_of_deed {turn : Turn} {deed : Deed} (h : deed ∈ s.deedsOfTurn turn)
    (ends : deed = .took t key ∨ ∃ helper failure cut, deed = .quit t key helper failure cut) :
    turn = .resume t := by
  cases turn with
  | signal => cases h
  | resume other =>
    unfold deedsOfTurn at h
    cases ht : s.task other with
    | none => simp [ht] at h
    | some task =>
      simp only [ht] at h
      generalize (s.takeTurn (.resume other)).2.map (·.2) = handover at h
      unfold deedsOfHandover at h
      split at h
      next =>
        cases List.mem_singleton.mp h
        rcases ends with ends | ⟨_, _, _, ends⟩ <;> cases ends
        rfl
      next => rw [(waited_of_failure h ends).1]
      next => cases h

end Scheduler

namespace World

open Scheduler (Beside Afar Spared)

variable {hosts : Host → Prop} {jobs : Job → Prop} {world after : World} {trace deeds : List Deed}
  {t : TaskId} {key : PauseId} {path : List (List Deed × World)}

/-! ## Turns -/

/-- A turn is taken. -/
def Takes (turn : Turn) (world : World) (deeds : List Deed) (after : World) : Prop :=
  world.current = none ∧ ∃ dealt, world.scheduler.nextTurn? = some (turn, dealt) ∧
    deeds = dealt.deedsOfTurn turn ∧ after = ({ world with scheduler := dealt } : World).takeTurn turn

/-- A turn that is taken is due. -/
theorem Sound.takes {turn : Turn} (sound : world.Sound trace) (takes : Takes turn world deeds after) :
    ∃ dealt, world.scheduler.nextTurn? = some (turn, dealt) ∧ dealt.Sound none trace ∧ dealt.Due turn ∧
      deeds = dealt.deedsOfTurn turn ∧ after.scheduler = (dealt.takeTurn turn).1 := by
  obtain ⟨idle, dealt, next, rfl, rfl⟩ := takes
  have sound : world.scheduler.Sound none trace := by simpa [World.Sound, hand, idle] using sound
  obtain ⟨sound, due⟩ := sound.nextTurn next
  exact ⟨dealt, next, sound, due, rfl, scheduler_takeTurn _ turn⟩

/-- When it is nobody's turn, a step takes one. -/
theorem takes_of_step {host : Host} (idle : world.current = none) (steps : world.step host = some after) :
    ∃ turn, Takes turn world world.deeds after := by
  simp only [World.step, idle] at steps
  obtain ⟨⟨turn, dealt⟩, next, same⟩ := Option.map_eq_some_iff.mp steps
  refine ⟨turn, idle, dealt, next, ?_, ?_⟩
  · simp only [World.deeds, idle, next]
  · rw [idle]
    exact same.symm

/-- **Every move** but a turn goes past a task that waits for its helper and is not cancelled. -/
theorem Move.beside (moves : Move hosts jobs world deeds after) (sound : world.Sound trace)
    (afar : world.scheduler.Afar t)
    (spared : ∀ wait, world.scheduler.status? t = some (.waiting wait) →
      ∃ key, wait.aim.key? = some key ∧ after.scheduler.Spared t key) :
    Beside world.scheduler after.scheduler t ∨ ∃ turn, Takes turn world deeds after := by
  cases moves with
  | step allowed steps =>
    cases current : world.current with
    | some own =>
      obtain ⟨other, job⟩ := own
      have shifts := shift_step steps
      have sound : world.scheduler.Sound world.hand trace := sound
      rw [hand_of_current current] at sound shifts
      exact .inl (Scheduler.beside_shift sound shifts afar spared)
    | none => exact .inr (takes_of_step current steps)
  | spawn name allowed =>
    have unknown : world.scheduler.status? world.scheduler.size = none := by
      cases known : world.scheduler.status? world.scheduler.size with
      | none => rfl
      | some status => exact absurd (sound.orderly.known known) (Nat.lt_irrefl _)
    exact .inl (Scheduler.beside_spawn (afar.known sound) unknown _)
  | explore => exact .inl (.refl _ t)
  | setGate gate opened => exact .inl (Scheduler.beside_setGate afar.elsewhere gate opened)
  | cancel who =>
    refine .inl (Scheduler.beside_cancel ?_)
    cases afar with
    | ended has => exact .inr ⟨_, has⟩
    | helped waits =>
      refine .inl ?_
      rintro rfl
      obtain ⟨key, named, spared⟩ := spared _ waits
      exact Scheduler.not_spared_cancel waits named spared
  | setClock => exact .inl (.of_eq rfl rfl rfl)
  | reorder same =>
    exact .inl ⟨rfl, fun _ _ => id, fun word => .inl (same.mem_iff.mp word), fun _ member _ => member⟩

/-- Who has ended stays so. -/
theorem Move.finished (moves : Move hosts jobs world deeds after) (sound : world.Sound trace)
    {ending : Except Failure Unit} (ended : world.scheduler.status? t = some (.finished ending)) :
    after.scheduler.status? t = some (.finished ending) := by
  have waitless : ∀ wait, world.scheduler.status? t ≠ some (.waiting wait) := fun wait waits => by
    cases waits.symm.trans ended
  rcases moves.beside sound (.ended ended) fun wait waits => absurd waits (waitless wait) with
    beside | ⟨turn, takes⟩
  · exact beside.status.trans ended
  · obtain ⟨dealt, next, sound, due, -, same⟩ := sound.takes takes
    have still : dealt.status? t = some (.finished ending) := by
      simpa only [Scheduler.status?, (Scheduler.nextTurn_eq next).1] using ended
    have foreign : turn ≠ .resume t := by
      rintro rfl
      rcases due.2 with queued | ⟨wait, waits, -⟩
      · cases queued.symm.trans still
      · cases waits.symm.trans still
    have beside := Scheduler.beside_takeTurn sound (.ended still) foreign fun wait waits => by
      cases waits.symm.trans still
    rw [same]
    exact beside.status.trans still

theorem Path.finished (course : Path hosts jobs world path) (reached : Reached hosts jobs world trace)
    {ending : Except Failure Unit} (ended : world.scheduler.status? t = some (.finished ending)) :
    (final world path).scheduler.status? t = some (.finished ending) := by
  induction course generalizing trace with
  | nil => exact ended
  | cons moves rest ih => exact ih (reached.move moves) (moves.finished reached.sound ended)

/-! ## Waiting for a helper -/

section Vigil

variable {v : Vigil Job} {rung : Prop} {helper : TaskId}

/-- **A task goes on waiting** for its helper in every move but its own turn. -/
theorem Move.bides (moves : Move hosts jobs world deeds after) (sound : world.Sound trace)
    (bides : world.scheduler.Bides v rung) (aims : v.aim.helper? = some helper)
    (named : v.aim.key? = some key) (spared : after.scheduler.Spared v.task key)
    (late : ∀ due, v.due? = some due → world.scheduler.clock.lt due = false → rung)
    (foreign : ¬ Takes (.resume v.task) world deeds after) : after.scheduler.Bides v rung := by
  obtain ⟨signal, waiting⟩ := bides.status
  rcases moves.beside sound (bides.afar aims) fun wait waits => by
      cases waits.symm.trans waiting
      exact ⟨key, named, spared⟩ with beside | ⟨turn, takes⟩
  · exact bides.beside beside
  · obtain ⟨dealt, next, sound, -, -, same⟩ := sound.takes takes
    obtain ⟨dealtBides, word⟩ := bides.deal next late
    rw [same]
    refine dealtBides.takeTurn sound aims ?_ word
    rintro rfl
    exact foreign takes

end Vigil

/-! ## Requests come to their end once -/

/-- The end of a request is told in its caller's turn. -/
theorem Move.takes_of_end (moves : Move hosts jobs world deeds after) (sound : world.Sound trace)
    (body : world.scheduler.helper? t = none) {wait : Wait}
    (waits : world.scheduler.status? t = some (.waiting wait)) (named : wait.aim.key? = some key)
    {deed : Deed} (told : deed ∈ deeds) (ends : deed.ended? = some key) :
    Takes (.resume t) world deeds after := by
  have nothing {own : TaskId} {effect : Effect} (same : deed = .did own effect) :
      Takes (.resume t) world deeds after := by
    subst same
    cases ends
  cases moves with
  | spawn | explore | setGate | cancel | setClock | reorder => exact absurd told List.not_mem_nil
  | @step host _ _ allowed steps =>
    have asks (hand : Scheduler.Hand) : world.scheduler.Asks hand t wait.aim :=
      ⟨body, by simp [named], .inl ⟨wait, waits, rfl⟩⟩
    cases current : world.current with
    | some own =>
      obtain ⟨other, job⟩ := own
      cases job with
      | done =>
        simp only [World.deeds, current] at told
        exact absurd told List.not_mem_nil
      | act effect next =>
        cases effect with
        | op | call | setGate | cancel | release =>
          simp only [World.deeds, current] at told
          exact nothing (List.mem_singleton.mp told)
        | await pause =>
          simp only [World.deeds, current, Scheduler.deedsOfAwait_eq] at told
          rcases List.mem_cons.mp told with same | member
          · exact nothing same
          -- A key that is granted at once is new.
          · obtain ⟨own, granted, rfl⟩ := List.mem_map.mp member
            obtain rfl : own = key := Option.some.inj ends
            have new := Scheduler.grantedAt_await granted
            have old := sound.keyed.askKey (asks _) named
            unfold Scheduler.setResume at new
            split at new <;> exact absurd (new ▸ old) (Nat.lt_irrefl _)
    | none =>
      obtain ⟨turn, takes⟩ := takes_of_step current steps
      obtain ⟨dealt, next, sound, -, same, -⟩ := sound.takes takes
      rw [same] at told
      obtain ⟨caller, ended⟩ := Deed.ended?_eq_some_iff.mp ends
      obtain ⟨aim, asked, named'⟩ := Scheduler.asks_of_deed told ended
      have tasks := (Scheduler.nextTurn_eq next).1
      have mine := sound.keyed.askOne asked ((Scheduler.asks_of_tasks tasks).mpr (asks none)) named' named
      rw [← mine, ← Scheduler.turn_of_deed told ended]
      exact takes

/-- Nothing was told of a request before it comes to its end. -/
theorem Move.untold_of_end (moves : Move hosts jobs world deeds after) (sound : world.Sound trace)
    {deed : Deed} (told : deed ∈ deeds) (ends : deed.ended? = some key) :
    ∀ before ∈ trace, before.ended? ≠ some key := by
  have untold : Scheduler.Untold trace key := by
    rcases moves.told sound with ⟨_, pause, fresh, rfl, untold⟩ | ⟨scheduler, turn, sound, rfl⟩ | others
    · rcases List.mem_cons.mp told with rfl | member
      · cases ends
      · obtain ⟨own, granted, rfl⟩ := List.mem_map.mp member
        obtain rfl : own = key := Option.some.inj ends
        exact untold own granted
    · obtain ⟨caller, ended⟩ := Deed.ended?_eq_some_iff.mp ends
      obtain ⟨aim, asks, aims⟩ := Scheduler.asks_of_deed told ended
      exact ⟨fun t' was => sound.accounted.tookDone was asks aims,
        fun t' helper failure cut was => sound.accounted.quitDone was asks aims⟩
    · obtain ⟨_, _, rfl⟩ := others _ told
      cases ends
  intro before was ended
  obtain ⟨t', rfl | ⟨helper, failure, cut, rfl⟩⟩ := Deed.ended?_eq_some_iff.mp ended
  · exact untold.1 t' was
  · exact untold.2 t' helper failure cut was

theorem told_cons (deeds : List Deed) (after : World) (path : List (List Deed × World)) :
    told ((deeds, after) :: path) = deeds ++ told path := List.flatMap_cons

/-- Nothing is told of a request after it has come to its end. -/
theorem Path.untold (course : Path hosts jobs world path) (reached : Reached hosts jobs world trace)
    {deed : Deed} (before : deed ∈ trace) (ended : deed.ended? = some key) :
    ∀ later ∈ told path, later.ended? ≠ some key := by
  induction course generalizing trace with
  | nil => exact fun later none => absurd none List.not_mem_nil
  | cons moves rest ih =>
    intro later member again
    rw [told_cons] at member
    rcases List.mem_append.mp member with now | behind
    · exact moves.untold_of_end reached.sound now again deed before ended
    · exact ih (reached.move moves) (List.mem_append_left _ before) later behind again

end World
end ActionFlow
