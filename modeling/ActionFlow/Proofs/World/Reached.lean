import ActionFlow.Proofs.Scheduler.Latch
import ActionFlow.World

/-!
# Worlds that can be reached

A world moves on by a step of its own, or because something is done to it from outside: a task is
started or cancelled, a gate is opened or closed, time passes, the explorer changes. The turns that are
queued may be reordered at any time, so nothing that is said of reached worlds depends on the order in
which the tasks take their turns. Every move adds to a trace what was done.

Which hosts answer the steps, and which jobs tasks are started with, are parameters. The host may be
another one at every step.

## Main results

* `Reached`: the worlds that can be reached, with their traces.
* `Reached.sound`: in all of them the scheduler keeps its invariant.
* `Path`: what may be done from a world on, move by move; `final`, `told`: where that ends, and what it tells.
* `Move.untold_of_took`, `Move.untaken_of_quit`: every request comes to one end.
-/

namespace ActionFlow
namespace World

/-! ## Moves -/

/-- What a step of a world adds to the trace. -/
def deeds (world : World) : List Deed :=
  match world.current with
  | some (t, .act (.await pause) next) =>
      .did t (.await pause) ::
        Scheduler.deedsOfAwait t pause ((world.scheduler.setResume t next).await t pause).2
  | some (t, .act effect _) => [.did t effect]
  | some (_, .done _) => []
  | none =>
      match world.scheduler.nextTurn? with
      | some (turn, scheduler) => scheduler.deedsOfTurn turn
      | none => []

/-- How a world may move on, and what that adds to the trace. -/
inductive Move (hosts : Host → Prop) (jobs : Job → Prop) : World → List Deed → World → Prop where
  /-- A step under a host. -/
  | step {host : Host} {world after : World} (allowed : hosts host)
      (steps : world.step host = some after) : Move hosts jobs world world.deeds after
  /-- A task is started. -/
  | spawn {world : World} (name : String) {job : Job} (allowed : jobs job) :
      Move hosts jobs world [] (world.spawn name job).1
  /-- The explorer changes. Keys are put aside by tasks only. -/
  | explore {world : World} {explorer : Explorer} (same : explorer.keys = world.explorer.keys) :
      Move hosts jobs world [] { world with explorer }
  /-- A gate is opened or closed. -/
  | setGate {world : World} (gate : String) (opened : Bool) :
      Move hosts jobs world [] (world.setGate gate opened)
  /-- A task is cancelled. -/
  | cancel {world : World} (t : TaskId) :
      Move hosts jobs world [] { world with scheduler := world.scheduler.cancel t }
  /-- Time passes. -/
  | setClock {world : World} (time : Binary64) : Move hosts jobs world [] (world.setClock time)
  /-- The queued turns are reordered. -/
  | reorder {world : World} {round queue : List Turn}
      (same : (round ++ queue).Perm world.scheduler.turns) :
      Move hosts jobs world [] { world with scheduler := { world.scheduler with round, queue } }

/-- The worlds that can be reached from one in which there are no tasks, with their traces. -/
inductive Reached (hosts : Host → Prop) (jobs : Job → Prop) : World → List Deed → Prop where
  /-- At first there are no tasks, and no key is put aside. -/
  | begin (explorer : Explorer) (none : ∀ hold, explorer.keys hold = none) (limit : Option Value)
      (clock : Binary64) (opened : String → Bool) :
      Reached hosts jobs { explorer, scheduler := { limit, clock, opened } } []
  | move {world after : World} {trace deeds : List Deed} (reached : Reached hosts jobs world trace)
      (moves : Move hosts jobs world deeds after) : Reached hosts jobs after (trace ++ deeds)

/-! ## The invariant of the scheduler -/

/-- Whose turn it is. -/
def hand (world : World) : Scheduler.Hand := world.current.map fun (t, _) => (t, none)

/-- All is well with the scheduler of a world. -/
def Sound (world : World) (trace : List Deed) : Prop :=
  world.scheduler.Sound world.hand trace

theorem hand_of_current {world : World} {t : TaskId} {job : Job} (current : world.current = some (t, job)) :
    world.hand = some (t, none) := by
  simp only [hand, current, Option.map_some]

/-- Whose turn it is, is running. -/
theorem Sound.running {world : World} {trace : List Deed} {t : TaskId} {job : Job} (h : world.Sound trace)
    (current : world.current = some (t, job)) : world.scheduler.status? t = some .running :=
  h.orderly.inHand (hand_of_current current)

theorem sound_begin (explorer : Explorer) (limit : Option Value) (clock : Binary64)
    (opened : String → Bool) :
    Sound { explorer, scheduler := { limit, clock, opened } } [] := by
  refine ⟨?_, ?_, ?_⟩ <;> constructor
  all_goals simp [hand, Scheduler.status?, Scheduler.helper?, Scheduler.turns, Scheduler.Alarm,
    Scheduler.Asks]

theorem sound_continueWith (world : World) {t : TaskId} {job : Job} {trace : List Deed}
    (h : world.scheduler.Sound (some (t, none)) trace) : (world.continueWith t job).Sound trace := h

theorem scheduler_release (world : World) (task : Option TaskId) (key : PauseId) :
    (world.release task key).1.scheduler = (world.scheduler.release key).1 := by
  unfold World.release
  split
  next same => rw [same]; rfl
  next same => rw [same]
  next same => rw [same]

theorem current_release (world : World) (task : Option TaskId) (key : PauseId) :
    (world.release task key).1.current = world.current := by
  unfold World.release
  split <;> rfl

/-- An effect keeps the invariant. -/
theorem Sound.perform {host : Host} {world : World} {trace : List Deed} {t : TaskId}
    {effect : Effect} {next : effect.Reply → Job} (h : world.Sound trace)
    (current : world.current = some (t, .act effect next)) :
    (world.perform host t effect next).Sound (trace ++ world.deeds) := by
  have sound : world.scheduler.Sound (some (t, none)) trace := by
    simpa [Sound, hand, current] using h
  cases effect with
  | op op =>
    have deeds : world.deeds = [.did t (.op op)] := by simp only [World.deeds, current]
    exact deeds ▸ sound.note t _
  | call call =>
    have deeds : world.deeds = [.did t (.call call)] := by simp only [World.deeds, current]
    exact deeds ▸ sound.note t _
  | setGate gate opened =>
    have deeds : world.deeds = [.did t (.setGate gate opened)] := by simp only [World.deeds, current]
    exact deeds ▸ (sound.note t _).setGate gate opened
  | cancel name =>
    have deeds : world.deeds = [.did t (.cancel name)] := by simp only [World.deeds, current]
    have noted := sound.note t (.cancel name)
    rw [deeds]
    refine sound_continueWith _ ?_
    unfold World.cancel
    split
    · exact noted.cancel _
    · exact noted
  | release key =>
    have deeds : world.deeds = [.did t (.release key)] := by simp only [World.deeds, current]
    have released := sound.release t key
    rw [← scheduler_release world (some t)] at released
    exact deeds ▸ sound_continueWith (world.release (some t) key).1 released
  | await pause =>
    have deeds : world.deeds = .did t (.await pause) ::
        Scheduler.deedsOfAwait t pause ((world.scheduler.setResume t next).await t pause).2 := by
      simp only [World.deeds, current]
    have awaited := ((sound.note t (.await pause)).setResume next).await pause
    rw [deeds, List.append_cons]
    simp only [World.perform]
    generalize (world.scheduler.setResume t next).await t pause = result at awaited ⊢
    obtain ⟨after, answer⟩ := result
    cases answer with
    | none => exact awaited
    | some answer =>
      refine sound_continueWith _ ?_
      split <;> exact awaited

/-- Taking a turn that is due keeps the invariant. -/
theorem Sound.takeTurn (world : World) {trace : List Deed} {turn : Turn}
    (idle : world.current = none) (h : world.scheduler.Sound none trace)
    (due : world.scheduler.Due turn) :
    (world.takeTurn turn).Sound (trace ++ world.scheduler.deedsOfTurn turn) := by
  have taken := h.takeTurn due
  unfold World.takeTurn
  split
  next scheduler same =>
    rw [same] at taken
    simpa [Sound, hand, idle, Scheduler.handOfTurn] using taken
  next scheduler t handover same =>
    rw [same] at taken
    refine sound_continueWith _ ?_
    cases handover.granted <;> exact taken

/-- A step keeps the invariant. -/
theorem Sound.step {host : Host} {world after : World} {trace : List Deed} (h : world.Sound trace)
    (steps : world.step host = some after) : after.Sound (trace ++ world.deeds) := by
  unfold World.step at steps
  split at steps
  next t effect next current =>
    cases steps
    exact h.perform current
  next t ending current =>
    cases steps
    have deeds : world.deeds = [] := by simp only [World.deeds, current]
    have sound : world.scheduler.Sound (some (t, none)) trace := by
      simpa [Sound, hand, current] using h
    rw [deeds, List.append_nil]
    exact sound.finish ending
  next idle =>
    obtain ⟨⟨turn, scheduler⟩, next, rfl⟩ := Option.map_eq_some_iff.mp steps
    have sound : world.scheduler.Sound none trace := by simpa [Sound, hand, idle] using h
    have deeds : world.deeds = scheduler.deedsOfTurn turn := by
      simp only [World.deeds, idle, next]
    obtain ⟨sound, due⟩ := sound.nextTurn next
    rw [deeds]
    exact Sound.takeTurn { world with scheduler } idle sound due

variable {hosts : Host → Prop} {jobs : Job → Prop}

/-- Every move keeps the invariant. -/
theorem Sound.move {world after : World} {trace deeds : List Deed} (h : world.Sound trace)
    (moves : Move hosts jobs world deeds after) : after.Sound (trace ++ deeds) := by
  cases moves with
  | step allowed steps => exact h.step steps
  | spawn name allowed =>
    rw [List.append_nil]
    exact Scheduler.Sound.spawnBody h _
  | explore same =>
    rw [List.append_nil]
    exact h
  | setGate gate opened =>
    rw [List.append_nil]
    exact Scheduler.Sound.setGate h gate opened
  | cancel t =>
    rw [List.append_nil]
    exact Scheduler.Sound.cancel h t
  | setClock time =>
    rw [List.append_nil]
    exact Scheduler.Sound.frame h (fun _ => rfl) (fun _ => rfl) (fun _ => rfl) rfl rfl rfl rfl
      (Nat.le_refl _) (fun _ => Nat.le_refl _) (fun _ _ => .inl)
  | reorder same =>
    rw [List.append_nil]
    exact Scheduler.Sound.frame h (fun _ => rfl) (fun _ => rfl) (fun _ => rfl) rfl rfl rfl rfl
      (Nat.le_refl _) (fun t => Nat.le_of_eq (same.count_eq (.resume t)))
      (fun t id alarm => .inl (alarm.imp_left same.mem_iff.mp))

/-- In every reached world the scheduler keeps its invariant. -/
theorem Reached.sound {world : World} {trace : List Deed} (reached : Reached hosts jobs world trace) :
    world.Sound trace := by
  induction reached with
  | begin explorer none limit clock opened => exact sound_begin explorer limit clock opened
  | move reached moves ih => exact ih.move moves

/-! ## How requests come to their end -/

/-- What a move tells: that a task asked for a pause and was granted new keys, if any; or what a turn
tells; or nothing but that a task performed an effect. -/
theorem Move.told {world after : World} {trace deeds : List Deed} (h : world.Sound trace)
    (moves : Move hosts jobs world deeds after) :
    (∃ t pause, ∃ fresh : List PauseId, deeds = .did t (.await pause) :: fresh.map (.took t) ∧
      ∀ key ∈ fresh, Scheduler.Untold trace key) ∨
    (∃ scheduler : Scheduler Job, ∃ turn, scheduler.Sound none trace ∧
      deeds = scheduler.deedsOfTurn turn) ∨
    ∀ deed ∈ deeds, ∃ t effect, deed = .did t effect := by
  have nothing : ∀ deed ∈ [], ∃ t effect, deed = Deed.did t effect := fun _ member =>
    absurd member List.not_mem_nil
  cases moves with
  | spawn | explore | setGate | cancel | setClock | reorder => exact .inr (.inr nothing)
  | step allowed steps =>
    unfold World.deeds
    split
    next t pause next current =>
      have sound : (world.scheduler.setResume t next).Sound (some (t, none)) trace :=
        Scheduler.Sound.setResume (hand_of_current current ▸ h) next
      refine .inl ⟨t, pause, _, congrArg _ (Scheduler.deedsOfAwait_eq t pause _), fun key granted => ?_⟩
      rw [Scheduler.grantedAt_await granted]
      exact sound.accounted.fresh sound.keyed
    next t effect _ _ _ => exact .inr (.inr fun deed member => ⟨t, effect, List.mem_singleton.mp member⟩)
    next => exact .inr (.inr nothing)
    next idle =>
      have sound : world.scheduler.Sound none trace := by simpa [Sound, hand, idle] using h
      cases next : world.scheduler.nextTurn? with
      | none => exact .inr (.inr nothing)
      | some dealt =>
        obtain ⟨turn, scheduler⟩ := dealt
        exact .inr (.inl ⟨scheduler, turn, (sound.nextTurn next).1, rfl⟩)

/-- A key that is taken was not told of before, and neither is it told of as one of a request that
failed. -/
theorem Move.untold_of_took {world after : World} {trace deeds : List Deed} {t : TaskId} {key : PauseId}
    (h : world.Sound trace) (moves : Move hosts jobs world deeds after) (took : .took t key ∈ deeds) :
    Scheduler.Untold trace key ∧ ∀ t' helper failure cut, .quit t' key helper failure cut ∉ deeds := by
  rcases moves.told h with ⟨t', pause, fresh, rfl, untold⟩ | ⟨scheduler, turn, sound, rfl⟩ | others
  · obtain ⟨granted, -⟩ : key ∈ fresh ∧ t' = t := by simpa using took
    exact ⟨untold key granted, by simp⟩
  · obtain ⟨aim, asks, aims⟩ := Scheduler.asks_of_deed took (.inl rfl)
    refine ⟨⟨fun t' told => sound.accounted.tookDone told asks aims,
      fun t' helper failure cut told => sound.accounted.quitDone told asks aims⟩, ?_⟩
    rcases Scheduler.deedsOfTurn_cases scheduler turn with ⟨own, other, -, only⟩ | ⟨-, quits⟩
    · simp [only]
    · obtain ⟨_, _, _, _, _, same⟩ := quits _ took
      cases same
  · obtain ⟨_, _, same⟩ := others _ took
    cases same

/-- The key of a request that fails was not taken before. -/
theorem Move.untaken_of_quit {world after : World} {trace deeds : List Deed} {t : TaskId}
    {key : PauseId} {helper : TaskId} {failure : Failure} {cut : Bool} (h : world.Sound trace)
    (moves : Move hosts jobs world deeds after) (quit : .quit t key helper failure cut ∈ deeds)
    (t' : TaskId) : .took t' key ∉ trace := by
  rcases moves.told h with ⟨t'', pause, fresh, rfl, untold⟩ | ⟨scheduler, turn, sound, rfl⟩ | others
  · simp at quit
  · obtain ⟨aim, asks, aims⟩ := Scheduler.asks_of_deed quit (.inr ⟨_, _, _, rfl⟩)
    exact fun told => sound.accounted.tookDone told asks aims
  · obtain ⟨_, _, same⟩ := others _ quit
    cases same

/-! ## Several steps -/

/-- Takes at most a number of steps under a host. -/
def steps (host : Host) : Nat → World × List Deed → World × List Deed
  | 0, now => now
  | n + 1, (world, trace) =>
      match world.step host with
      | some after => steps host n (after, trace ++ world.deeds)
      | none => (world, trace)

theorem Reached.steps {world : World} {trace : List Deed} (reached : Reached hosts jobs world trace)
    {host : Host} (allowed : hosts host) (n : Nat) :
    Reached hosts jobs (World.steps host n (world, trace)).1 (World.steps host n (world, trace)).2 := by
  induction n generalizing world trace with
  | zero => exact reached
  | succ n ih =>
      unfold World.steps
      split
      next after same => exact ih (reached.move (.step allowed same))
      next => exact reached

/-- A course of moves from a world on: what each adds to the trace, and the world after it. -/
inductive Path (hosts : Host → Prop) (jobs : Job → Prop) : World → List (List Deed × World) → Prop where
  | nil {world : World} : Path hosts jobs world []
  | cons {world after : World} {deeds : List Deed} {path : List (List Deed × World)}
      (moves : Move hosts jobs world deeds after) (rest : Path hosts jobs after path) :
      Path hosts jobs world ((deeds, after) :: path)

/-- The steps that a world takes under a host, at most a number of them. -/
def course (host : Host) : Nat → World → List (List Deed × World)
  | 0, _ => []
  | n + 1, world =>
      match world.step host with
      | some after => (world.deeds, after) :: course host n after
      | none => []

theorem path_course {host : Host} (allowed : hosts host)
    (n : Nat) (world : World) : Path hosts jobs world (course host n world) := by
  induction n generalizing world with
  | zero => exact .nil
  | succ n ih =>
    unfold course
    split
    next after steps => exact .cons (.step allowed steps) (ih after)
    next => exact .nil

/-- Tasks are started, one after the other. -/
def spawning : World → List (String × Job) → List (List Deed × World)
  | _, [] => []
  | world, (name, job) :: rest => ([], (world.spawn name job).1) :: spawning (world.spawn name job).1 rest

theorem path_spawning {started : List (String × Job)} (allowed : ∀ entry ∈ started, jobs entry.2)
    (world : World) : Path hosts jobs world (spawning world started) := by
  induction started generalizing world with
  | nil => exact .nil
  | cons entry rest ih =>
    obtain ⟨first, others⟩ := List.forall_mem_cons.mp allowed
    exact .cons (.spawn entry.1 first) (ih others _)

/-- What is done from outside adds nothing to the trace. -/
theorem Reached.outside {world after : World} {trace : List Deed}
    (reached : Reached hosts jobs world trace) (moves : Move hosts jobs world [] after) :
    Reached hosts jobs after trace :=
  List.append_nil trace ▸ reached.move moves

/-! ## The end of a course -/

/-- The world at the end of a course. -/
def final : World → List (List Deed × World) → World
  | world, [] => world
  | _, (_, after) :: path => final after path

/-- What was done in a course. -/
def told (path : List (List Deed × World)) : List Deed := path.flatMap (·.1)

theorem final_append (world : World) (first second : List (List Deed × World)) :
    final world (first ++ second) = final (final world first) second := by
  induction first generalizing world with
  | nil => rfl
  | cons entry first ih => exact ih _

theorem final_snoc (world after : World) (path : List (List Deed × World)) (deeds : List Deed) :
    final world (path ++ [(deeds, after)]) = after := final_append world path _

theorem told_append (first second : List (List Deed × World)) :
    told (first ++ second) = told first ++ told second := List.flatMap_append

theorem Path.split {world : World} {earlier later : List (List Deed × World)}
    (course : Path hosts jobs world (earlier ++ later)) :
    Path hosts jobs world earlier ∧ Path hosts jobs (final world earlier) later := by
  induction earlier generalizing world with
  | nil => exact ⟨.nil, course⟩
  | cons first rest ih =>
    cases course with
    | cons moves course =>
      obtain ⟨before, behind⟩ := ih course
      exact ⟨.cons moves before, behind⟩

theorem Path.append {world : World} {path later : List (List Deed × World)} (course : Path hosts jobs world path)
    (further : Path hosts jobs (final world path) later) : Path hosts jobs world (path ++ later) := by
  induction course with
  | nil => exact further
  | cons moves _ ih => exact .cons moves (ih further)

theorem Reached.along {world : World} {trace : List Deed} {path : List (List Deed × World)}
    (reached : Reached hosts jobs world trace) (course : Path hosts jobs world path) :
    Reached hosts jobs (final world path) (trace ++ told path) := by
  induction course generalizing trace with
  | nil => exact (List.append_nil trace).symm ▸ reached
  | @cons world after deeds path moves rest ih =>
    have further := ih (reached.move moves)
    rwa [List.append_assoc] at further

end World
end ActionFlow
