import ActionFlow.Proofs.Running.Aloof
import ActionFlow.Proofs.Scheduler.Alike
import ActionFlow.Proofs.World.Facing

/-!
# Worlds that look alike to a task

What a task can tell of a world is what its explorer shows, which gates are open, which names mean the task
itself, and how it stands; and it remembers what it wrote into the journal. It cannot tell how the barrier
stands, who else there is, and what others wrote. Where a task keeps aloof from the barrier, its next step
comes of what it can tell and of nothing else.

## Main results

* `World.Alike`: two worlds look alike to a task of each.
* `Alike.perform`, `Alike.takeTurn`: they do so after both tasks had the same step.
* `latch_perform`: and the step left the barrier as it was.
-/

namespace ActionFlow

/-! ## Explorers -/

namespace Explorer

variable {explorer other : Explorer} {who who' : Option TaskId}

/-- What a task wrote into the journal, the latest first. -/
def noted (explorer : Explorer) (who : Option TaskId) : List Event :=
  explorer.journal.filterMap fun entry => if entry.1 = who then some entry.2 else none

/-- Two explorers look alike to a task of each. -/
structure Alike (explorer : Explorer) (who : Option TaskId) (other : Explorer) (who' : Option TaskId) :
    Prop where
  sources : other.sources = explorer.sources
  shared : other.shared = explorer.shared
  traits : other.traits = explorer.traits
  depth : other.depth who' = explorer.depth who
  noted : other.noted who' = explorer.noted who

theorem noted_record (explorer : Explorer) (who : Option TaskId) (event : Event) :
    (explorer.record who event).noted who = event :: explorer.noted who :=
  List.filterMap_cons_some (if_pos rfl)

namespace Alike

variable (h : explorer.Alike who other who')

include h

theorem symm : other.Alike who' explorer who :=
  ⟨h.sources.symm, h.shared.symm, h.traits.symm, h.depth.symm, h.noted.symm⟩

theorem record (event : Event) :
    (explorer.record who event).Alike who (other.record who' event) who' where
  sources := h.sources
  shared := h.shared
  traits := h.traits
  depth := h.depth
  noted := by rw [noted_record, noted_record, h.noted]

theorem update (source : String) (f : Source → Source) :
    (explorer.update source f).Alike who (other.update source f) who' where
  sources := by simp only [Explorer.update, h.sources]
  shared := h.shared
  traits := h.traits
  depth := h.depth
  noted := h.noted

theorem change (source : String) (change : Change) :
    (explorer.change source change).Alike who (other.change source change) who' := by
  unfold Explorer.change
  cases change <;> exact h.update source _

theorem setExpandable (item : Item) (truth : Bool) :
    (other.setExpandable item truth).2 = (explorer.setExpandable item truth).2 ∧
      (explorer.setExpandable item truth).1.Alike who (other.setExpandable item truth).1 who' := by
  simp only [Explorer.setExpandable, h.traits]
  split
  · exact ⟨rfl, { h with traits := rfl }⟩
  · exact ⟨rfl, h⟩

theorem register (table : Option String) (registration : Registration) :
    (other.register who' table registration).2 = (explorer.register who table registration).2 ∧
      (explorer.register who table registration).1.Alike who
        (other.register who' table registration).1 who' := by
  cases table with
  | none =>
      simp only [Explorer.register, h.shared]
      split
      · exact ⟨rfl, h⟩
      · refine ⟨rfl, Alike.record ?_ _⟩
        exact { h with shared := rfl }
  | some source =>
      simp only [Explorer.register, h.sources]
      split
      · exact ⟨rfl, h⟩
      · exact ⟨rfl, (h.update source _).record _⟩

theorem enter : (other.enter who').2 = (explorer.enter who).2 ∧
    (explorer.enter who).1.Alike who (other.enter who').1 who' := by
  simp only [Explorer.enter, h.depth]
  split
  · refine ⟨rfl, { h with depth := ?_ }⟩
    simp only [amend_self]
  · exact ⟨rfl, h⟩

theorem leave : (explorer.leave who).Alike who (other.leave who') who' := by
  refine { h with depth := ?_ }
  simp only [Explorer.leave, amend_self, h.depth]

/-- **An operation** that has nothing to do with keys to the barrier is answered in the same way. -/
theorem perform {op : Op} (aloof : (Effect.op op).Aloof) :
    (other.perform who' op).2 = (explorer.perform who op).2 ∧
      (explorer.perform who op).1.Alike who (other.perform who' op).1 who' := by
  cases op with
  | resolve source name =>
      refine ⟨?_, h⟩
      simp only [Explorer.perform, h.sources, h.shared]
      rfl
  | gather source policy given =>
      refine ⟨?_, h.update source fun s => { s with selection := policy.remaining s.selection }⟩
      simp only [Explorer.perform, h.sources]
      rfl
  | test source rule item =>
      have holds : other.holds source rule item = explorer.holds source rule item := by
        cases rule <;> simp only [holds, h.sources, h.traits]
      exact ⟨holds, h⟩
  | rootOf source =>
      refine ⟨?_, h⟩
      simp only [Explorer.perform, h.sources]
      rfl
  | partsOf item =>
      refine ⟨?_, h⟩
      simp only [Explorer.perform, h.traits]
      rfl
  | record event => exact ⟨rfl, h.record event⟩
  | change source change => exact ⟨rfl, h.change source change⟩
  | setExpandable item truth => exact h.setExpandable item truth
  | register table registration => exact h.register table registration
  | keep | keyOf => cases aloof
  | enter => exact h.enter
  | leave => exact ⟨rfl, h.leave⟩

end Alike
end Explorer

namespace World

/-- Two worlds look alike to a task of each. -/
structure Alike (one : World) (t : TaskId) (other : World) (t' : TaskId) : Prop where
  explorer : one.explorer.Alike (some t) other.explorer (some t')
  scheduler : one.scheduler.Alike t other.scheduler t'
  named : ∀ name, other.named name = some t' ↔ one.named name = some t
  turn : ∀ job, other.current = some (t', job) ↔ one.current = some (t, job)

variable {one other : World} {t t' : TaskId} {job : Job}

/-- Whether the next step of a world is one of a task: it is its turn, or its turn comes next. -/
def Acts (world : World) (t : TaskId) : Prop :=
  (∃ job, world.current = some (t, job)) ∨
    world.current = none ∧ ∃ dealt, world.scheduler.nextTurn? = some (.resume t, dealt)

namespace Alike

theorem symm (h : one.Alike t other t') : other.Alike t' one t where
  explorer := h.explorer.symm
  scheduler := h.scheduler.symm
  named name := (h.named name).symm
  turn job := (h.turn job).symm

/-- Both tasks have to do the same. -/
theorem faces (h : one.Alike t other t') (faces : one.Faces t job) : other.Faces t' job := by
  cases faces with
  | turn current => exact .turn ((h.turn _).mpr current)
  | pause rests =>
    refine .pause ?_
    rw [Scheduler.rest?_eq_own?, h.scheduler.own, ← Scheduler.rest?_eq_own?, rests]

theorem continueWith {one other : World} (explorer : one.explorer.Alike (some t) other.explorer (some t'))
    (scheduler : one.scheduler.Alike t other.scheduler t')
    (named : ∀ name, other.named name = some t' ↔ one.named name = some t) (job : Job) :
    (one.continueWith t job).Alike t (other.continueWith t' job) t' where
  explorer := explorer
  scheduler := scheduler
  named := named
  turn next := by simp only [World.continueWith, Option.some.injEq, Prod.mk.injEq, true_and]

/-- Neither task is on turn any more. -/
theorem rest (h : one.Alike t other t') {scheduler scheduler' : Scheduler Job}
    (alike : scheduler.Alike t scheduler' t') :
    { one with scheduler, current := none }.Alike t { other with scheduler := scheduler', current := none } t'
    where
  explorer := h.explorer
  scheduler := alike
  named := h.named
  turn _ := iff_of_false nofun nofun

end Alike

theorem explorer_cancel (world : World) (name : String) : (world.cancel name).explorer = world.explorer := by
  unfold World.cancel
  split <;> rfl

theorem named_cancel (world : World) (name : String) : (world.cancel name).named = world.named := by
  unfold World.cancel
  split <;> rfl

/-- Whom a task cancels by a name that does not mean it makes no difference to it. -/
theorem alike_cancel {name : String} (others : one.named name ≠ some t) :
    one.scheduler.Alike t (one.cancel name).scheduler t := by
  unfold World.cancel
  split
  next other named => exact Scheduler.alike_cancel_of_ne fun same => others (same ▸ named)
  next => exact Scheduler.alike_self _ _

section Await

variable {world : World} {host : Host} {pause : Pause} {next : Except Failure PauseId → Job}
  {scheduler : Scheduler Job}

/-- A task goes on at once behind a pause that is not for the barrier. -/
theorem perform_await_of_answer (elsewhere : pause ≠ .barrier) {answer : Except Failure PauseId}
    (awaits : (world.scheduler.setResume t next).await t pause = (scheduler, some answer)) :
    world.perform host t (.await pause) next = { world with scheduler }.continueWith t (next answer) := by
  simp only [World.perform, awaits]
  cases pause with
  | barrier => exact absurd rfl elsewhere
  | gate | sleep => rfl

/-- A task has to wait. -/
theorem perform_await_of_none
    (awaits : (world.scheduler.setResume t next).await t pause = (scheduler, none)) :
    world.perform host t (.await pause) next = { world with scheduler, current := none } := by
  simp only [World.perform, awaits]

/-- Both tasks ask for a pause, and not for the barrier. -/
theorem Alike.await (h : one.Alike t other t') {task : Task Job} (ht : one.scheduler.task t = some task)
    (ht' : other.scheduler.task t' = some task) (elsewhere : pause ≠ .barrier)
    (tells : ∀ key key', next (.ok key) = next (.ok key')) :
    (one.perform host t (.await pause) next).Alike t (other.perform host t' (.await pause) next) t' := by
  have opened : (other.scheduler.setResume t' next).opened = (one.scheduler.setResume t next).opened := by
    rw [Scheduler.opened_setResume, Scheduler.opened_setResume, h.scheduler.opened]
  obtain ⟨alike, answers⟩ := Scheduler.Alike.await opened (Scheduler.task_setResume ht next)
    (Scheduler.task_setResume ht' next) elsewhere
  cases awaits : (one.scheduler.setResume t next).await t pause with
  | mk scheduler answer =>
  cases awaits' : (other.scheduler.setResume t' next).await t' pause with
  | mk scheduler' answer' =>
  rw [awaits, awaits'] at alike answers
  rcases answers with ⟨key, key', rfl, rfl⟩ | ⟨rfl, rfl⟩
  · rw [perform_await_of_answer elsewhere awaits, perform_await_of_answer elsewhere awaits',
      tells key key']
    refine .continueWith ?_ ?_ ?_ _
    · exact h.explorer
    · exact alike
    · exact h.named
  · rw [perform_await_of_none awaits, perform_await_of_none awaits']
    exact h.rest alike

end Await

/-- **The next effect** of a task that keeps aloof from the barrier. -/
theorem Alike.perform {host : Host} (h : one.Alike t other t')
    (running : one.scheduler.status? t = some .running) {effect : Effect} {next : effect.Reply → Job}
    (aloof : Program.StartsAloof (.act effect next)) :
    (one.perform host t effect next).Alike t (other.perform host t' effect next) t' := by
  obtain ⟨task, status, ht, ht'⟩ := h.scheduler.task_of_running running
  have running' : other.scheduler.status? t' = some .running := status ▸ Scheduler.status_of_task ht'
  obtain ⟨apart, tells⟩ := aloof
  cases effect with
  | op op =>
    obtain ⟨reply, alike⟩ := h.explorer.perform apart
    simp only [World.perform, reply]
    refine .continueWith ?_ ?_ ?_ _
    · exact alike
    · exact h.scheduler
    · exact h.named
  | call call => exact .continueWith h.explorer h.scheduler h.named _
  | setGate gate opened =>
    refine .continueWith ?_ ?_ ?_ _
    · exact h.explorer
    · exact h.scheduler.setGate running running' gate opened
    · exact h.named
  | release key => cases apart
  | cancel name =>
    refine .continueWith ?_ ?_ ?_ _
    · rw [explorer_cancel, explorer_cancel]
      exact h.explorer
    · -- Either the name means both tasks, each in its world, or neither of them.
      by_cases mine : one.named name = some t
      · have mine' := (h.named name).mpr mine
        simp only [World.cancel, mine, mine']
        exact .cancel h.scheduler.opened ht ht' status
      · have others' := fun same => mine ((h.named name).mp same)
        exact h.scheduler.change (alike_cancel mine) (alike_cancel others')
    · rw [named_cancel, named_cancel]
      exact h.named
  | await pause =>
    have elsewhere : pause ≠ .barrier := by
      rintro rfl
      cases apart
    exact h.await ht ht' elsewhere fun key key' => tells (.ok key) (.ok key') trivial

/-- A turn in which a task goes on without a key to the barrier. -/
theorem takeTurn_of_handover (world : World) {turn : Turn} {scheduler : Scheduler Job}
    {resume : Except Failure PauseId → Job} {answer : Except Failure PauseId}
    (taken : world.scheduler.takeTurn turn = (scheduler, some (t, { resume, answer }))) :
    world.takeTurn turn = { world with scheduler }.continueWith t (resume answer) := by
  simp only [World.takeTurn, taken, Scheduler.Handover.job]

/-- **The next turn** of a task that does not wait for the barrier. -/
theorem Alike.takeTurn (h : one.Alike t other t') {resume : Except Failure PauseId → Job}
    (rests : one.scheduler.rest? t = some (resume, false))
    (tells : ∀ key key', resume (.ok key) = resume (.ok key')) :
    (one.takeTurn (.resume t)).Alike t (other.takeTurn (.resume t')) t' := by
  obtain ⟨after, after', answer, answer', taken, taken', told, alike, -⟩ := h.scheduler.takeTurn rests
  -- The answers may differ in the number of the pause, which the task is not told.
  have goes : resume answer = resume answer' := by
    rcases told with rfl | ⟨id, id', rfl, rfl⟩
    · rfl
    · exact tells id id'
  rw [takeTurn_of_handover one taken, takeTurn_of_handover other taken', goes]
  refine .continueWith ?_ ?_ ?_ _
  · exact h.explorer
  · exact alike
  · exact h.named

/-! ## Steps of a task that keeps aloof -/

/-- The effect that is performed in the next step, if there is one. -/
def doing (world : World) : List Effect :=
  match world.current with
  | some (_, .act effect _) => [effect]
  | _ => []

section Step

variable {world after : World} {host : Host} {trace : List Deed}

/-- What a task does in its turn, apart from asking for the barrier, is one effect. -/
theorem deeds_of_current {effect : Effect} {next : effect.Reply → Job}
    (current : world.current = some (t, .act effect next)) (apart : effect.Aloof) :
    world.deeds = [.did t effect] := by
  cases effect with
  | await pause =>
    cases pause with
    | barrier => cases apart
    | gate | sleep => simp only [deeds, current, Scheduler.deedsOfAwait]
  | op | call | release | setGate | cancel => simp only [deeds, current]

/-- It does nothing yet when its turn begins. -/
theorem deeds_of_turn (idle : world.current = none) {dealt : Scheduler Job}
    (next : world.scheduler.nextTurn? = some (.resume t, dealt)) {resume : Except Failure PauseId → Job}
    (rests : world.scheduler.rest? t = some (resume, false)) : world.deeds = [] := by
  have dealt' := Scheduler.unmoved_nextTurn next t
  simp only [World.deeds, idle, next]
  exact Scheduler.deedsOfTurn_of_rest (dealt'.trans rests)

theorem latch_perform {effect : Effect} {next : effect.Reply → Job} (apart : effect.Aloof) :
    (world.perform host t effect next).scheduler.latch = world.scheduler.latch := by
  cases effect with
  | op | call => rfl
  | setGate gate opened => exact Scheduler.latch_setGate ..
  | release => cases apart
  | cancel name =>
    show (world.cancel name).scheduler.latch = _
    unfold World.cancel
    split
    · exact Scheduler.latch_cancel ..
    · rfl
  | await pause =>
    have elsewhere : pause ≠ .barrier := by
      rintro rfl
      cases apart
    have same : ((world.scheduler.setResume t next).await t pause).1.latch = world.scheduler.latch :=
      (Scheduler.latch_await _ t elsewhere).trans (Scheduler.latch_setResume ..)
    cases awaits : (world.scheduler.setResume t next).await t pause with
    | mk scheduler answer =>
    rw [awaits] at same
    cases answer with
    | some answer =>
      rw [perform_await_of_answer elsewhere awaits]
      exact same
    | none =>
      rw [perform_await_of_none awaits]
      exact same

end Step

end World
end ActionFlow
