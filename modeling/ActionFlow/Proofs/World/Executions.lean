import ActionFlow.Proofs.Scheduler.Sharing
import ActionFlow.World

/-!
# Executions

What happens in a world, one thing after the other: the steps of the tasks, their turns and timers, and what
is done from outside. Tasks take their turns in any order here, not just in that in which the turns were
queued, and numbers for pauses may be passed over. Hence a list of what happens can be changed, and may still
be an execution.

## Main results

* `World.Execution`: what happens in a world, in any order of turns.
* `World.Execution.step`, `World.Execution.settle`: whatever a world does of its own accord is an execution.
-/

namespace ActionFlow
namespace World

/-! ## What happens -/

/-- One thing that happens in a world. -/
inductive Occurrence where
  /-- A step of the task whose turn it is, under a host. -/
  | step (t : TaskId) (host : Host)
  /-- A turn that was queued. -/
  | turn (turn : Turn)
  /-- A timer that is due. -/
  | ring (timer : Timer)
  /-- A task is started. -/
  | spawn (name : String) (job : Job)
  /-- An operation on the explorer from outside. -/
  | operate (op : Op)
  /-- A gate is opened or closed. -/
  | setGate (gate : String) (opened : Bool)
  /-- A task is cancelled. -/
  | cancel (t : TaskId)
  /-- Time passes. -/
  | setClock (time : Binary64)

/-- The task whose step it is, if it is one. -/
def Occurrence.task? : Occurrence → Option TaskId
  | step t _ => some t
  | turn taken => some taken.task
  | ring timer => some timer.task
  | spawn .. | operate _ | setGate .. | cancel _ | setClock _ => none

/-- Whether it is a step of one of some tasks, or comes from outside. -/
def Occurrence.isFor (mine : TaskId → Bool) (occurrence : Occurrence) : Bool := occurrence.task?.all mine

/-- What happens in a world, and the world afterwards. -/
inductive Occurs : World → Occurrence → World → Prop where
  | step {world after : World} {t : TaskId} {job : Job} {host : Host}
      (current : world.current = some (t, job)) (steps : world.step host = some after) :
      Occurs world (.step t host) after
  | turn {world : World} {turn : Turn} {rest : List Turn} (idle : world.current = none)
      (first : world.scheduler.round = turn :: rest) :
      Occurs world (.turn turn)
        ({ world with scheduler := { world.scheduler with round := rest } }.takeTurn turn)
  | ring {world : World} {timer : Timer} (set : timer ∈ world.scheduler.timers)
      (due : Scheduler.isDue world.scheduler.clock timer) :
      Occurs world (.ring timer) { world with scheduler := world.scheduler.ring timer }
  | spawn {world : World} (name : String) (job : Job) :
      Occurs world (.spawn name job) (world.spawn name job).1
  | operate {world : World} (op : Op) : Occurs world (.operate op) (world.apply op).1
  | setGate {world : World} (gate : String) (opened : Bool) :
      Occurs world (.setGate gate opened) (world.setGate gate opened)
  | cancel {world : World} (t : TaskId) :
      Occurs world (.cancel t) { world with scheduler := world.scheduler.cancel t }
  | setClock {world : World} (time : Binary64) : Occurs world (.setClock time) (world.setClock time)

/-- Nothing happens, but the turns that are queued and the timers may come in another order, and numbers
for pauses may be passed over. -/
inductive Rearranged : World → World → Prop where
  | intro {world : World} {round queue : List Turn} {timers : List Timer} {waits : Nat}
      (turns : (round ++ queue).Perm world.scheduler.turns)
      (timing : timers.Perm world.scheduler.timers) (later : world.scheduler.waits ≤ waits) :
      Rearranged world { world with scheduler := { world.scheduler with round, queue, timers, waits } }

theorem rearranged_self (world : World) : Rearranged world world :=
  .intro (.refl _) (.refl _) (Nat.le_refl _)

/-- Whether something may happen, given which hosts there are and what a task may be started with. -/
def Admits (hosts : Host → Prop) (jobs : TaskId → Job → Prop) (world : World) : Occurrence → Prop
  | .step _ host => hosts host
  | .spawn _ job => jobs world.scheduler.size job
  | .turn _ | .ring _ | .operate _ | .setGate .. | .cancel _ | .setClock _ => True

/-- What happens from a world on, one thing after the other. -/
inductive Execution (hosts : Host → Prop) (jobs : TaskId → Job → Prop) (start : World) :
    List Occurrence → World → Prop where
  | start : Execution hosts jobs start [] start
  | rearranged {happened : List Occurrence} {world after : World}
      (before : Execution hosts jobs start happened world) (same : Rearranged world after) :
      Execution hosts jobs start happened after
  | occurs {happened : List Occurrence} {world after : World} {occurrence : Occurrence}
      (before : Execution hosts jobs start happened world) (occurs : Occurs world occurrence after)
      (admits : world.Admits hosts jobs occurrence) :
      Execution hosts jobs start (happened ++ [occurrence]) after

/-! ## Worlds that go on by themselves -/

/-- What happens next in a world of its own accord, under a host. -/
def ahead (host : Host) (world : World) : List Occurrence :=
  match world.current with
  | some (t, _) => [.step t host]
  | none =>
      match world.scheduler.round with
      | turn :: _ => [.turn turn]
      | [] =>
          let due := world.scheduler.timers.filter (Scheduler.isDue world.scheduler.clock)
          let dealt := world.scheduler.queue ++ due.map fun timer => Turn.signal timer.task timer.wait
          due.map .ring ++ (dealt.head?.map .turn).toList

/-- What happens in a world of its own accord until it comes to rest, in so many steps at most. -/
def history (host : Host) : (fuel : Nat) → World → List Occurrence
  | 0, _ => []
  | fuel + 1, world =>
      match world.step host with
      | some after => world.ahead host ++ history host fuel after
      | none => []

section Steps

variable {hosts : Host → Prop} {jobs : TaskId → Job → Prop} {start world after : World}
  {happened : List Occurrence}

/-- Timers that are due ring one after the other. -/
theorem Execution.rings (before : Execution hosts jobs start happened world) {due rest : List Timer}
    (timers : world.scheduler.timers.Perm (due ++ rest))
    (ripe : ∀ timer ∈ due, Scheduler.isDue world.scheduler.clock timer) :
    ∃ left, left.Perm rest ∧ Execution hosts jobs start (happened ++ due.map .ring)
      { world with scheduler := { world.scheduler with
        queue := world.scheduler.queue ++ due.map fun timer => .signal timer.task timer.wait
        timers := left } } := by
  induction due generalizing world happened with
  | nil =>
    refine ⟨world.scheduler.timers, timers, ?_⟩
    simpa using before
  | cons timer due ih =>
    have set : timer ∈ world.scheduler.timers := timers.mem_iff.mpr List.mem_cons_self
    have rung := before.occurs (.ring set (ripe timer List.mem_cons_self)) trivial
    have others : (world.scheduler.timers.erase timer).Perm (due ++ rest) := by
      have erased := timers.erase timer
      rwa [List.cons_append, List.erase_cons_head] at erased
    obtain ⟨left, same, further⟩ := ih rung others fun other member =>
      ripe other (List.mem_cons_of_mem _ member)
    refine ⟨left, same, ?_⟩
    simpa [Scheduler.ring, Scheduler.push] using further

/-- **Whatever a world does of its own accord** is an execution. -/
theorem Execution.step (before : Execution hosts jobs start happened world) {host : Host}
    (allowed : hosts host) (steps : world.step host = some after) :
    Execution hosts jobs start (happened ++ world.ahead host) after := by
  obtain ⟨explorer, scheduler, named, current⟩ := world
  cases current with
  | some hand => exact before.occurs (.step rfl steps) allowed
  | none =>
    obtain ⟨⟨turn, dealt⟩, next, rfl⟩ := Option.map_eq_some_iff.mp steps
    simp only [ahead]
    unfold Scheduler.nextTurn? at next
    split at next
    next first rest round =>
      cases next
      rw [round]
      exact before.occurs (.turn rfl round) trivial
    next round =>
      simp only at next
      split at next
      · cases next
      next first rest queued =>
        cases next
        -- a round begins: the timers that are due ring, and the first turn is taken
        have parts := (List.filter_append_perm (Scheduler.isDue scheduler.clock) scheduler.timers).symm
        obtain ⟨late, same, rung⟩ := before.rings parts fun timer member => (List.mem_filter.mp member).2
        let rang : World := { explorer, named, scheduler := { scheduler with
          timers := late
          queue := scheduler.queue ++ (scheduler.timers.filter (Scheduler.isDue scheduler.clock)).map
            fun timer => .signal timer.task timer.wait } }
        have turns : ((turn :: rest) ++ []).Perm rang.scheduler.turns := by
          have spent : scheduler.round = [] := round
          simp only [rang, Scheduler.turns, spent, queued, List.append_nil, List.nil_append]
          exact .refl _
        have begun : Rearranged rang { rang with scheduler := { rang.scheduler with
            round := turn :: rest
            queue := []
            timers := scheduler.timers.filter fun timer => !Scheduler.isDue scheduler.clock timer } } :=
          .intro turns same.symm (Nat.le_refl _)
        rw [round]
        simp only [queued, ← List.append_assoc]
        exact (rung.rearranged begun).occurs (.turn rfl rfl) trivial

/-- So is what it does until it comes to rest. -/
theorem Execution.settle (before : Execution hosts jobs start happened world) {host : Host}
    (allowed : hosts host) (fuel : Nat) :
    Execution hosts jobs start (happened ++ world.history host fuel) (world.settle host fuel) := by
  induction fuel generalizing world happened with
  | zero => rwa [history, List.append_nil]
  | succ fuel ih =>
    rw [history, World.settle]
    cases steps : world.step host with
    | none => rwa [List.append_nil]
    | some after =>
      rw [← List.append_assoc]
      exact ih (before.step allowed steps)

end Steps

end World
end ActionFlow
