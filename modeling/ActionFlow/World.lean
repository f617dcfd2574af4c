import ActionFlow.Running
import ActionFlow.Scheduler.Turn

/-!
# Explorer, tasks and their programs together

A world is an explorer with tasks that run programs in it. One step performs one effect of the task
whose turn it is, or begins the next turn. How the explorer around the actions answers calls (what
callbacks, views and loaders do) is a parameter, the host, so what holds for every host holds for
callbacks that do anything at all.
-/

namespace ActionFlow

/-- What a task does: a program that ends well or fails. -/
abbrev Job : Type := Program (Except Failure Unit)

/-- How an explorer answers the calls that actions make. -/
abbrev Host : Type := (call : Call) → Run call.Result

/-- An explorer and its tasks. `current` is the task whose turn it is, with what it still has to do;
`named` finds tasks by name. -/
structure World where
  explorer : Explorer := {}
  scheduler : Scheduler Job := {}
  named : String → Option TaskId := fun _ => none
  current : Option (TaskId × Job) := none

namespace World

/-- Performs an operation on the explorer outside any task. -/
def apply (world : World) (op : Op) : World × op.Reply :=
  let (explorer, reply) := world.explorer.perform none op
  ({ world with explorer }, reply)

/-- Writes an event into the journal. -/
def record (world : World) (task : Option TaskId) (event : Event) : World :=
  { world with explorer := world.explorer.record task event }

/-- Lets the task whose turn it is go on with a job. -/
def continueWith (world : World) (t : TaskId) (job : Job) : World :=
  { world with current := some (t, job) }

/-- Gives a key to the barrier back and notes it if that freed the barrier. -/
def release (world : World) (task : Option TaskId) (key : PauseId) : World × Except Failure Unit :=
  match world.scheduler.release key with
  | (scheduler, .ok true) =>
      ({ world with scheduler }.record task (.noted (.barrierReleased key)), .ok ())
  | (scheduler, .ok false) => ({ world with scheduler }, .ok ())
  | (scheduler, .error failure) => ({ world with scheduler }, .error failure)

/-- Opens or closes a gate. -/
def setGate (world : World) (gate : String) (opened : Bool) : World :=
  { world with scheduler := world.scheduler.setGate gate opened }

/-- Cancels the task of a name. -/
def cancel (world : World) (name : String) : World :=
  match world.named name with
  | some t => { world with scheduler := world.scheduler.cancel t }
  | none => world

/-- Starts a task under a name; it takes the name over from any earlier one. -/
def spawn (world : World) (name : String) (job : Job) : World × TaskId :=
  let (scheduler, t) := world.scheduler.spawn (.body fun
    | .ok _ => job
    | .error failure => .done (.error failure))
  ({ world with scheduler, named := amend world.named name (some t) }, t)

/-! ## Steps -/

/-- Performs one effect of the task whose turn it is. -/
def perform (host : Host) (world : World) (t : TaskId) :
    (effect : Effect) → (effect.Reply → Job) → World
  | .op op, next =>
      let (explorer, reply) := world.explorer.perform (some t) op
      { world with explorer }.continueWith t (next reply)
  | .call call, next => world.continueWith t ((host call).run.bind next)
  | .await pause, next =>
      match (world.scheduler.setResume t next).await t pause with
      | (scheduler, some answer) =>
          let answered := { world with scheduler }
          let noted := match pause, answer with
            | .barrier, .ok key => answered.record (some t) (.noted (.barrierTaken key))
            | _, _ => answered
          noted.continueWith t (next answer)
      | (scheduler, none) => { world with scheduler, current := none }
  | .release key, next =>
      let (world, reply) := world.release (some t) key
      world.continueWith t (next reply)
  | .setGate gate opened, next => (world.setGate gate opened).continueWith t (next ())
  | .cancel name, next => (world.cancel name).continueWith t (next ())

/-- Begins the next turn. -/
def takeTurn (world : World) (turn : Turn) : World :=
  match world.scheduler.takeTurn turn with
  | (scheduler, none) => { world with scheduler }
  | (scheduler, some (t, handover)) =>
      let world := { world with scheduler }
      let noted := match handover.granted with
        | some key => world.record (some t) (.noted (.barrierTaken key))
        | none => world
      noted.continueWith t handover.job

/-- One step: an effect of the task whose turn it is, or its end, or else the next turn. Nothing is
left to do if there is no next turn. -/
def step (host : Host) (world : World) : Option World :=
  match world.current with
  | some (t, .act effect next) => some (world.perform host t effect next)
  | some (t, .done ending) =>
      some { world with scheduler := world.scheduler.finish t ending, current := none }
  | none =>
      (world.scheduler.nextTurn?).map fun (turn, scheduler) =>
        { world with scheduler }.takeTurn turn

/-- Takes steps until nothing is left to do, at most `fuel` of them. -/
def settle (host : Host) : (fuel : Nat) → World → World
  | 0, world => world
  | fuel + 1, world =>
      match world.step host with
      | some after => settle host fuel after
      | none => world

/-- Sets the clock. -/
def setClock (world : World) (time : Binary64) : World :=
  { world with scheduler := { world.scheduler with clock := time } }

/-- Lets time pass until `target`: the clock stops at every timer on the way, at most `stops` times,
and everything that this sets going is done before it goes on. -/
def advanceTo (host : Host) (fuel : Nat) (target : Binary64) : (stops : Nat) → World → World
  | 0, world => world.setClock target
  | stops + 1, world =>
      match world.scheduler.nextTime? target with
      | some time => advanceTo host fuel target stops ((world.setClock time).settle host fuel)
      | none => world.setClock target

end World
end ActionFlow
