import ActionFlow.Listing
import ActionFlow.Script

/-!
# Sessions

A session drives an explorer from outside, one step after the other: it registers actions, starts
tasks, opens gates, lets time pass, or just looks. After each step every task runs as far as it can,
and a report tells what has changed.
-/

namespace ActionFlow

/-! ## Steps -/

/-- One step of a session. A task that is given no name is named after its step. -/
inductive Step where
  | register (table : Option String) (registration : Registration)
  | run (source : String) (expression : Value) (items : Supply) (mode : Mode) (inside : Bool)
      (task : Option String)
  | invoke (source name : String) (items : Supply) (args : List String) (mode : Mode)
      (task : Option String)
  | acquire (hold : String)
  | release (hold : String)
  | change (source : String) (change : Change)
  | setExpandable (item : Item) (truth : Bool)
  | setGate (gate : String) (opened : Bool)
  | cancel (task : String)
  | advance (span : Value)
  | resolve (source name : String)
  | registered (source : String)
  | list (source : String)
  | filter (source rule : String) (items : List Item)
  | batch (steps : List Step)
  deriving Inhabited

/-- What a step answers by itself. -/
inductive Answer where
  | nothing
  | failed (failure : Failure)
  | resolved (action : Option Action)
  | actions (actions : List Action)
  | listing (entries : List ListingEntry)
  | verdicts (verdicts : List Bool)
  deriving Inhabited

/-- How a task stands, seen from outside. -/
inductive TaskState where
  | pending
  | done
  | failed (failure : Failure)
  deriving Inhabited

/-- What a step has changed. -/
structure Report where
  answer : Answer
  events : List Event
  tasks : List (String × TaskState)
  locked : Bool
  selected : List (String × List Item)
  deriving Inhabited

/-! ## Sessions -/

/-- A session. `reported` holds, for each task name, the task and whether it had ended when it was last
reported; `seen` is the number of events that were reported. -/
structure Session where
  world : World := {}
  views : String → View := fun _ => {}
  sources : List String := []
  tasks : List String := []
  reported : String → Option (TaskId × Bool) := fun _ => none
  seen : Nat := 0

namespace Session

/-- More steps than any session takes. As callbacks can be inside each other only so deep, every
session comes to rest. -/
def patience : Nat := 1000000000

/-- The host of the session. -/
def host (session : Session) : Host := scriptedHost session.views

/-- Lets every task run as far as it can. -/
def settle (session : Session) : Session :=
  { session with world := session.world.settle session.host patience }

/-- Starts a task. -/
def start (session : Session) (name : String) (run : Run Unit) : Session :=
  let (world, _) := session.world.spawn name run.run
  let tasks := if session.tasks.contains name then session.tasks else session.tasks ++ [name]
  { session with world, tasks }

/-- Takes the barrier and puts the key aside. -/
def acquireAs (hold : String) : Run Unit := do
  let key ← Run.await .barrier
  Run.op (.keep hold key)

/-- The verdicts of a rule about items, as far as the view can tell. -/
def verdicts (session : Session) (source rule : String) (items : List Item) : Answer :=
  match Rule.ofName? rule with
  | none => .failed .lacking
  | some rule =>
      match rule, (session.views source).expandedFailure, items with
      | .expanded, some failure, _ :: _ => .failed failure
      | _, _, _ => .verdicts (items.map (session.world.explorer.holds source rule))

/-- The answer of an outcome that says nothing unless it failed. -/
def outcome : Except Failure Unit → Answer
  | .ok () => .nothing
  | .error failure => .failed failure

mutual

/-- Takes a step, without letting tasks run in between. `number` names tasks that are given no name. -/
def perform (session : Session) (number : Nat) : Step → Session × Answer
  | .register table registration =>
      let (world, reply) := session.world.apply (.register table registration)
      ({ session with world }, outcome reply)
  | .run source expression items mode inside task =>
      (session.start (task.getD ("#" ++ toString number))
        (Expr.runValue source mode expression inside items), .nothing)
  | .invoke source name items args mode task =>
      (session.start (task.getD ("#" ++ toString number))
        (ActionFlow.invoke source name items args mode), .nothing)
  | .acquire hold => (session.start hold (acquireAs hold), .nothing)
  | .release hold =>
      match session.world.explorer.keys hold with
      | none => (session, .nothing)
      | some key =>
          let (world, reply) := session.world.release none key
          ({ session with world }, outcome reply)
  | .change source change =>
      ({ session with world := (session.world.apply (.change source change)).1 }, .nothing)
  | .setExpandable item truth =>
      let (world, reply) := session.world.apply (.setExpandable item truth)
      ({ session with world }, outcome reply)
  | .setGate gate opened => ({ session with world := session.world.setGate gate opened }, .nothing)
  | .cancel task => ({ session with world := session.world.cancel task }, .nothing)
  | .advance span =>
      match span.seconds with
      | .error failure => (session, .failed failure)
      | .ok span =>
          let target := session.world.scheduler.clock.add span
          ({ session with
              world := session.world.advanceTo session.host patience target patience }, .nothing)
  | .resolve source name =>
      (session, .resolved ((session.world.explorer.sources source).registry.resolve
        session.world.explorer.shared name))
  | .registered source =>
      (session, .actions (Listing.sorted ((session.world.explorer.sources source).registry.merged
        session.world.explorer.shared)))
  | .list source =>
      match Listing.ofTables (session.world.explorer.sources source).registry
          session.world.explorer.shared with
      | .ok entries => (session, .listing entries)
      | .error failure => (session, .failed failure)
  | .filter source rule items => (session, session.verdicts source rule items)
  | .batch steps => performAll session (100 * number) steps

/-- Takes several steps, up to the first one that fails; its failure is the answer. -/
def performAll (session : Session) (number : Nat) : List Step → Session × Answer
  | [] => (session, .nothing)
  | step :: rest =>
      match session.perform number step with
      | (after, .failed failure) => (after, .failed failure)
      | (after, _) => performAll after (number + 1) rest

end

/-- How a task stands. -/
def stateOf (session : Session) (t : TaskId) : TaskState :=
  match session.world.scheduler.ending? t with
  | none => .pending
  | some (.ok ()) => .done
  | some (.error failure) => .failed failure

/-- The tasks that are new or have ended since they were last reported. -/
def changedTasks (session : Session) : List (String × TaskId) :=
  session.tasks.filterMap fun name =>
    match session.world.named name with
    | none => none
    | some t =>
        let ended := (session.world.scheduler.ending? t).isSome
        if session.reported name = some (t, ended) then none else some (name, t)

/-- Reports what has changed since the last report. -/
def report (session : Session) (answer : Answer) : Session × Report :=
  let journal := session.world.explorer.journal
  let changed := session.changedTasks
  let reported := changed.foldl (fun reported (name, t) =>
    amend reported name (some (t, (session.world.scheduler.ending? t).isSome))) session.reported
  ({ session with reported, seen := journal.length },
    { answer
      events := ((journal.take (journal.length - session.seen)).map (·.2)).reverse
      tasks := changed.map fun (name, t) => (name, session.stateOf t)
      locked := session.world.scheduler.holder.isSome
      selected := session.sources.map fun source =>
        (source, (session.world.explorer.sources source).selection.items) })

/-- Takes a step, lets every task run as far as it can, and reports. -/
def take (session : Session) (number : Nat) (step : Step) : Session × Report :=
  let (after, answer) := session.perform number step
  after.settle.report answer

/-- The reports of all steps. -/
def reports (session : Session) (number : Nat) : List Step → List Report
  | [] => []
  | step :: rest =>
      let (after, report) := session.take number step
      report :: reports after (number + 1) rest

end Session
end ActionFlow
