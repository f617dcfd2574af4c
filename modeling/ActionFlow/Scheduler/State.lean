import ActionFlow.Amend
import ActionFlow.Scheduler.Task

/-!
# The state of the scheduler

The scheduler keeps the tasks, the order of their turns, the gates, the timers and the barrier. Here
are its state, and what lets a task wait, wakes it, cancels it and ends it. Nothing here depends on
what the tasks do in their turns.
-/

namespace ActionFlow

/-- The state of the scheduler. `round` holds the turns of the present round and `queue` those that
were queued since it began; `timers` are in the order in which they are due. `limit` is the longest
time to wait for the barrier, `line` the line for it, and `keys` are the keys to it that open
something. -/
structure Scheduler (κ : Type) where
  task : TaskId → Option (Task κ) := fun _ => none
  size : Nat := 0
  round : List Turn := []
  queue : List Turn := []
  clock : Binary64 := .zero
  timers : List Timer := []
  opened : String → Bool := fun _ => false
  atGates : List TaskId := []
  limit : Option Value := none
  holder : Option PauseId := none
  line : List TaskId := []
  keys : List PauseId := []
  waits : Nat := 0

namespace Scheduler

variable {κ : Type}

/-- Replaces a task. -/
def setTask (s : Scheduler κ) (t : TaskId) (task : Task κ) : Scheduler κ :=
  { s with task := amend s.task t (some task) }

/-- Queues a turn. -/
def push (s : Scheduler κ) (turn : Turn) : Scheduler κ := { s with queue := s.queue ++ [turn] }

/-- Adds a task and queues its first turn. -/
def spawn (s : Scheduler κ) (role : Role κ) : Scheduler κ × TaskId :=
  let t := s.size
  (({ s with size := t + 1 }.setTask t { role }).push (.resume t), t)

/-- The wait of a task, if it is still pending. -/
def pendingWait? (s : Scheduler κ) (t : TaskId) : Option Wait :=
  match s.task t with
  | some { status := .waiting wait, .. } => if wait.signal = .pending then some wait else none
  | _ => none

/-- How a task ended, if it did. -/
def ending? (s : Scheduler κ) (t : TaskId) : Option (Except Failure Unit) :=
  match s.task t with
  | some { status := .finished ending, .. } => some ending
  | _ => none

/-! ## Waiting and waking -/

/-- Settles the wait of a task, if it is pending, and queues the task's turn. -/
def settle (s : Scheduler κ) (t : TaskId) (signal : Signal) : Scheduler κ :=
  match s.task t with
  | some task =>
      match task.status with
      | .waiting wait =>
          if wait.signal = .pending then
            (s.setTask t { task with status := .waiting { wait with signal } }).push (.resume t)
          else s
      | _ => s
  | none => s

/-- Lets a task wait, under the next number. A cancellation that it has not met yet calls the wait
off at once. -/
def suspend (s : Scheduler κ) (t : TaskId) (aim : Aim) : Scheduler κ :=
  match s.task t with
  | some task =>
      let waits := { s with waits := s.waits + 1 }
      if task.cancelAsked then
        (waits.setTask t
          { task with
            status := .waiting { id := s.waits, aim, signal := .cancelled }
            cancelAsked := false }).push (.resume t)
      else waits.setTask t { task with status := .waiting { id := s.waits, aim } }
  | none => s

/-- Replaces what a task does when its turn comes. -/
def setResume (s : Scheduler κ) (t : TaskId) (resume : Except Failure PauseId → κ) : Scheduler κ :=
  match s.task t with
  | some task => s.setTask t { task with role := .body resume }
  | none => s

/-- Asks a task to end. A pending wait is called off; a task that is not waiting, or whose turn is
already queued, meets the cancellation at its next turn or wait. -/
def cancel (s : Scheduler κ) (t : TaskId) : Scheduler κ :=
  match s.task t with
  | some task =>
      match task.status with
      | .finished _ => s
      | .waiting wait =>
          if wait.signal = .pending then s.settle t .cancelled
          else s.setTask t { task with cancelAsked := true }
      | .queued | .running => s.setTask t { task with cancelAsked := true }
  | none => s

/-- Ends a task. A helper's caller is signalled if it still waits for it; a task that would end well
but was asked to end meanwhile ends as cancelled. -/
def finish (s : Scheduler κ) (t : TaskId) (ending : Except Failure Unit) : Scheduler κ :=
  match s.task t with
  | some task =>
      let ending := match ending with
        | .ok () => if task.cancelAsked then .error .cancelled else .ok ()
        | failed => failed
      let ended := s.setTask t { task with status := .finished ending, cancelAsked := false }
      match task.role with
      | .body _ => ended
      | .helper _ caller =>
          match s.pendingWait? caller with
          | some wait => if wait.aim.isEndOf t then ended.push (.signal caller wait.id) else ended
          | none => ended
  | none => s

/-! ## Gates -/

/-- Closes a gate, or opens it and wakes those who wait for it, in the order in which they came. -/
def setGate (s : Scheduler κ) (gate : String) (opened : Bool) : Scheduler κ :=
  let changed := { s with opened := amend s.opened gate opened }
  if opened && !s.opened gate then
    let atGate := s.atGates.filter fun t =>
      match s.pendingWait? t with
      | some { aim := .gate name, .. } => decide (name = gate)
      | _ => false
    atGate.foldl (fun now t => now.settle t .met) changed
  else changed

end Scheduler
end ActionFlow
