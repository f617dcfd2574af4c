import ActionFlow.Program

/-!
# Tasks

Tasks share one thread. A task runs until it has to wait; what it waits for, or a cancellation, then
queues a turn for it. This module says what there is to know of one task, of one queued turn and of
one timer; what the tasks do in their turns is none of its business, so a task is a task for every
type `κ` of jobs.
-/

namespace ActionFlow

/-- How a wait stands. -/
inductive Signal where
  /-- The task is still waiting. -/
  | pending
  /-- What it waits for has come. -/
  | met
  /-- The wait was called off. -/
  | cancelled
  deriving DecidableEq, Repr, Inhabited

/-- What a task waits for. -/
inductive Aim where
  /-- A gate to be opened. -/
  | gate (name : String)
  /-- A timer. -/
  | time
  /-- The barrier, in its line. -/
  | line (key : PauseId)
  /-- A helper to get the barrier, or the limit of time to be reached. -/
  | watch (key : PauseId) (helper : TaskId) (limit : Value)
  /-- A helper that was called off to end; the task then fails as given. -/
  | leave (key : PauseId) (helper : TaskId) (why : Failure)
  deriving Repr, Inhabited

/-- Whether a helper's end is waited for. -/
def Aim.isEndOf (helper : TaskId) : Aim → Bool
  | .watch _ other _ => decide (other = helper)
  | .leave _ other _ => decide (other = helper)
  | .gate _ | .time | .line _ => false

/-- A wait; no two waits have the same number. -/
structure Wait where
  id : PauseId
  aim : Aim
  signal : Signal := .pending
  deriving Repr, Inhabited

/-- Where a task stands. -/
inductive Status where
  /-- It has a turn coming and waits for nothing. -/
  | queued
  /-- It is its turn. -/
  | running
  | waiting (wait : Wait)
  | finished (ending : Except Failure Unit)
  deriving Inhabited

/-- What a task is there for. -/
inductive Role (κ : Type) where
  /-- To do a job; `resume` goes on with it when its turn comes. -/
  | body (resume : Except Failure PauseId → κ)
  /-- To stand in line for the barrier on behalf of a caller that waits for the key. -/
  | helper (key : PauseId) (caller : TaskId)

/-- A task. -/
structure Task (κ : Type) where
  role : Role κ
  status : Status := .queued
  /-- A cancellation that the task has not met yet, because it was not waiting. -/
  cancelAsked : Bool := false

/-- A turn that is queued. -/
inductive Turn where
  /-- The task's own turn. -/
  | resume (task : TaskId)
  /-- What the wait of a task was for has come; the task's own turn is queued if it still waits. -/
  | signal (task : TaskId) (wait : PauseId)
  deriving DecidableEq, Repr, Inhabited

/-- A timer for the wait of a task. -/
structure Timer where
  due : Binary64
  task : TaskId
  wait : PauseId
  deriving DecidableEq, Repr, Inhabited

/-- Adds a timer behind those that are due before it or at the same time. -/
def Timer.insert (timer : Timer) : List Timer → List Timer
  | [] => [timer]
  | first :: rest =>
      if first.due.le timer.due then first :: timer.insert rest else timer :: first :: rest

end ActionFlow
