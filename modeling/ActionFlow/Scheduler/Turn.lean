import ActionFlow.Scheduler.Barrier

/-!
# Turns and time

Turns are taken in the order in which they were queued. Time is kept in rounds: the timers that are
due when a round begins take their turns after those that were queued before.
-/

namespace ActionFlow
namespace Scheduler

variable {κ : Type}

/-! ## Taking turns -/

/-- What a turn comes to: a job that goes on with an answer, and the key to the barrier that it was
given just now, if it was. -/
structure Handover (κ : Type) where
  resume : Except Failure PauseId → κ
  answer : Except Failure PauseId
  granted : Option PauseId := none

/-- The job that goes on. -/
def Handover.job (handover : Handover κ) : κ := handover.resume handover.answer

/-- Starts a task's turn. -/
def start (s : Scheduler κ) (t : TaskId) (task : Task κ) : Scheduler κ :=
  s.setTask t { task with status := .running, cancelAsked := false }

/-- Lets a task go on with an answer; for a helper, that is its end. -/
def goOn (s : Scheduler κ) (t : TaskId) (role : Role κ) (answer : Except Failure PauseId) :
    Scheduler κ × Option (Handover κ) :=
  match role with
  | .body resume => (s, some { resume, answer })
  | .helper _ _ => (s.finish t (answer.map fun _ => ()), none)

/-- Lets a task go on that was waiting for the barrier and has got it. -/
def goOnWith (s : Scheduler κ) (t : TaskId) (role : Role κ) (key : PauseId) :
    Scheduler κ × Option (Handover κ) :=
  match role with
  | .body resume => (s.grant key, some { resume, answer := .ok key, granted := some key })
  | .helper _ _ => (s.finish t (.ok ()), none)

/-- The first turn of a task, or one after a pause without a wait. A helper asks for the barrier. -/
def resumeQueued (s : Scheduler κ) (t : TaskId) (role : Role κ) (thrown : Bool) :
    Scheduler κ × Option (Handover κ) :=
  if thrown then s.goOn t role (.error .cancelled)
  else
    match role with
    | .body resume => ({ s with waits := s.waits + 1 }, some { resume, answer := .ok s.waits })
    | .helper key _ =>
        if s.isFree then ((s.take key).finish t (.ok ()), none)
        else ({ s with line := s.line ++ [t] }.suspend t (.line key), none)

/-- The turn of a task after a wait. `thrown` tells whether it was cancelled. -/
def resumeWaiting (s : Scheduler κ) (t : TaskId) (role : Role κ) (wait : Wait) (thrown : Bool) :
    Scheduler κ × Option (Handover κ) :=
  let s := { s with timers := s.timers.filter fun timer => timer.wait ≠ wait.id }
  match wait.aim with
  | .gate _ =>
      { s with atGates := s.atGates.erase t }.goOn t role
        (if thrown then .error .cancelled else .ok wait.id)
  | .time => s.goOn t role (if thrown then .error .cancelled else .ok wait.id)
  | .line key =>
      let s := { s with line := s.line.erase t }
      if thrown then
        (if s.holder.isNone then s.wakeFirst else s).goOn t role (.error .cancelled)
      else (s.take key).goOnWith t role key
  | .watch key helper limit =>
      if thrown then (s.abandon t key helper .cancelled, none)
      else
        match s.ending? helper with
        | some (.ok ()) => s.goOnWith t role key
        | some (.error failure) => s.goOn t role (.error failure)
        | none => (s.abandon t key helper (.timedOut limit), none)
  | .leave _ helper why =>
      if thrown then s.goOn t role (.error .cancelled)
      else
        match s.ending? helper with
        | some (.ok ()) =>
            match s.unlock with
            | .ok freed => freed.goOn t role (.error why)
            | .error failure => s.goOn t role (.error failure)
        | _ => s.goOn t role (.error why)

/-- Takes one turn; a job that goes on is handed over. -/
def takeTurn (s : Scheduler κ) : Turn → Scheduler κ × Option (TaskId × Handover κ)
  | .signal t id =>
      match s.pendingWait? t with
      | some wait => (if wait.id = id then s.settle t .met else s, none)
      | none => (s, none)
  | .resume t =>
      match s.task t with
      | none => (s, none)
      | some task =>
          let (after, handover) := match task.status with
            | .queued => (s.start t task).resumeQueued t task.role task.cancelAsked
            | .waiting wait =>
                (s.start t task).resumeWaiting t task.role wait
                  (task.cancelAsked || decide (wait.signal = Signal.cancelled))
            | .running | .finished _ => (s, none)
          (after, handover.map fun h => (t, h))

/-! ## Rounds and time -/

/-- Whether a timer is due. One whose time is not a number is due at once. -/
def isDue (clock : Binary64) (timer : Timer) : Bool := !clock.lt timer.due

/-- The next turn, and the scheduler without it. When a round is over the next one begins, with the
turns that were queued meanwhile and then the timers that are due, the earliest first. -/
def nextTurn? (s : Scheduler κ) : Option (Turn × Scheduler κ) :=
  match s.round with
  | turn :: rest => some (turn, { s with round := rest })
  | [] =>
      let due := s.timers.filter (isDue s.clock)
      match s.queue ++ due.map fun timer => Turn.signal timer.task timer.wait with
      | [] => none
      | turn :: rest =>
          some (turn, { s with
            round := rest
            queue := []
            timers := s.timers.filter fun timer => !isDue s.clock timer })

/-- The earliest time up to `target` at which a timer is due. -/
def nextTime? (s : Scheduler κ) (target : Binary64) : Option Binary64 :=
  (s.timers.find? fun timer => timer.due.le target).map (·.due)

end Scheduler
end ActionFlow
