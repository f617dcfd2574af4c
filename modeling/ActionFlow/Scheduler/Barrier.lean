import ActionFlow.Scheduler.State
import ActionFlow.Seconds

/-!
# The barrier

The barrier is a flag with a line of waiting tasks. Who asks without a limit of time joins the line
itself. With a limit, a helper task joins the line on behalf of the caller, which watches the helper
and the clock; when the limit is reached or the caller is cancelled, it calls the helper off, waits
until the helper has ended, and gives the barrier back if the helper had got it meanwhile.

A key opens the barrier at most once: `release` spends it.
-/

namespace ActionFlow
namespace Scheduler

variable {κ : Type}

/-! ## The barrier -/

/-- Whether a task that asks now gets the barrier at once: nobody holds it, and whoever is in line
has been called off. -/
def isFree (s : Scheduler κ) : Bool :=
  s.holder.isNone && s.line.all fun t =>
    match s.task t with
    | some { status := .waiting wait, .. } => decide (wait.signal = .cancelled)
    | _ => false

/-- Hands the barrier to a key. -/
def take (s : Scheduler κ) (key : PauseId) : Scheduler κ := { s with holder := some key }

/-- Makes a key open something from now on. -/
def grant (s : Scheduler κ) (key : PauseId) : Scheduler κ := { s with keys := s.keys ++ [key] }

/-- Wakes the first in line, unless it has been woken or called off before. -/
def wakeFirst (s : Scheduler κ) : Scheduler κ :=
  match s.line with
  | [] => s
  | t :: _ => s.settle t .met

/-- The failure of giving back a barrier that nobody holds. -/
def notHeld : Failure := .raised .runtime "Lock is not acquired."

/-- Frees the barrier and wakes the first in line. -/
def unlock (s : Scheduler κ) : Except Failure (Scheduler κ) :=
  match s.holder with
  | some _ => .ok { s with holder := none }.wakeFirst
  | none => .error notHeld

/-- Gives a key back. Only a key that opens something frees the barrier, and it does so once; the
answer tells whether it did. -/
def release (s : Scheduler κ) (key : PauseId) : Scheduler κ × Except Failure Bool :=
  if key ∈ s.keys then
    let spent := { s with keys := s.keys.erase key }
    match spent.unlock with
    | .ok freed => (freed, .ok true)
    | .error failure => (spent, .error failure)
  else (s, .ok false)

/-- Calls a helper off on behalf of a caller, which then waits until the helper has ended. -/
def abandon (s : Scheduler κ) (t : TaskId) (key : PauseId) (helper : TaskId) (why : Failure) :
    Scheduler κ :=
  let leaving := (s.cancel helper).suspend t (.leave key helper why)
  match s.ending? helper with
  | some _ => leaving.push (.signal t s.waits)
  | none => leaving

/-! ## Asking for a pause -/

/-- Queues the next turn of a task that waits for nothing. -/
def yieldTurn (s : Scheduler κ) (t : TaskId) : Scheduler κ :=
  match s.task t with
  | some task => (s.setTask t { task with status := .queued }).push (.resume t)
  | none => s

/-- Lets a task ask for a pause. It goes on at once, with the number of the pause, if the gate is open
or the barrier free; and it fails at once if the limit is no span of time, by when the helper is
already on its way. -/
def await (s : Scheduler κ) (t : TaskId) :
    Pause → Scheduler κ × Option (Except Failure PauseId)
  | .gate name =>
      if s.opened name then ({ s with waits := s.waits + 1 }, some (.ok s.waits))
      else ({ s with atGates := s.atGates ++ [t] }.suspend t (.gate name), none)
  | .sleep span =>
      if span.le .zero then (s.yieldTurn t, none)
      else
        let timer : Timer := { due := s.clock.add span, task := t, wait := s.waits }
        ({ s with timers := timer.insert s.timers }.suspend t .time, none)
  | .barrier =>
      match s.limit with
      | none =>
          if s.isFree then
            (({ s with waits := s.waits + 1 }.take s.waits).grant s.waits, some (.ok s.waits))
          else ({ s with line := s.line ++ [t] }.suspend t (.line s.waits), none)
      | some limit =>
          let (helped, helper) := s.spawn (.helper s.waits t)
          match limit.seconds with
          | .error failure => ({ helped with waits := s.waits + 1 }, some (.error failure))
          | .ok span =>
              let timer : Timer := { due := s.clock.add span, task := t, wait := s.waits }
              ({ helped with timers := timer.insert helped.timers }.suspend t
                (.watch s.waits helper limit), none)

end Scheduler
end ActionFlow
