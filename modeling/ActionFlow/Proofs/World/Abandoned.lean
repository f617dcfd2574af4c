import ActionFlow.Proofs.World.Hosts
import ActionFlow.Proofs.World.Reached

/-!
# Requests that are given up

A request for the barrier within a limit of time can fail after its helper has got the barrier. The
caller then waits until the helper has ended and gives the barrier back on its behalf. This module says
exactly when that goes wrong: a caller that is cancelled while it waits for the helper to end does not
come to giving anything back, and the barrier stays with a request that is over.

## Main results

* `held_after_quit_iff`: the barrier is held for a request that failed exactly if the request was cut
  short and its helper had got the barrier.
* `not_free_after_quit`: two cancellations are enough for that.
-/

namespace ActionFlow
namespace World

variable {hosts : Host → Prop} {jobs : Job → Prop}

/-- **What a failed request leaves behind.** In every world that can be reached, under any hosts and with
any jobs, a request within a limit of time that has failed did so because it was cancelled or because
the limit was reached; and once its helper has ended, the barrier is held for the request exactly if the
caller was cancelled while it waited for the helper to end, and the helper had got the barrier. -/
theorem held_after_quit_iff {world : World} {trace : List Deed} {t : TaskId} {key : PauseId}
    {helper : TaskId} {failure : Failure} {cut : Bool} (reached : Reached hosts jobs world trace)
    (quit : .quit t key helper failure cut ∈ trace) :
    (failure = .cancelled ∨ ∃ limit, failure = .timedOut limit) ∧
      world.scheduler.helper? helper = some (key, t) ∧
      ∀ ending, world.scheduler.ending? helper = some ending →
        (world.scheduler.holder = some key ↔ cut = true ∧ ending = .ok ()) := by
  obtain ⟨-, keyed, accounted⟩ := reached.sound
  obtain ⟨helps, -, excused⟩ := accounted.quitHelper quit
  refine ⟨excused, helps, fun ending ended => ?_⟩
  have status := Scheduler.ending?_eq_some_iff.mp ended
  constructor
  · intro held
    have got := keyed.origin helps held
    cases got.symm.trans status
    refine ⟨?_, rfl⟩
    cases cut with
    | true => rfl
    | false => exact absurd held (accounted.quitFree quit got)
  · rintro ⟨rfl, rfl⟩
    exact (accounted.quitHeld quit status).1

/-! ## A request that is cut short -/

/-- Takes the barrier, waits at a gate, and gives the barrier back. -/
def holdUntil (gate : String) : Run Unit := do
  let key ← Run.await .barrier
  let _ ← Run.await (.gate gate)
  Run.release key

/-- Two tasks have asked for the barrier within ten seconds; the first has got it and is at the gate. -/
def contested : World × List Deed :=
  let begin : World := { scheduler := { limit := some (.int 10) } }
  let first := (begin.spawn "holder" (holdUntil "gate").run).1
  let second := (first.spawn "asker" (holdUntil "door").run).1
  steps silence 40 (second, [])

/-- The first task gives the barrier back, and the second is cancelled before its helper has its turn. -/
def cancelledOnce : World × List Deed :=
  let freed := steps silence 4 (contested.1.setGate "gate" true, contested.2)
  steps silence 2 ({ freed.1 with scheduler := freed.1.scheduler.cancel 1 }, freed.2)

/-- The second task is cancelled again, while it waits for its helper to end. -/
def cancelledTwice : World × List Deed :=
  steps silence 40
    ({ cancelledOnce.1 with scheduler := cancelledOnce.1.scheduler.cancel 1 }, cancelledOnce.2)

/-- Whoever takes the barrier here means to give it back. -/
def Keeps (job : Job) : Prop := ∃ gate, job = (holdUntil gate).run

theorem reached_contested : Reached (· = silence) Keeps contested.1 contested.2 := by
  have begun : Reached (· = silence) Keeps { scheduler := { limit := some (.int 10) } } [] :=
    .begin {} (fun _ => rfl) (some (.int 10)) .zero fun _ => false
  have first := begun.outside (.spawn "holder" ⟨"gate", rfl⟩)
  have second := first.outside (.spawn "asker" ⟨"door", rfl⟩)
  exact second.steps rfl 40

theorem reached_cancelledOnce : Reached (· = silence) Keeps cancelledOnce.1 cancelledOnce.2 := by
  have opened := reached_contested.outside (.setGate "gate" true)
  have freed := opened.steps rfl 4
  exact (freed.outside (.cancel 1)).steps rfl 2

theorem reached_cancelledTwice : Reached (· = silence) Keeps cancelledTwice.1 cancelledTwice.2 :=
  (reached_cancelledOnce.outside (.cancel 1)).steps rfl 40

/-- The task, the key and the helper of a request that was cancelled and cut short. -/
def cutShort? : Deed → Option (TaskId × PauseId × TaskId)
  | .quit t key helper .cancelled true => some (t, key, helper)
  | _ => none

theorem quit_of_cutShort? {deed : Deed} {t : TaskId} {key : PauseId} {helper : TaskId}
    (short : cutShort? deed = some (t, key, helper)) : deed = .quit t key helper .cancelled true := by
  unfold cutShort? at short
  split at short
  next => cases short; rfl
  next => cases short

/-- The request was cut short after its helper had got the barrier. -/
theorem quit_of_cancelledTwice : .quit 1 3 3 .cancelled true ∈ cancelledTwice.2 := by
  have short : cancelledTwice.2.findSome? cutShort? = some (1, 3, 3) := by decide +kernel
  obtain ⟨deed, done, short⟩ := List.exists_of_findSome?_eq_some short
  exact quit_of_cutShort? short ▸ done

theorem ending?_of_cancelledTwice : cancelledTwice.1.scheduler.ending? 3 = some (.ok ()) := by
  have ended : (cancelledTwice.1.scheduler.ending? 3).map Except.toOption = some (some ()) := by
    decide +kernel
  cases same : cancelledTwice.1.scheduler.ending? 3 with
  | none => simp [same] at ended
  | some ending =>
    cases ending with
    | ok => rfl
    | error failure => simp [same, Except.toOption] at ended

/-- The barrier is held for a request that was cancelled, at a time when nothing is going on any more. -/
theorem cancelledTwice_held_after_quit :
    (Reached (· = silence) Keeps cancelledTwice.1 cancelledTwice.2 ∧
      .quit 1 3 3 .cancelled true ∈ cancelledTwice.2) ∧
    cancelledTwice.1.scheduler.ending? 3 = some (.ok ()) ∧
      cancelledTwice.1.scheduler.holder = some 3 := by
  have ended := ending?_of_cancelledTwice
  have found := held_after_quit_iff reached_cancelledTwice quit_of_cancelledTwice
  exact ⟨⟨reached_cancelledTwice, quit_of_cancelledTwice⟩, ended,
    (found.2.2 _ ended).mpr ⟨rfl, rfl⟩⟩

/-- A request that has failed can keep the barrier, even where everybody means to give it back. -/
theorem not_free_after_quit :
    ¬ ∀ (world : World) (trace : List Deed) (t : TaskId) (key : PauseId) (helper : TaskId)
        (failure : Failure) (cut : Bool) (ending : Except Failure Unit),
      Reached (· = silence) Keeps world trace → .quit t key helper failure cut ∈ trace →
        world.scheduler.ending? helper = some ending → world.scheduler.holder ≠ some key := by
  intro never
  have held : cancelledTwice.1.scheduler.holder = some 3 := by decide +kernel
  exact never _ _ _ _ _ _ _ _ reached_cancelledTwice quit_of_cancelledTwice
    ending?_of_cancelledTwice held

end World
end ActionFlow
