import ActionFlow.Proofs.Scheduler.Attended
import ActionFlow.Proofs.World.Reached

/-!
# No wake-up is lost

What a step of a world makes of its scheduler does not depend on what the tasks do apart from the effect
that is performed. So what the scheduler keeps to in a step is what every reached world keeps to.

## Main results

* `Shift`: what a step may make of a scheduler; `shift_step`: a step of a world does nothing else to it.
* `Reached.alert`: in all reached worlds nobody sleeps through.
-/

namespace ActionFlow
namespace Scheduler

variable {κ : Type} {s s' : Scheduler κ} {hand hand' : Hand} {t : TaskId} {trace deeds : List Deed}
  {requests : List (TaskId × PauseId)}

/-! ## Steps of a scheduler -/

/-- What a step makes of a scheduler: whose turn it was and is, which requests for the barrier it makes,
and what it adds to the trace. -/
inductive Shift (s : Scheduler κ) :
    Hand → List (TaskId × PauseId) → List Deed → Scheduler κ → Hand → Prop where
  /-- The task whose turn it is does what is no concern of the scheduler. -/
  | stay (t : TaskId) (effect : Effect) : Shift s (some (t, none)) [] [.did t effect] s (some (t, none))
  | setGate (t : TaskId) (gate : String) (opened : Bool) :
      Shift s (some (t, none)) [] [.did t (.setGate gate opened)] (s.setGate gate opened)
        (some (t, none))
  | cancel (t other : TaskId) (name : String) :
      Shift s (some (t, none)) [] [.did t (.cancel name)] (s.cancel other) (some (t, none))
  | release (t : TaskId) (key : PauseId) :
      Shift s (some (t, none)) [] [.did t (.release key)] (s.release key).1 (some (t, none))
  | await (t : TaskId) (pause : Pause) (next : Except Failure PauseId → κ) :
      Shift s (some (t, none)) ((s.requested pause).map fun key => (t, key))
        (.did t (.await pause) :: deedsOfAwait t pause ((s.setResume t next).await t pause).2)
        ((s.setResume t next).await t pause).1 (handOfAwait t ((s.setResume t next).await t pause).2)
  | finish (t : TaskId) (ending : Except Failure Unit) :
      Shift s (some (t, none)) [] [] (s.finish t ending) none
  | turn {dealt : Scheduler κ} {turn : Turn} (next : s.nextTurn? = some (turn, dealt)) :
      Shift s none [] (dealt.deedsOfTurn turn) (dealt.takeTurn turn).1 (handOfTurn (dealt.takeTurn turn).2)

theorem status?_setResume (s : Scheduler κ) (t other : TaskId) (resume : Except Failure PauseId → κ) :
    (s.setResume t resume).status? other = s.status? other := by
  unfold setResume
  split
  next task ht =>
    rw [status?_setTask]
    split
    next same => rw [same, status_of_task ht]
    next => rfl
  next => rfl

/-- Nobody sleeps through. -/
structure Alert (s : Scheduler κ) (hand : Hand) : Prop where
  wakeful : s.Wakeful (hand.map (·.1)) []
  attended : s.Attended

namespace Alert

theorem setGate (h : s.Alert hand) (gate : String) (opened : Bool) : (s.setGate gate opened).Alert hand :=
  ⟨h.wakeful.setGate gate opened, h.attended.setGate gate opened⟩

theorem cancel (h : s.Alert hand) (t : TaskId) : (s.cancel t).Alert hand :=
  ⟨h.wakeful.cancel t, h.attended.cancel t⟩

theorem spawn (h : s.Alert hand) (sound : s.Sound hand trace) (role : Role κ) :
    (s.spawn role).1.Alert hand := by
  refine ⟨h.wakeful.spawn role, h.attended.spawn (fun member => ?_) role⟩
  obtain ⟨wait, waits⟩ := sound.orderly.waits_of_line member
  exact Nat.lt_irrefl _ (sound.orderly.known waits)

/-- **Every step** keeps everybody alert. -/
theorem shift (h : s.Alert hand) (sound : s.Sound hand trace)
    (shifts : Shift s hand requests deeds s' hand') : s'.Alert hand' := by
  cases shifts with
  | stay => exact h
  | setGate t gate opened => exact h.setGate gate opened
  | cancel t other => exact h.cancel other
  | release t key => exact ⟨h.wakeful.release key, h.attended.release sound key⟩
  | await t pause next =>
    have status := fun other => status?_setResume s t other next
    have sound := sound.setResume next
    have wakeful : (s.setResume t next).Wakeful (some t) [] :=
      h.wakeful.frame status fun turn => by
        unfold setResume
        split <;> exact id
    have attended : (s.setResume t next).Attended :=
      h.attended.of_latch (latch_setResume s t next) fun other _ ready => by
        unfold Ready
        rwa [status]
    refine ⟨?_, attended.await sound pause⟩
    have awaited := wakeful.await sound pause
    cases answer : ((s.setResume t next).await t pause).2 <;> rw [answer] at awaited <;> exact awaited
  | finish t ending =>
    have running := sound.orderly.inHand rfl
    exact ⟨h.wakeful.finish sound.followed running ending,
      h.attended.finish (sound.orderly.notMem_line running nofun) ending⟩
  | @turn dealt turn next =>
    obtain ⟨sound, -⟩ := sound.nextTurn next
    refine ⟨?_, (h.attended.nextTurn next).takeTurn sound turn⟩
    have taken := (h.wakeful.nextTurn next).takeTurn sound
    cases went : (dealt.takeTurn turn).2 <;> rw [went] at taken <;> exact taken

end Alert
end Scheduler

namespace World

open Scheduler (Shift)

variable {world after : World}

/-- The requests for the barrier that a step makes: by whom, and with which key. -/
def requests (world : World) : List (TaskId × PauseId) :=
  match world.current with
  | some (t, .act (.await pause) _) => (world.scheduler.requested pause).map fun key => (t, key)
  | _ => []

/-- **A step of a world** makes of the scheduler what a scheduler's step may make of it. -/
theorem shift_step {host : Host} (steps : world.step host = some after) :
    Shift world.scheduler world.hand world.requests world.deeds after.scheduler after.hand := by
  unfold World.step at steps
  split at steps
  next t effect next current =>
    cases steps
    cases effect with
    | op | call =>
      simp only [hand, requests, deeds, current, perform, continueWith, Option.map_some]
      exact .stay t _
    | setGate gate opened =>
      simp only [hand, requests, deeds, current, perform, continueWith, Option.map_some]
      exact .setGate t gate opened
    | cancel name =>
      simp only [hand, requests, deeds, current, perform, continueWith, Option.map_some]
      unfold World.cancel
      split
      · exact .cancel t _ name
      · exact .stay t _
    | release key =>
      simp only [hand, requests, deeds, current, perform, continueWith, Option.map_some,
        scheduler_release]
      exact .release t key
    | await pause =>
      have awaits := Shift.await (s := world.scheduler) t pause next
      simp only [hand, requests, deeds, current, perform, Option.map_some]
      generalize (world.scheduler.setResume t next).await t pause = result at awaits ⊢
      obtain ⟨scheduler, answer⟩ := result
      cases answer with
      | none => exact awaits
      | some answer => cases pause <;> cases answer <;> exact awaits
  next t ending current =>
    cases steps
    simp only [hand, requests, deeds, current, Option.map_some]
    exact .finish t ending
  next idle =>
    obtain ⟨⟨turn, dealt⟩, next, rfl⟩ := Option.map_eq_some_iff.mp steps
    have turns := Shift.turn next
    simp only [hand, requests, deeds, idle, next, World.takeTurn, Option.map_none]
    generalize dealt.takeTurn turn = result at turns ⊢
    obtain ⟨scheduler, taken⟩ := result
    cases taken with
    | none =>
      simp only [Option.map_none]
      exact turns
    | some taken =>
      obtain ⟨t, resume, answer, granted⟩ := taken
      cases granted <;> exact turns

/-! ## Every world -/

variable {hosts : Host → Prop} {jobs : Job → Prop} {trace deeds : List Deed}

/-- Every move keeps everybody alert. -/
theorem alert_move (h : world.scheduler.Alert world.hand) (sound : world.Sound trace)
    (moves : Move hosts jobs world deeds after) : after.scheduler.Alert after.hand := by
  cases moves with
  | step allowed steps => exact h.shift sound (shift_step steps)
  | spawn name allowed => exact h.spawn sound _
  | explore same => exact h
  | setGate gate opened => exact h.setGate gate opened
  | cancel t => exact h.cancel t
  | setClock time =>
    exact ⟨h.wakeful.frame (fun _ => rfl) fun _ => id, h.attended.of_latch rfl fun _ _ => id⟩
  | reorder same =>
    refine ⟨h.wakeful.frame (fun _ => rfl) fun turn queued => ?_, h.attended.of_latch rfl fun _ _ => id⟩
    exact same.mem_iff.mpr queued

/-- **In every reached world** nobody sleeps through. -/
theorem Reached.alert (reached : Reached hosts jobs world trace) :
    world.scheduler.Alert world.hand := by
  induction reached with
  | begin explorer none limit clock opened =>
    refine ⟨⟨?_, ?_, ?_⟩, fun _ t first => ?_⟩
    all_goals simp_all [Scheduler.Ready, Scheduler.status?]
  | move reached moves ih => exact alert_move ih reached.sound moves

end World
end ActionFlow
