import ActionFlow.Proofs.Scheduler.GoingOn
import ActionFlow.Proofs.World.Alert
import ActionFlow.Proofs.World.Pacts

/-!
# What a task faces

Whether it is a task's turn or it rests, there is one thing that it does next, and it does that however
many moves of others come first. Nothing is skipped and nothing is done twice.

## Main results

* `Faces`: what a task has still to do, whether it is its turn or not.
* `Faces.own`: a task does nothing but what it faces.
* `Faces.move`: in every move a task still faces its next effect, or has it answered and goes on.
-/

namespace ActionFlow

namespace Scheduler

variable {κ : Type} {s s' : Scheduler κ} {t : TaskId} {hand hand' : Hand} {trace deeds : List Deed}
  {requests : List (TaskId × PauseId)}

theorem rest?_of_running (running : s.status? t = some .running) : s.rest? t = none := by
  obtain ⟨task, ht, status⟩ := task_of_status running
  rw [rest?_of_task ht, Task.rest?, status]
  cases task.role <;> rfl

/-- Nobody is known by the number that the next task gets. -/
theorem Orderly.rest?_size (h : s.Orderly hand) : s.rest? s.size = none := by
  cases ht : s.task s.size with
  | none => simp only [rest?, ht, Option.bind_none]
  | some task => exact absurd (h.known (status_of_task ht)) (Nat.lt_irrefl _)

/-- What the task does whose turn it is does not concern the others. -/
theorem aside_shift (sound : s.Sound (some (t, none)) trace)
    (shifts : Shift s (some (t, none)) requests deeds s' hand') : Aside s s' t := by
  cases shifts with
  | stay => exact aside_self s t
  | setGate _ gate opened => exact (unmoved_setGate s gate opened).aside t
  | cancel _ other => exact (unmoved_cancel s other).aside t
  | release _ key => exact (unmoved_release s key).aside t
  | await _ pause next =>
    exact (aside_setResume s t next).trans (aside_await (sound.setResume next).orderly.rest?_size t pause)
  | finish _ ending => exact aside_finish s t ending

end Scheduler

namespace World

variable {hosts : Host → Prop} {jobs : Job → Prop} {world after : World} {trace deeds : List Deed}
  {t : TaskId} {job : Job}

/-- What a task has still to do: it is its turn, or it rests and goes on with the answer to its pause. -/
inductive Faces (world : World) (t : TaskId) : Job → Prop where
  | turn {job : Job} (current : world.current = some (t, job)) : Faces world t job
  | pause {pause : Pause} {more : Except Failure PauseId → Job}
      (rests : world.scheduler.rest? t = some (more, decide (pause = .barrier))) :
      Faces world t (.act (.await pause) more)

/-- What becomes in a move of a task that faces an effect. -/
inductive Proceeds (hosts : Host → Prop) (world : World) (t : TaskId) (deeds : List Deed)
    (after : World) : (effect : Effect) → (effect.Reply → Job) → Prop where
  /-- It still faces it, and has done no more than to ask for a pause. -/
  | waits {effect : Effect} {more : effect.Reply → Job} (faces : after.Faces t (.act effect more))
      (asked : ∀ own, .did t own ∈ deeds → ∃ pause, own = .await pause) :
      Proceeds hosts world t deeds after effect more
  /-- It goes on with an answer, with a key only if it was granted that key or the key was put aside. -/
  | answered {effect : Effect} {more : effect.Reply → Job} (reply : effect.Reply)
      (other : ∀ key, effect ≠ .release key) (goesOn : after.current = some (t, more reply))
      (told : ∀ key, effect.Teaches reply key → .took t key ∈ deeds ∨
        ∃ hold, effect = .op (.keyOf hold) ∧ world.explorer.keys hold = some key) :
      Proceeds hosts world t deeds after effect more
  /-- What it calls goes on. -/
  | called {call : Call} {more : Except Failure call.Result → Job} {host : Host} (allowed : hosts host)
      (goesOn : after.current = some (t, (host call).run.bind more)) :
      Proceeds hosts world t deeds after (.call call) more
  /-- It has given a key back. -/
  | gave {key : PauseId} {more : Except Failure Unit → Job} (only : deeds = [.did t (.release key)])
      (released : after.scheduler = (world.scheduler.release key).1)
      (goesOn : after.current = some (t, more (world.release (some t) key).2)) :
      Proceeds hosts world t deeds after (.release key) more

theorem Faces.frame (faces : world.Faces t job) (current : after.current = world.current)
    (rests : ∀ rest, world.scheduler.rest? t = some rest → after.scheduler.rest? t = some rest) :
    after.Faces t job := by
  cases faces with
  | turn own => exact .turn (current.trans own)
  | pause own => exact .pause (rests _ own)

theorem Faces.unmoved (faces : world.Faces t job) (current : after.current = world.current)
    (unmoved : Scheduler.Unmoved world.scheduler after.scheduler) : after.Faces t job :=
  faces.frame current fun _ => (unmoved t).trans

/-- Whose turn it is faces what he is about to do. -/
theorem Faces.job_eq (faces : world.Faces t job) (sound : world.Sound trace) {own : Job}
    (current : world.current = some (t, own)) : own = job := by
  cases faces with
  | turn current' =>
    cases current.symm.trans current'
    rfl
  | pause rests =>
    have none := Scheduler.rest?_of_running (sound.running current)
    cases none.symm.trans rests

/-- **A task does nothing but what it faces.** -/
theorem Faces.own (faces : world.Faces t job) (sound : world.Sound trace)
    (moves : Move hosts jobs world deeds after) {effect : Effect} (did : .did t effect ∈ deeds) :
    ∃ more, job = .act effect more := by
  obtain ⟨more, current⟩ := moves.current_of_did did
  exact ⟨more, (faces.job_eq sound current).symm⟩

/-- Who rests while it is somebody else's turn still rests. -/
theorem Faces.aside (faces : world.Faces t job) (sound : world.Sound trace) {host : Host}
    {other : TaskId} {own : Job} (current : world.current = some (other, own)) (different : t ≠ other)
    (steps : world.step host = some after) : after.Faces t job := by
  cases faces with
  | turn mine =>
    cases current.symm.trans mine
    exact absurd rfl different
  | pause rests =>
    have shifts := shift_step steps
    have sound : world.scheduler.Sound world.hand trace := sound
    rw [hand_of_current current] at sound shifts
    exact .pause ((Scheduler.aside_shift sound shifts t different).trans rests)

/-- That another task is started leaves a task with what it has to do. -/
theorem Faces.spawn (faces : world.Faces t job) (sound : world.Sound trace) (name : String) (other : Job) :
    (world.spawn name other).1.Faces t job := by
  refine faces.frame rfl fun rest rests => ?_
  have known : t ≠ world.scheduler.size := by
    rintro rfl
    cases sound.orderly.rest?_size.symm.trans rests
  exact (Scheduler.aside_spawn world.scheduler _ t known).trans rests

/-- A task performs the effect that it faces. -/
theorem proceeds_perform {host : Host} (allowed : hosts host) (sound : world.Sound trace)
    {effect : Effect} {more : effect.Reply → Job} (current : world.current = some (t, .act effect more)) :
    Proceeds hosts world t world.deeds (world.perform host t effect more) effect more := by
  have running := sound.running current
  cases effect with
  | op op =>
    refine .answered _ (fun _ same => by cases same) rfl fun key taught => .inr ?_
    cases op with
    | keyOf hold => exact ⟨hold, rfl, taught⟩
    | _ => cases taught
  | call call => exact .called allowed rfl
  | setGate | cancel => exact .answered () (fun _ same => by cases same) rfl fun _ taught => by cases taught
  | release key =>
    exact .gave (by simp only [deeds, current]) (scheduler_release world (some t) key) rfl
  | await pause =>
    have deeds : world.deeds = .did t (.await pause) ::
        Scheduler.deedsOfAwait t pause ((world.scheduler.setResume t more).await t pause).2 := by
      simp only [World.deeds, current]
    obtain ⟨task, ht, -⟩ := Scheduler.task_of_status running
    have size : (world.scheduler.setResume t more).size = world.scheduler.size := by
      unfold Scheduler.setResume
      split <;> rfl
    have older : t ≠ (world.scheduler.setResume t more).size :=
      size ▸ Nat.ne_of_lt (sound.orderly.known running)
    have waits : ((world.scheduler.setResume t more).await t pause).2 = none →
        ((world.scheduler.setResume t more).await t pause).1.rest? t =
          some (more, decide (pause = .barrier)) :=
      Scheduler.rest?_await_self (Scheduler.resume?_setResume_self ht more) older
    simp only [World.perform]
    generalize (world.scheduler.setResume t more).await t pause = result at deeds waits ⊢
    obtain ⟨scheduler, answer⟩ := result
    cases answer with
    | none =>
      refine .waits (.pause (waits rfl)) fun own did => ⟨pause, ?_⟩
      rw [deeds] at did
      rcases List.mem_cons.mp did with same | member
      · cases same
        rfl
      · exact absurd member (Scheduler.did_notMem_deedsOfAwait _ _ _ _ _)
    | some answer =>
      refine .answered answer (fun _ same => by cases same) ?_ fun key taught => .inl ?_
      · cases pause <;> cases answer <;> rfl
      · cases pause with
        | barrier =>
          have taught : answer = .ok key := taught
          rw [deeds, taught]
          exact List.mem_cons_of_mem _ (List.mem_singleton_self _)
        | gate | sleep => cases taught

theorem scheduler_takeTurn (world : World) (turn : Turn) :
    (world.takeTurn turn).scheduler = (world.scheduler.takeTurn turn).1 := by
  unfold World.takeTurn
  split
  next same => rw [same]
  next same =>
    rw [same]
    simp only
    split <;> rfl

/-- A task that rests comes through a turn. -/
theorem proceeds_turn (before now : World) {pause : Pause} {more : Except Failure PauseId → Job}
    {turn : Turn} (rests : now.scheduler.rest? t = some (more, decide (pause = .barrier))) :
    Proceeds hosts before t (now.scheduler.deedsOfTurn turn) (now.takeTurn turn) (.await pause)
      more := by
  rcases Scheduler.rest?_takeTurn rests turn with stays | ⟨handover, went, rfl, granted⟩
  · refine .waits (.pause (Eq.trans ?_ stays)) fun _ did =>
      absurd did (Scheduler.did_notMem_deedsOfTurn _ _ _ _)
    rw [scheduler_takeTurn]
  · obtain ⟨rfl, -⟩ := Scheduler.rest?_of_takeTurn went
    refine .answered handover.answer nofun ?_ fun key taught => .inl ?_
    · unfold World.takeTurn
      split
      next same => simp [same] at went
      next same =>
        rw [same] at went
        cases went
        rfl
    · cases pause with
      | barrier => exact Scheduler.took_mem_deedsOfTurn went (granted key rfl taught)
      | gate | sleep => cases taught

/-- **One effect after the other.** In every move a task still faces its next effect, or has it answered
and goes on with the answer. -/
theorem Faces.move {effect : Effect} {more : effect.Reply → Job}
    (faces : world.Faces t (.act effect more)) (sound : world.Sound trace)
    (moves : Move hosts jobs world deeds after) : Proceeds hosts world t deeds after effect more := by
  have nothing : ∀ own, Deed.did t own ∈ [] → ∃ pause, own = Effect.await pause := fun _ did =>
    absurd did List.not_mem_nil
  have mine := fun own (did : .did t own ∈ deeds) => moves.current_of_did did
  cases moves with
  | @step host _ _ allowed steps =>
    cases current : world.current with
    | some hand =>
      obtain ⟨other, own⟩ := hand
      by_cases same : t = other
      · subst same
        cases faces.job_eq sound current
        simp only [World.step, current, Option.some.injEq] at steps
        exact steps ▸ proceeds_perform allowed sound current
      · refine .waits (faces.aside sound current same steps) fun own did => ?_
        obtain ⟨_, turn⟩ := mine own did
        cases current.symm.trans turn
        exact absurd rfl same
    | none =>
      cases faces with
      | turn own => cases current.symm.trans own
      | pause rests =>
        simp only [World.step, current] at steps
        obtain ⟨⟨turn, scheduler⟩, next, rfl⟩ := Option.map_eq_some_iff.mp steps
        have deeds : world.deeds = scheduler.deedsOfTurn turn := by
          simp only [World.deeds, current, next]
        have dealt := Scheduler.unmoved_nextTurn next t
        rw [deeds]
        exact proceeds_turn world ⟨_, scheduler, _, none⟩ (dealt.trans rests)
  | spawn name allowed => exact .waits (faces.spawn sound name _) nothing
  | explore | setClock | reorder => exact .waits (faces.unmoved rfl fun _ => rfl) nothing
  | setGate gate opened =>
    exact .waits (faces.unmoved rfl (Scheduler.unmoved_setGate _ gate opened)) nothing
  | cancel other => exact .waits (faces.unmoved rfl (Scheduler.unmoved_cancel _ other)) nothing

end World
end ActionFlow
