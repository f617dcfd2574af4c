import ActionFlow.Proofs.World.Pacts

/-!
# Keys that are safe

If nobody gives back or puts aside a key that he was not told, then a key that a task was granted is safe
with that task: nobody else comes to know it, and so nobody else can give it back. The barrier is held
with that key until the task gives it back itself.

## Main results

* `Program.Faithful`, `Host.Faithful`: giving back and putting aside only keys that one was told; runs and
  scripted hosts are so.
* `Secured`: a key that is safe with a task; `Secured.start`, `Secured.move`: how it becomes safe and
  stays so.
* `Secured.holder`: the barrier is held with it.
-/

namespace ActionFlow

/-- A program that gives back and puts aside only keys that it was told. -/
def Program.Faithful {α : Type} (program : Program α) : Prop := ∀ key, program.Honours (.spares key)

/-- A host under which callbacks, rules, views and loaders give back and put aside only keys that they
were told. -/
def Host.Faithful (host : Host) : Prop := ∀ key, host.Honours (.spares key)

theorem Expr.faithful_run (source : String) (mode : Mode) (expression : Expr) (items : Supply) :
    (Expr.run source mode expression items).run.Faithful := fun key =>
  have opens := allowsScripts_spares key
  honours_run (opens.plain.of source) opens.barrier mode expression items

/-- Scripted hosts are faithful, whatever the scripts say. -/
theorem faithful_scriptedHost (views : String → View) : (scriptedHost views).Faithful := fun key =>
  honours_scriptedHost (allowsScripts_spares key) views

namespace World

variable {world after : World} {trace deeds : List Deed} {t : TaskId} {key : PauseId}

/-- Nobody gives back or puts aside a key before somebody was granted it. -/
theorem Reached.spares_untaken (reached : Reached Host.Faithful Program.Faithful world trace) :
    (∀ key, (∀ t, .took t key ∉ trace) → world.Honours (.spares key) fun _ => False) ∧
      ∀ t key, .did t (.release key) ∈ trace → ∃ t', .took t' key ∈ trace := by
  induction reached with
  | begin explorer none limit clock opened =>
    refine ⟨fun key _ => honours_begin (fun {hold _} put => ?_) limit clock opened _, nofun⟩
    cases (none hold).symm.trans put
  | @move world after trace deeds reached moves ih =>
    obtain ⟨spares, released⟩ := ih
    refine ⟨fun key untaken => ?_, fun t key did => ?_⟩
    · have spared := spares key fun t told => untaken t (List.mem_append_left _ told)
      refine spared.move reached.sound (fun _ faithful => faithful key) (fun _ faithful => faithful key)
        ⟨?_, ?_⟩ moves
      · rintro t other took - rfl
        exact untaken t (List.mem_append_right _ took)
      · rintro t hold other did rfl
        exact (spared.allows moves did id).2 hold rfl
    · rcases List.mem_append.mp did with old | new
      · obtain ⟨taker, took⟩ := released t key old
        exact ⟨taker, List.mem_append_left _ took⟩
      · refine Classical.byContradiction fun untaken => ?_
        have spared := spares key fun t' told => untaken ⟨t', List.mem_append_left _ told⟩
        exact (spared.allows moves new id).1 rfl

/-- A task was granted a key, nobody has given it back, and nobody but that task could. -/
structure Secured (world : World) (trace : List Deed) (t : TaskId) (key : PauseId) : Prop where
  took : .took t key ∈ trace
  kept : ∀ other, .did other (.release key) ∉ trace
  spared : world.Honours (.spares key) (· = t)

namespace Secured

/-- A key that is granted is safe. -/
theorem start (reached : Reached Host.Faithful Program.Faithful world trace)
    (moves : Move Host.Faithful Program.Faithful world deeds after)
    (took : .took t key ∈ deeds) : after.Secured (trace ++ deeds) t key := by
  obtain ⟨spares, released⟩ := reached.spares_untaken
  obtain ⟨⟨untaken, -⟩, -⟩ := moves.untold_of_took reached.sound took
  have spared := spares key untaken
  refine ⟨List.mem_append_right _ took, fun other did => ?_, ?_⟩
  · rcases List.mem_append.mp did with old | new
    · obtain ⟨taker, told⟩ := released other key old
      exact untaken taker told
    · exact (spared.allows moves new id).1 rfl
  · refine (spared.except fun _ => False.elim).move reached.sound
      (fun _ faithful => faithful key) (fun _ faithful => faithful key) ⟨?_, ?_⟩ moves
    · rintro other own taken others rfl
      have sound := reached.sound.move moves
      exact others (sound.accounted.tookOne (List.mem_append_right _ taken) (List.mem_append_right _ took))
    · rintro other hold own did rfl
      exact (spared.allows moves did id).2 hold rfl

/-- A key that is safe stays so, as long as its task leaves it alone. -/
theorem move (h : world.Secured trace t key) (sound : world.Sound trace)
    (moves : Move Host.Faithful Program.Faithful world deeds after)
    (own : ∀ effect, .did t effect ∈ deeds → (Pact.spares key).allows effect) :
    after.Secured (trace ++ deeds) t key := by
  have everybody : ∀ other effect, .did other effect ∈ deeds → (Pact.spares key).allows effect := by
    intro other effect did
    by_cases mine : other = t
    · exact own effect (mine ▸ did)
    · exact h.spared.allows moves did mine
  refine ⟨List.mem_append_left _ h.took, fun other did => ?_, ?_⟩
  · rcases List.mem_append.mp did with old | new
    · exact h.kept other old
    · exact (everybody other _ new).1 rfl
  · refine h.spared.move sound (fun _ faithful => faithful key) (fun _ faithful => faithful key) ⟨?_, ?_⟩
      moves
    · rintro other own taken - rfl
      exact (moves.untold_of_took sound taken).1.1 t h.took
    · rintro other hold own did rfl
      exact (everybody other _ did).2 hold rfl

/-- The barrier is held with a key that is safe. -/
theorem opens (h : world.Secured trace t key) (sound : world.Sound trace) :
    key ∈ world.scheduler.keys := by
  rcases sound.accounted.tookOpens h.took with opens | ⟨other, released⟩
  · exact opens
  · exact absurd released (h.kept other)

theorem holder (h : world.Secured trace t key) (sound : world.Sound trace) :
    world.scheduler.holder = some key :=
  sound.keyed.holder_of_mem (h.opens sound)

end Secured

end World
end ActionFlow
