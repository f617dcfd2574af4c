import ActionFlow.Proofs.World.Pacts

/-!
# Runs exclude each other

Runs of expressions share one barrier. From the moment at which a run gets the barrier at its first
outermost `wait` until it gives the barrier back, which is the last thing it does, no other run has it.

That the scheduler lets one key at a time open the barrier is not enough for this: whoever gives back
the key of somebody else lets the next one in too early. What is to be shown is that nobody can. A
program leaves alone the keys that it did not get, and because no key is ever put aside, nobody gets to
know a key but who has taken the barrier with it.

## Main results

* `Reached.spares`: nobody gives back a key that he did not get, if the hosts and the jobs are honest.
* `runs_exclude_each_other`: what a run does while it has the barrier is not interleaved with what
  another one does while it has it.
-/

namespace ActionFlow

/-- A job that is the run of an expression on its own. -/
def IsRun (job : Job) : Prop :=
  ∃ source mode expression items, job = (Expr.run source mode expression items).run

theorem IsRun.honest {job : Job} (h : IsRun job) : job.Honest fun _ => False := by
  obtain ⟨source, mode, expression, items, rfl⟩ := h
  exact Expr.honest_run source mode expression items

namespace World

/-- Whether a task has got the barrier with a key and has not given the key back. -/
def Holds (trace : List Deed) (t : TaskId) (key : PauseId) : Prop :=
  .took t key ∈ trace ∧ .did t (.release key) ∉ trace

section Reached

variable {hosts : Host → Prop} {jobs : Job → Prop} {world : World} {trace : List Deed}

/-- **Keys stay where they are.** If the hosts and the jobs are honest, nobody ever puts a key aside, and
nobody but who has taken the barrier with a key gives that key back. -/
theorem Reached.spares (reached : Reached hosts jobs world trace)
    (hosts_honest : ∀ host, hosts host → host.Honest)
    (jobs_honest : ∀ job, jobs job → job.Honest fun _ => False) :
    world.Honours .keepsNone (fun _ => False) ∧
      (∀ key, world.Honours (.spares key) fun t => .took t key ∈ trace) ∧
      ∀ t key, .did t (.release key) ∈ trace → .took t key ∈ trace := by
  induction reached with
  | begin explorer none limit clock opened =>
    have begun : ∀ pact excepted,
        Honours { explorer, scheduler := { limit, clock, opened } } pact excepted := fun _ _ =>
      honours_begin (fun {hold _} put => nomatch (none hold).symm.trans put) limit clock opened _
    exact ⟨begun _ _, fun key => begun _ _, nofun⟩
  | @move world after trace deeds reached moves ih =>
    obtain ⟨nothing, spares, released⟩ := ih
    have kept : ∀ t hold key, .did t (.op (.keep hold key)) ∉ deeds := fun t hold key did =>
      nothing.allows moves did id hold key rfl
    refine ⟨?_, fun key => ?_, fun t key did => ?_⟩
    · exact nothing.move reached.sound (fun host allowed call => (hosts_honest host allowed call).keepsNone)
        (fun job allowed => (jobs_honest job allowed).keepsNone)
        ⟨fun _ _ => trivial, fun did => trivial⟩ moves
    · refine ((spares key).except fun t => List.mem_append_left deeds).move reached.sound
        (fun host allowed call => (hosts_honest host allowed call).spares id)
        (fun job allowed => (jobs_honest job allowed).spares id) ⟨?_, fun did => ?_⟩ moves
      · rintro t other took others rfl
        exact others (List.mem_append_right _ took)
      · exact absurd did (kept _ _ _)
    · rcases List.mem_append.mp did with old | new
      · exact List.mem_append_left _ (released t key old)
      · refine Classical.byContradiction fun untaken => ?_
        exact ((spares key).allows moves new fun took => untaken (List.mem_append_left _ took)).1 rfl

/-- Who has the barrier with a key holds it: it is shut for everybody else. -/
theorem Reached.holder_of_holds (reached : Reached Host.Honest IsRun world trace) {t : TaskId}
    {key : PauseId} (holds : Holds trace t key) : world.scheduler.holder = some key := by
  obtain ⟨took, kept⟩ := holds
  obtain ⟨-, keyed, accounted⟩ := reached.sound
  obtain ⟨-, -, took_of_released⟩ := reached.spares (fun _ => id) fun _ => IsRun.honest
  rcases accounted.tookOpens took with opens | ⟨t', released⟩
  · rcases keyed.opening with none | ⟨only, held, keys⟩
    · rw [none] at opens
      cases opens
    · rw [keys, List.mem_singleton] at opens
      rw [opens, held]
  · have same := accounted.tookOne (took_of_released _ _ released) took
    exact absurd (same ▸ released) kept

/-- No two keys are held at a time. -/
theorem Reached.holds_unique (reached : Reached Host.Honest IsRun world trace) {t t' : TaskId}
    {key key' : PauseId} (holds : Holds trace t key) (holds' : Holds trace t' key') :
    t = t' ∧ key = key' := by
  have same := (reached.holder_of_holds holds).symm.trans (reached.holder_of_holds holds')
  cases same
  exact ⟨reached.sound.accounted.tookOne holds.1 holds'.1, rfl⟩

/-- What a task does is the first thing that a move adds to the trace. -/
theorem Move.did_notMem_tail {after : World} {deeds : List Deed}
    (moves : Move hosts jobs world deeds after) (t : TaskId) (effect : Effect) :
    .did t effect ∉ deeds.tail := by
  cases moves with
  | step =>
    unfold World.deeds
    split
    next => exact Scheduler.did_notMem_deedsOfAwait _ _ _ _ _
    next => exact List.not_mem_nil
    next => exact List.not_mem_nil
    next =>
      split
      · exact fun member => Scheduler.did_notMem_deedsOfTurn _ _ _ _ (List.mem_of_mem_tail member)
      · exact List.not_mem_nil
  | spawn | explore | setGate | cancel | setClock | reorder => exact List.not_mem_nil

/-- Before anything that a task does there was a reached world. -/
theorem Reached.before_did (reached : Reached hosts jobs world trace) {before behind : List Deed}
    {t : TaskId} {effect : Effect} (same : trace = before ++ .did t effect :: behind) :
    ∃ earlier, Reached hosts jobs earlier before := by
  induction reached generalizing behind with
  | begin => simp at same
  | @move world after trace deeds reached moves ih =>
    rcases List.append_eq_append_iff.mp same with ⟨more, old, new⟩ | ⟨more, old, new⟩
    · cases more with
      | nil => exact ⟨world, by rwa [old, List.append_nil]⟩
      | cons first rest =>
        refine absurd ?_ (moves.did_notMem_tail t effect)
        rw [new]
        exact List.mem_append_right _ (List.mem_cons_self ..)
    · cases more with
      | nil => exact ⟨world, by rwa [old, List.append_nil] at reached⟩
      | cons first rest =>
        cases new
        exact ih old

/-- **Runs exclude each other.** Tasks run expressions on their own, under hosts that may do anything but
give back or put aside a key that is not theirs, and the steps, the openings of gates, the passing of
time and the cancellations come in any order. Then every run gives the barrier back as the last thing
it does; no two runs have the barrier at a time; and nothing that a run does while it has the barrier
lies between two things that another run does while it has it. -/
theorem runs_exclude_each_other (reached : Reached Host.Honest IsRun world trace) :
    (∀ source mode expression items,
      Program.Scoped (Expr.run source mode expression items).run none) ∧
    (∀ t t' key key', Holds trace t key → Holds trace t' key' → t = t' ∧ key = key') ∧
    ∀ before between beyond behind t t' key key' first middle last,
      trace = before ++ .did t first :: (between ++ .did t' middle :: (beyond ++ .did t last :: behind)) →
      Holds before t key → Holds (before ++ .did t first :: between) t' key' →
      Holds (before ++ .did t first :: (between ++ .did t' middle :: beyond)) t key →
      t = t' ∧ key = key' := by
  refine ⟨Expr.scoped_run, fun t t' key key' => reached.holds_unique, ?_⟩
  intro before between beyond behind t t' key key' first middle last same holds holds' still
  -- The run that goes on later has not given its key back by the time of the other one's deed.
  have meanwhile : Holds (before ++ .did t first :: between) t key := by
    refine ⟨List.mem_append_left _ holds.1, fun released => still.2 ?_⟩
    rw [List.append_cons, ← List.append_assoc, ← List.append_cons]
    exact List.mem_append_left _ released
  have split : trace = (before ++ .did t first :: between) ++
      .did t' middle :: (beyond ++ .did t last :: behind) := by
    rw [same, List.append_assoc, List.cons_append]
  obtain ⟨earlier, reached⟩ := reached.before_did split
  exact reached.holds_unique meanwhile holds'

end Reached

/-- Two runs have been started, and the first has got the barrier. -/
def entered : World × List Deed :=
  let marked := Expr.runElements "files" .normal true [.leaf { name := "wait" }] (.many [])
  let first := (({} : World).spawn "first" marked.run).1
  steps silence 2 ((first.spawn "second" marked.run).1, [])

theorem reached_entered : Reached Host.Honest IsRun entered.1 entered.2 := by
  have run : IsRun (Expr.runElements "files" .normal true [.leaf { name := "wait" }] (.many [])).run :=
    ⟨"files", .normal, .seq [.leaf { name := "wait" }], .many [], by rw [Expr.run_seq _ _ _ rfl]⟩
  have begun : Reached Host.Honest IsRun {} [] := .begin {} (fun _ => rfl) none .zero fun _ => false
  have first := begun.outside (.spawn "first" run)
  have second := first.outside (.spawn "second" run)
  exact second.steps (honest_scriptedHost _) 2

/-- The run that has got the barrier is the only one that has it. -/
theorem only_first_entered :
    Reached Host.Honest IsRun entered.1 entered.2 ∧ Holds entered.2 0 1 ∧
      ∀ t key, Holds entered.2 t key → t = 0 ∧ key = 1 := by
  have holds : Holds entered.2 0 1 := by
    have trace : entered.2 = [.did 0 (.await .barrier), .took 0 1] := rfl
    rw [trace]
    simp [Holds]
  obtain ⟨-, unique, -⟩ := runs_exclude_each_other reached_entered
  exact ⟨reached_entered, holds, fun t key other => unique t 0 key 1 other holds⟩

end World
end ActionFlow
