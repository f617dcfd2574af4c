import Mathlib.Data.List.Induction
import ActionFlow.Proofs.Running.Invoking
import ActionFlow.Proofs.World.Facing

/-!
# Where gathering comes from

Where hosts and jobs gather nothing but by invoking, whatever is gathered goes back to an invocation: its task
was about to invoke something, looked the name up, and gathers for the action that it found, with the items
that it was to invoke with. In between nobody does anything, for an invocation does not pause before its
merge; from outside anything may be done, be it that the selection is changed.

## Main results

* `Move.of_current`, `Move.of_done`, `Move.of_idle`, `Move.rest_cases`: whose turn it is after a move, and what the
  others rest with then.
* `ComesToMerge`: an invocation from its beginning up to its merge.
* `Path.underway`: what comes of whoever begins to invoke.
* `Path.attributed`: what is gathered is gathered for an invocation that was begun.
-/

namespace ActionFlow
namespace World

variable {hosts : Host → Prop} {jobs : Job → Prop} {world after : World} {trace deeds : List Deed}
  {t : TaskId} {job : Job} {path : List (List Deed × World)}

/-! ## What becomes of a task in a move -/

/-- Whose turn it is stays what it is, or what happens is what he does. -/
theorem Move.of_current (moves : Move hosts jobs world deeds after) {effect : Effect}
    {more : effect.Reply → Job} (current : world.current = some (t, .act effect more)) :
    deeds = [] ∧ after.current = some (t, .act effect more) ∨
      ∃ host, hosts host ∧ deeds = world.deeds ∧ after = world.perform host t effect more := by
  cases moves with
  | spawn | explore | setGate | cancel | setClock | reorder => exact .inl ⟨rfl, current⟩
  | @step host _ _ allowed steps =>
    simp only [World.step, current, Option.some.injEq] at steps
    exact .inr ⟨host, allowed, rfl, steps.symm⟩

/-- Who has performed an effect goes on with an answer, or with what the host does for a call. -/
theorem current_perform {host : Host} {other : TaskId} {effect : Effect} {more : effect.Reply → Job}
    (now : (world.perform host t effect more).current = some (other, job)) :
    other = t ∧ ((∃ reply, job = more reply) ∨
      ∃ call, ∃ same : effect = .call call, job = (host call).run.bind fun answer => more (same ▸ answer)) := by
  cases effect with
  | op | setGate | cancel | release =>
    cases now
    exact ⟨rfl, .inl ⟨_, rfl⟩⟩
  | call call =>
    cases now
    exact ⟨rfl, .inr ⟨call, rfl, rfl⟩⟩
  | await pause =>
    simp only [World.perform] at now
    split at now
    next answer _ =>
      cases now
      exact ⟨rfl, .inl ⟨answer, rfl⟩⟩
    next => cases now

/-- Who is done gives the turn away. -/
theorem Move.of_done (moves : Move hosts jobs world deeds after) {ending : Except Failure Unit}
    (current : world.current = some (t, .done ending)) :
    after.current = none ∨ after.current = some (t, .done ending) := by
  cases moves with
  | spawn | explore | setGate | cancel | setClock | reorder => exact .inr current
  | step allowed steps =>
    simp only [World.step, current, Option.some.injEq] at steps
    exact .inl (steps ▸ rfl)

/-- If it is nobody's turn, then the next turn is that of a task that was resting. -/
theorem Move.of_idle (moves : Move hosts jobs world deeds after) (idle : world.current = none)
    (now : after.current = some (t, job)) :
    ∃ rest answer, world.scheduler.rest? t = some rest ∧ job = rest.1 answer := by
  cases moves with
  | spawn | explore | setGate | cancel | setClock | reorder => cases idle.symm.trans now
  | step allowed steps =>
    simp only [World.step, idle] at steps
    obtain ⟨⟨turn, dealt⟩, next, rfl⟩ := Option.map_eq_some_iff.mp steps
    unfold World.takeTurn at now
    simp only at now
    split at now
    next => cases now
    next scheduler other handover took =>
      have taken : (dealt.takeTurn turn).2 = some (other, handover) := congrArg Prod.snd took
      obtain ⟨rfl, aimed, rests, -⟩ := Scheduler.rest?_of_takeTurn taken
      cases now
      exact ⟨_, handover.answer, (Scheduler.unmoved_nextTurn next).rested _ _ rests, rfl⟩

/-- Who rests after a move has rested before, or has asked for a pause just now, or was started. -/
theorem Move.rest_cases (moves : Move hosts jobs world deeds after) (sound : world.Sound trace)
    {rest : (Except Failure PauseId → Job) × Bool} (rests : after.scheduler.rest? t = some rest) :
    world.scheduler.rest? t = some rest ∨
      (∃ pause, world.current = some (t, .act (.await pause) rest.1)) ∨
      ∃ job, jobs job ∧ ∀ answer, rest.1 answer = job ∨ ∃ ending, rest.1 answer = .done ending := by
  have before : Scheduler.Rested world.scheduler after.scheduler → world.scheduler.rest? t = some rest :=
    fun rested => rested t rest rests
  cases moves with
  | explore | setClock | reorder => exact .inl rests
  | setGate gate opened => exact .inl (before (Scheduler.unmoved_setGate _ gate opened).rested)
  | cancel other => exact .inl (before (Scheduler.unmoved_cancel _ other).rested)
  | spawn name allowed =>
    rcases Scheduler.rest?_spawn rests with rfl | before
    · refine .inr (.inr ⟨_, allowed, fun answer => ?_⟩)
      cases answer with
      | ok => exact .inl rfl
      | error failure => exact .inr ⟨_, rfl⟩
    · exact .inl before
  | step allowed steps =>
    unfold World.step at steps
    split at steps
    next other effect next current =>
      cases steps
      cases effect with
      | op | call => exact .inl rests
      | setGate gate opened => exact .inl (before (Scheduler.unmoved_setGate _ gate opened).rested)
      | cancel name =>
        refine .inl (before ?_)
        simp only [World.perform, continueWith, World.cancel]
        split
        · exact (Scheduler.unmoved_cancel _ _).rested
        · exact Scheduler.rested_self _
      | release key =>
        refine .inl (before ?_)
        have same := scheduler_release world (some other) key
        simp only [World.perform, continueWith, same]
        exact (Scheduler.unmoved_release _ _).rested
      | await pause =>
        have rests : ((world.scheduler.setResume other next).await other pause).1.rest? t = some rest := by
          simp only [World.perform] at rests
          split at rests
          next answer same =>
            rw [same]
            cases pause <;> cases answer <;> exact rests
          next same =>
            rw [same]
            exact rests
        rcases Scheduler.rest?_of_await rests with before | ⟨rfl, resumes, -⟩
        · exact .inl (Scheduler.rested_setResume (sound.running current) next _ _ before)
        · obtain rfl := Scheduler.resume?_setResume _ _ _ resumes
          exact .inr (.inl ⟨pause, current⟩)
    next other ending current =>
      cases steps
      exact .inl (before (Scheduler.rested_finish _ other ending))
    next idle =>
      obtain ⟨⟨turn, dealt⟩, next, rfl⟩ := Option.map_eq_some_iff.mp steps
      refine .inl (before fun other rest rests => ?_)
      refine (Scheduler.unmoved_nextTurn next).rested _ _ (Scheduler.rested_takeTurn dealt turn _ _ ?_)
      rwa [scheduler_takeTurn] at rests

/-! ## Courses -/

/-- A world in which there are no tasks yet, and no key is put aside. -/
inductive Starting : World → Prop where
  | intro (explorer : Explorer) (none : ∀ hold, explorer.keys hold = none) (limit : Option Value)
      (clock : Binary64) (opened : String → Bool) :
      Starting { explorer, scheduler := { limit, clock, opened } }

theorem Starting.reached (starts : Starting world) : Reached hosts jobs world [] := by
  obtain ⟨explorer, none, limit, clock, opened⟩ := starts
  exact .begin explorer none limit clock opened

/-- What is so at the beginning of a course, and kept by every move of it, is so at every point of it. -/
theorem Path.keeps {motive : List (List Deed × World) → Prop} (course : Path hosts jobs world path)
    (begins : motive [])
    (step : ∀ earlier deeds after, Path hosts jobs world earlier →
      Move hosts jobs (final world earlier) deeds after → motive earlier →
      motive (earlier ++ [(deeds, after)])) : motive path := by
  induction path using List.reverseRecOn with
  | nil => exact begins
  | append_singleton earlier last ih =>
    obtain ⟨first, second⟩ := course.split
    cases second with
    | cons moves => exact step earlier _ _ first moves (ih first)

/-- Who is about to perform an operation does that, and before he does so nothing is done by anybody. -/
theorem Path.operates (course : Path hosts jobs world path) {op : Op} {more : op.Reply → Job}
    (current : world.current = some (t, .act (.op op) more)) :
    (told path = [] ∧ (final world path).current = some (t, .act (.op op) more)) ∨
      ∃ idle after later, path = idle ++ ([.did t (.op op)], after) :: later ∧ told idle = [] ∧
        (final world idle).current = some (t, .act (.op op) more) ∧
        after.current = some (t, more ((final world idle).explorer.perform (some t) op).2) := by
  induction course with
  | nil => exact .inl ⟨rfl, current⟩
  | @cons world after deeds path moves rest ih =>
    rcases moves.of_current current with ⟨rfl, stays⟩ | ⟨host, -, told, did⟩
    · refine (ih stays).imp id ?_
      rintro ⟨idle, now, later, rfl, nothing, current, goesOn⟩
      exact ⟨([], after) :: idle, now, later, rfl, nothing, current, goesOn⟩
    · have deeds : world.deeds = [.did t (.op op)] := by simp only [World.deeds, current]
      rw [told, deeds]
      exact .inr ⟨[], after, path, rfl, rfl, current, did ▸ rfl⟩

/-! ## Errands -/

/-- The action that an errand's name means. -/
def means? (world : World) (errand : Errand) : Option Action :=
  (world.explorer.sources errand.source).registry.resolve world.explorer.shared errand.name

/-- An invocation comes to its merge: a task was about to invoke, and in what is done since then it has looked
the name up and found an action, which it is about to call. Nobody has done anything else. -/
structure ComesToMerge (world : World) (between : List (List Deed × World)) (t : TaskId) (errand : Errand)
    (action : Action) (next : Except Failure Unit → Job) : Prop where
  begins : world.current = some (t, errand.program.bind next)
  looksUp : ∃ idle after still,
    between = idle ++ ([.did t (.op (.resolve errand.source errand.name))], after) :: still ∧
      told idle = [] ∧ (final world idle).means? errand = some action ∧ told still = []
  arrives : (final world between).current = some (t, (errand.merging action).bind (errand.closing action next))

variable {errand : Errand} {action : Action} {next : Except Failure Unit → Job}

/-- What comes of an invocation: as long as nothing but the lookup is done by anybody, it is under way; the name
may mean nothing; or it comes to its merge, and the next thing that is done is that it merges the items it was
to invoke with. -/
inductive Underway (world : World) (t : TaskId) (errand : Errand) (next : Except Failure Unit → Job) :
    List (List Deed × World) → Prop where
  | looking {path : List (List Deed × World)} (nothing : told path = []) : Underway world t errand next path
  | unknown {idle later : List (List Deed × World)} {after : World} (nothing : told idle = [])
      (meaningless : (final world idle).means? errand = none) :
      Underway world t errand next
        (idle ++ ([.did t (.op (.resolve errand.source errand.name))], after) :: later)
  | arriving {path : List (List Deed × World)} {action : Action}
      (comes : ComesToMerge world path t errand action next) : Underway world t errand next path
  | merges {between later : List (List Deed × World)} {after : World} {action : Action}
      (comes : ComesToMerge world between t errand action next) :
      Underway world t errand next
        (between ++ ([.did t (.op (.gather errand.source action.options.select errand.items.toList))], after) ::
          later)

/-- What is done from outside does not make it leave. -/
theorem ComesToMerge.stays {between : List (List Deed × World)}
    (comes : ComesToMerge world between t errand action next)
    (stays : after.current = (final world between).current) :
    ComesToMerge world (between ++ [([], after)]) t errand action next where
  begins := comes.begins
  looksUp := by
    obtain ⟨idle, found, still, same, nothing, meaning, idles⟩ := comes.looksUp
    refine ⟨idle, found, still ++ [([], after)], ?_, nothing, meaning, ?_⟩
    · rw [same, List.append_assoc, List.cons_append]
    · rw [told_append, idles]
      rfl
  arrives := by rw [final_snoc, stays, comes.arrives]

/-- **Whoever begins to invoke comes to the merge.** Nobody does anything in between, and what is merged are the
items that he was to invoke with. -/
theorem Path.underway (course : Path hosts jobs world path)
    (current : world.current = some (t, errand.program.bind next)) : Underway world t errand next path := by
  have looking := current
  rw [errand.bind_program] at looking
  rcases course.operates looking with ⟨nothing, -⟩ | ⟨idle, after, later, rfl, nothing, -, found⟩
  · exact .looking nothing
  change after.current = some (t, errand.looked next ((final world idle).means? errand)) at found
  cases meaning : (final world idle).means? errand with
  | none => exact .unknown nothing meaning
  | some action =>
    rw [meaning] at found
    obtain ⟨-, behind⟩ := course.split
    cases behind with
    | cons moves rest =>
    -- from here on the same happens once more, with the merge in place of the lookup
    have arrives : ∀ still, told still = [] →
        (final after still).current = some (t, (errand.merging action).bind (errand.closing action next)) →
        ComesToMerge world (idle ++ ([.did t (.op (.resolve errand.source errand.name))], after) :: still) t
          errand action next := fun still idles now =>
      ⟨current, ⟨idle, after, still, rfl, nothing, meaning, idles⟩, (final_append ..).symm ▸ now⟩
    rcases rest.operates found with ⟨idles, now⟩ | ⟨still, merged, further, rfl, idles, now, -⟩
    · exact .arriving (arrives later idles now)
    · have whole := @Underway.merges _ _ _ _ _ further merged _ (arrives still idles now)
      rwa [List.append_assoc] at whole

/-! ## What is gathered -/

/-- Where hosts and jobs gather nothing but by invoking, so does everybody at a point of a course: what he rests
with, and what he is at, unless he has come to the merge of an invocation that was begun before. -/
structure Attributed (start : World) (earlier : List (List Deed × World)) : Prop where
  current : ∀ {t job}, (final start earlier).current = some (t, job) → job.Invokes ∨
    ∃ before between errand action next, earlier = before ++ between ∧
      ComesToMerge (final start before) between t errand action next ∧
      (∀ ending, (next ending).Invokes) ∧ job = (errand.merging action).bind (errand.closing action next)
  resting : ∀ {t rest}, (final start earlier).scheduler.rest? t = some rest → ∀ answer, (rest.1 answer).Invokes

/-- Who looks up what he is about to invoke comes to the merge, unless the name means nothing. -/
theorem looked_cases (begins : world.current = some (t, errand.program.bind next))
    (rest : ∀ ending, (next ending).Invokes)
    (goesOn : after.current = some (t, errand.looked next (world.means? errand)))
    (now : after.current = some (t, job)) : job.Invokes ∨ ∃ action,
      ComesToMerge world [([.did t (.op (.resolve errand.source errand.name))], after)] t errand action next ∧
        job = (errand.merging action).bind (errand.closing action next) := by
  cases goesOn.symm.trans now
  cases meaning : world.means? errand with
  | none => exact .inl (.act id fun _ => rest _)
  | some action =>
    rw [meaning] at goesOn
    exact .inr ⟨action, ⟨begins, ⟨[], after, [], rfl, rfl, meaning, rfl⟩, goesOn⟩, rfl⟩

theorem attributed_of_starting {start : World} (starts : Starting start) : Attributed start [] := by
  obtain ⟨explorer, none, limit, clock, opened⟩ := starts
  exact ⟨nofun, fun rests => by simp [final, Scheduler.rest?] at rests⟩

namespace Attributed

variable {start : World} {earlier : List (List Deed × World)} (h : Attributed start earlier)

include h

/-- What a task goes on with when it has performed an effect. -/
theorem perform {host : Host} (allowed : host.Invokes) {effect : Effect} {more : effect.Reply → Job}
    (was : (final start earlier).current = some (t, .act effect more))
    (goesOn : after = (final start earlier).perform host t effect more) (now : after.current = some (t, job)) :
    job.Invokes ∨ ∃ errand action next,
      ComesToMerge (final start earlier) [((final start earlier).deeds, after)] t errand action next ∧
        (∀ ending, (next ending).Invokes) ∧
        job = (errand.merging action).bind (errand.closing action next) := by
  subst goesOn
  rcases h.current was with invokes | ⟨before, between, errand, action, next, -, -, invokes, same⟩
  · rcases invokes.act_cases rfl with ⟨-, rest⟩ | ⟨errand, next, rfl, begins, rest⟩
    · obtain ⟨-, ⟨reply, rfl⟩ | ⟨call, rfl, rfl⟩⟩ := current_perform now
      · exact .inl (rest reply)
      · exact .inl (Program.Invokes.bind (allowed call) rest)
    · have looks := was.trans (congrArg (fun job => some (t, job)) begins)
      have deeds : (final start earlier).deeds = [.did t (.op (.resolve errand.source errand.name))] := by
        simp only [World.deeds, was]
      rw [errand.bind_program] at begins
      cases begins
      rw [deeds]
      refine (looked_cases looks rest rfl now).imp id ?_
      rintro ⟨action, comes, same⟩
      exact ⟨errand, action, next, comes, rest, same⟩
  · -- it was at the merge, and behind that nothing is gathered but by invoking
    obtain ⟨others, gathers, further⟩ := errand.bind_merging action (errand.invokes_closing action invokes)
    cases same.trans gathers
    cases now
    exact .inl (further _)

/-- Who asks for a pause is not at a merge. -/
theorem awaits {pause : Pause} {more : Except Failure PauseId → Job}
    (was : (final start earlier).current = some (t, .act (.await pause) more))
    (answer : Except Failure PauseId) : (more answer).Invokes := by
  rcases h.current was with invokes | ⟨_, _, errand, action, next, -, -, invokes, same⟩
  · rcases invokes.act_cases rfl with ⟨-, rest⟩ | ⟨_, _, same, -⟩
    · exact rest answer
    · cases same
  · obtain ⟨others, gathers, -⟩ := errand.bind_merging action (errand.invokes_closing action invokes)
    cases same.trans gathers

theorem move (sound : (final start earlier).Sound trace)
    (moves : Move Host.Invokes Program.Invokes (final start earlier) deeds after) :
    Attributed start (earlier ++ [(deeds, after)]) where
  current {t job} now := by
    rw [final_snoc] at now
    cases was : (final start earlier).current with
    | none =>
      obtain ⟨rest, answer, rests, rfl⟩ := moves.of_idle was now
      exact .inl (h.resting rests answer)
    | some hand =>
    obtain ⟨other, own⟩ := hand
    cases own with
    | done ending =>
      rcases moves.of_done was with gone | stays
      · cases gone.symm.trans now
      · cases stays.symm.trans now
        exact .inl (.done ending)
    | act effect more =>
      rcases moves.of_current was with ⟨rfl, stays⟩ | ⟨host, allowed, rfl, goesOn⟩
      · cases stays.symm.trans now
        refine (h.current was).imp id ?_
        rintro ⟨before, between, errand, action, next, rfl, comes, invokes, same⟩
        refine ⟨before, between ++ [([], after)], errand, action, next, List.append_assoc .., ?_, invokes, same⟩
        exact comes.stays (stays.trans (was.symm.trans (congrArg _ (final_append ..))))
      · obtain ⟨rfl, -⟩ := current_perform (goesOn ▸ now)
        refine (h.perform allowed was goesOn now).imp id ?_
        rintro ⟨errand, action, next, comes⟩
        exact ⟨earlier, _, errand, action, next, rfl, comes⟩
  resting {t rest} rests answer := by
    rw [final_snoc] at rests
    rcases moves.rest_cases sound rests with before | ⟨pause, was⟩ | ⟨job, invokes, starts⟩
    · exact h.resting before answer
    · exact h.awaits was answer
    · rcases starts answer with same | ⟨ending, same⟩
      · exact same ▸ invokes
      · exact same ▸ .done ending

end Attributed

/-- **What is gathered is gathered for an invocation.** -/
theorem Path.attributed {start : World} (starts : Starting start)
    (course : Path Host.Invokes Program.Invokes start path) : Attributed start path :=
  course.keeps (attributed_of_starting starts) fun _ _ _ first moves attributed =>
    attributed.move (starts.reached.along first).sound moves

/-- Who gathers items has come to the merge of an invocation that was begun before. -/
theorem Attributed.of_did {start : World} {earlier : List (List Deed × World)} (h : Attributed start earlier)
    (moves : Move hosts jobs (final start earlier) deeds after) {source : String} {policy : SelectPolicy}
    {given : List Item} (did : .did t (.op (.gather source policy given)) ∈ deeds) :
    ∃ before between errand action next, earlier = before ++ between ∧
      ComesToMerge (final start before) between t errand action next ∧
      errand.source = source ∧ action.options.select = policy ∧ errand.items.toList = given := by
  obtain ⟨more, was⟩ := moves.current_of_did did
  rcases h.current was with invokes | ⟨before, between, errand, action, next, rfl, comes, invokes, same⟩
  · rcases invokes.act_cases rfl with ⟨other, -⟩ | ⟨_, _, same, -⟩
    · exact absurd trivial other
    · cases same
  · obtain ⟨others, gathers, -⟩ := errand.bind_merging action (errand.invokes_closing action invokes)
    cases same.trans gathers
    exact ⟨before, between, errand, action, next, rfl, comes, rfl, rfl, rfl⟩

end World
end ActionFlow
