import ActionFlow.Proofs.Running.Keeping
import ActionFlow.Proofs.Scheduler.Unlocked
import ActionFlow.Proofs.World.Executions
import ActionFlow.Proofs.World.Unmarked

/-!
# Sources are isolated

Tasks of several sources take their turns in one world, in any order. An execution lists what happens
there: the steps of the tasks, their turns and timers, and what is done from outside. If no run has a
marker and every callback touches nothing but the source that it was given, the steps of one source's tasks
can be followed without those of the others: what is left of the list is an execution again, from the same
world on, and it shows the same for that source.

## Main results

* `World.Kept.occurs`: every task goes on keeping to its source.
* `World.Without.occurs`, `World.Kept.passes`: what happens for the source happens without the others as well,
  and what they do passes it by.
* `World.Execution.leaveOut`, `World.sources_are_isolated`: the steps of other sources' tasks can be left out.
-/

namespace ActionFlow

/-- A host under which callbacks, rules, views and loaders touch nothing but the source that they were
given. -/
def Host.KeepsApart (host : Host) : Prop := ∀ call, (host call).Honours (.keepsTo call.source)

namespace World

/-! ## Tasks that keep to their sources -/

section Kept

variable {owner : TaskId → String} {world after : World} {t : TaskId} {host : Host}

/-- Every task keeps to the source that it belongs to, and nobody is at the barrier. -/
structure Kept (owner : TaskId → String) (world : World) : Prop where
  tasks : world.scheduler.Lockfree fun t resume => ∀ answer, (resume answer).Honours (.keepsTo (owner t))
  current : ∀ {t job}, world.current = some (t, job) →
    job.Honours (.keepsTo (owner t)) ∧ (world.scheduler.task t).isSome

theorem Kept.unlocked (h : world.Kept owner) {task : Task Job} (ht : world.scheduler.task t = some task) :
    task.Unlocked := h.tasks.unlocked ht

/-- Pacts without secret keys bind whatever is answered. -/
theorem next_keeps {source : String} {effect : Effect} {next : effect.Reply → Job}
    (honours : (Program.act effect next).Honours (.keepsTo source)) (reply : effect.Reply) :
    (next reply).Honours (.keepsTo source) := honours.2 reply fun _ _ => trivial

/-- A turn, from between turns. -/
theorem takeTurn_eq (idle : world.current = none) {turn : Turn}
    (unlocked : ∀ task, world.scheduler.task turn.task = some task → task.Unlocked) :
    world.takeTurn turn = { world with
      scheduler := (world.scheduler.takeTurn turn).1
      current := (world.scheduler.takeTurn turn).2.map fun went => (went.1, went.2.job) } := by
  cases taken : world.scheduler.takeTurn turn with
  | mk scheduler went =>
  cases went with
  | none =>
    simp only [World.takeTurn, taken, Option.map_none, ← idle]
  | some went =>
    obtain ⟨t, resume, answer, granted⟩ := went
    obtain ⟨-, none, -⟩ := Scheduler.handover_of_takeTurn unlocked (congrArg Prod.snd taken)
    cases none
    exact takeTurn_of_handover world taken

/-- A pause that is not for the barrier. -/
theorem perform_await {pause : Pause} (elsewhere : pause ≠ .barrier)
    {next : (Effect.await pause).Reply → Job} :
    let paused := (world.scheduler.setResume t next).await t pause
    world.perform host t (.await pause) next =
      { world with scheduler := paused.1, current := paused.2.map fun answer => (t, next answer) } := by
  simp only
  cases awaits : (world.scheduler.setResume t next).await t pause with
  | mk scheduler answer =>
  cases answer with
  | some answer => exact perform_await_of_answer elsewhere awaits
  | none => exact perform_await_of_none awaits

/-- **An effect** of a task that keeps to its source. -/
theorem Kept.perform (h : world.Kept owner) {effect : Effect} {next : effect.Reply → Job}
    (current : world.current = some (t, .act effect next)) (keeps : host.KeepsApart) :
    (world.perform host t effect next).Kept owner := by
  obtain ⟨honours, known⟩ := h.current current
  have goesOn := next_keeps honours
  obtain ⟨⟨within, alone⟩, -⟩ := honours
  cases effect with
  | op op =>
    refine ⟨h.tasks, ?_⟩
    rintro _ _ ⟨⟩
    exact ⟨goesOn _, known⟩
  | call call =>
    refine ⟨h.tasks, ?_⟩
    rintro _ _ ⟨⟩
    have called : Program.Honours (.keepsTo (owner t)) (host call).run := within ▸ keeps call
    exact ⟨called.bind goesOn, known⟩
  | await pause =>
    have elsewhere : pause ≠ .barrier := by
      rintro rfl
      cases alone
    have known' := Scheduler.isSome_setResume known next
    have tasks := (h.tasks.setResume goesOn).await known' elsewhere
    rw [perform_await elsewhere]
    refine ⟨tasks, fun goes => ?_⟩
    obtain ⟨answer, awaits, same⟩ := Option.map_eq_some_iff.mp goes
    cases same
    refine ⟨goesOn answer, ?_⟩
    rw [Scheduler.task_await_of_answer elsewhere awaits]
    exact known'
  | release | setGate | cancel => cases alone

/-- What happens elsewhere in the scheduler, as long as no task begins to wait. -/
theorem Kept.continues (h : world.Kept owner) {scheduler : Scheduler Job}
    (goes : world.scheduler.Continues scheduler) : { world with scheduler }.Kept owner where
  tasks := h.tasks.continues goes
  current current := ⟨(h.current current).1, goes.known (h.current current).2⟩

/-- **A turn** hands a task what it was to go on with. -/
theorem Kept.takeTurn (h : world.Kept owner) (idle : world.current = none) (turn : Turn) :
    (world.takeTurn turn).Kept owner := by
  have unlocked (task) (ht : world.scheduler.task turn.task = some task) := h.unlocked ht
  have goes : world.scheduler.Continues (world.scheduler.takeTurn turn).1 := .takeTurn unlocked
  rw [takeTurn_eq idle unlocked]
  refine ⟨h.tasks.continues goes, fun goesOn => ?_⟩
  obtain ⟨⟨t, handover⟩, went, same⟩ := Option.map_eq_some_iff.mp goesOn
  cases same
  obtain ⟨-, -, task, ht, role⟩ := Scheduler.handover_of_takeTurn unlocked went
  exact ⟨h.tasks.resumes ht role _, goes.known (Option.isSome_of_eq_some ht)⟩

/-- **What happens** leaves every task with its own source. -/
theorem Kept.occurs (h : world.Kept owner) {jobs : TaskId → Job → Prop}
    (keep : ∀ {t job}, jobs t job → job.Honours (.keepsTo (owner t))) {occurrence : Occurrence}
    (admits : world.Admits Host.KeepsApart jobs occurrence) (occurs : Occurs world occurrence after) :
    after.Kept owner := by
  cases occurs with
  | @step _ t job host current steps =>
    cases job with
    | act effect next =>
      simp only [World.step, current, Option.some.injEq] at steps
      exact steps ▸ h.perform current admits
    | done ending =>
      simp only [World.step, current, Option.some.injEq] at steps
      rw [← steps]
      exact ⟨h.tasks.continues (.finish (fun _ => h.unlocked) ending), fun current => by cases current⟩
  | @turn turn rest idle first =>
    have dealt : { world with scheduler := { world.scheduler with round := rest } }.Kept owner :=
      h.continues (.of_tasks rfl (fun _ => id) (Nat.le_refl _))
    exact dealt.takeTurn idle turn
  | ring => exact h.continues (.ring _ _)
  | spawn name job =>
    refine ⟨h.tasks.spawn fun answer => ?_, fun current => ?_⟩
    · cases answer with
      | ok => exact keep admits
      | error => trivial
    · obtain ⟨honours, known⟩ := h.current current
      exact ⟨honours, Scheduler.isSome_spawn known _⟩
  | operate op => exact ⟨h.tasks, h.current⟩
  | setGate gate opened => exact h.continues (.setGate _ gate opened)
  | cancel t => exact h.continues (.cancel _ t)
  | setClock => exact h.continues (.of_tasks rfl (fun _ => id) (Nat.le_refl _))

theorem Kept.rearranged (h : world.Kept owner) (same : Rearranged world after) : after.Kept owner := by
  cases same with
  | intro turns timing later =>
    exact h.continues (.of_tasks rfl (fun timer => timing.mem_iff.mp) later)

end Kept

/-! ## Worlds that are the same for a source -/

section SameFor

variable {source : String} {mine : TaskId → Bool} {owner : TaskId → String} {world other after : World}
  {t : TaskId} {host : Host}

/-- Two worlds are the same for a source and its tasks. -/
structure SameFor (world : World) (source : String) (mine : TaskId → Bool) (other : World) : Prop where
  explorer : world.explorer.SameFor source mine other.explorer
  scheduler : world.scheduler.SameFor mine other.scheduler
  current : other.current.filter (mine ·.1) = world.current.filter (mine ·.1)

theorem SameFor.trans {third : World} (h : world.SameFor source mine other)
    (h' : other.SameFor source mine third) : world.SameFor source mine third :=
  ⟨h.explorer.trans h'.explorer, h.scheduler.trans h'.scheduler, h'.current.trans h.current⟩

theorem SameFor.symm (h : world.SameFor source mine other) : other.SameFor source mine world :=
  ⟨h.explorer.symm, h.scheduler.symm, h.current.symm⟩

/-- Another world is the same for a source and its tasks, pauses have the same numbers in it, and no task of
another source has its turn there. -/
structure Without (world : World) (source : String) (mine : TaskId → Bool) (other : World) : Prop extends
    world.SameFor source mine other where
  waits : other.scheduler.waits = world.scheduler.waits
  alone : ∀ {t job}, other.current = some (t, job) → mine t

/-! ### What the source's own tasks do -/

namespace Without

variable (h : world.Without source mine other)

include h

/-- The scheduler goes on alike in both worlds. -/
theorem shift {scheduler scheduler' : Scheduler Job} (same : scheduler.SameFor mine scheduler')
    (waits : scheduler'.waits = scheduler.waits) :
    { world with scheduler }.Without source mine { other with scheduler := scheduler' } :=
  ⟨⟨h.explorer, same, h.current⟩, waits, h.alone⟩

/-- The same task goes on with the same job in both worlds, if any does. -/
theorem handOver {hand : Option (TaskId × Job)} (own : ∀ {t job}, hand = some (t, job) → mine t) :
    { world with current := hand }.Without source mine { other with current := hand } :=
  ⟨⟨h.explorer, h.scheduler, rfl⟩, h.waits, own⟩

/-- Whose turn it is in one world has it in the other. -/
theorem current_of_own {job : Job} (own : mine t) (current : world.current = some (t, job)) :
    other.current = some (t, job) := by
  have same := h.current
  rw [current, Option.filter_some, if_pos own] at same
  exact (Option.filter_eq_some_iff.mp same).1

theorem idle (idle : world.current = none) : other.current = none := by
  have same := h.current
  rw [idle, Option.filter_none, Option.filter_eq_none_iff] at same
  exact Option.eq_none_iff_forall_ne_some.mpr fun hand goes => same hand goes (h.alone goes)

theorem perform (own : mine t) {effect : Effect} (keeps : effect.KeepsTo source)
    {next : effect.Reply → Job} :
    (world.perform host t effect next).Without source mine (other.perform host t effect next) := by
  have hand {job : Job} : ∀ {t' job'}, some (t, job) = some (t', job') → mine t' := by
    rintro _ _ ⟨⟩
    exact own
  cases effect with
  | op op =>
    obtain ⟨reply, explorer⟩ := h.explorer.perform own keeps
    simp only [World.perform, reply]
    exact ⟨⟨explorer, h.scheduler, rfl⟩, h.waits, hand⟩
  | call call => exact h.handOver hand
  | await pause =>
    have elsewhere : pause ≠ .barrier := by
      rintro rfl
      cases keeps.2
    have waits : (other.scheduler.setResume t next).waits = (world.scheduler.setResume t next).waits := by
      exact (Scheduler.waits_setResume ..).trans (h.waits.trans (Scheduler.waits_setResume ..).symm)
    obtain ⟨answer, scheduler, waits⟩ := (h.scheduler.setResume own next).await own waits elsewhere
    rw [perform_await elsewhere, perform_await elsewhere, answer]
    refine ((h.shift scheduler waits).handOver fun goes => ?_)
    obtain ⟨_, -, same⟩ := Option.map_eq_some_iff.mp goes
    cases same
    exact own
  | release | setGate | cancel => cases keeps.2

theorem takeTurn (idle : world.current = none) {turn : Turn} (own : mine turn.task)
    (unlocked : ∀ task, world.scheduler.task turn.task = some task → task.Unlocked) :
    (world.takeTurn turn).Without source mine (other.takeTurn turn) := by
  have same := h.scheduler.task turn.task own
  obtain ⟨went, scheduler, waits⟩ := h.scheduler.takeTurn h.waits own unlocked
  rw [takeTurn_eq idle unlocked, takeTurn_eq (h.idle idle) (same ▸ unlocked), went]
  refine ((h.shift scheduler waits).handOver fun goes => ?_)
  obtain ⟨⟨_, handover⟩, went, same⟩ := Option.map_eq_some_iff.mp goes
  cases same
  exact (Scheduler.handover_of_takeTurn unlocked went).1 ▸ own

end Without

/-! ### What others do -/

/-- Nothing has been done for a source and its tasks, but further pauses may have been numbered. -/
structure Passes (world : World) (source : String) (mine : TaskId → Bool) (after : World) : Prop extends
    world.SameFor source mine after where
  waits : world.scheduler.waits ≤ after.scheduler.waits

theorem filter_of_others {hand : Option (TaskId × Job)}
    (others : ∀ {t job}, hand = some (t, job) → ¬ mine t) : hand.filter (mine ·.1) = none :=
  Option.filter_eq_none_iff.mpr fun _ goes => others goes

theorem filter_some_of_others (others : ¬ mine t) (job : Job) : (some (t, job)).filter (mine ·.1) = none := by
  rw [Option.filter_some, if_neg others]

theorem passes_perform (others : ¬ mine t) {effect : Effect} {next : effect.Reply → Job}
    (current : world.current = some (t, .act effect next)) {own : String} (elsewhere : own ≠ source)
    (keeps : effect.KeepsTo own) :
    world.Passes source mine (world.perform host t effect next) := by
  have explorer := Explorer.SameFor.refl world.explorer source mine
  have scheduler := Scheduler.SameFor.refl world.scheduler mine
  have before : world.current.filter (mine ·.1) = none := current ▸ filter_some_of_others others _
  have still (job : Job) := (filter_some_of_others others job).trans before.symm
  cases effect with
  | op op =>
    have unseen : ¬ (some t).any mine := others
    exact ⟨⟨world.explorer.sameFor_perform elsewhere unseen keeps, scheduler, still _⟩, Nat.le_refl _⟩
  | call call => exact ⟨⟨explorer, scheduler, still _⟩, Nat.le_refl _⟩
  | await pause =>
    have elsewhere : pause ≠ .barrier := by
      rintro rfl
      cases keeps.2
    have paused := (world.scheduler.sameFor_setResume others next).trans
      (Scheduler.sameFor_await _ others elsewhere)
    have later := Scheduler.waits_le_await (world.scheduler.setResume t next) t elsewhere
    rw [perform_await elsewhere]
    refine ⟨⟨explorer, paused, ?_⟩, ?_⟩
    · refine (filter_of_others fun goes => ?_).trans before.symm
      obtain ⟨_, -, same⟩ := Option.map_eq_some_iff.mp goes
      cases same
      exact others
    · exact Nat.le_trans (Nat.le_of_eq (Scheduler.waits_setResume ..).symm) later
  | release | setGate | cancel => cases keeps.2

theorem passes_takeTurn (h : world.Kept owner) (idle : world.current = none) {turn : Turn}
    (others : ¬ mine turn.task) : world.Passes source mine (world.takeTurn turn) := by
  have unlocked (task) (ht : world.scheduler.task turn.task = some task) := h.unlocked ht
  have taken := world.scheduler.sameFor_takeTurn others unlocked fun wait status timer member own same => by
    -- a timer with the number of this wait was set for this task
    obtain ⟨task, ht, status⟩ := Scheduler.task_of_status status
    exact others (h.tasks.own timer member ht status same ▸ own)
  rw [takeTurn_eq idle unlocked]
  refine ⟨⟨.refl _ _ _, taken, ?_⟩, (Scheduler.Continues.takeTurn unlocked).waits⟩
  rw [idle]
  refine filter_of_others fun goes => ?_
  obtain ⟨⟨_, handover⟩, went, same⟩ := Option.map_eq_some_iff.mp goes
  cases same
  exact (Scheduler.handover_of_takeTurn unlocked went).1 ▸ others

end SameFor

/-! ## Leaving steps out -/

/-- The tasks of a source. -/
def tasksOf (owner : TaskId → String) (source : String) (t : TaskId) : Bool := decide (owner t = source)

section LeavingOut

variable {source : String} {owner : TaskId → String} {world other after : World}
  {jobs : TaskId → Job → Prop} {occurrence : Occurrence}

/-- **What a task of another source does** passes a source by. -/
theorem Kept.passes (h : world.Kept owner) (admits : world.Admits Host.KeepsApart jobs occurrence)
    (occurs : Occurs world occurrence after) (others : ¬ occurrence.isFor (tasksOf owner source)) :
    world.Passes source (tasksOf owner source) after := by
  cases occurs with
  | @step _ t job host current steps =>
    have elsewhere : owner t ≠ source := fun same => others (decide_eq_true same)
    cases job with
    | act effect next =>
      simp only [World.step, current, Option.some.injEq] at steps
      exact steps ▸ passes_perform others current elsewhere (h.current current).1.1
    | done ending =>
      simp only [World.step, current, Option.some.injEq] at steps
      have unlocked (task) (ht : world.scheduler.task t = some task) := h.unlocked ht
      rw [← steps]
      refine ⟨⟨.refl _ _ _, world.scheduler.sameFor_finish others unlocked ending, ?_⟩,
        (Scheduler.Continues.finish unlocked ending).waits⟩
      rw [current]
      exact (filter_some_of_others others _).symm
  | @turn turn rest idle first =>
    have dealt : { world with scheduler := { world.scheduler with round := rest } }.Kept owner :=
      h.continues (.of_tasks rfl (fun _ => id) (Nat.le_refl _))
    have elsewhere : ¬ tasksOf owner source turn.task := others
    have same : world.SameFor source (tasksOf owner source)
        { world with scheduler := { world.scheduler with round := rest } } :=
      ⟨.refl _ _ _, world.scheduler.sameFor_deal elsewhere first, rfl⟩
    have taken : Passes _ source (tasksOf owner source) _ := passes_takeTurn dealt idle elsewhere
    exact ⟨same.trans taken.toSameFor, taken.waits⟩
  | @ring timer => exact ⟨⟨.refl _ _ _, world.scheduler.sameFor_ring others, rfl⟩, Nat.le_refl _⟩
  | spawn | operate | setGate | cancel | setClock => exact absurd rfl others

/-- **What a task of the source does**, or what is done from outside, may happen in the other world as well,
if need be with its turns in another order. -/
theorem Without.occurs (h : world.Without source (tasksOf owner source) other) (kept : world.Kept owner)
    (admits : world.Admits Host.KeepsApart jobs occurrence) (occurs : Occurs world occurrence after)
    (own : occurrence.isFor (tasksOf owner source)) :
    ∃ ready after', Rearranged other ready ∧ ready.Admits Host.KeepsApart jobs occurrence ∧
      Occurs ready occurrence after' ∧ after.Without source (tasksOf owner source) after' := by
  cases occurs with
  | @step _ t job host current steps =>
    have current' := h.current_of_own own current
    cases job with
    | act effect next =>
      have keeps : effect.KeepsTo source := of_decide_eq_true own ▸ (kept.current current).1.1
      have steps' : other.step host = some (other.perform host t effect next) := by
        simp only [World.step, current']
      simp only [World.step, current, Option.some.injEq] at steps
      exact ⟨other, _, rearranged_self other, admits, .step current' steps', steps ▸ h.perform own keeps⟩
    | done ending =>
      have unlocked (task) (ht : world.scheduler.task t = some task) := kept.unlocked ht
      have steps' : other.step host = some { other with
          scheduler := other.scheduler.finish t ending, current := none } := by
        simp only [World.step, current']
      have waits : (other.scheduler.finish t ending).waits = (world.scheduler.finish t ending).waits := by
        rw [Scheduler.waits_finish _ unlocked, Scheduler.waits_finish, h.waits]
        rw [h.scheduler.task t own]
        exact unlocked
      have finished := h.shift (h.scheduler.finish own unlocked ending) waits
      have ended := finished.handOver fun {t job} (goes : none = some (t, job)) => by cases goes
      simp only [World.step, current, Option.some.injEq] at steps
      exact ⟨other, _, rearranged_self other, admits, .step current' steps', steps ▸ ended⟩
  | @turn turn rest idle first =>
    -- in the other world the turn may be queued further back, so it is brought to the front there
    obtain ⟨queued, scheduler⟩ := h.scheduler.deal own first
    have dealt := h.shift scheduler h.waits
    have turns : ((turn :: other.scheduler.turns.erase turn) ++ []).Perm other.scheduler.turns := by
      rw [List.append_nil]
      exact (List.perm_cons_erase queued).symm
    exact ⟨_, _, .intro turns (.refl _) (Nat.le_refl _), trivial, .turn (h.idle idle) rfl,
      dealt.takeTurn idle own fun _ => kept.unlocked⟩
  | @ring timer set due =>
    have set' : timer ∈ other.scheduler.timers :=
      (List.mem_filter.mp (h.scheduler.timers.mem_iff.mpr (List.mem_filter.mpr ⟨set, own⟩))).1
    exact ⟨other, _, rearranged_self other, admits, .ring set' (h.scheduler.clock ▸ due),
      h.shift (h.scheduler.ring timer) h.waits⟩
  | spawn name job =>
    have admits' : jobs other.scheduler.size job := h.scheduler.size ▸ admits
    exact ⟨other, _, rearranged_self other, admits', .spawn name job,
      ⟨⟨h.explorer, h.scheduler.spawn _, h.current⟩, h.waits, h.alone⟩⟩
  | operate op =>
    have nobody : ¬ (none : Option TaskId).any (tasksOf owner source) := Bool.false_ne_true
    exact ⟨other, _, rearranged_self other, admits, .operate op,
      ⟨⟨h.explorer.outside nobody op, h.scheduler, h.current⟩, h.waits, h.alone⟩⟩
  | setGate gate opened =>
    have waits :
        (other.scheduler.setGate gate opened).waits = (world.scheduler.setGate gate opened).waits := by
      rw [Scheduler.waits_setGate, Scheduler.waits_setGate, h.waits]
    exact ⟨other, _, rearranged_self other, admits, .setGate gate opened,
      h.shift (h.scheduler.setGate gate opened) waits⟩
  | cancel t =>
    have waits : (other.scheduler.cancel t).waits = (world.scheduler.cancel t).waits := by
      rw [Scheduler.waits_cancel, Scheduler.waits_cancel, h.waits]
    exact ⟨other, _, rearranged_self other, admits, .cancel t, h.shift (h.scheduler.cancel t) waits⟩
  | setClock time =>
    exact ⟨other, _, rearranged_self other, admits, .setClock time,
      h.shift { h.scheduler with clock := rfl } h.waits⟩

/-- What passes the source by is left out. -/
theorem Without.passes {mine : TaskId → Bool} (h : world.Without source mine other)
    (passes : world.Passes source mine after) :
    ∃ other', Rearranged other other' ∧ after.Without source mine other' := by
  have later : other.scheduler.waits ≤ after.scheduler.waits := h.waits ▸ passes.waits
  have counted : other.SameFor source mine { other with
      scheduler := { other.scheduler with waits := after.scheduler.waits } } :=
    ⟨.refl _ _ _, other.scheduler.sameFor_tick _, rfl⟩
  exact ⟨_, .intro (.refl _) (.refl _) later,
    ⟨passes.toSameFor.symm.trans (h.toSameFor.trans counted), rfl, h.alone⟩⟩

/-- Another order of turns makes no difference. -/
theorem Without.rearranged {mine : TaskId → Bool} (h : world.Without source mine other)
    (same : Rearranged world after) :
    ∃ other', Rearranged other other' ∧ after.Without source mine other' := by
  obtain ⟨turns, timing, later⟩ := same
  have still := Scheduler.SameFor.refl world.scheduler mine
  exact h.passes ⟨⟨.refl _ _ _, { still with turns := turns.filter _, timers := timing.filter _ }, rfl⟩, later⟩

/-- **Steps can be left out.** An execution in which every task keeps to its source is one without the steps
of the tasks of other sources, and the world is the same for the source then. -/
theorem Execution.leaveOut {start : World} {happened : List Occurrence} (begins : start.Kept owner)
    (idle : start.current = none) (keep : ∀ {t job}, jobs t job → job.Honours (.keepsTo (owner t)))
    (execution : Execution Host.KeepsApart jobs start happened after) :
    after.Kept owner ∧ ∃ after',
      Execution Host.KeepsApart jobs start (happened.filter (·.isFor (tasksOf owner source))) after' ∧
        after.Without source (tasksOf owner source) after' := by
  -- beside the world of the execution goes one that has only had the steps that are kept
  induction execution with
  | start =>
    have alone {t job} (goes : start.current = some (t, job)) : tasksOf owner source t :=
      nomatch idle.symm.trans goes
    exact ⟨begins, start, .start, ⟨⟨.refl _ _ _, .refl _ _, rfl⟩, rfl, alone⟩⟩
  | rearranged _ same ih =>
    obtain ⟨kept, world', before', without⟩ := ih
    obtain ⟨after', same', without'⟩ := without.rearranged same
    exact ⟨kept.rearranged same, after', before'.rearranged same', without'⟩
  | @occurs happened world after occurrence _ occurs admits ih =>
    obtain ⟨kept, world', before', without⟩ := ih
    refine ⟨kept.occurs keep admits occurs, ?_⟩
    rw [List.filter_append, List.filter_cons, List.filter_nil]
    by_cases own : occurrence.isFor (tasksOf owner source)
    · obtain ⟨ready, after', same, admits', occurs', without'⟩ := without.occurs kept admits occurs own
      rw [if_pos own]
      exact ⟨after', (before'.rearranged same).occurs occurs' admits', without'⟩
    · obtain ⟨after', same, without'⟩ := without.passes (kept.passes admits occurs own)
      rw [if_neg own, List.append_nil]
      exact ⟨after', before'.rearranged same, without'⟩

end LeavingOut

/-! ## Sources are isolated -/

/-- **A step that is performed for a source** changes nothing but its selection, in whatever world. -/
theorem onlySelects_perform (world : World) (host : Host) (t : TaskId) {source : String} {effect : Effect}
    (step : effect.StepOf source) (next : effect.Reply → Job) :
    world.explorer.OnlySelects source (world.perform host t effect next).explorer := by
  have same := world.explorer.onlySelects_self source
  have noted (event : Event) := world.explorer.onlySelects_record source (some t) event
  rcases step with ⟨plain, within⟩ | rfl | ⟨key, rfl⟩
  · cases effect with
    | op op => exact (Explorer.perform_plain plain within).2
    | call call => exact same
    | await | release | setGate | cancel => cases plain
  · simp only [World.perform]
    cases (world.scheduler.setResume t next).await t .barrier with
    | mk scheduler answer =>
    rcases answer with _ | failure | key
    · exact same
    · exact same
    · exact noted _
  · simp only [World.perform, World.release]
    rcases world.scheduler.release key with ⟨scheduler, failure | freed | freed⟩
    · exact same
    · exact same
    · exact noted _

/-- What a task of a source may be started with if no run has a marker. -/
inductive RunsFor (source : String) : Job → Prop where
  | run {expression : Expr} (unmarked : expression.markless) (mode : Mode) (items : Supply) :
      RunsFor source (Expr.run source mode expression items).run
  | inside (expression : Expr) (mode : Mode) (items : Supply) :
      RunsFor source (Expr.runInner source mode expression items).run
  | invoke (name : String) (items : Supply) (args : List String) (mode : Mode) :
      RunsFor source (invoke source name items args mode).run

theorem RunsFor.keeps {source : String} {job : Job} (h : RunsFor source job) :
    job.Honours (.keepsTo source) := by
  cases h with
  | run unmarked mode items => exact Expr.keeps_run source mode items unmarked
  | inside expression mode items => exact Expr.keeps_runInner source mode items expression
  | invoke name items args mode => exact keeps_invoke source mode items name args

/-- **Sources are isolated.** What runs and invocations do for a source of their own accord is about that
source, whatever they are answered. So if no run has a marker and every callback touches nothing but the
source that it was given, the steps of the tasks of all other sources can be left out of any execution: what
is left is an execution, with the same events, the same selection and the same outcomes for the source. -/
theorem sources_are_isolated (source : String) :
    ServedAlone source ∧
      (∀ (world after : World) (host : Host) (t : TaskId) (effect : Effect) (next : effect.Reply → Job),
        effect.StepOf source → world.current = some (t, .act effect next) → world.step host = some after →
          world.explorer.OnlySelects source after.explorer) ∧
      ∀ (owner : TaskId → String) (explorer : Explorer) (limit : Option Value) (clock : Binary64)
        (opened : String → Bool) (happened : List Occurrence) (after : World),
        let origin : World := { explorer, scheduler := { limit, clock, opened } }
        let mine := tasksOf owner source
        Execution Host.KeepsApart (fun t => RunsFor (owner t)) origin happened after →
          ∃ after', Execution Host.KeepsApart (fun t => RunsFor (owner t)) origin
              (happened.filter (·.isFor mine)) after' ∧
            after'.explorer.eventsOf mine = after.explorer.eventsOf mine ∧
            after'.explorer.sources source = after.explorer.sources source ∧
            ∀ t, owner t = source → after'.scheduler.task t = after.scheduler.task t ∧
              after'.scheduler.ending? t = after.scheduler.ending? t := by
  refine ⟨servedAlone source, fun world after host t effect next step current steps => ?_, ?_⟩
  · simp only [World.step, current, Option.some.injEq] at steps
    exact steps ▸ world.onlySelects_perform host t step next
  intro owner explorer limit clock opened happened after origin mine execution
  have begins : origin.Kept owner :=
    ⟨Scheduler.lockfree_begin limit clock opened, fun current => by cases current⟩
  obtain ⟨-, after', execution', without⟩ := execution.leaveOut begins rfl RunsFor.keeps
  refine ⟨after', execution', without.explorer.events, without.explorer.own, fun t own => ?_⟩
  have same := without.scheduler.task t (decide_eq_true own)
  exact ⟨same, by simp only [Scheduler.ending?, same]⟩

/-- An explorer whose callbacks note that they are called, wait at a gate, and select an item of the source
that they were given. -/
def heeding : Host
  | .callback action context => do
      Run.record (.called action.name context)
      let _ ← Run.await (.gate "go")
      Run.op (.change context.source (.select (.node "x")))
  | .test source rule _ item => Run.op (.test source rule item)
  | .requestRender .. | .render _ | .load .. => pure ()

theorem keepsApart_heeding : heeding.KeepsApart := by
  intro call
  cases call with
  | callback action context =>
    have noted : (Run.record (.called action.name context)).Honours (.keepsTo context.source) :=
      Run.honours_op _ ⟨nofun, trivial⟩
    have waited : (Run.await (.gate "go")).Honours (.keepsTo context.source) :=
      Run.honours_await ⟨trivial, trivial⟩
    have selected :
        (Run.op (.change context.source (.select (.node "x")))).Honours (.keepsTo context.source) :=
      Run.honours_op _ ⟨fun _ same => (Option.some.inj same).symm, trivial⟩
    exact noted.bind fun _ => waited.bind fun _ => selected
  | test => exact Run.honours_op _ ⟨fun _ same => (Option.some.inj same).symm, trivial⟩
  | requestRender | render | load => exact Run.honours_pure ()

/-- What the tasks of two sources are started with. -/
def opening (source : String) : Job := (invoke source "open" (.many [.node "a"]) [] .normal).run

/-- Two sources, and a task of each. -/
def twoSources : World :=
  ((({ explorer := furnished } : World).spawn "one" (opening "left")).1.spawn "two" (opening "right")).1

/-- The gate is opened behind which both tasks wait. -/
def letThrough : World := (twoSources.settle heeding 40).setGate "go" true

/-- What happens from the start of the two tasks to the end of both. -/
def bothOpening : List Occurrence :=
  [.spawn "one" (opening "left"), .spawn "two" (opening "right")] ++ twoSources.history heeding 40 ++
    [.setGate "go" true] ++ letThrough.history heeding 40

/-- The items for a callback are gathered from the one source alone, and the task of that source comes to the
same end without the steps of the other one's. -/
theorem sources_are_isolated_of_two :
    let owner : TaskId → String := fun t => if t = 0 then "left" else "right"
    let mine := tasksOf owner "left"
    let ended := letThrough.settle heeding 40
    (twoSources.settle heeding 2).explorer.OnlySelects "left" (twoSources.settle heeding 3).explorer ∧
    Execution Host.KeepsApart (fun t => RunsFor (owner t)) { explorer := furnished } bothOpening ended ∧
      ended.scheduler.ending? 0 = some (.ok ()) ∧ ended.scheduler.ending? 1 = some (.ok ()) ∧
      bothOpening.length = 21 ∧ (bothOpening.filter (·.isFor mine)).length = 12 ∧
      ∃ after, Execution Host.KeepsApart (fun t => RunsFor (owner t)) { explorer := furnished }
          (bothOpening.filter (·.isFor mine)) after ∧
        after.scheduler.ending? 0 = some (.ok ()) ∧
        (after.explorer.sources "left").selection.items = [.node "x"] ∧
        after.explorer.eventsOf mine = ended.explorer.eventsOf mine := by
  intro owner mine ended
  have jobs (t : TaskId) : RunsFor (owner t) (opening (owner t)) :=
    .invoke "open" (.many [.node "a"]) [] .normal
  have first : Execution Host.KeepsApart (fun t => RunsFor (owner t)) { explorer := furnished }
      [.spawn "one" (opening "left")] _ := Execution.start.occurs (.spawn "one" _) (jobs 0)
  have started : Execution Host.KeepsApart (fun t => RunsFor (owner t)) { explorer := furnished }
      [.spawn "one" (opening "left"), .spawn "two" (opening "right")] twoSources :=
    first.occurs (.spawn "two" _) (jobs 1)
  have waiting := started.settle keepsApart_heeding 40
  have opened := waiting.occurs (.setGate "go" true) trivial
  have execution := opened.settle keepsApart_heeding 40
  obtain ⟨-, selects, isolated⟩ := sources_are_isolated "left"
  obtain ⟨after, execution', events, same, tasks⟩ :=
    isolated owner furnished none .zero (fun _ => false) _ _ execution
  have gathers : (Effect.op (.gather "left" .replaceSingle [.node "a"])).StepOf "left" :=
    .inl ⟨trivial, fun _ same => (Option.some.inj same).symm⟩
  refine ⟨selects (twoSources.settle heeding 2) _ heeding 0 _ _ gathers rfl rfl, execution, rfl, rfl, rfl, rfl,
    after, execution', ?_, ?_, events⟩
  · exact (tasks 0 rfl).2.trans rfl
  · rw [same]
    rfl

end World
end ActionFlow
