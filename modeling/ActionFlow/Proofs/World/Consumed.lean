import ActionFlow.Proofs.Running.Invocation
import ActionFlow.Proofs.World.Invoking
import ActionFlow.Proofs.World.Secured

/-!
# A selection is consumed once

Invocations of several tasks may share a source. What an invocation does with the selection is a single
operation: it merges the selection with the items that it was supplied with and, if its action consumes the
selection, leaves an empty one. As long as nobody else adds an item or takes it out, a selected item stays
selected up to the first such merge, whatever else the tasks do meanwhile and wherever they are cut short.

## Main results

* `Path.selects_iff`, `Path.selects_at`: what is left of a selection by a course of moves.
* `Path.settles`: a task that has called something is busy with it until it goes on with the answer.
* `Path.consumed_at_most_once`: who consumes the selection while the item is selected is the only one to do so.
* `consumed_once`: of the invocations in a course, the first that consumes the selection gets the item and calls
  its callback on it, those that look at the selection before see the item, and those that come later do not.
-/

namespace ActionFlow

/-! ## Selections under operations -/

/-- Merging with the selection gives what was given and what is selected. -/
theorem SelectPolicy.mem_merge {policy : SelectPolicy} (merges : policy = .select ∨ policy = .keep)
    {item : Item} (given selected : List Item) :
    item ∈ policy.merge given selected ↔ item ∈ given ∨ item ∈ selected := by
  rcases merges with rfl | rfl
  all_goals exact mem_uniq.trans List.mem_append

/-- Merging gives nothing else, by whatever policy. -/
theorem SelectPolicy.mem_of_mem_merge {policy : SelectPolicy} {item : Item} {given selected : List Item}
    (mem : item ∈ policy.merge given selected) : item ∈ given ∨ item ∈ selected := by
  cases policy with
  | select => exact (mem_merge (.inl rfl) given selected).mp mem
  | keep => exact (mem_merge (.inr rfl) given selected).mp mem
  | visual => exact .inl mem
  | replaceSingle => exact .inl (List.mem_of_mem_take mem)

/-- Whether a change neither adds an item to a selection nor takes it out. -/
def Change.Leaves (item : Item) (change : Change) : Prop :=
  change ≠ .select item ∧ change ≠ .deselect item ∧ change ≠ .clear

namespace Explorer

/-- Whether an item is selected in a source. -/
def Selects (explorer : Explorer) (source : String) (item : Item) : Prop :=
  item ∈ (explorer.sources source).selection.items

variable {explorer : Explorer} {source : String} {item : Item}

/-- The journal does not concern the selection. -/
theorem selects_record (who : Option TaskId) (event : Event) :
    (explorer.record who event).Selects source item ↔ explorer.Selects source item := Iff.rfl

theorem selects_update {other : String} {f : Source → Source}
    (same : other = source → (item ∈ (f (explorer.sources source)).selection.items ↔
      item ∈ (explorer.sources source).selection.items)) :
    (explorer.update other f).Selects source item ↔ explorer.Selects source item := by
  unfold Selects
  by_cases here : other = source
  · subst here
    rw [sources_update_self]
    exact same rfl
  · rw [sources_update_of_ne (Ne.symm here)]

theorem selects_change {other : String} {change : Change} (leaves : other = source → change.Leaves item) :
    (explorer.change other change).Selects source item ↔ explorer.Selects source item := by
  unfold Explorer.change
  cases change with
  | select added =>
      refine selects_update fun here => ?_
      have different : item ≠ added := fun same => (leaves here).1 (same ▸ rfl)
      rw [Selection.add_items]
      split
      · rfl
      · rw [List.mem_append, List.mem_singleton, or_iff_left different]
  | deselect removed =>
      refine selects_update fun here => ?_
      have different : item ≠ removed := fun same => (leaves here).2.1 (same ▸ rfl)
      exact List.mem_filter.trans (and_iff_left (decide_eq_true different))
  | clear => exact selects_update fun here => absurd rfl (leaves here).2.2
  | expand | collapse | setRoot => exact selects_update fun _ => Iff.rfl

theorem selects_register (who : Option TaskId) (table : Option String) (registration : Registration) :
    (explorer.register who table registration).1.Selects source item ↔ explorer.Selects source item := by
  cases table with
  | none =>
      simp only [register]
      split <;> rfl
  | some other =>
      simp only [register]
      split
      · rfl
      · exact (selects_record who _).trans (selects_update fun _ => Iff.rfl)

/-- An item that nobody adds or takes out stays selected, unless the selection is consumed. -/
theorem selects_perform (who : Option TaskId) {op : Op}
    (leaves : ∀ change, op = .change source change → change.Leaves item) :
    (explorer.perform who op).1.Selects source item ↔
      explorer.Selects source item ∧ ∀ given, op ≠ .gather source .select given := by
  cases op with
  | gather other policy given =>
      by_cases consumes : other = source ∧ policy = .select
      · obtain ⟨rfl, rfl⟩ := consumes
        refine iff_of_false ?_ fun h => h.2 given rfl
        simp [perform, Selects, SelectPolicy.remaining]
      · have spares : ∀ items, Op.gather other policy given ≠ .gather source .select items := by
          rintro items same
          cases same
          exact consumes ⟨rfl, rfl⟩
        refine Iff.trans ?_ (and_iff_left spares).symm
        simp only [perform]
        refine selects_update fun here => ?_
        cases policy with
        | select => exact absurd ⟨here, rfl⟩ consumes
        | replaceSingle | visual | keep => rfl
  | change other change =>
      have spares : ∀ given, Op.change other change ≠ .gather source .select given := by
        rintro given ⟨⟩
      refine Iff.trans ?_ (and_iff_left spares).symm
      exact selects_change fun here => leaves change (here ▸ rfl)
  | register table registration =>
      exact (selects_register who table registration).trans (and_iff_left fun _ same => by cases same).symm
  | setExpandable target truth =>
      refine Iff.trans ?_ (and_iff_left fun _ same => by cases same).symm
      simp only [perform, setExpandable]
      split <;> rfl
  | enter =>
      refine Iff.trans ?_ (and_iff_left fun _ same => by cases same).symm
      simp only [perform, enter]
      split <;> rfl
  | resolve | test | rootOf | partsOf | record | keep | keyOf | leave =>
      exact (and_iff_left fun _ same => by cases same).symm

end Explorer

namespace World

variable {hosts : Host → Prop} {jobs : Job → Prop} {world after : World} {trace deeds : List Deed}
  {t : TaskId} {source : String} {item : Item} {path : List (List Deed × World)}

/-! ## Selections under moves -/

/-- Whether an item is selected in a source. -/
def Selects (world : World) (source : String) (item : Item) : Prop :=
  world.explorer.Selects source item

theorem selects_of_sources (same : after.explorer.sources = world.explorer.sources) :
    after.Selects source item ↔ world.Selects source item := by
  unfold Selects Explorer.Selects
  rw [same]

/-- Only operations touch the sources. -/
theorem sources_perform (host : Host) (world : World) (t : TaskId) {effect : Effect}
    (next : effect.Reply → Job) (other : ∀ op, effect ≠ .op op) :
    (world.perform host t effect next).explorer.sources = world.explorer.sources := by
  cases effect with
  | op op => exact absurd rfl (other op)
  | call | setGate => rfl
  | cancel name =>
      simp only [perform, World.cancel]
      split <;> rfl
  | release key =>
      simp only [perform, World.release]
      split <;> rfl
  | await pause =>
      simp only [perform]
      split
      · simp only [continueWith]
        split <;> rfl
      · rfl

theorem sources_takeTurn (world : World) (turn : Turn) :
    (world.takeTurn turn).explorer.sources = world.explorer.sources := by
  unfold takeTurn
  split
  · rfl
  · simp only [continueWith]
    split <;> rfl

/-- A step in which nobody performs an operation leaves the sources as they are. -/
theorem sources_step {host : Host} (steps : world.step host = some after)
    (none : ∀ t op, .did t (.op op) ∉ world.deeds) :
    after.explorer.sources = world.explorer.sources := by
  unfold World.step at steps
  split at steps
  next t effect next current =>
    cases steps
    refine sources_perform host world t next fun op same => none t op ?_
    subst same
    simp only [World.deeds, current, List.mem_singleton]
  next => cases steps; rfl
  next =>
    obtain ⟨⟨turn, scheduler⟩, -, rfl⟩ := Option.map_eq_some_iff.mp steps
    exact sources_takeTurn { world with scheduler } turn

/-- A move that neither adds an item to a selection nor takes it out, unless by consuming the selection:
no task does, and neither does anybody from outside. -/
structure Leaves (source : String) (item : Item) (world : World) (deeds : List Deed)
    (after : World) : Prop where
  tasks : ∀ t change, .did t (.op (.change source change)) ∈ deeds → change.Leaves item
  outside : deeds = [] → (after.Selects source item ↔ world.Selects source item)

/-- Whether a selection is consumed among what was done. -/
def Consumes (source : String) (deeds : List Deed) : Prop :=
  ∃ t given, .did t (.op (.gather source .select given)) ∈ deeds

instance : Decidable (Consumes source deeds) :=
  decidable_of_iff (deeds.any (fun
    | .did _ (.op (.gather other .select _)) => other = source
    | _ => false) = true) <| by
    refine List.any_eq_true.trans ⟨?_, fun ⟨t, given, did⟩ => ⟨_, did, decide_eq_true rfl⟩⟩
    rintro ⟨deed, member, consumes⟩
    split at consumes
    next t other given =>
      obtain rfl := of_decide_eq_true consumes
      exact ⟨t, given, member⟩
    next => cases consumes

/-- In such a move an item stays selected unless the selection is consumed. -/
theorem Move.selects_iff (moves : Move hosts jobs world deeds after)
    (leaves : Leaves source item world deeds after) :
    after.Selects source item ↔ world.Selects source item ∧ ¬ Consumes source deeds := by
  have mine : ∀ t op, .did t (.op op) ∈ deeds → ∃ next, world.current = some (t, .act (.op op) next) :=
    fun _ _ did => moves.current_of_did did
  cases moves with
  | spawn | explore | setGate | cancel | setClock | reorder =>
    refine (leaves.outside rfl).trans (and_iff_left ?_).symm
    rintro ⟨_, _, did⟩
    cases did
  | @step host _ _ allowed steps =>
    by_cases operates : ∃ t op, .did t (.op op) ∈ world.deeds
    · obtain ⟨t, op, did⟩ := operates
      obtain ⟨next, current⟩ := mine t op did
      have deeds : world.deeds = [.did t (.op op)] := by simp only [World.deeds, current]
      simp only [World.step, current, Option.some.injEq] at steps
      subst steps
      rw [deeds] at leaves ⊢
      refine (Explorer.selects_perform (some t) fun change same => leaves.tasks t change ?_).trans
        (and_congr_right' ?_)
      · exact same ▸ List.mem_singleton_self _
      · constructor
        · rintro spares ⟨other, given, did⟩
          cases List.mem_singleton.mp did
          exact spares given rfl
        · rintro unconsumed given rfl
          exact unconsumed ⟨t, given, List.mem_singleton_self _⟩
    · have same := sources_step steps fun t op did => operates ⟨t, op, did⟩
      refine (selects_of_sources same).trans (and_iff_left ?_).symm
      rintro ⟨t, given, did⟩
      exact operates ⟨t, _, did⟩

/-! ## Selections under courses of moves -/

theorem Consumes.told (consumes : Consumes source deeds) (inside : (deeds, after) ∈ path) :
    Consumes source (told path) := by
  obtain ⟨t, given, did⟩ := consumes
  exact ⟨t, given, List.mem_flatMap.mpr ⟨_, inside, did⟩⟩

/-- A course in which nobody adds an item to a selection or takes it out, unless by consuming the
selection. -/
def Undisturbed (source : String) (item : Item) : World → List (List Deed × World) → Prop
  | _, [] => True
  | world, (deeds, after) :: path =>
      Leaves source item world deeds after ∧ Undisturbed source item after path

theorem Undisturbed.before {earlier later : List (List Deed × World)}
    (quiet : Undisturbed source item world (earlier ++ later)) :
    Undisturbed source item world earlier := by
  induction earlier generalizing world with
  | nil => trivial
  | cons first rest ih => exact ⟨quiet.1, ih quiet.2⟩

/-- In the steps of a world nobody adds an item or takes it out, if no task does. -/
theorem undisturbed_course {host : Host} {n : Nat}
    (spared : ∀ t change, .did t (.op (.change source change)) ∈ told (course host n world) →
      change.Leaves item) : Undisturbed source item world (course host n world) := by
  induction n generalizing world with
  | zero => trivial
  | succ n ih =>
    unfold course at spared ⊢
    split at spared
    next after steps =>
      refine ⟨⟨fun t change did => spared t change (List.mem_append_left _ did), fun nothing => ?_⟩,
        ih fun t change did => spared t change (List.mem_append_right _ did)⟩
      refine selects_of_sources (sources_step steps fun t op did => ?_)
      rw [nothing] at did
      cases did
    next => trivial

/-- **What is left of a selection.** At the end of a course an item is selected if it was so before, and
nobody consumed the selection. -/
theorem Path.selects_iff (course : Path hosts jobs world path)
    (quiet : Undisturbed source item world path) :
    (final world path).Selects source item ↔
      world.Selects source item ∧ ¬ Consumes source (told path) := by
  induction course with
  | nil => exact (and_iff_left nofun).symm
  | @cons world after deeds path moves rest ih =>
    have both : Consumes source (told ((deeds, after) :: path)) ↔
        Consumes source deeds ∨ Consumes source (told path) := by
      simp only [Consumes, told, List.flatMap_cons, List.mem_append, exists_or]
    show (final after path).Selects source item ↔ _
    rw [ih quiet.2, moves.selects_iff quiet.1, both, not_or, and_assoc]

/-- So at every point of the course. -/
theorem Path.selects_at (course : Path hosts jobs world path) (selected : world.Selects source item)
    (quiet : Undisturbed source item world path) {earlier later : List (List Deed × World)}
    (split : path = earlier ++ later) :
    (final world earlier).Selects source item ↔ ¬ Consumes source (told earlier) := by
  subst split
  exact (course.split.1.selects_iff quiet.before).trans (and_iff_right selected)

/-! ## What a task has called -/

/-- A task is busy with a program until it goes on with the answer. -/
inductive Busy (world : World) (t : TaskId) {α : Type} (more : α → Job) : Prop where
  | inside {effect : Effect} {rest : effect.Reply → Program α}
      (faces : world.Faces t ((Program.act effect rest).bind more))

/-- A course of moves in which a task is busy with something, up to the end of the course, or until it
goes on with an answer. -/
inductive Settles (t : TaskId) {α : Type} (more : α → Job) : World → List (List Deed × World) → Prop where
  | soFar {world : World} (busy : world.Busy t more) : Settles t more world []
  | answered {world : World} {path : List (List Deed × World)} (answer : α)
      (goesOn : world.current = some (t, more answer)) : Settles t more world path
  | move {world after : World} {deeds : List Deed} {path : List (List Deed × World)}
      (busy : world.Busy t more) (rest : Settles t more after path) :
      Settles t more world ((deeds, after) :: path)

section Busy

variable {α : Type} {more : α → Job}

/-- Who has a program to do first is busy with it, unless there is nothing to do. -/
theorem busy_or_answered {program : Program α} (current : world.current = some (t, program.bind more)) :
    world.Busy t more ∨ ∃ answer, world.current = some (t, more answer) := by
  cases program with
  | done answer => exact .inr ⟨answer, current⟩
  | act effect rest => exact .inl ⟨.turn current⟩

/-- Who is busy stays so in a move, or has come to the answer. -/
theorem Busy.move (busy : world.Busy t more) (sound : world.Sound trace)
    (moves : Move hosts jobs world deeds after) :
    after.Busy t more ∨ ∃ answer, after.current = some (t, more answer) := by
  obtain @⟨effect, rest, faces⟩ := busy
  cases Faces.move faces sound moves with
  | waits faces => exact .inl ⟨faces⟩
  | answered reply _ goesOn => exact busy_or_answered goesOn
  | gave _ _ goesOn => exact busy_or_answered goesOn
  | @called call _ host _ goesOn =>
    have inside := Program.bind_assoc (host call).run rest more
    exact busy_or_answered (goesOn.trans (congrArg (fun job => some (t, job)) inside.symm))

/-- **A call and its answer.** Whatever is done by others, a task is busy with what it has called until it
goes on with the answer. -/
theorem Path.settles (course : Path hosts jobs world path) (reached : Reached hosts jobs world trace)
    (start : world.Busy t more ∨ ∃ answer, world.current = some (t, more answer)) :
    Settles t more world path := by
  induction course generalizing trace with
  | nil =>
    rcases start with busy | ⟨answer, goesOn⟩
    · exact .soFar busy
    · exact .answered answer goesOn
  | cons moves rest ih =>
    rcases start with busy | ⟨answer, goesOn⟩
    · exact .move busy (ih (reached.move moves) (busy.move reached.sound moves))
    · exact .answered answer goesOn

end Busy

/-! ## Invocations at their merge -/

/-- A task goes on with the answer of the operation that it has performed. -/
theorem Move.goesOn_of_did (moves : Move hosts jobs world deeds after) {op : Op} {more : op.Reply → Job}
    (did : .did t (.op op) ∈ deeds) (current : world.current = some (t, .act (.op op) more)) :
    after.current = some (t, more (world.explorer.perform (some t) op).2) := by
  cases moves with
  | step allowed steps =>
    simp only [World.step, current, Option.some.injEq] at steps
    subst steps
    rfl
  | spawn | explore | setGate | cancel | setClock | reorder => cases did

end World

/-! ### What is left of an invocation -/

namespace Action

/-- What is left of an invocation when the view has been told of the items, or has refused. -/
def onceTold (action : Action) (context : Context) (next : Except Failure Unit → Job) :
    Except Failure Unit → Job
  | .ok () => .act (.call (.callback action context)) next
  | .error failure => next (.error failure)

variable {action : Action} (source : String) (given : List Item) (args : List String) (mode : Mode)
  (next : Except Failure Unit → Job)

/-- What is left of an invocation that consumes the selection, once its action is found. -/
theorem bind_callOn_of_consumes (consumes : action.options.select = .select) :
    (action.callOn source given args mode).run.bind next =
      .act (.op (.gather source action.options.select given)) fun items =>
        .act (.call (.requestRender source items)) (action.onceTold { source, items, args, mode } next) := by
  rw [callOn_of_consumes source given args mode consumes]
  refine congrArg (Program.act _) (funext fun items => congrArg (Program.act _) (funext fun reply => ?_))
  cases reply <;> rfl

/-- What is left of one that spares the selection. -/
theorem bind_callOn_of_spares (spares : action.options.select ≠ .select) :
    (action.callOn source given args mode).run.bind next =
      .act (.op (.gather source action.options.select given)) fun items =>
        .act (.call (.callback action { source, items, args, mode })) next := by
  rw [callOn_of_spares source given args mode spares]
  rfl

end Action

namespace World

variable {hosts : Host → Prop} {jobs : Job → Prop} {world after : World} {trace deeds : List Deed}
  {t : TaskId} {source : String} {item : Item} {path : List (List Deed × World)}

/-- What an invocation does behind its merge. It calls the callback on the items that it has got. If these
have consumed the selection, it tells the view of them first, is busy with that until it is answered, and
calls the callback unless the answer is a failure. -/
structure Serves (t : TaskId) (action : Action) (context : Context) (next : Except Failure Unit → Job)
    (after : World) (later : List (List Deed × World)) : Prop where
  consuming : action.options.select = .select →
    after.current = some (t, .act (.call (.requestRender context.source context.items))
      (action.onceTold context next)) ∧
    Settles t (action.onceTold context next) after later
  sparing : action.options.select ≠ .select →
    after.current = some (t, .act (.call (.callback action context)) next)

/-- An invocation that merges items with the selection goes on with the outcome. -/
theorem Move.serves (moves : Move hosts jobs world deeds after) (reached : Reached hosts jobs world trace)
    (course : Path hosts jobs after path) {action : Action} {given : List Item} {args : List String}
    {mode : Mode} {next : Except Failure Unit → Job}
    (did : .did t (.op (.gather source action.options.select given)) ∈ deeds)
    (current : world.current = some (t, (action.callOn source given args mode).run.bind next)) :
    let items := action.options.select.merge given (world.explorer.sources source).selection.items
    Serves t action { source, items, args, mode } next after path := by
  intro items
  refine ⟨fun consumes => ?_, fun spares => ?_⟩
  · rw [Action.bind_callOn_of_consumes source given args mode next consumes] at current
    have told : after.current = some (t, .act (.call (.requestRender source items))
        (action.onceTold { source, items, args, mode } next)) := moves.goesOn_of_did did current
    refine ⟨told, course.settles (reached.move moves) (.inl ?_)⟩
    exact @Busy.inside _ _ _ _ (.call (.requestRender source items)) .done (.turn told)
  · rw [Action.bind_callOn_of_spares source given args mode next spares] at current
    exact moves.goesOn_of_did did current

/-- Behind a point of a course where the selection was consumed, the item is selected no more. -/
theorem Path.spent (course : Path hosts jobs world path) (selected : world.Selects source item)
    (quiet : Undisturbed source item world path) {first more last : List (List Deed × World)}
    (split : path = (first ++ (deeds, after) :: more) ++ last) (consumes : Consumes source deeds) :
    ¬ (final world (first ++ (deeds, after) :: more)).Selects source item := fun there =>
  (course.selects_at selected quiet split).mp there
    (consumes.told (List.mem_append_right _ List.mem_cons_self))

/-- Who consumes a selection at a point of a course where the item is selected, that nobody adds again, is the
only one to do so. -/
theorem Path.consumed_at_most_once (course : Path hosts jobs world path) (selected : world.Selects source item)
    (quiet : Undisturbed source item world path) {earlier later earlier' later' : List (List Deed × World)}
    {deeds deeds' : List Deed} {after after' : World} {t t' : TaskId} {given given' : List Item}
    (split : path = earlier ++ (deeds, after) :: later) (split' : path = earlier' ++ (deeds', after') :: later')
    (did : .did t (.op (.gather source .select given)) ∈ deeds)
    (did' : .did t' (.op (.gather source .select given')) ∈ deeds')
    (there : (final world earlier).Selects source item) (there' : (final world earlier').Selects source item) :
    earlier = earlier' ∧ t = t' ∧ given = given' := by
  have same : earlier = earlier' := by
    rcases List.append_eq_append_iff.mp (split.symm.trans split') with ⟨more, rfl, rest⟩ | ⟨more, rfl, rest⟩
    · cases more with
      | nil => exact (List.append_nil _).symm
      | cons _ others =>
        cases rest
        exact absurd there' (course.spent selected quiet split' ⟨t, given, did⟩)
    · cases more with
      | nil => exact List.append_nil _
      | cons _ others =>
        cases rest
        exact absurd there (course.spent selected quiet split ⟨t', given', did'⟩)
  subst same
  cases List.append_cancel_left (split.symm.trans split')
  -- whose turn it is did both
  cases (split ▸ course).split.2 with
  | cons moves =>
  obtain ⟨_, current⟩ := moves.current_of_did did
  obtain ⟨_, current'⟩ := moves.current_of_did did'
  cases current.symm.trans current'
  exact ⟨rfl, rfl, rfl⟩

/-- **A selection is consumed once.** Hosts and jobs gather nothing but by invoking, as runs and scripted hosts
do; otherwise tasks do whatever they do, they are started and cancelled, and their turns come in any order. At
some point an item is selected in a source, and from there on nobody adds it again or takes it out, unless by
consuming the selection.

Whoever begins to invoke comes to his merge without anybody doing anything in between, unless the name means
nothing; and whatever is gathered from the source is gathered at such a merge, together with the items that were
to be invoked with. The callback is called on what the invocation has got, unless the view has to be told of it
and fails. As long as the selection was not consumed, the item is among what an invocation gets, if its policy
looks at the selection; after that it is not, unless the invocation itself was supplied with it. So at most one
invocation that consumes the selection gets the item from there. And at every point the item is still selected
exactly if nobody has consumed the selection: to get it and to keep it does not take it out. -/
theorem consumed_once {start : World} {past : List (List Deed × World)} (starts : Starting start)
    (course : Path Host.Invokes Program.Invokes start (past ++ path))
    (selected : (final start past).Selects source item)
    (quiet : Undisturbed source item (final start past) path) :
    (∀ before behind t errand next, past ++ path = before ++ behind →
      (final start before).current = some (t, errand.program.bind next) →
      Underway (final start before) t errand next behind) ∧
    (∀ earlier deeds after later t policy given, path = earlier ++ (deeds, after) :: later →
      .did t (.op (.gather source policy given)) ∈ deeds →
      ∃ before between errand action next, past ++ earlier = before ++ between ∧
        ComesToMerge (final start before) between t errand action next ∧
        errand.source = source ∧ action.options.select = policy ∧ errand.items.toList = given ∧
        let selection := ((final start (past ++ earlier)).explorer.sources source).selection
        let items := policy.merge given selection.items
        Serves t action (errand.context items) (errand.closing action next) after later ∧
        (¬ Consumes source (told earlier) → policy = .select ∨ policy = .keep → item ∈ items) ∧
        (Consumes source (told earlier) → item ∉ given → item ∉ items)) ∧
    (∀ earlier deeds after later t given earlier' deeds' after' later' t' given',
      path = earlier ++ (deeds, after) :: later → path = earlier' ++ (deeds', after') :: later' →
      .did t (.op (.gather source .select given)) ∈ deeds →
      .did t' (.op (.gather source .select given')) ∈ deeds' →
      (final start (past ++ earlier)).Selects source item →
      (final start (past ++ earlier')).Selects source item → earlier = earlier' ∧ t = t' ∧ given = given') ∧
    ∀ earlier later, path = earlier ++ later →
      ((final start (past ++ earlier)).Selects source item ↔ ¬ Consumes source (told earlier)) := by
  obtain ⟨first, second⟩ := course.split
  have still : ∀ earlier later, path = earlier ++ later →
      ((final start (past ++ earlier)).Selects source item ↔ ¬ Consumes source (told earlier)) :=
    fun earlier later split => final_append start past earlier ▸ second.selects_at selected quiet split
  refine ⟨?_, ?_, ?_, still⟩
  · intro before behind t errand next split current
    exact (split ▸ course).split.2.underway current
  · rintro earlier deeds after later t policy given rfl did
    rw [← List.append_assoc] at course
    obtain ⟨upTo, behind⟩ := course.split
    cases behind with
    | cons moves rest =>
    obtain ⟨before, between, errand, action, next, split, comes, rfl, rfl, rfl⟩ :=
      (upTo.attributed starts).of_did moves did
    refine ⟨before, between, errand, action, next, split, comes, rfl, rfl, rfl, ?_, ?_, ?_⟩
    · have arrives := comes.arrives
      rw [← final_append, ← split] at arrives
      exact moves.serves (starts.reached.along upTo) rest did arrives
    · intro unconsumed merges
      exact (SelectPolicy.mem_merge merges _ _).mpr (.inr ((still _ _ rfl).mpr unconsumed))
    · intro consumed other mem
      exact (SelectPolicy.mem_of_mem_merge mem).elim other fun there => (still _ _ rfl).mp there consumed
  · intro earlier deeds after later t given earlier' deeds' after' later' t' given' split split' did did'
    rw [final_append, final_append]
    exact second.consumed_at_most_once selected quiet split split' did did'

/-- An action that consumes the selection, and whose callback is held up. -/
def deletion : Action :=
  { name := "delete", options := { select := .select }, callback := { script := [.awaitGate "disk"] } }

/-- An action that looks at the selection. -/
def copying : Action := { name := "copy", options := { select := .keep } }

/-- Nothing is selected, and there are no tasks yet. -/
def office : World :=
  { explorer := { sources := fun _ => { registry := { actions := [deletion, copying] } } } }

/-- One task selects an item. The others invoke an action each: one copies; one deletes, in running an
expression; one cancels that, and deletes too, with an item of its own; and the last one copies. -/
def clerks : List (String × Job) :=
  let errand (name : String) (given : List Item) : Errand :=
    { source := "files", name, items := .many given, args := [], mode := .normal }
  [("mark", (Run.op (.change "files" (.select (.node "a")))).run), ("look", (errand "copy" []).program),
    ("delete", ((Expr.leaf { name := "delete" }).run "files" .normal (.many [])).run),
    ("again", .act (.cancel "delete") fun _ => (errand "delete" [.node "b"]).program),
    ("late", (errand "copy" []).program)]

/-- The tasks are started, and the first one has selected the item. -/
def morning : List (List Deed × World) :=
  spawning office clerks ++ course silence 3 (final office (spawning office clerks))

/-- Whether a deed changes what is selected other than by a merge. -/
def Deed.changes : Deed → Bool
  | .did _ (.op (.change ..)) => true
  | _ => false

/-- What the others do then. -/
def workday : List (List Deed × World) := course silence 38 (final office morning)

/-- Who copies first sees the selected item and leaves it there; who deletes first gets it, and his callback is
called on it, held up and cancelled; the others get nothing but what they were supplied with. -/
theorem deleting_consumes :
    let item := Item.node "a"
    let gets := fun (n : Nat) (policy : SelectPolicy) (given : List Item) =>
      policy.merge given ((final office (morning ++ workday.take n)).explorer.sources "files").selection.items
    Starting office ∧ Path Host.Invokes Program.Invokes office (morning ++ workday) ∧
      (final office morning).Selects "files" item ∧ Undisturbed "files" item (final office morning) workday ∧
      item ∈ gets 2 .keep [] ∧ item ∈ gets 10 .select [] ∧ item ∉ gets 20 .select [.node "b"] ∧
      item ∉ gets 29 .keep [] ∧
      ∃ (errand : Errand) (action : Action) (next : Except Failure Unit → Job) (after : World),
        errand.items.toList = [] ∧
        Serves 2 action (errand.context (gets 10 .select [])) next after (workday.drop 11) := by
  intro item gets
  have starts : Starting office := .intro _ (fun _ => rfl) none .zero fun _ => false
  have jobs : ∀ entry ∈ clerks, entry.2.Invokes := by
    simp only [clerks, List.forall_mem_cons]
    refine ⟨.act id fun _ => .done _, Run.invokes_invoke .., Expr.invokes_run "files" .normal _ _,
      .act id fun _ => Run.invokes_invoke .., Run.invokes_invoke .., nofun⟩
  have silent : silence.Invokes := invokes_scriptedHost fun _ => {}
  have takes : Path Host.Invokes Program.Invokes office (morning ++ workday) :=
    ((path_spawning jobs office).append (path_course silent 3 _)).append (path_course silent 38 _)
  have selected : (final office morning).Selects "files" item := List.mem_singleton_self _
  have others : (told workday).all (!Deed.changes ·) = true := by decide +kernel
  have quiet : Undisturbed "files" item (final office morning) workday :=
    undisturbed_course fun t change did => nomatch List.all_eq_true.mp others _ did
  obtain ⟨-, gathers, -, -⟩ := consumed_once starts takes selected quiet
  -- where the four of them come to their merges
  obtain ⟨_, looks⟩ : ∃ after, workday = workday.take 2 ++
      ([.did 1 (.op (.gather "files" .keep []))], after) :: workday.drop 3 := ⟨_, rfl⟩
  obtain ⟨_, deletes⟩ : ∃ after, workday = workday.take 10 ++
      ([.did 2 (.op (.gather "files" .select []))], after) :: workday.drop 11 := ⟨_, rfl⟩
  obtain ⟨_, again⟩ : ∃ after, workday = workday.take 20 ++
      ([.did 3 (.op (.gather "files" .select [.node "b"]))], after) :: workday.drop 21 := ⟨_, rfl⟩
  obtain ⟨_, late⟩ : ∃ after, workday = workday.take 29 ++
      ([.did 4 (.op (.gather "files" .keep []))], after) :: workday.drop 30 := ⟨_, rfl⟩
  obtain ⟨_, _, _, _, _, -, -, -, -, -, -, sees, -⟩ := gathers _ _ _ _ _ _ _ looks (List.mem_singleton_self _)
  obtain ⟨_, _, errand, action, _, -, -, -, -, supplied, serves, gains, -⟩ :=
    gathers _ _ _ _ _ _ _ deletes (List.mem_singleton_self _)
  obtain ⟨_, _, _, _, _, -, -, -, -, -, -, -, lacks⟩ := gathers _ _ _ _ _ _ _ again (List.mem_singleton_self _)
  obtain ⟨_, _, _, _, _, -, -, -, -, -, -, -, misses⟩ := gathers _ _ _ _ _ _ _ late (List.mem_singleton_self _)
  exact ⟨starts, takes, selected, quiet, sees (by decide +kernel) (.inr rfl),
    gains (by decide +kernel) (.inl rfl), lacks (by decide +kernel) (by decide),
    misses (by decide +kernel) (by decide), errand, action, _, _, supplied, serves⟩

end World
end ActionFlow
