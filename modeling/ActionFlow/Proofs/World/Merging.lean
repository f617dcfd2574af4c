import Mathlib.Data.List.Nodup
import ActionFlow.Proofs.Running.Consuming
import ActionFlow.Proofs.Selections.Union
import ActionFlow.Proofs.World.Consumed
import ActionFlow.Script

/-!
# What a callback gets

Before an action's callback is called, the items that were given are merged with the selection as the
action's policy says, and a policy that consumes the selection has it emptied and its view told. All of
this happens within one turn. Items are told apart by what they are and not by what they look like, so
two nodes that compare as equal are two items.

## Main results

* `FirstOfEach`: a row without its repetitions, said without saying how to get there;
  `FirstOfEach.unique`: there is only one such row.
* `SelectPolicy.merges_merge`: what merging comes to, policy by policy.
* `World.callback_gets_merged`: what a callback is called with, and what has happened to the selection and
  the view by then.
-/

namespace ActionFlow

/-! ## Rows without repetitions -/

/-- The items of a row that satisfy a condition: each of them once, in the order in which they stand
first in the row. -/
structure FirstOfEach (row : List Item) (among : Item → Prop) (items : List Item) : Prop where
  mem_iff : ∀ item, item ∈ items ↔ item ∈ row ∧ among item
  inOrder : items.Pairwise fun item other => row.idxOf item < row.idxOf other

namespace FirstOfEach

variable {row items others : List Item} {among : Item → Prop}

theorem nodup (h : FirstOfEach row among items) : items.Nodup :=
  h.inOrder.imp fun {item other} (before : row.idxOf item < row.idxOf other) (same : item = other) =>
    Nat.lt_irrefl _ (same ▸ before)

/-- The condition and the row leave no choice. -/
theorem unique (h : FirstOfEach row among items) (h' : FirstOfEach row among others) : items = others := by
  have same : items.Perm others := (List.perm_ext_iff_of_nodup h.nodup h'.nodup).mpr fun item =>
    (h.mem_iff item).trans (h'.mem_iff item).symm
  refine same.eq_of_pairwise (fun item other _ _ before after => ?_) h.inOrder h'.inOrder
  exact absurd before (Nat.lt_asymm after)

/-- A further condition picks from the row as it stands. -/
theorem filter (h : FirstOfEach row (fun _ => True) items) (p : Item → Bool) :
    FirstOfEach row (fun item => p item = true) (items.filter p) where
  mem_iff item := by simp only [List.mem_filter, h.mem_iff, and_true]
  inOrder := h.inOrder.filter p

end FirstOfEach

theorem firstOfEach_uniq (row : List Item) : FirstOfEach row (fun _ => True) (uniq row) where
  mem_iff item := mem_uniq.trans (and_iff_left trivial).symm
  inOrder := by
    induction row with
    | nil => exact .nil
    | cons first rest ih =>
      refine .cons (fun item member => ?_) ?_
      · have other : item ≠ first := of_decide_eq_true (List.mem_filter.mp member).2
        rw [List.idxOf_cons_self, List.idxOf_cons_ne _ other.symm]
        exact Nat.succ_pos _
      · refine (ih.filter _).imp_of_mem fun {item other} here there before => ?_
        have differs : ∀ {x}, x ∈ (uniq rest).filter (· ≠ first) → first ≠ x := fun member =>
          (of_decide_eq_true (List.mem_filter.mp member).2).symm
        rw [List.idxOf_cons_ne _ (differs here), List.idxOf_cons_ne _ (differs there)]
        exact Nat.succ_lt_succ before

/-! ## Merging -/

/-- What merging given items with a selection comes to. With `select` and `keep` it is the union: each
item once, first those given, in their order, and then those that are selected only, in the order of
their selection. -/
structure SelectPolicy.Merges (policy : SelectPolicy) (given selected merged : List Item) : Prop where
  union : policy = .select ∨ policy = .keep → ∃ first second,
    merged = first ++ second ∧ FirstOfEach given (fun _ => True) first ∧
      FirstOfEach selected (· ∉ given) second ∧
      ∀ item, merged.count item = if item ∈ given ∨ item ∈ selected then 1 else 0
  verbatim : policy = .visual → merged = given
  single : policy = .replaceSingle → merged = given.head?.toList

/-- A union holds each item once, however often it was given and whether or not it is selected too. -/
theorem count_uniq (row : List Item) (item : Item) : (uniq row).count item = if item ∈ row then 1 else 0 := by
  split
  next member => exact List.count_eq_one_of_mem (uniq_nodup row) (mem_uniq.mpr member)
  next absent => exact List.count_eq_zero.mpr (mt mem_uniq.mp absent)

theorem SelectPolicy.merges_merge (policy : SelectPolicy) (given selected : List Item) :
    policy.Merges given selected (policy.merge given selected) where
  union unites := by
    have union : policy.merge given selected = uniq (given ++ selected) := by
      rcases unites with rfl | rfl <;> rfl
    refine ⟨uniq given, (uniq selected).filter (· ∉ given), union.trans (uniq_append given selected),
      firstOfEach_uniq given, ?_, fun item => ?_⟩
    · have picked := (firstOfEach_uniq selected).filter fun item => decide (item ∉ given)
      simpa only [decide_eq_true_eq] using picked
    · simp only [union, count_uniq, List.mem_append]
  verbatim visual := by subst visual; rfl
  single replaces := by
    subst replaces
    cases given <;> rfl

/-! ## Views that are told to render items -/

/-- Whether an operation leaves the selection of a source as it is. -/
def Op.SparesSelection (source : String) (op : Op) : Prop :=
  ∀ (explorer : Explorer) (who : Option TaskId),
    ((explorer.perform who op).1.sources source).selection = (explorer.sources source).selection

/-- Whether the view of a source does no more than to take note of what it is asked to render, at once
and without touching the selection. It may refuse. -/
def Host.TakesNote (host : Host) (source : String) : Prop :=
  ∀ items, (host (.requestRender source items)).Honours
    { allows := fun effect => ∃ op, effect = .op op ∧ op.SparesSelection source }

/-- Scripted views do so. -/
theorem scriptedHost_takesNote (views : String → View) (source : String) :
    (scriptedHost views).TakesNote source := fun items =>
  Run.Honours.bind (Run.honours_op (.record (.requested source items)) ⟨_, rfl, fun _ _ => rfl⟩)
    fun _ => Run.honours_failIf _

namespace World

variable {world : World} {t : TaskId} {source name : String}

/-- The steps behind some steps. -/
theorem steps_add (host : Host) (m n : Nat) (now : World × List Deed) :
    steps host (m + n) now = steps host n (steps host m now) := by
  induction m generalizing now with
  | zero => rw [Nat.zero_add]; rfl
  | succ m ih =>
    rw [Nat.succ_add]
    simp only [steps]
    cases stuck : now.1.step host with
    | some after => exact ih _
    | none =>
      cases n with
      | zero => rfl
      | succ n => simp only [steps, stuck]

/-- A task performs an operation. -/
theorem steps_op (host : Host) (n : Nat) (trace : List Deed) {op : Op} {next : op.Reply → Job}
    (current : world.current = some (t, .act (.op op) next)) :
    steps host (n + 1) (world, trace) =
      steps host n (world.perform host t (.op op) next, trace ++ [.did t (.op op)]) := by
  have deeds : world.deeds = [.did t (.op op)] := by simp only [World.deeds, current]
  simp only [steps, World.step, current, deeds]

/-- A program of operations that spare the selection is done within the turn, and the selection is as it
was. -/
theorem steps_of_sparing (host : Host) {α : Type} {program : Program α} {more : α → Job}
    (sparing : program.Honours { allows := fun effect => ∃ op, effect = .op op ∧ op.SparesSelection source })
    (current : world.current = some (t, program.bind more)) (trace : List Deed) :
    ∃ n answer operations,
      let now := steps host n (world, trace)
      now.2 = trace ++ operations ∧ (∀ deed ∈ operations, ∃ op, deed = .did t (.op op)) ∧
        (now.1.explorer.sources source).selection = (world.explorer.sources source).selection ∧
        now.1.current = some (t, more answer) := by
  induction program generalizing world trace with
  | done answer => exact ⟨0, answer, [], (List.append_nil trace).symm, nofun, rfl, current⟩
  | act effect next ih =>
    obtain ⟨⟨op, rfl, spares⟩, rest⟩ := sparing
    let job : op.Reply → Job := fun reply => (next reply).bind more
    have current : world.current = some (t, .act (.op op) job) := current
    have goesOn : (world.perform host t (.op op) job).current = some (t, Program.bind _ more) := rfl
    obtain ⟨n, answer, operations, told, only, spared, answered⟩ :=
      ih (world.explorer.perform (some t) op).2 (rest _ fun _ _ => trivial) goesOn
        (trace ++ [.did t (.op op)])
    refine ⟨n + 1, answer, .did t (.op op) :: operations, ?_⟩
    rw [steps_op host n trace current]
    refine ⟨told.trans (by simp), ?_, spared.trans (spares _ _), answered⟩
    rintro deed (_ | ⟨_, member⟩)
    · exact ⟨op, rfl⟩
    · exact only deed member

/-- The next thing that a task does is to call the callback of an action. -/
def CallsBack (world : World) (t : TaskId) (action : Action) (context : Context) : Prop :=
  ∃ more, world.current = some (t, .act (.call (.callback action context)) more)

end World

/-! ## Invocations up to the callback -/

namespace World

variable {world : World} {t : TaskId} {source name : String} {items : Supply} {args : List String}
  {mode : Mode} {next : Except Failure Unit → Job} {action : Action}

/-- What is ensured comes behind the body, and so does what goes on with the outcome. -/
theorem exists_bind_ensuring {α β : Type} (body : Run α) (cleanup : Run Unit)
    (next : Except Failure α → Program β) :
    ∃ more, (Run.ensuring body cleanup).run.bind next = body.run.bind more :=
  ⟨_, (congrArg (fun whole => Program.bind whole next) (Run.run_ensuring body cleanup)).trans
    (Program.bind_assoc ..)⟩

/-- An invocation finds its action, and goes on to call it. -/
theorem steps_of_found (host : Host)
    (current : world.current = some (t, (invoke source name items args mode).run.bind next))
    (found : (world.explorer.sources source).registry.resolve world.explorer.shared name = some action) :
    ∃ more, ∀ n trace, steps host (n + 1) (world, trace) =
      steps host n (world.continueWith t ((action.callOn source items.toList args mode).run.bind more),
        trace ++ [.did t (.op (.resolve source name))]) := by
  obtain ⟨more, same⟩ := exists_bind_ensuring (action.callOn source items.toList args mode)
    (Action.followUp action.options source name) next
  refine ⟨more, fun n trace => (steps_op host n trace current).trans ?_⟩
  simp only [perform, Explorer.perform, found, ← same]
  rfl

/-- **What a callback gets.** An invocation looks its action up and merges the items that it was given
with the selection. If the action spares the selection, its callback is what comes next: it is called with
the merged items, while the selection is as it was and the view has been told nothing. If the action
consumes the selection, that is emptied first and the view is told of the merged items once; then the
callback is called with the same items, while the selection is still empty. -/
theorem callback_gets_merged (host : Host)
    (current : world.current = some (t, (invoke source name items args mode).run.bind next))
    (found : (world.explorer.sources source).registry.resolve world.explorer.shared name = some action) :
    let selection := (world.explorer.sources source).selection
    ∃ merged, action.options.select.Merges items.toList selection.items merged ∧
      let context : Context := { source, items := merged, args, mode }
      let lookups : List Deed := [.did t (.op (.resolve source name)),
        .did t (.op (.gather source action.options.select items.toList))]
      (action.options.select ≠ .select →
        let now := steps host 2 (world, [])
        now.2 = lookups ∧ now.1.CallsBack t action context ∧
          (now.1.explorer.sources source).selection = selection) ∧
      (action.options.select = .select →
        let asking := steps host 2 (world, [])
        (asking.2 = lookups ∧ (asking.1.explorer.sources source).selection.items = [] ∧
          ∃ more, asking.1.current = some (t, .act (.call (.requestRender source merged)) more)) ∧
        (host.TakesNote source → ∃ n answer operations more,
          let now := steps host (3 + n) (world, [])
          now.2 = lookups ++ .did t (.call (.requestRender source merged)) :: operations ∧
            (∀ deed ∈ operations, ∃ op, deed = .did t (.op op)) ∧
            (now.1.explorer.sources source).selection.items = [] ∧
            now.1.current = some (t, action.onceTold context more answer) ∧
            (answer = .ok () → now.1.CallsBack t action context))) := by
  intro selection
  obtain ⟨more, goesOn⟩ := steps_of_found host current found
  have gathered := Explorer.selection_gather world.explorer (some t) source action.options.select items.toList
  refine ⟨_, action.options.select.merges_merge items.toList selection.items, fun spares => ?_,
    fun consumes => ?_⟩
  · rw [Action.bind_callOn_of_spares source items.toList args mode more spares] at goesOn
    refine ⟨congrArg Prod.snd (goesOn 1 []), ⟨more, ?_⟩, ?_⟩
    · exact congrArg (fun now => now.1.current) (goesOn 1 [])
    · rw [goesOn 1 []]
      exact gathered.trans (SelectPolicy.remaining_of_ne spares selection)
  · rw [Action.bind_callOn_of_consumes source items.toList args mode more consumes] at goesOn
    have emptied : (((steps host 2 (world, [])).1.explorer.sources source).selection).items = [] := by
      rw [goesOn 1 []]
      exact congrArg Selection.items (gathered.trans (congrArg (·.remaining selection) consumes))
    refine ⟨⟨congrArg Prod.snd (goesOn 1 []), emptied, _,
      congrArg (fun now => now.1.current) (goesOn 1 [])⟩, fun takesNote => ?_⟩
    -- from here on the view answers, within the same turn
    have asked : (steps host 3 (world, [])).1.current = some (t, Program.bind _ _) :=
      congrArg (fun now => now.1.current) (goesOn 2 [])
    obtain ⟨n, answer, operations, told, only, spared, answered⟩ :=
      steps_of_sparing host (takesNote _) asked (steps host 3 (world, [])).2
    refine ⟨n, answer, operations, more, ?_⟩
    rw [steps_add]
    refine ⟨told.trans ?_, only, ?_, answered, fun agreed => ⟨more, ?_⟩⟩
    · rw [goesOn 2 []]
      rfl
    · refine (congrArg Selection.items spared).trans ?_
      rw [goesOn 2 []]
      exact congrArg Selection.items (gathered.trans (congrArg (·.remaining selection) consumes))
    · subst agreed
      exact answered

/-- An action that consumes the selection and takes nodes for what they are. -/
def archiving : Action := { name := "archive", options := { select := .select } }

/-- It is a task's turn to invoke that action on three items, two of which are the same. Two items are
selected, one of which is given too. The explorer knows the same of all of them. -/
def archivist : World :=
  let source : Source :=
    { registry := { actions := [archiving] }, selection := ⟨[.node "a", .node "c"]⟩ }
  let given : Supply := .many [.node "b", .node "a", .node "b"]
  let idle := (({ explorer := { sources := fun _ => source } } : World).spawn "first"
    (invoke "files" "archive" given [] .normal).run).1
  (steps (scriptedHost fun _ => {}) 1 (idle, [])).1

/-- The callback gets all three nodes, each once, and nothing is selected any more. -/
theorem callback_gets_merged_of_overlap :
    let host := scriptedHost fun _ => {}
    let merged : List Item := [.node "b", .node "a", .node "c"]
    let context : Context := { source := "files", items := merged, args := [], mode := .normal }
    SelectPolicy.select.Merges [.node "b", .node "a", .node "b"] [.node "a", .node "c"] merged ∧
      (∃ n answer more, ((steps host (3 + n) (archivist, [])).1.explorer.sources "files").selection.items = [] ∧
        (steps host (3 + n) (archivist, [])).1.current = some (0, archiving.onceTold context more answer)) ∧
      (steps host 4 (archivist, [])).1.CallsBack 0 archiving context := by
  intro host merged context
  have current : archivist.current = some (0,
      (invoke "files" "archive" (.many [.node "b", .node "a", .node "b"]) [] .normal).run.bind .done) :=
    congrArg (fun job => some (0, job)) (Program.bind_done _).symm
  have found : (archivist.explorer.sources "files").registry.resolve archivist.explorer.shared "archive" =
      some archiving := rfl
  obtain ⟨got, merges, -, consuming⟩ := callback_gets_merged host current found
  obtain ⟨first, second, rfl, given, selected, -⟩ := merges.union (.inl rfl)
  have firstEq : first = [.node "b", .node "a"] := given.unique (firstOfEach_uniq _)
  have secondEq : second = [.node "c"] := by
    have picked := (firstOfEach_uniq [.node "a", .node "c"]).filter fun item =>
      decide (item ∉ [.node "b", .node "a", .node "b"])
    simp only [decide_eq_true_eq] at picked
    exact selected.unique picked
  subst firstEq secondEq
  obtain ⟨-, after⟩ := consuming rfl
  obtain ⟨n, answer, -, more, -, -, empty, goesOn, -⟩ := after (scriptedHost_takesNote _ _)
  exact ⟨merges, ⟨n, answer, more, empty, goesOn⟩, ⟨_, rfl⟩⟩

end World
end ActionFlow
