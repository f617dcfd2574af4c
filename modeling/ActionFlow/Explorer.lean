import ActionFlow.Amend
import ActionFlow.Event
import ActionFlow.Registry
import ActionFlow.Selection

/-!
# The state of an explorer

An explorer shows several sources. Each has a table of actions of its own, a selection, a root and a
set of expanded items; all share one further table. Beside that the explorer keeps the keys of the
barrier that were put aside under a name, and the journal of what happened.

An `Op` is one look at this state or one change of it, with its answer. Running tasks touch the
state through such operations only, one at a time.

## Main results

* `sources_update_of_ne`: changing one source leaves every other source as it is.
-/

namespace ActionFlow

/-- The number of a pause; it serves as the key to the barrier if the pause was for the barrier. -/
abbrev PauseId := Nat

/-- The number of a task. -/
abbrev TaskId := Nat

/-! ## Merging with the selection -/

namespace SelectPolicy

/-- The items that an action is called with: those given and, by some policies, those selected. -/
def merge (policy : SelectPolicy) (given selected : List Item) : List Item :=
  match policy with
  | select | keep => uniq (given ++ selected)
  | visual => given
  | replaceSingle => given.take 1

/-- The selection that a policy leaves behind. -/
def remaining (policy : SelectPolicy) (selection : Selection Item) : Selection Item :=
  match policy with
  | select => {}
  | replaceSingle | visual | keep => selection

end SelectPolicy

/-! ## The state -/

/-- A source as an explorer shows it. -/
structure Source where
  registry : Registry := {}
  root : Item := .nothing
  selection : Selection Item := {}
  expanded : List Item := []
  deriving Inhabited

/-- The parts that an item falls into when it is taken for a row of items. -/
inductive Parts where
  /-- The item cannot be gone through. -/
  | none
  /-- The item has this many parts. -/
  | some (count : Nat)
  deriving DecidableEq, Repr, Inhabited

/-- What an explorer knows of an item beside its key. -/
structure Traits where
  expandable : Bool := false
  parts : Parts := .none
  /-- Whether it can be said of the item that it is expandable, or that it is not. -/
  changeable : Bool := false
  deriving DecidableEq, Repr, Inhabited

/-- The state of an explorer. `depth` is the number of callbacks of a task that are inside each other.
The journal holds the latest event first, with the task that caused it if it was one. -/
structure Explorer where
  sources : String → Source := fun _ => {}
  shared : Registry := { table := "global" }
  traits : Item → Traits := fun _ => {}
  keys : String → Option PauseId := fun _ => Option.none
  depth : Option TaskId → Nat := fun _ => 0
  journal : List (Option TaskId × Event) := []
  deriving Inhabited

/-! ## Operations -/

/-- A look at the state of an explorer, or a change of it. -/
inductive Op where
  /-- The action that a name means to a source. -/
  | resolve (source name : String)
  /-- The items that an action is called with; the policy may consume the selection. -/
  | gather (source : String) (policy : SelectPolicy) (given : List Item)
  /-- The answer of a rule for an item. -/
  | test (source : String) (rule : Rule) (item : Item)
  /-- The root of a source. -/
  | rootOf (source : String)
  /-- The parts of an item that is taken for a row of items. -/
  | partsOf (item : Item)
  /-- Writes an event into the journal. -/
  | record (event : Event)
  /-- Changes a source. -/
  | change (source : String) (change : Change)
  /-- Makes an item expandable or not, if it can be changed. -/
  | setExpandable (item : Item) (truth : Bool)
  /-- Registers an action in the table of a source, or in the shared one. -/
  | register (table : Option String) (registration : Registration)
  /-- Puts a key to the barrier aside. -/
  | keep (hold : String) (key : PauseId)
  /-- A key that was put aside. -/
  | keyOf (hold : String)
  /-- Enters a callback, unless too many are inside each other. -/
  | enter
  /-- Leaves the callback that was entered last. -/
  | leave

/-- The answer of an operation. -/
def Op.Reply : Op → Type
  | resolve .. => Option Action
  | gather .. => List Item
  | test .. => Bool
  | rootOf .. => Item
  | partsOf .. => Parts
  | record .. | change .. | keep .. | leave => Unit
  | register .. | setExpandable .. | enter => Except Failure Unit
  | keyOf .. => Option PauseId

namespace Explorer

/-- Replaces the state of one source. -/
def update (explorer : Explorer) (source : String) (f : Source → Source) : Explorer :=
  { explorer with sources := amend explorer.sources source (f (explorer.sources source)) }

/-- Writes an event into the journal. -/
def record (explorer : Explorer) (who : Option TaskId) (event : Event) : Explorer :=
  { explorer with journal := (who, event) :: explorer.journal }

/-- The answer of a rule for an item. -/
def holds (explorer : Explorer) (source : String) (rule : Rule) (item : Item) : Bool :=
  match rule with
  | .expandable => (explorer.traits item).expandable
  | .expanded => decide (item ∈ (explorer.sources source).expanded)
  | .selected => (explorer.sources source).selection.contains item
  | .root => decide (item = (explorer.sources source).root)

/-- Makes an item expandable or not, if it can be changed. -/
def setExpandable (explorer : Explorer) (item : Item) (truth : Bool) :
    Explorer × Except Failure Unit :=
  let traits := explorer.traits item
  if traits.changeable then
    ({ explorer with traits := amend explorer.traits item { traits with expandable := truth } },
      .ok ())
  else (explorer, .error .lacking)

/-- Changes a source. -/
def change (explorer : Explorer) (source : String) : Change → Explorer
  | .select item =>
      explorer.update source fun s => { s with selection := s.selection.add item }
  | .deselect item =>
      explorer.update source fun s => { s with selection := s.selection.discard item }
  | .clear => explorer.update source fun s => { s with selection := {} }
  | .expand item =>
      explorer.update source fun s =>
        { s with expanded := if item ∈ s.expanded then s.expanded else s.expanded ++ [item] }
  | .collapse item =>
      explorer.update source fun s => { s with expanded := s.expanded.filter (· ≠ item) }
  | .setRoot item => explorer.update source fun s => { s with root := item }

/-- Registers an action in the table of a source, or in the shared one, and notes it. -/
def register (explorer : Explorer) (who : Option TaskId) (table : Option String)
    (registration : Registration) : Explorer × Except Failure Unit :=
  let registry := match table with
    | some source => (explorer.sources source).registry
    | none => explorer.shared
  match registry.register registration with
  | (_, .error failure) => (explorer, .error failure)
  | (registry, .ok action) =>
      let changed := match table with
        | some source => explorer.update source fun s => { s with registry }
        | none => { explorer with shared := registry }
      (changed.record who (.noted (.registered registry.table action.name)), .ok ())

/-- The most callbacks of a task that can be inside each other. -/
def mostInside : Nat := 333

/-- Enters a callback, unless too many are inside each other. -/
def enter (explorer : Explorer) (who : Option TaskId) : Explorer × Except Failure Unit :=
  if explorer.depth who < mostInside then
    ({ explorer with depth := amend explorer.depth who (explorer.depth who + 1) }, .ok ())
  else (explorer, .error .tooDeep)

/-- Leaves the callback that was entered last. -/
def leave (explorer : Explorer) (who : Option TaskId) : Explorer :=
  { explorer with depth := amend explorer.depth who (explorer.depth who - 1) }

/-- Performs an operation on behalf of a task. -/
def perform (explorer : Explorer) (who : Option TaskId) : (op : Op) → Explorer × op.Reply
  | .resolve source name =>
      (explorer, (explorer.sources source).registry.resolve explorer.shared name)
  | .gather source policy given =>
      (explorer.update source fun s => { s with selection := policy.remaining s.selection },
        policy.merge given (explorer.sources source).selection.items)
  | .test source rule item => (explorer, explorer.holds source rule item)
  | .rootOf source => (explorer, (explorer.sources source).root)
  | .partsOf item => (explorer, (explorer.traits item).parts)
  | .record event => (explorer.record who event, ())
  | .change source change => (explorer.change source change, ())
  | .setExpandable item truth => explorer.setExpandable item truth
  | .register table registration => explorer.register who table registration
  | .keep hold key => ({ explorer with keys := amend explorer.keys hold (some key) }, ())
  | .keyOf hold => (explorer, explorer.keys hold)
  | .enter => explorer.enter who
  | .leave => (explorer.leave who, ())

/-! ## Small laws -/

@[simp] theorem sources_update_self (explorer : Explorer) (source : String) (f : Source → Source) :
    (explorer.update source f).sources source = f (explorer.sources source) := by
  simp [update]

theorem sources_update_of_ne {source other : String} (h : other ≠ source) (explorer : Explorer)
    (f : Source → Source) : (explorer.update source f).sources other = explorer.sources other := by
  simp [update, amend_of_ne h]

end Explorer
end ActionFlow
