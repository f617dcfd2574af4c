import ActionFlow.Callback

/-!
# Tables of actions

An action is registered once under its name and never changes. Every source has a table of its own
beside the one that all sources share; a name in a source's own table hides the shared one.

## Main results

* `add_eq_error_iff`: a registration is refused exactly if the name is taken.
* `get?_add`: what a registration changes in a table.
* `register_of_error`: a registration that fails changes nothing.
* `resolve_eq_find?_merged`: looking a name up in the two tables and in the merged one is the same.
-/

namespace ActionFlow

/-- A registered action. -/
structure Action where
  name : String
  description : String := ""
  options : Options := {}
  callback : Callback := {}
  deriving Inhabited

/-- What a registration asks for; the options are as configuration gives them. -/
structure Registration where
  name : String
  description : String := ""
  options : Options.Changes := {}
  callback : Callback := {}
  deriving Inhabited

/-- The action that a registration describes, if its options can be declared. -/
def Registration.action (registration : Registration) : Except Failure Action := do
  let options ← Options.declare registration.options
  return {
    name := registration.name
    description := registration.description
    options
    callback := registration.callback }

/-- A table of actions in the order of their registration. -/
structure Registry where
  table : String := "local"
  actions : List Action := []
  deriving Inhabited

namespace Registry

/-- The action of a name. -/
def get? (registry : Registry) (name : String) : Option Action :=
  registry.actions.find? fun action => action.name = name

/-- Whether a name is taken. -/
def contains (registry : Registry) (name : String) : Bool :=
  registry.actions.any fun action => action.name = name

/-- The number of actions. -/
def size (registry : Registry) : Nat := registry.actions.length

/-- The names in the order of their registration. -/
def names (registry : Registry) : List String := registry.actions.map (·.name)

/-- The table with one more action; a name that is taken is refused. -/
def add (registry : Registry) (action : Action) : Except Failure Registry :=
  if registry.contains action.name then .error (.duplicateAction action.name registry.table)
  else .ok { registry with actions := registry.actions ++ [action] }

/-- Registers an action. Its options are declared before its name is looked at, and a registration
that fails leaves the table as it is. -/
def register (registry : Registry) (registration : Registration) :
    Registry × Except Failure Action :=
  match (do
    let action ← registration.action
    return (action, ← registry.add action) : Except Failure (Action × Registry)) with
  | .ok (action, after) => (after, .ok action)
  | .error failure => (registry, .error failure)

/-- The actions that a source with this table can resolve: the shared ones in their order, each
replaced by the one of the source's own table that hides it, then the rest of that table. -/
def merged (own shared : Registry) : List Action :=
  (shared.actions.map fun action => (own.get? action.name).getD action) ++
    own.actions.filter fun action => !shared.contains action.name

/-- The action that a name means to a source: its own one before the shared one. -/
def resolve (own shared : Registry) (name : String) : Option Action :=
  (own.get? name).or (shared.get? name)

/-! ## Small laws -/

theorem contains_eq_isSome_get? (registry : Registry) (name : String) :
    registry.contains name = (registry.get? name).isSome := by
  simp [contains, get?, List.isSome_find?]

theorem name_of_get? {registry : Registry} {name : String} {action : Action}
    (h : registry.get? name = some action) : action.name = name := by
  simpa using List.find?_some h

theorem add_eq_error_iff {registry : Registry} {action : Action} {failure : Failure} :
    registry.add action = .error failure ↔
      registry.contains action.name = true ∧
        failure = .duplicateAction action.name registry.table := by
  unfold add
  split
  · rename_i taken
    simp only [taken, true_and, Except.error.injEq]
    exact eq_comm
  · rename_i free
    simp [free]

theorem get?_add {registry after : Registry} {action : Action} (h : registry.add action = .ok after)
    (name : String) :
    after.get? name = if name = action.name then some action else registry.get? name := by
  unfold add at h
  split at h
  · simp at h
  · rename_i free
    simp only [Except.ok.injEq] at h
    subst h
    simp only [contains_eq_isSome_get?, Bool.not_eq_true,
      Option.isSome_eq_false_iff, Option.isNone_iff_eq_none] at free
    simp only [get?, List.find?_append, List.find?_cons, List.find?_nil]
    by_cases hn : name = action.name
    · subst hn
      simp only [get?] at free
      simp [free]
    · have : ¬action.name = name := fun same => hn same.symm
      simp [hn, this]

theorem register_of_error {registry after : Registry} {registration : Registration}
    {failure : Failure} (h : registry.register registration = (after, .error failure)) :
    after = registry := by
  unfold register at h
  split at h
  · simp at h
  · simp only [Prod.mk.injEq] at h
    exact h.1.symm

/-- An action that replaces another one in the merged table has its name. -/
theorem name_of_replacing (own : Registry) (action : Action) :
    ((own.get? action.name).getD action).name = action.name := by
  cases h : own.get? action.name with
  | none => rfl
  | some found => simpa using name_of_get? h

theorem resolve_eq_find?_merged (own shared : Registry) (name : String) :
    (own.merged shared).find? (fun action => action.name = name) = own.resolve shared name := by
  rw [merged, resolve, List.find?_append, List.find?_map, List.find?_filter]
  have front : shared.actions.find?
      ((fun action => decide (action.name = name)) ∘
        fun action => (own.get? action.name).getD action) = shared.get? name := by
    simp only [Function.comp_def, name_of_replacing]
    rfl
  rw [front]
  cases hs : shared.get? name with
  | some action =>
      rw [Option.map_some, name_of_get? hs]
      cases own.get? name <;> rfl
  | none =>
      have back : ∀ action : Action, ((!shared.contains action.name) = true ∧
          decide (action.name = name) = true) = (action.name = name) := by
        intro action
        by_cases h : action.name = name
        · simp [h, contains_eq_isSome_get?, hs]
        · simp [h]
      simp only [back, Option.map_none, Option.none_or, Option.or_none]
      rfl

end Registry
end ActionFlow
