import Mathlib.Data.List.Nodup
import ActionFlow.Proofs.Selections.Insertion

/-!
# Selections kept in tables

A table keeps things by their identities, in the order in which the identities came in, so things that look
alike are kept apart. Adding a thing puts it under its identity, in the place of whatever is kept there, and
discarding it takes out whatever is kept under its identity.

An identity belongs to a thing only as long as the thing is there. When it is gone, another one may get the
same identity. But what a table keeps is there, so nothing that is handled meanwhile has the identity of
another thing in the table. This is all that is asked of identities, and it is enough for a table to be that of
a selection after every history.

## Main results

* `Table.Kept.after`: whatever is done to a table, each of its keys is the identity of what is kept by it.
* `Table.handle_tableOf`: what is done to the table of a selection is done to the selection.
* `Table.after_tableOf`: so the table of a selection is that of the selection after every history.
-/

namespace ActionFlow

variable {α κ : Type}

/-- Things by their identities, in the order in which the identities came in. -/
abbrev Table (κ α : Type) : Type := List (κ × α)

/-- Puts a thing into a table; if its identity is there, it is passed over. -/
def keepFirst [DecidableEq κ] (identity : α → κ) (table : List (κ × α)) (x : α) : List (κ × α) :=
  if identity x ∈ table.map (·.1) then table else table ++ [(identity x, x)]

/-- Puts a thing into a table; if its identity is there, the thing takes the place of what is kept by it. -/
def keepLast [DecidableEq κ] (identity : α → κ) (table : List (κ × α)) (x : α) : List (κ × α) :=
  if identity x ∈ table.map (·.1) then
    table.map fun entry => if entry.1 = identity x then (entry.1, x) else entry
  else table ++ [(identity x, x)]

/-- The table of what is selected. -/
def tableOf (identity : α → κ) (selection : Selection α) : Table κ α :=
  selection.items.map fun x => (identity x, x)

/-- The thing that is handled, if it is only one. -/
def Handling.thing? : Handling α → Option α
  | add x | discard x => some x
  | clear => none

namespace Table

/-! ## What a table keeps -/

/-- The things in a table, in order. -/
def values (table : Table κ α) : List α := table.map (·.2)

/-- The number of things in a table. -/
def size (table : Table κ α) : Nat := table.length

/-- Whether there is anything in a table. -/
def holdsAny (table : Table κ α) : Bool := !table.isEmpty

/-- Goes through what is in a table at the start, whatever `body` does to the table meanwhile; gives what was
visited and the table that is left. -/
def forEach (table : Table κ α) (body : α → Table κ α → Table κ α) : List α × Table κ α :=
  (table.values, table.values.foldl (fun now x => body x now) table)

/-- **Each key is the identity of what is kept by it**, and no key is there twice. -/
structure Kept (identity : α → κ) (table : Table κ α) : Prop where
  keyed : ∀ entry ∈ table, entry.1 = identity entry.2
  distinct : (table.map (·.1)).Nodup

/-- Whether a thing is told by its identity from everything else that is in a table. -/
def Tells (identity : α → κ) (table : Table κ α) (x : α) : Prop :=
  ∀ y ∈ table.values, identity y = identity x → y = x

instance [DecidableEq α] [DecidableEq κ] (identity : α → κ) (table : Table κ α) (x : α) :
    Decidable (table.Tells identity x) :=
  inferInstanceAs (Decidable (∀ y ∈ table.values, identity y = identity x → y = x))

section Keys

variable {identity : α → κ} {table : Table κ α} {selection : Selection α} {x y : α}

theorem kept_nil : Kept identity ([] : Table κ α) := ⟨nofun, .nil⟩

/-- What is kept under the same identity is the same. -/
theorem Kept.eq_of_identity (kept : table.Kept identity) (hx : x ∈ table.values) (hy : y ∈ table.values)
    (same : identity x = identity y) : x = y := by
  obtain ⟨entry, inside, rfl⟩ := List.mem_map.mp hx
  obtain ⟨other, inside', rfl⟩ := List.mem_map.mp hy
  rw [← kept.keyed entry inside, ← kept.keyed other inside'] at same
  exact congrArg Prod.snd (List.inj_on_of_nodup_map kept.distinct inside inside' same)

theorem values_tableOf (selection : Selection α) : (tableOf identity selection).values = selection.items := by
  rw [tableOf, values, List.map_map]
  exact List.map_id _

theorem tells_tableOf_iff :
    (tableOf identity selection).Tells identity x ↔ ∀ y ∈ selection.items, identity y = identity x → y = x := by
  rw [Tells, values_tableOf]

/-- A thing that is told by its identity is in the table if it is selected. -/
theorem identity_mem_tableOf (apart : (tableOf identity selection).Tells identity x) :
    identity x ∈ (tableOf identity selection).map (·.1) ↔ x ∈ selection.items := by
  rw [tells_tableOf_iff] at apart
  simp only [tableOf, List.map_map, List.mem_map, Function.comp_apply]
  constructor
  · rintro ⟨y, inside, same⟩
    exact apart y inside same ▸ inside
  · exact fun inside => ⟨x, inside, rfl⟩

end Keys

/-! ## What can be done with a table -/

section Handling

variable [DecidableEq κ] (identity : α → κ)

/-- Whether something is kept under the identity of a thing. -/
def has (table : Table κ α) (x : α) : Bool := decide (identity x ∈ table.map (·.1))

/-- Takes out what is kept under an identity, if anything is. -/
def pop (table : Table κ α) (key : κ) : Table κ α := table.filter (·.1 ≠ key)

/-- Does something to a table. -/
def handle (table : Table κ α) : Handling α → Table κ α
  | .add x => keepLast identity table x
  | .discard x => table.pop (identity x)
  | .clear => []

/-- Does one thing after the other. -/
def after (table : Table κ α) (history : List (Handling α)) : Table κ α :=
  history.foldl (handle identity) table

/-- The table that putting the things of a list into it one by one gives. -/
def ofList (xs : List α) : Table κ α := xs.foldl (keepLast identity) []

/-- Whether everything that a history handles is told by its identity from what is in the table at that time.
Things that are there together have different identities, so this is true of whatever is handled while it is
there, also if it has got the identity of a thing that is in the table no more. -/
def ToldApart : Table κ α → List (Handling α) → Prop
  | _, [] => True
  | table, handling :: later =>
      (∀ x ∈ handling.thing?, table.Tells identity x) ∧ ToldApart (table.handle identity handling) later

instance toldApartDecidable [DecidableEq α] : (table : Table κ α) → (history : List (Handling α)) →
    Decidable (ToldApart identity table history)
  | _, [] => .isTrue trivial
  | table, handling :: later =>
      have := toldApartDecidable (table.handle identity handling) later
      inferInstanceAs (Decidable (_ ∧ _))

variable {identity} {table : Table κ α} {history : List (Handling α)} {handling : Handling α} {y : α}

theorem after_append (table : Table κ α) (history later : List (Handling α)) :
    table.after identity (history ++ later) = (table.after identity history).after identity later :=
  List.foldl_append

/-- Putting the things of a list into a table is a history, too. -/
theorem ofList_eq_after (xs : List α) : ofList identity xs = after identity [] (xs.map .add) := by
  rw [ofList, after, List.foldl_map]
  rfl

theorem mem_values_handle (inside : y ∈ (table.handle identity handling).values) :
    y ∈ table.values ∨ handling.thing? = some y := by
  cases handling with
  | add x =>
    rw [handle, keepLast] at inside
    split at inside
    · obtain ⟨_, changed, rfl⟩ := List.mem_map.mp inside
      obtain ⟨entry, before, rfl⟩ := List.mem_map.mp changed
      split
      · exact .inr rfl
      · exact .inl (List.mem_map_of_mem before)
    · rw [values, List.map_append] at inside
      exact (List.mem_append.mp inside).imp_right fun new => congrArg some (List.mem_singleton.mp new).symm
  | discard x => exact .inl ((List.filter_sublist.map _).subset inside)
  | clear => cases inside

/-- Among things with different identities, everything is told apart. -/
theorem toldApart_of_injective {among : α → Prop}
    (distinct : ∀ x y, among x → among y → identity x = identity y → x = y)
    (held : ∀ y ∈ table.values, among y) (handled : ∀ handling ∈ history, ∀ x ∈ handling.thing?, among x) :
    table.ToldApart identity history := by
  induction history generalizing table with
  | nil => trivial
  | cons handling later ih =>
    obtain ⟨first, others⟩ := List.forall_mem_cons.mp handled
    refine ⟨fun x here y inside => distinct y x (held y inside) (first x here), ih (fun y inside => ?_) others⟩
    exact (mem_values_handle inside).elim (held y) (first y)

/-! ### Keys -/

namespace Kept

theorem keepLast (kept : table.Kept identity) (x : α) :
    Table.Kept identity (keepLast identity table x) := by
  unfold ActionFlow.keepLast
  split
  next taken =>
    have keys : (table.map fun entry => if entry.1 = identity x then (entry.1, x) else entry).map (·.1) =
        table.map (·.1) := by
      rw [List.map_map]
      refine List.map_congr_left fun entry _ => ?_
      by_cases here : entry.1 = identity x <;> simp [here]
    refine ⟨fun entry changed => ?_, keys ▸ kept.distinct⟩
    obtain ⟨before, inside, rfl⟩ := List.mem_map.mp changed
    split
    next here => exact here
    next => exact kept.keyed before inside
  next absent =>
    refine ⟨fun entry inside => ?_, ?_⟩
    · rcases List.mem_append.mp inside with inside | inside
      · exact kept.keyed entry inside
      · rw [List.mem_singleton.mp inside]
    · rw [List.map_append]
      exact kept.distinct.append (List.nodup_singleton _) (List.disjoint_singleton.mpr absent)

theorem pop (kept : table.Kept identity) (key : κ) : (table.pop key).Kept identity where
  keyed entry inside := kept.keyed entry (List.mem_filter.mp inside).1
  distinct := kept.distinct.sublist (List.filter_sublist.map _)

theorem handle (kept : table.Kept identity) (handling : Handling α) :
    (table.handle identity handling).Kept identity := by
  cases handling with
  | add x => exact kept.keepLast x
  | discard x => exact kept.pop (identity x)
  | clear => exact kept_nil

/-- **Whatever is done to a table**, its keys are the identities of what it keeps. -/
theorem after (kept : table.Kept identity) (history : List (Handling α)) :
    (table.after identity history).Kept identity := by
  induction history generalizing table with
  | nil => exact kept
  | cons handling later ih => exact ih (kept.handle handling)

end Kept
end Handling

/-! ## The table of a selection -/

section Selected

variable [DecidableEq α] [DecidableEq κ] {identity : α → κ} {selection : Selection α}
  {history : List (Handling α)} {handling : Handling α} {x : α}

theorem has_tableOf (apart : (tableOf identity selection).Tells identity x) :
    (tableOf identity selection).has identity x = selection.contains x :=
  decide_eq_decide.mpr (identity_mem_tableOf apart)

theorem keepFirst_tableOf (apart : (tableOf identity selection).Tells identity x) :
    keepFirst identity (tableOf identity selection) x = tableOf identity (selection.add x) := by
  rw [keepFirst, Selection.add]
  simp only [identity_mem_tableOf apart]
  split
  · rfl
  · rw [tableOf, tableOf, List.map_append]
    rfl

/-- Whoever takes a place by his own identity is the one who had it. -/
theorem keepLast_tableOf (apart : (tableOf identity selection).Tells identity x) :
    keepLast identity (tableOf identity selection) x = tableOf identity (selection.add x) := by
  rw [← keepFirst_tableOf apart, keepLast, keepFirst]
  rw [tells_tableOf_iff] at apart
  split
  · rw [tableOf, List.map_map]
    refine List.map_congr_left fun y inside => ?_
    by_cases same : identity y = identity x
    · simp [apart y inside same]
    · simp [same]
  · rfl

theorem pop_tableOf (apart : (tableOf identity selection).Tells identity x) :
    (tableOf identity selection).pop (identity x) = tableOf identity (selection.discard x) := by
  rw [tells_tableOf_iff] at apart
  rw [pop, tableOf, tableOf, List.filter_map, Selection.discard]
  refine congrArg (List.map _) (List.filter_congr fun y inside => decide_eq_decide.mpr ?_)
  exact not_congr ⟨apart y inside, congrArg identity⟩

/-- **What is done to the table of a selection is done to the selection.** -/
theorem handle_tableOf (apart : ∀ x ∈ handling.thing?, (tableOf identity selection).Tells identity x) :
    (tableOf identity selection).handle identity handling = tableOf identity (selection.handle handling) := by
  cases handling with
  | add x => exact keepLast_tableOf (apart x rfl)
  | discard x => exact pop_tableOf (apart x rfl)
  | clear => rfl

/-- **The table of a selection is that of the selection after every history.** -/
theorem after_tableOf (apart : (tableOf identity selection).ToldApart identity history) :
    (tableOf identity selection).after identity history = tableOf identity (selection.after history) := by
  induction history generalizing selection with
  | nil => rfl
  | cons handling later ih =>
    obtain ⟨told, others⟩ := apart
    have handled := handle_tableOf told
    rw [handled] at others
    exact (congrArg (·.after identity later) handled).trans (ih others)

end Selected

end Table
end ActionFlow
