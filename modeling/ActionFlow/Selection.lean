/-!
# Selections

A selection is a row of distinct things in the order in which they were selected. Adding what is
there changes nothing, so a thing keeps its place until it is discarded.

## Main results

* `uniq_nodup`, `mem_uniq`: `uniq` keeps each thing exactly once.
* `ofList_items`: selecting the things of a list one by one gives its `uniq`.
-/

namespace ActionFlow

variable {α : Type} [DecidableEq α]

/-- A list without repetitions: each thing where it first stood. -/
def uniq : List α → List α
  | [] => []
  | x :: rest => x :: (uniq rest).filter (· ≠ x)

@[simp] theorem mem_uniq {x : α} {xs : List α} : x ∈ uniq xs ↔ x ∈ xs := by
  induction xs with
  | nil => simp [uniq]
  | cons y rest ih => by_cases h : x = y <;> simp [uniq, ih, h]

theorem uniq_nodup (xs : List α) : (uniq xs).Nodup := by
  induction xs with
  | nil => simp [uniq]
  | cons y rest ih =>
      simp only [uniq, List.nodup_cons]
      exact ⟨by simp, ih.filter _⟩

/-- Things selected, each once, in the order of their selection. -/
structure Selection (α : Type) where
  items : List α := []
  deriving DecidableEq, Repr, Inhabited

namespace Selection

/-- Whether a thing is selected. -/
def contains (selection : Selection α) (x : α) : Bool := decide (x ∈ selection.items)

/-- Selects a thing. -/
def add (selection : Selection α) (x : α) : Selection α :=
  if x ∈ selection.items then selection else ⟨selection.items ++ [x]⟩

/-- Takes a thing out of the selection. -/
def discard (selection : Selection α) (x : α) : Selection α := ⟨selection.items.filter (· ≠ x)⟩

omit [DecidableEq α] in
/-- The number of things selected. -/
def size (selection : Selection α) : Nat := selection.items.length

/-- The selection that selecting the things of a list one by one gives. -/
def ofList (xs : List α) : Selection α := xs.foldl add {}

omit [DecidableEq α] in
/-- Goes through the things that are selected at the start, whatever `body` does to the selection
meanwhile; gives what was visited and the selection that is left. -/
def forEach (selection : Selection α) (body : α → Selection α → Selection α) :
    List α × Selection α :=
  (selection.items, selection.items.foldl (fun now x => body x now) selection)

/-! ## Small laws -/

theorem add_items (selection : Selection α) (x : α) :
    (selection.add x).items =
      if x ∈ selection.items then selection.items else selection.items ++ [x] := by
  unfold add; split <;> rfl

theorem foldl_add_items (xs : List α) (selection : Selection α) :
    (xs.foldl add selection).items =
      selection.items ++ (uniq xs).filter (· ∉ selection.items) := by
  induction xs generalizing selection with
  | nil => simp [uniq]
  | cons x rest ih =>
      rw [List.foldl_cons, ih, add_items]
      by_cases h : x ∈ selection.items
      · simp only [h, ↓reduceIte, uniq, not_true_eq_false, decide_false, Bool.false_eq_true,
          not_false_eq_true, List.filter_cons_of_neg, List.filter_filter]
        congr 1
        apply List.filter_congr
        intro y _
        by_cases hy : y = x
        · simp [hy, h]
        · simp [hy]
      · simp only [h, ↓reduceIte, uniq, not_false_eq_true, decide_true, List.filter_cons_of_pos,
          List.append_assoc, List.singleton_append, List.filter_filter]
        congr 2
        apply List.filter_congr
        intro y _
        simp [Bool.and_comm]

theorem ofList_items (xs : List α) : (ofList xs).items = uniq xs := by
  simp [ofList, foldl_add_items]

end Selection
end ActionFlow
