import Mathlib.Data.Fin.SuccPred
import Mathlib.Data.List.FinRange
import ActionFlow.Explorer
import ActionFlow.Proofs.Selections.Tables

/-!
# Rows without repetitions, joined

A row without its repetitions has each thing where it stood first. Joining two rows brings repetitions back,
and they can be dropped once, from the joined row, or in the parts as well, which makes no difference: of the
second row, what the first one lacks is all that counts. A selection is a row without repetitions from
the start, so the union of given items with a selection is one of these rows.

Things are told apart by what they are. Where they are kept in a table by an identity, it does not matter whether
a thing that comes again is passed over or put in the place that it has.

## Main results

* `uniq_eq_firsts`: `uniq` picks the positions of a row at which something stands for the first time.
* `uniq_append`: of the second of two rows, `uniq` keeps what the first one lacks.
* `values_keepFirst`, `values_keepLast`: the two kinds of tables both hold the row without its repetitions.
* `unions_of_rows_agree`: the laws of `uniq`, and unions of given items with a selection.
-/

namespace ActionFlow

variable {α : Type} [DecidableEq α]

/-! ## First occurrences -/

/-- Whether what stands at a position does not stand before it. -/
def NewAt (xs : List α) (i : Fin xs.length) : Prop := ∀ j < i, xs.get j ≠ xs.get i

instance (xs : List α) (i : Fin xs.length) : Decidable (NewAt xs i) :=
  inferInstanceAs (Decidable (∀ j < i, xs.get j ≠ xs.get i))

/-- The things of a row at the positions at which they are new. -/
def firsts (xs : List α) : List α := ((List.finRange xs.length).filter (NewAt xs ·)).map xs.get

omit [DecidableEq α] in
theorem newAt_zero (x : α) (rest : List α) : NewAt (x :: rest) 0 :=
  fun j lower => absurd lower (Fin.not_lt_zero j)

omit [DecidableEq α] in
/-- Behind `x`, something is new if it is new in the rest and is not `x`. -/
theorem newAt_succ {x : α} {rest : List α} {i : Fin rest.length} :
    NewAt (x :: rest) i.succ ↔ rest.get i ≠ x ∧ NewAt rest i := by
  simp [NewAt, Fin.forall_fin_succ, eq_comm]

theorem firsts_cons (x : α) (rest : List α) :
    firsts (x :: rest) = x :: (firsts rest).filter (· ≠ x) := by
  -- The first position is new, and the others are those of the rest, moved on by one.
  have positions : List.finRange (x :: rest).length =
      0 :: (List.finRange rest.length).map Fin.succ := List.finRange_succ
  rw [firsts, positions, List.filter_cons_of_pos (by simpa using newAt_zero x rest),
    List.filter_map, List.map_cons, List.map_map, firsts, List.filter_map, List.filter_filter]
  congr 2
  apply List.filter_congr
  intro i _
  simp only [Function.comp_apply, newAt_succ, Bool.decide_and]

/-- **The row without its repetitions** is the row of first occurrences. -/
theorem uniq_eq_firsts (xs : List α) : uniq xs = firsts xs := by
  induction xs with
  | nil => rfl
  | cons x rest ih => rw [uniq, ih, firsts_cons]

theorem uniq_sublist (xs : List α) : (uniq xs).Sublist xs := by
  have picked := (List.filter_sublist (l := List.finRange xs.length) (p := (NewAt xs ·))).map xs.get
  rwa [List.map_get_finRange, ← firsts, ← uniq_eq_firsts] at picked

theorem uniq_of_nodup {xs : List α} (h : xs.Nodup) : uniq xs = xs := by
  induction xs with
  | nil => rfl
  | cons x rest ih =>
      obtain ⟨absent, nodup⟩ := List.nodup_cons.mp h
      rw [uniq, ih nodup, List.filter_eq_self.mpr]
      intro y there
      exact decide_eq_true fun same => absent (same ▸ there)

/-! ## Joined rows -/

/-- The second of two rows adds what the first one lacks. -/
theorem uniq_append (xs ys : List α) : uniq (xs ++ ys) = uniq xs ++ (uniq ys).filter (· ∉ xs) := by
  rw [← Selection.ofList_items, Selection.ofList, List.foldl_append, Selection.foldl_add_items]
  have first : (xs.foldl Selection.add {}).items = uniq xs := Selection.ofList_items xs
  simp only [first, mem_uniq]

theorem uniq_uniq (xs : List α) : uniq (uniq xs) = uniq xs := uniq_of_nodup (uniq_nodup xs)

theorem uniq_append_uniq (xs ys : List α) : uniq (xs ++ uniq ys) = uniq (xs ++ ys) := by
  rw [uniq_append, uniq_append, uniq_uniq]

theorem uniq_uniq_append (xs ys : List α) : uniq (uniq xs ++ ys) = uniq (xs ++ ys) := by
  simp only [uniq_append, uniq_uniq, mem_uniq]

/-! ## Tables by identity -/

section Tables

variable {κ : Type} [DecidableEq κ] {identity : α → κ}

omit [DecidableEq κ] in
/-- A table that grows as a selection does holds what a selection holds. -/
theorem values_foldl {put : Table κ α → α → Table κ α}
    (grows : ∀ selection x, put (tableOf identity selection) x = tableOf identity (selection.add x))
    (xs : List α) : (xs.foldl put []).map (·.2) = uniq xs := by
  have whole : xs.foldl put (tableOf identity {}) = tableOf identity (Selection.ofList xs) :=
    List.foldl_hom (tableOf identity) grows
  calc (xs.foldl put []).map (·.2)
      = (tableOf identity (Selection.ofList xs)).values := congrArg _ whole
    _ = uniq xs := by rw [Table.values_tableOf, Selection.ofList_items]

variable (distinct : Function.Injective identity)
include distinct

/-- **A table that keeps what came first** holds the row without its repetitions. -/
theorem values_keepFirst (xs : List α) : (xs.foldl (keepFirst identity) []).map (·.2) = uniq xs :=
  values_foldl (fun _ _ => Table.keepFirst_tableOf fun _ _ same => distinct same) xs

/-- **So does a table that keeps what came last.** -/
theorem values_keepLast (xs : List α) : (xs.foldl (keepLast identity) []).map (·.2) = uniq xs :=
  values_foldl (fun _ _ => Table.keepLast_tableOf fun _ _ same => distinct same) xs

end Tables

/-! ## Unions -/

/-- A policy that goes by the selection takes the union of the given items with it. -/
theorem SelectPolicy.merge_of_union {policy : SelectPolicy} (h : policy = .select ∨ policy = .keep)
    (given selected : List Item) : policy.merge given selected = uniq (given ++ selected) := by
  rcases h with rfl | rfl <;> rfl

/-- **Repetitions can be dropped at any time.** The row without its repetitions is the part of the row in
which things stand for the first time, and tables by identity hold it too, whichever way they take what comes
again. Joining rows adds what the first one lacks, whether the rows have repetitions or not. Selecting the
things of a row gives this row, and it is what going through the selection visits. So the union of given
items with a selection is the same if repetitions are dropped among the given items first, or in what was
selected, or in the union. -/
theorem unions_of_rows_agree :
    (∀ {α : Type} [DecidableEq α] (xs ys : List α),
      uniq xs = firsts xs ∧ (uniq xs).Sublist xs ∧ (uniq xs).Nodup ∧ (∀ x, x ∈ uniq xs ↔ x ∈ xs) ∧
      (∀ {κ : Type} [DecidableEq κ] (identity : α → κ), Function.Injective identity →
        (xs.foldl (keepFirst identity) []).map (·.2) = uniq xs ∧
        (xs.foldl (keepLast identity) []).map (·.2) = uniq xs) ∧
      uniq (xs ++ ys) = uniq xs ++ (uniq ys).filter (· ∉ xs) ∧
      uniq (xs ++ uniq ys) = uniq (xs ++ ys) ∧ uniq (uniq xs) = uniq xs ∧
      (Selection.ofList xs).items = uniq xs ∧
      ∀ body, ((Selection.ofList xs).forEach body).1 = uniq xs) ∧
    ∀ policy, policy = SelectPolicy.select ∨ policy = SelectPolicy.keep →
      (∀ given picked : List Item,
        let selected := (Selection.ofList picked).items
        policy.merge given selected = policy.merge given picked ∧
        policy.merge (uniq given) selected = policy.merge given picked) ∧
      ∀ (given : List Item) (history : List (Handling Item)),
        let selected := (Selection.after {} history).items
        policy.merge given selected = uniq given ++ selected.filter (· ∉ given) ∧
        policy.merge (uniq given) selected = policy.merge given selected := by
  refine ⟨fun {α} _ xs ys => ⟨uniq_eq_firsts xs, uniq_sublist xs, uniq_nodup xs, fun _ => mem_uniq,
    fun identity distinct => ⟨values_keepFirst distinct xs, values_keepLast distinct xs⟩,
    uniq_append xs ys, uniq_append_uniq xs ys, uniq_uniq xs, Selection.ofList_items xs,
    fun _ => Selection.ofList_items xs⟩, fun policy unites => ⟨fun given picked => ?_,
      fun given history => ?_⟩⟩
  · simp only [SelectPolicy.merge_of_union unites, Selection.ofList_items, uniq_append_uniq,
      uniq_uniq_append, and_self]
  · have nodup := Selection.nodup_items_after history
    simp only [SelectPolicy.merge_of_union unites, uniq_append, uniq_of_nodup nodup, uniq_uniq,
      mem_uniq, and_self]

/-- Two items are given, one of them twice, and one of them is selected as well, with a third one that is
selected twice. The union has each of the three once, and so it has with a selection from which the third one
was taken out and to which it came back. -/
theorem unions_of_rows_agree_of_repeated :
    let given : List Item := [.node "b", .node "a", .node "b"]
    let picked : List Item := [.node "a", .node "c", .node "c"]
    let turned : List (Handling Item) := picked.map .add ++ [.discard (.node "c"), .add (.node "c")]
    let union : List Item := [.node "b", .node "a", .node "c"]
    uniq (given ++ picked) = union ∧ firsts (given ++ picked) = union ∧
      ((given ++ picked).foldl (keepLast id) []).map (·.2) = union ∧
      SelectPolicy.keep.merge (uniq given) (Selection.ofList picked).items = union ∧
      SelectPolicy.select.merge (uniq given) (Selection.after {} turned).items = union := by
  intro given picked turned union
  obtain ⟨rows, unions⟩ := unions_of_rows_agree
  have whole : uniq (given ++ picked) = union := by decide
  obtain ⟨first, -, -, -, tables, -⟩ := rows (given ++ picked) []
  obtain ⟨keeping, -⟩ := unions .keep (.inr rfl)
  obtain ⟨-, selecting⟩ := unions .select (.inl rfl)
  exact ⟨whole, first.symm.trans whole, (tables id Function.injective_id).2.trans whole,
    (keeping given picked).2.trans whole, (selecting given turned).2.trans (by decide)⟩

end ActionFlow
