import Mathlib.Data.List.Induction
import ActionFlow.Selection

/-!
# Selections in the order of insertion

What a selection holds, and in which order, can be told from its history alone. A thing is inside if it was
added and has not been taken out since, and it came in when it was added the last time without being there:
adding it again makes no difference, and taking it out gives up its place. Things are told apart by being
different things, however alike they look.

## Main results

* `Selection.mem_after_iff`: what is inside after a history.
* `Selection.pairwise_cameIn`: things stand in the order in which they came in.
* `Selection.nodup_items_after`: nothing is inside twice.
-/

namespace ActionFlow

/-- Something that is done to a selection. -/
inductive Handling (α : Type) where
  | add (x : α)
  | discard (x : α)
  | clear

namespace Handling

variable {α : Type}

/-- Whether a thing is taken out if it is there. -/
def TakesOut (x : α) : Handling α → Prop
  | add _ => False
  | discard y => x = y
  | clear => True

end Handling

namespace Selection

variable {α : Type}

/-! ## Histories -/

/-- Whether a history put a thing in and has not taken it out since. -/
def Inside (history : List (Handling α)) (x : α) : Prop :=
  ∃ before later, history = before ++ .add x :: later ∧ ∀ handling ∈ later, ¬handling.TakesOut x

/-- When a thing came in: it was added while it was absent, and has not been taken out since. -/
def CameIn (history : List (Handling α)) (x : α) (index : Nat) : Prop :=
  ∃ before later, history = before ++ .add x :: later ∧ (before.length = index ∧ ¬Inside before x) ∧
    ∀ handling ∈ later, ¬handling.TakesOut x

/-- Where a history with one more handling can be cut: before that handling, or where it could be cut
already. -/
theorem cut_concat_iff {β : Type} {history : List β} {last first : β} {P : List β → Prop}
    {Q : β → Prop} :
    (∃ before later, history ++ [last] = before ++ first :: later ∧ P before ∧
        ∀ item ∈ later, Q item) ↔
      (last = first ∧ P history) ∨
        (∃ before later, history = before ++ first :: later ∧ P before ∧ ∀ item ∈ later, Q item) ∧
          Q last := by
  constructor
  · rintro ⟨before, later, same, hP, hQ⟩
    rcases List.eq_nil_or_concat later with rfl | ⟨rest, item, rfl⟩
    · obtain ⟨rfl, ends⟩ := List.append_inj' same rfl
      exact .inl ⟨List.head_eq_of_cons_eq ends, hP⟩
    · rw [List.concat_eq_append, ← List.cons_append, ← List.append_assoc] at same
      obtain ⟨rfl, ends⟩ := List.append_inj' same rfl
      cases ends
      refine .inr ⟨⟨before, rest, rfl, hP, fun item inside => ?_⟩, ?_⟩
      · exact hQ item (by simp [inside])
      · exact hQ last (by simp)
  · rintro (⟨rfl, hP⟩ | ⟨⟨before, later, rfl, hP, hQ⟩, hlast⟩)
    · exact ⟨history, [], rfl, hP, nofun⟩
    · refine ⟨before, later ++ [last], by simp, hP, fun item inside => ?_⟩
      rcases List.mem_append.mp inside with inside | inside
      · exact hQ item inside
      · exact List.mem_singleton.mp inside ▸ hlast

variable {history : List (Handling α)} {handling : Handling α} {x : α} {index : Nat}

theorem not_inside_nil : ¬Inside [] x := by
  rintro ⟨before, later, same, -⟩
  simp at same

theorem inside_concat_iff :
    Inside (history ++ [handling]) x ↔
      handling = .add x ∨ Inside history x ∧ ¬handling.TakesOut x := by
  have cut := @cut_concat_iff _ history handling (.add x) (fun _ => True)
    (fun handling => ¬handling.TakesOut x)
  simp only [true_and, and_true] at cut
  exact cut

theorem cameIn_concat_iff :
    CameIn (history ++ [handling]) x index ↔
      (handling = .add x ∧ history.length = index ∧ ¬Inside history x) ∨
        CameIn history x index ∧ ¬handling.TakesOut x :=
  cut_concat_iff

theorem CameIn.inside : CameIn history x index → Inside history x :=
  fun ⟨before, later, same, _, stays⟩ => ⟨before, later, same, stays⟩

theorem CameIn.lt_length : CameIn history x index → index < history.length := by
  rintro ⟨before, later, rfl, ⟨rfl, -⟩, -⟩
  simp

/-- What is inside came in at exactly one time. -/
theorem existsUnique_cameIn (h : Inside history x) : ∃! index, CameIn history x index := by
  induction history using List.reverseRecOn with
  | nil => exact absurd h not_inside_nil
  | append_singleton rest handling ih =>
      simp only [cameIn_concat_iff]
      by_cases there : Inside rest x
      · -- It was there before, so it still is, and adding it makes no difference.
        have stays : ¬handling.TakesOut x := by
          rcases inside_concat_iff.mp h with rfl | ⟨-, stays⟩
          · exact id
          · exact stays
        simpa [there, stays] using ih there
      · have added : handling = .add x := (inside_concat_iff.mp h).resolve_right fun h => there h.1
        refine ⟨rest.length, .inl ⟨added, rfl, there⟩, ?_⟩
        rintro index (⟨-, same, -⟩ | ⟨came, -⟩)
        · exact same.symm
        · exact absurd came.inside there

/-! ## What a history makes of a selection -/

variable [DecidableEq α]

/-- Does something to a selection. -/
def handle (selection : Selection α) : Handling α → Selection α
  | .add x => selection.add x
  | .discard x => selection.discard x
  | .clear => {}

/-- Does one thing after the other. -/
def after (selection : Selection α) (history : List (Handling α)) : Selection α :=
  history.foldl handle selection

theorem after_append (selection : Selection α) (history later : List (Handling α)) :
    selection.after (history ++ later) = (selection.after history).after later :=
  List.foldl_append

theorem after_concat (selection : Selection α) (history : List (Handling α)) (handling : Handling α) :
    selection.after (history ++ [handling]) = (selection.after history).handle handling :=
  after_append selection history [handling]

/-- Selecting the things of a list is a history, too. -/
theorem ofList_eq_after (xs : List α) : ofList xs = after {} (xs.map .add) := by
  rw [ofList, after, List.foldl_map]
  rfl

theorem mem_handle_iff {selection : Selection α} :
    x ∈ (selection.handle handling).items ↔
      handling = .add x ∨ x ∈ selection.items ∧ ¬handling.TakesOut x := by
  cases handling with
  | add y =>
      have adds : Handling.add y = .add x ↔ x = y := by rw [Handling.add.injEq, eq_comm]
      rw [handle, add_items, adds]
      simp only [Handling.TakesOut, not_false_eq_true, and_true]
      split
      next there => exact ⟨.inr, fun h => h.elim (fun same => same ▸ there) id⟩
      next => rw [List.mem_append, List.mem_singleton, or_comm]
  | discard y => simp [handle, discard, Handling.TakesOut]
  | clear => simp [handle, Handling.TakesOut]

/-- Discarding takes out one thing, and leaves all others in their place. -/
theorem discard_items {selection : Selection α} (h : selection.items.Nodup) (x : α) :
    (selection.discard x).items = selection.items.erase x := by
  rw [h.erase_eq_filter, discard]
  exact List.filter_congr fun y _ => by simp [bne, beq_eq_decide]

/-- **What is inside** after a history is what the history put in and has not taken out since. -/
theorem mem_after_iff : x ∈ (after {} history).items ↔ Inside history x := by
  induction history using List.reverseRecOn with
  | nil => exact iff_of_false (by simp [after]) not_inside_nil
  | append_singleton rest handling ih => rw [after_concat, mem_handle_iff, inside_concat_iff, ih]

/-- **Things stand in the order in which they came in.** -/
theorem pairwise_cameIn (history : List (Handling α)) :
    (after {} history).items.Pairwise fun x y =>
      ∀ i j, CameIn history x i → CameIn history y j → i < j := by
  induction history using List.reverseRecOn with
  | nil => exact List.Pairwise.nil
  | append_singleton rest handling ih =>
      rw [after_concat]
      -- Whoever stays came in when he had come in before.
      have kept : ∀ {x i}, Inside rest x → CameIn (rest ++ [handling]) x i → CameIn rest x i := by
        intro x i there came
        rcases cameIn_concat_iff.mp came with ⟨-, -, absent⟩ | ⟨came, -⟩
        · exact absurd there absent
        · exact came
      have before : (after {} rest).items.Pairwise fun x y =>
          ∀ i j, CameIn (rest ++ [handling]) x i → CameIn (rest ++ [handling]) y j → i < j :=
        ih.imp_of_mem fun hx hy earlier i j came came' =>
          earlier i j (kept (mem_after_iff.mp hx) came) (kept (mem_after_iff.mp hy) came')
      cases handling with
      | add y =>
          rw [handle, add_items]
          split
          · exact before
          · rename_i absent
            refine List.pairwise_append.mpr ⟨before, List.pairwise_singleton _ _, ?_⟩
            intro x hx z hz i j came came'
            cases List.mem_singleton.mp hz
            have earlier := (kept (mem_after_iff.mp hx) came).lt_length
            rcases cameIn_concat_iff.mp came' with ⟨-, rfl, -⟩ | ⟨came', -⟩
            · exact earlier
            · exact absurd (mem_after_iff.mpr came'.inside) absent
      | discard y => exact before.sublist List.filter_sublist
      | clear => exact List.Pairwise.nil

/-- **Nothing is inside twice.** -/
theorem nodup_items_after (history : List (Handling α)) : (after {} history).items.Nodup := by
  refine (pairwise_cameIn history).imp_of_mem fun {x y} hx _ earlier same => ?_
  obtain ⟨i, came, -⟩ := existsUnique_cameIn (mem_after_iff.mp hx)
  exact Nat.lt_irrefl i (earlier i i came (same ▸ came))

end Selection
end ActionFlow
