/-!
# Fields between colons

A text is a row of fields with a colon between neighbours. There is always a first field, which may
be empty; a text with `n` colons has `n` further ones.

## Main results

* `joined_fields`: joining the fields of a text gives the text back.
* `fields_joined`: fields that hold no colon are found again after joining.
* `length_fields`: there are as many further fields as colons.
-/

namespace ActionFlow
namespace Text

/-- The first field of a text and the further ones. -/
def fields : List Char → List Char × List (List Char)
  | [] => ([], [])
  | c :: rest =>
      let (first, others) := fields rest
      if c = ':' then ([], first :: others) else (c :: first, others)

/-- The text that a first field and further ones make up. -/
def joined (first : List Char) (others : List (List Char)) : List Char :=
  first ++ others.flatMap (':' :: ·)

theorem joined_fields (text : List Char) : joined (fields text).1 (fields text).2 = text := by
  induction text with
  | nil => rfl
  | cons c rest ih =>
      by_cases h : c = ':'
      · subst h
        simp only [fields, ↓reduceIte]
        simpa [joined] using ih
      · simp only [fields, h, ↓reduceIte]
        simpa [joined] using ih

theorem length_fields (text : List Char) : (fields text).2.length = text.count ':' := by
  induction text with
  | nil => rfl
  | cons c rest ih => by_cases h : c = ':' <;> simp [fields, h, ih]

/-- No field holds a colon. -/
theorem fields_colonless (text : List Char) :
    ':' ∉ (fields text).1 ∧ ∀ field ∈ (fields text).2, ':' ∉ field := by
  induction text with
  | nil => simp [fields]
  | cons c rest ih =>
      by_cases h : c = ':'
      · simpa [fields, h] using ih
      · simp only [fields, h, ↓reduceIte, List.mem_cons, not_or]
        exact ⟨⟨fun same => h same.symm, ih.1⟩, ih.2⟩

theorem fields_append {first : List Char} (h : ':' ∉ first) (rest : List Char) :
    fields (first ++ rest) = (first ++ (fields rest).1, (fields rest).2) := by
  induction first with
  | nil => rfl
  | cons c tail ih =>
      simp only [List.mem_cons, not_or] at h
      have hc : c ≠ ':' := fun same => h.1 same.symm
      simp [fields, hc, ih h.2]

theorem fields_joined {first : List Char} {others : List (List Char)} (hfirst : ':' ∉ first)
    (hothers : ∀ field ∈ others, ':' ∉ field) : fields (joined first others) = (first, others) := by
  rw [joined, fields_append hfirst]
  suffices h : fields (others.flatMap (':' :: ·)) = ([], others) by simp [h]
  clear hfirst
  induction others with
  | nil => rfl
  | cons field tail ih =>
      simp only [List.mem_cons, forall_eq_or_imp] at hothers
      simp [fields, fields_append hothers.1, ih hothers.2]

end Text
end ActionFlow
