import ActionFlow.Expr.Reading

/-!
# Reading leaves back

A leaf is written as a text and read from one, and the two are inverse to each other only in part. Who
writes a leaf whose name or arguments hold a colon gets a text with more fields than the leaf has, and
blanks at the ends of the whole text get lost, though not those at the ends of the fields inside. In the
other direction a text loses the blanks at its ends and nothing else.

Both directions come of one description of what is read: the fields of the trimmed text, as they stand.

## Main results

* `ofText?_eq_some_iff`: what is read are the fields of the trimmed text, if the first one is not empty.
* `ofText?_text_iff`: which leaves are read back as they were written.
* `written_and_read`: both directions, with the texts that are refused.
-/

namespace ActionFlow

/-! ## Counting in a trimmed text -/

namespace Text

variable {p : Char → Bool} {c : Char}

theorem count_dropWhile (kept : p c = false) (text : List Char) :
    (text.dropWhile p).count c = text.count c := by
  induction text with
  | nil => rfl
  | cons d rest ih =>
      by_cases dropped : p d
      · have different : d ≠ c := by
          rintro rfl
          simp [kept] at dropped
        rw [List.dropWhile_cons_of_pos dropped, ih, List.count_cons_of_ne different]
      · rw [List.dropWhile_cons_of_neg dropped]

/-- Trimming loses none of the characters that are not trimmed. -/
theorem count_trimWhere (kept : p c = false) (text : List Char) :
    (trimWhere p text).count c = text.count c := by
  rw [trimWhere, trimEndWhere, List.count_reverse, count_dropWhile kept, List.count_reverse,
    count_dropWhile kept]

/-- A colon is no blank, so trimming loses no colon. -/
theorem count_trim_colon (text : List Char) : (trim text).count ':' = text.count ':' :=
  count_trimWhere (by decide) text

end Text

/-! ## Leaves and their texts -/

namespace Leaf

/-- Whether a leaf can be told from its written form: it has a name, there is no colon in its fields, and
the whole written form neither begins nor ends with a blank. -/
structure Legible (leaf : Leaf) : Prop where
  named : leaf.name ≠ ""
  name : ':' ∉ leaf.name.toList
  args : ∀ arg ∈ leaf.args, ':' ∉ arg.toList
  trimmed : Text.Trimmed leaf.text.toList

/-- What is read are the fields of the trimmed text, unless there is no name. -/
theorem ofText?_eq_some_iff {text : String} {leaf : Leaf} :
    ofText? text = some leaf ↔ leaf.name ≠ "" ∧
      Text.fields (Text.trim text.toList) = (leaf.name.toList, leaf.args.map String.toList) := by
  unfold ofText?
  split
  next others found =>
    rw [found]
    refine iff_of_false nofun fun ⟨named, same⟩ => named ?_
    exact String.toList_eq_nil_iff.mp (congrArg Prod.fst same).symm
  next name args notEmpty found =>
    rw [found]
    constructor
    · rintro ⟨⟩
      refine ⟨fun empty => notEmpty ?_, by simp⟩
      simpa using congrArg String.toList empty
    · rintro ⟨-, same⟩
      obtain ⟨rfl, rfl⟩ := Prod.mk.inj same
      simp [Function.comp_def]

/-- **Which leaves are read back.** A leaf is read back as it was written exactly if it can be told from
its written form. -/
theorem ofText?_text_iff (leaf : Leaf) : ofText? leaf.text = some leaf ↔ leaf.Legible := by
  rw [ofText?_eq_some_iff]
  constructor
  · rintro ⟨named, same⟩
    have colonless := Text.fields_colonless (Text.trim leaf.text.toList)
    have joined := Text.joined_fields (Text.trim leaf.text.toList)
    rw [same] at colonless joined
    refine ⟨named, colonless.1, fun arg mem => colonless.2 _ (List.mem_map_of_mem mem), ?_⟩
    exact Text.trim_eq_self_iff.mp (joined.symm.trans leaf.toList_text.symm)
  · rintro ⟨named, name, args, trimmed⟩
    refine ⟨named, ?_⟩
    rw [Text.trim_eq_self_iff.mpr trimmed, toList_text]
    exact Text.fields_joined name fun field mem => by
      obtain ⟨arg, inside, rfl⟩ := List.mem_map.mp mem
      exact args arg inside

/-- A leaf that was read has an argument for every colon of the text. -/
theorem length_args_of_ofText? {text : String} {leaf : Leaf} (h : ofText? text = some leaf) :
    leaf.args.length = text.toList.count ':' := by
  have fields := (ofText?_eq_some_iff.mp h).2
  calc leaf.args.length
      = (Text.fields (Text.trim text.toList)).2.length := by rw [fields, List.length_map]
    _ = (Text.trim text.toList).count ':' := Text.length_fields _
    _ = text.toList.count ':' := Text.count_trim_colon _

/-- A leaf that was read once is read again from its written form. -/
theorem ofText?_text_of_ofText? {text : String} {leaf : Leaf} (h : ofText? text = some leaf) :
    ofText? leaf.text = some leaf := by
  rw [ofText?_eq_some_iff] at h ⊢
  have written := text_of_ofText? (ofText?_eq_some_iff.mpr h)
  rwa [written, Text.trim_trim]

end Leaf

namespace Expr

theorem leafOfText_eq_ok_iff {text : String} {leaf : Leaf} :
    leafOfText text = .ok leaf ↔ Leaf.ofText? text = some leaf := by
  unfold leafOfText
  split
  next found same => rw [same, Except.ok.injEq, Option.some.injEq]
  next none => rw [none]; exact iff_of_false nofun nofun

/-- A text is refused as it was given, with its blanks. -/
theorem leafOfText_eq_error_iff {text : String} {failure : Failure} :
    leafOfText text = .error failure ↔
      (Text.trim text.toList = [] ∨ (Text.trim text.toList).head? = some ':') ∧
        failure = .unreadableExpression (.text text) Failure.emptyName := by
  rw [← Leaf.ofText?_eq_none_iff]
  unfold leafOfText
  split
  next found same => rw [same]; exact iff_of_false nofun (nomatch ·.1)
  next none => rw [none, Except.error.injEq, eq_comm]; exact (and_iff_right rfl).symm

/-- **Leaves and their texts.** A leaf is read back as it was written exactly if it has a name, no colon
stands in its name or in an argument, and its written form neither begins nor ends with a blank. A text is
refused, and shown as it was given, exactly if nothing is left of it without the blanks at its ends, or
what is left begins with a colon. From any other text a leaf is read that is written as the text without
those blanks, that has as many arguments as the text has colons, and that is read from its own written
form again. -/
theorem written_and_read :
    (∀ leaf : Leaf, leafOfText leaf.text = .ok leaf ↔ leaf.Legible) ∧
    ∀ text : String,
      (∀ failure, leafOfText text = .error failure ↔
        (Text.trim text.toList = [] ∨ (Text.trim text.toList).head? = some ':') ∧
          failure = .unreadableExpression (.text text) Failure.emptyName) ∧
      ∀ leaf, leafOfText text = .ok leaf →
        leaf.text = String.ofList (Text.trim text.toList) ∧
          leaf.args.length = text.toList.count ':' ∧ leafOfText leaf.text = .ok leaf := by
  refine ⟨fun leaf => leafOfText_eq_ok_iff.trans leaf.ofText?_text_iff,
    fun text => ⟨fun failure => leafOfText_eq_error_iff, fun leaf read => ?_⟩⟩
  have found := leafOfText_eq_ok_iff.mp read
  refine ⟨?_, Leaf.length_args_of_ofText? found,
    leafOfText_eq_ok_iff.mpr (Leaf.ofText?_text_of_ofText? found)⟩
  rw [← Leaf.text_of_ofText? found, String.ofList_toList]

/-- An empty argument and blanks inside are kept; blanks at the ends are not. -/
theorem written_and_read_of_blanks :
    let leaf : Leaf := { name := "open", args := ["", " split", "v"] }
    leaf.Legible ∧ leafOfText leaf.text = .ok leaf ∧
      leafOfText " open:: split:v\t" = .ok leaf ∧
      leaf.args.length = " open:: split:v\t".toList.count ':' := by
  intro leaf
  have read : leafOfText " open:: split:v\t" = .ok leaf :=
    leafOfText_eq_ok_iff.mpr (by decide +kernel)
  obtain ⟨back, texts⟩ := written_and_read
  obtain ⟨-, length, again⟩ := (texts " open:: split:v\t").2 leaf read
  exact ⟨(back leaf).mp again, again, read, length⟩

end Expr
end ActionFlow
