import ActionFlow.Expr
import ActionFlow.Text.Blank
import ActionFlow.Text.Fields

/-!
# The written form of a leaf

A leaf is written as its name and its arguments with colons between them. Reading takes the blanks
off both ends of the whole text and then cuts it at every colon, so an argument may be empty and may
hold blanks inside; a text whose first field is empty names no action.

## Main results

* `text_of_ofText?`: a leaf that was read is written as the trimmed text.
* `ofText?_eq_none_iff`: exactly the texts that are blank or begin with a colon are refused.
-/

namespace ActionFlow
namespace Leaf

/-- The written form of a leaf. -/
def text (leaf : Leaf) : String :=
  String.ofList (Text.joined leaf.name.toList (leaf.args.map String.toList))

/-- The leaf that a text denotes; none if the name is empty. -/
def ofText? (text : String) : Option Leaf :=
  match Text.fields (Text.trim text.toList) with
  | ([], _) => none
  | (name, args) => some ⟨String.ofList name, args.map String.ofList⟩

theorem toList_text (leaf : Leaf) :
    leaf.text.toList = Text.joined leaf.name.toList (leaf.args.map String.toList) := by
  simp [text]

theorem ofText?_eq_none_iff {text : String} :
    ofText? text = none ↔
      Text.trim text.toList = [] ∨ (Text.trim text.toList).head? = some ':' := by
  unfold ofText?
  cases h : Text.trim text.toList with
  | nil => simp [Text.fields]
  | cons c rest => by_cases hc : c = ':' <;> simp [Text.fields, hc]

theorem text_of_ofText? {text : String} {leaf : Leaf} (h : ofText? text = some leaf) :
    leaf.text.toList = Text.trim text.toList := by
  unfold ofText? at h
  split at h
  · simp at h
  · rename_i name args _ split
    simp only [Option.some.injEq] at h
    subst h
    have := Text.joined_fields (Text.trim text.toList)
    simpa [split, Leaf.text, Function.comp_def] using this

end Leaf
end ActionFlow
