import ActionFlow.Binary64.Reading
import ActionFlow.Failure
import ActionFlow.Text.Blank

/-!
# Checked fields

How one field of a record or of the settings is read from a configuration value. Texts are taken only
as texts, truths also from the numbers zero and one and from a few words, and numbers also from
truths and from texts.
-/

namespace ActionFlow
namespace Field

/-- A text field takes texts only. -/
def text : Value → Except FieldFault String
  | .text content => .ok content
  | _ => .error .notText

/-- The words for yes, in lower case. -/
def yesWords : List String := ["1", "on", "t", "true", "y", "yes"]

/-- The words for no, in lower case. -/
def noWords : List String := ["0", "off", "f", "false", "n", "no"]

/-- The first whole number above those that 64 bits hold with a sign. -/
def wordLimit : Int := Nat.pow 2 63

/-- The truth that a whole number stands for. -/
def truthOfInt (number : Int) : Except FieldFault Bool :=
  if number = 1 then .ok true else if number = 0 then .ok false else .error .unreadableTruth

/-- A truth field takes truths, zero and one, and the words for yes and no in any case. A number
with a fraction, or one that 64 bits cannot hold, is no truth at all; any other number or word is one
that cannot be read. -/
def truth : Value → Except FieldFault Bool
  | .bool truth => .ok truth
  | .int number =>
      if -wordLimit ≤ number ∧ number < wordLimit then truthOfInt number else .error .notTruth
  | .real number =>
      match number.truncate? with
      | some whole =>
          if number.isWhole ∧ -wordLimit < whole ∧ whole < wordLimit then truthOfInt whole
          else .error .notTruth
      | none => .error .notTruth
  | .text content =>
      let word := String.ofList (content.toList.map Char.toLower)
      if yesWords.contains word then .ok true
      else if noWords.contains word then .ok false
      else .error .unreadableTruth
  | _ => .error .notTruth

/-- A text without its low lines; none if they are not single and inside. -/
def withoutLowLines? (text : List Char) : Option (List Char) :=
  let doubled := (text.zip text.tail).any fun pair => pair.1 = '_' && pair.2 = '_'
  if text.head? = some '_' ∨ text.getLast? = some '_' ∨ doubled then none
  else some (text.filter (· ≠ '_'))

/-- A number field takes numbers, truths as zero and one, and texts that denote a number once either
the spaces around them or the single low lines in them are taken off. -/
def number : Value → Except FieldFault Binary64
  | .real number => .ok number
  | .bool truth => .ok (.ofInt (if truth then 1 else 0))
  | .int whole =>
      match Binary64.ofInt whole with
      | .infinite _ => .error .notNumber
      | number => .ok number
  | .text content =>
      let plain := Binary64.read? (String.ofList (Text.trimSpace content.toList))
      let joined := (withoutLowLines? content.toList).bind fun digits =>
        Binary64.read? (String.ofList digits)
      match plain.or joined with
      | some number => .ok number
      | none => .error .unreadableNumber
  | _ => .error .notNumber

/-- A field that may be left empty. -/
def optional (read : Value → Except FieldFault α) : Value → Except FieldFault (Option α)
  | .null => .ok none
  | value => (read value).map some

/-- The outcome of a field whose value may be missing. -/
def orDefault (read : Value → Except FieldFault α) (value : Option Value) (default : α) :
    Except FieldFault α :=
  match value with
  | some given => read given
  | none => .ok default

/-- The fault of a field under its name, if it has one. -/
def fault? (name : String) : Except FieldFault α → Option (String × FieldFault)
  | .ok _ => none
  | .error fault => some (name, fault)

end Field
end ActionFlow
