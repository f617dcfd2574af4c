import ActionFlow.Binary64

/-!
# Reading a binary64 number

A number is a sign and either a name (`inf`, `infinity`, `nan`, in any case) or a decimal: digits
with at most one point, at least one digit, and perhaps an exponent. The decimal is rounded once,
from its exact value.
-/

namespace ActionFlow
namespace Binary64

/-! ## Parts of the text -/

/-- The sign in front of a text, and what follows it. -/
def splitSign : List Char → Bool × List Char
  | '-' :: rest => (true, rest)
  | '+' :: rest => (false, rest)
  | text => (false, text)

/-- The value of a row of decimal digits. -/
def digitsValue (digits : List Char) : Nat :=
  digits.foldl (fun value c => 10 * value + (c.toNat - '0'.toNat)) 0

/-- A row of digits that is neither empty nor followed by anything. -/
def wholeDigits? (text : List Char) : Option Nat :=
  if text.isEmpty || !text.all Char.isDigit then none else some (digitsValue text)

/-- The exponent that ends a decimal: nothing, or `e` and a whole number with its sign. -/
def exponent? : List Char → Option Int
  | [] => some 0
  | mark :: rest =>
      if mark = 'e' ∨ mark = 'E' then
        let (negative, digits) := splitSign rest
        (wholeDigits? digits).map fun n => if negative then -(n : Int) else n
      else none

/-! ## The number -/

/-- The number nearest to `digits · 10 ^ exponent`. Powers far outside the range are decided by the
weight of the leading digit alone. -/
def ofDecimal (negative : Bool) (digits : Nat) (exponent : Int) : Binary64 :=
  let weight := exponent + (Nat.toDigits 10 digits).length
  if digits = 0 ∨ weight < -400 then finite negative 0
  else if 400 < weight then infinite negative
  else if exponent < 0 then ofQuotient negative (digits * unit) (Nat.pow 10 exponent.natAbs)
  else ofQuotient negative (digits * Nat.pow 10 exponent.natAbs * unit) 1

/-- The number that a decimal without a sign denotes. -/
def decimal? (negative : Bool) (text : List Char) : Option Binary64 := do
  let whole := text.takeWhile Char.isDigit
  let rest := text.dropWhile Char.isDigit
  let (fraction, tail) := match rest with
    | '.' :: more => (more.takeWhile Char.isDigit, more.dropWhile Char.isDigit)
    | _ => ([], rest)
  if whole.isEmpty && fraction.isEmpty then none
  else
    let exponent ← exponent? tail
    return ofDecimal negative (digitsValue (whole ++ fraction)) (exponent - fraction.length)

/-- The number that a text denotes, if it is one. -/
def read? (text : String) : Option Binary64 :=
  let (negative, rest) := splitSign text.toList
  let name := String.ofList (rest.map Char.toLower)
  if name = "inf" ∨ name = "infinity" then some (infinite negative)
  else if name = "nan" then some nan
  else decimal? negative rest

end Binary64
end ActionFlow
