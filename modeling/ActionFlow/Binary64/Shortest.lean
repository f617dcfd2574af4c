import ActionFlow.Binary64

/-!
# The shortest decimal of a binary64 number

A finite number is written with the fewest significant digits that read back as it, and among those
with the digits nearest to it. The search is exact: the numbers that round to `n` steps fill an
interval around `n`, and a grid of `k` significant digits holds such a number exactly if one of the
two grid points next to `n` lies in the interval.
-/

namespace ActionFlow
namespace Binary64

/-- A decimal `digits · 10 ^ exponent`. -/
structure Decimal where
  digits : Nat
  exponent : Int
  deriving DecidableEq, Repr

namespace Shortest

/-! ## The interval of numbers that round to a count of steps -/

/-- The decimals that read back as one number: from `low` to `high` quarter steps, the ends included
exactly if `closed`. -/
structure Interval where
  low : Nat
  high : Nat
  closed : Bool

/-- Half a unit in the last place on either side; below a power of two the lower half is halved
again, since the numbers lie twice as close there. Ends belong to the even neighbour. -/
def interval (steps : Nat) : Interval :=
  let spare := spareBits steps
  let last := Nat.pow 2 spare
  let significand := steps / last
  let below := if significand = Nat.pow 2 52 ∧ 0 < spare then last else 2 * last
  { low := 4 * steps - below, high := 4 * steps + 2 * last, closed := significand % 2 = 0 }

/-- Whether `num / den` quarter steps lie in the interval. -/
def Interval.holds (i : Interval) (num den : Nat) : Bool :=
  if i.closed then i.low * den ≤ num && num ≤ i.high * den
  else i.low * den < num && num < i.high * den

/-! ## The search -/

/-- The power of ten of the leading digit: the greatest `e` with `10 ^ e` at most the number. -/
def leadingExponent (steps : Nat) : Int :=
  if unit ≤ steps then ((Nat.toDigits 10 (steps / unit)).length : Int) - 1
  else Int.negOfNat (Nat.toDigits 10 ((unit + steps - 1) / steps - 1)).length

/-- The two grid points next to the number on the grid `10 ^ exponent`, the nearer one first; on a
tie the even one. -/
def neighbours (steps : Nat) (exponent : Int) : List Nat :=
  let weight := Nat.pow 10 exponent.natAbs
  let num := if exponent < 0 then steps * weight else steps
  let den := if exponent < 0 then unit else unit * weight
  let floor := num / den
  if roundDiv num den = floor then [floor, floor + 1] else [floor + 1, floor]

/-- Whether a decimal reads back as the number with this interval. -/
def readsBack (i : Interval) (d : Decimal) : Bool :=
  let weight := Nat.pow 10 d.exponent.natAbs
  if d.exponent < 0 then i.holds (4 * d.digits * unit) weight
  else i.holds (4 * d.digits * unit * weight) 1

/-- The first grid point that reads back, trying one more digit at a time; `more` counts the grids
that are left, and the last one is taken as it is. -/
def search (steps : Nat) (exponent : Int) : Nat → Decimal
  | 0 => ⟨(neighbours steps exponent).headD 0, exponent⟩
  | more + 1 =>
      let points := (neighbours steps exponent).map fun digits => Decimal.mk digits exponent
      match points.find? (readsBack (interval steps)) with
      | some found => found
      | none => search steps (exponent - 1) more

/-- The shortest decimal of a positive number of steps. -/
def decimal (steps : Nat) : Decimal := search steps (leadingExponent steps) 16

end Shortest

/-! ## The text -/

/-- How numbers are written: positionally while the leading digit's power of ten is in a range, with
the point always shown; otherwise with one digit before the point and a signed exponent of at least
two digits. -/
structure Layout where
  lowestPositional : Int
  highestPositional : Int
  exponentDigits : Nat

/-- The layout of every number that the library writes. -/
def plain : Layout := ⟨-4, 15, 2⟩

/-- Digits without the zeros at their end. -/
def trimZeros (digits : List Char) : List Char :=
  (digits.reverse.dropWhile (· = '0')).reverse

/-- The exponent with its sign, padded with zeros. -/
def Layout.exponentText (form : Layout) (e : Int) : List Char :=
  let digits := Nat.toDigits 10 e.natAbs
  (if e < 0 then '-' else '+') :: (List.replicate (form.exponentDigits - digits.length) '0' ++ digits)

/-- A number whose significant digits are `digits` and whose leading digit has the weight `10 ^ e`. -/
def Layout.unsigned (form : Layout) (digits : List Char) (e : Int) : List Char :=
  if e < form.lowestPositional ∨ form.highestPositional < e then
    let fraction := digits.drop 1
    digits.take 1 ++ (if fraction.isEmpty then [] else '.' :: fraction) ++ 'e' :: form.exponentText e
  else if e < 0 then
    '0' :: '.' :: (List.replicate (e.natAbs - 1) '0' ++ digits)
  else
    let whole := e.toNat + 1
    let padded := digits ++ List.replicate (whole - digits.length) '0'
    let fraction := padded.drop whole
    padded.take whole ++ '.' :: (if fraction.isEmpty then ['0'] else fraction)

/-- The text of a number: the shortest decimal that reads back as it. -/
def text : Binary64 → String
  | nan => "nan"
  | infinite negative => if negative then "-inf" else "inf"
  | finite negative steps =>
      let sign := if negative then ['-'] else []
      if steps = 0 then String.ofList (sign ++ ['0', '.', '0'])
      else
        let d := Shortest.decimal steps
        let digits := Nat.toDigits 10 d.digits
        let e := d.exponent + (digits.length - 1 : Nat)
        String.ofList (sign ++ plain.unsigned (trimZeros digits) e)

end Binary64
end ActionFlow
