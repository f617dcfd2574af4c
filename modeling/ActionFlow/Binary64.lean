/-!
# Binary64 numbers as whole numbers of steps

Every finite binary64 number is a whole multiple of `2⁻¹⁰⁷⁴`, the smallest positive one. So a number
is kept as a sign and a count of such steps: order and addition are order and addition of integers,
followed by one rounding to fifty-three significant bits. Nothing here computes with machine floats,
so all of it can be evaluated and reasoned about inside the logic.

## Main results

* `Binary64.le_trans`: the order on numbers that are not NaN is transitive.
-/

namespace ActionFlow

/-! ## Rounding a quotient -/

/-- The whole number nearest to `num / den`; a tie goes to the even neighbour. -/
def roundDiv (num den : Nat) : Nat :=
  let floor := num / den
  let rest := num % den
  if den < 2 * rest then floor + 1
  else if 2 * rest = den then floor + floor % 2
  else floor

/-! ## The numbers -/

/-- A binary64 number; a finite one counts steps of `2⁻¹⁰⁷⁴`, and zero keeps its sign. -/
inductive Binary64 where
  | nan
  | infinite (negative : Bool)
  | finite (negative : Bool) (steps : Nat)
  deriving DecidableEq, Repr, Inhabited

namespace Binary64

/-- One, in steps. -/
def unit : Nat := Nat.pow 2 1074

/-- The count of steps from which on a number is infinite. -/
def ceiling : Nat := Nat.pow 2 2098

/-- The bits below the fifty-three that a count of steps may use. -/
def spareBits (steps : Nat) : Nat := steps.log2 - 52

/-- The number nearest to `num / den` steps; counts from `ceiling` on are infinite. -/
def ofQuotient (negative : Bool) (num den : Nat) : Binary64 :=
  let last := Nat.pow 2 (spareBits (num / den))
  let steps := roundDiv num (den * last) * last
  if steps < ceiling then finite negative steps else infinite negative

/-- The number nearest to a whole number. -/
def ofInt (n : Int) : Binary64 := ofQuotient (n < 0) (n.natAbs * unit) 1

/-- Zero, without a sign. -/
def zero : Binary64 := finite false 0

/-- The steps of a finite number with their sign. -/
def signedSteps (negative : Bool) (steps : Nat) : Int := if negative then -steps else steps

/-- The sum, rounded; a sum of zero is positive unless both numbers are negative. -/
def add : Binary64 → Binary64 → Binary64
  | nan, _ | _, nan => nan
  | infinite a, infinite b => if a = b then infinite a else nan
  | infinite a, finite _ _ | finite _ _, infinite a => infinite a
  | finite a m, finite b n =>
      let sum := signedSteps a m + signedSteps b n
      if sum = 0 then finite (a && b) 0 else ofQuotient (sum < 0) sum.natAbs 1

/-- Where a number stands in the order, in steps; the infinities stand just outside the finite
range, and NaN stands nowhere. -/
def rank? : Binary64 → Option Int
  | nan => none
  | infinite true => some (-ceiling)
  | infinite false => some ceiling
  | finite negative steps => some (signedSteps negative steps)

/-- `x ≤ y`; NaN is comparable with nothing. -/
def le (x y : Binary64) : Bool :=
  match x.rank?, y.rank? with
  | some a, some b => a ≤ b
  | _, _ => false

/-- `x < y`; NaN is comparable with nothing. -/
def lt (x y : Binary64) : Bool :=
  match x.rank?, y.rank? with
  | some a, some b => a < b
  | _, _ => false

theorem le_trans {x y z : Binary64} (hxy : le x y = true) (hyz : le y z = true) :
    le x z = true := by
  unfold le at *
  cases hx : x.rank? <;> cases hy : y.rank? <;> cases hz : z.rank? <;> simp_all
  omega

/-- The whole number that is left when the fraction is cut off; none for NaN and the infinities. -/
def truncate? : Binary64 → Option Int
  | finite negative steps => some (if negative then -(steps / unit : Nat) else (steps / unit : Nat))
  | _ => none

/-- Whether a number is finite and has no fraction. -/
def isWhole : Binary64 → Bool
  | finite _ steps => steps % unit == 0
  | _ => false

/-- Whether a number is zero, of either sign. -/
def isZero : Binary64 → Bool
  | finite _ 0 => true
  | _ => false

end Binary64
end ActionFlow
