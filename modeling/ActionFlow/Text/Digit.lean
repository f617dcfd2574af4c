/-!
# Decimal digits of all scripts

Every script that counts in tens has its ten digits in a row, zero first, so a table of the zeros
gives the value of each digit. The table is that of version 14 of the Unicode standard.
-/

namespace ActionFlow
namespace Text

/-- The zeros of all scripts, in order. -/
def zeros : List Nat :=
  [0x30, 0x660, 0x6F0, 0x7C0, 0x966, 0x9E6, 0xA66, 0xAE6, 0xB66, 0xBE6, 0xC66, 0xCE6, 0xD66, 0xDE6,
   0xE50, 0xED0, 0xF20, 0x1040, 0x1090, 0x17E0, 0x1810, 0x1946, 0x19D0, 0x1A80, 0x1A90, 0x1B50,
   0x1BB0, 0x1C40, 0x1C50, 0xA620, 0xA8D0, 0xA900, 0xA9D0, 0xA9F0, 0xAA50, 0xABF0, 0xFF10, 0x104A0,
   0x10D30, 0x11066, 0x110F0, 0x11136, 0x111D0, 0x112F0, 0x11450, 0x114D0, 0x11650, 0x116C0,
   0x11730, 0x118E0, 0x11950, 0x11C50, 0x11D50, 0x11DA0, 0x16A60, 0x16AC0, 0x16B50, 0x1D7CE,
   0x1D7D8, 0x1D7E2, 0x1D7EC, 0x1D7F6, 0x1E140, 0x1E2F0, 0x1E950, 0x1FBF0]

/-- The value of a decimal digit of any script. -/
def digitValue? (c : Char) : Option Nat :=
  (zeros.find? fun start => start ≤ c.toNat && c.toNat < start + 10).map fun start => c.toNat - start

/-! ## Whole numbers -/

/-- The value of digits with single low lines between them, going on from `value`; `last` tells
whether the character before was a digit. -/
def digitsFrom (value : Nat) : (last : Bool) → List Char → Option Nat
  | last, [] => if last then some value else none
  | last, c :: rest =>
      if c = '_' then if last then digitsFrom value false rest else none
      else match digitValue? c with
        | some digit => digitsFrom (10 * value + digit) true rest
        | none => none

/-- The most digits that a whole number may have to be read, leading zeros included. -/
def mostDigits : Nat := 4300

/-- The value of a row of digits with single low lines between them. -/
def digits? (text : List Char) : Option Nat :=
  if mostDigits < (text.filter (· ≠ '_')).length then none else digitsFrom 0 false text

/-- The whole number that a text without spaces at its ends denotes: a sign, then digits. -/
def wholeNumber? : List Char → Option Int
  | '-' :: rest => (digits? rest).map fun n => -(n : Int)
  | '+' :: rest => (digits? rest).map Int.ofNat
  | text => (digits? text).map Int.ofNat

end Text
end ActionFlow
