/-!
# Lines of a text

Where the lines of a text end: at a line feed, a carriage return, or both in this order, and at the
other characters that end a line, a page or a section in ASCII and in Unicode.
-/

namespace ActionFlow
namespace Text

/-- The characters that end a line. -/
def isLineEnd (c : Char) : Bool :=
  let n := c.toNat
  (0xA ≤ n && n ≤ 0xD) || (0x1C ≤ n && n ≤ 0x1E) || n == 0x85 || n == 0x2028 || n == 0x2029

/-- The number of line ends in a text. -/
def lineEnds : List Char → Nat
  | [] => 0
  | '\r' :: '\n' :: rest => lineEnds rest + 1
  | c :: rest => if isLineEnd c then lineEnds rest + 1 else lineEnds rest

end Text
end ActionFlow
