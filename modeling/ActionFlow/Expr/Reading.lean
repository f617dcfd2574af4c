import ActionFlow.Failure

/-!
# Reading expressions from configuration

A text is read as a leaf, a list or a tuple as the sequence of what its items are read as, and an
expression that is already built is taken as it is. The first item that cannot be read, from left to
right, decides the failure.
-/

namespace ActionFlow
namespace Expr

/-- The leaf that a text denotes. The failure shows the text as it was given, blanks included. -/
def leafOfText (text : String) : Except Failure Leaf :=
  match Leaf.ofText? text with
  | some found => .ok found
  | none => .error (.unreadableExpression (.text text) Failure.emptyName)

/-- The leaf that a value denotes if it is taken for a text. -/
def leafOfValue : Value → Except Failure Leaf
  | .text content => leafOfText content
  | _ => .error .lacking

mutual

/-- The expression that a configuration value denotes. -/
def ofValue : Value → Except Failure Expr
  | .expr expression => .ok expression
  | .text content => (leafOfText content).map leaf
  | .list items => (ofValues items).map seq
  | .tuple items => (ofValues items).map seq
  | value => .error (.unreadableExpression value (Failure.unsupportedKind value))

/-- The expressions that a row of values denotes. -/
def ofValues : List Value → Except Failure (List Expr)
  | [] => .ok []
  | item :: rest => do
      let first ← ofValue item
      let others ← ofValues rest
      return first :: others

end

/-- The elements of a sequence as a row; a leaf is no row. -/
def row : Expr → Except Failure (List Expr)
  | leaf _ => .error .wrongKind
  | seq elements => .ok elements

end Expr
end ActionFlow
