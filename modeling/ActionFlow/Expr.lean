/-!
# Action expressions

What a key binding or a menu entry asks for: a single action with its arguments, or several
expressions one after the other. A leaf's meaning depends on where it stands: in element position of
a sequence some names are reserved, see `Rule` and `Expr.run`.
-/

namespace ActionFlow

/-- A reference to an action by name, with its arguments. -/
structure Leaf where
  name : String
  args : List String := []
  deriving DecidableEq, Repr, Inhabited

/-- An action expression. -/
inductive Expr where
  | leaf (leaf : Leaf)
  | seq (elements : List Expr)
  deriving Repr, Inhabited

namespace Expr

/-! ## Equality -/

mutual

/-- Expressions are equal exactly if they have the same shape and equal leaves. -/
def decEq : (a b : Expr) → Decidable (a = b)
  | leaf l, leaf m =>
      if h : l = m then isTrue (h ▸ rfl) else isFalse fun same => h (leaf.inj same)
  | leaf _, seq _ => isFalse nofun
  | seq _, leaf _ => isFalse nofun
  | seq xs, seq ys =>
      match decEqList xs ys with
      | isTrue h => isTrue (h ▸ rfl)
      | isFalse h => isFalse fun same => h (seq.inj same)

/-- Element lists are equal exactly if they are equal element by element. -/
def decEqList : (xs ys : List Expr) → Decidable (xs = ys)
  | [], [] => isTrue rfl
  | [], _ :: _ => isFalse nofun
  | _ :: _, [] => isFalse nofun
  | x :: xs, y :: ys =>
      match decEq x y, decEqList xs ys with
      | isTrue hx, isTrue hs => isTrue (hx ▸ hs ▸ rfl)
      | isFalse hx, _ => isFalse fun same => hx (List.cons.inj same).1
      | _, isFalse hs => isFalse fun same => hs (List.cons.inj same).2

end

instance : DecidableEq Expr := decEq

end Expr

/-- The element at an index, counted from the end if the index is negative. -/
def elementAt? (elements : List Expr) (index : Int) : Option Expr :=
  if 0 ≤ index then elements[index.toNat]?
  else if index.natAbs ≤ elements.length then elements[elements.length - index.natAbs]?
  else none

end ActionFlow
