/-!
# Items

The things that actions act on. Actions never look inside an item: two items are the same exactly if
they are the same object, which its key tells.
-/

namespace ActionFlow

/-- An item. -/
inductive Item where
  /-- A node of the explorer. -/
  | node (key : String)
  /-- The absence of a node, passed on like a node. -/
  | nothing
  /-- One of the parts of a node that was taken for a row of items. -/
  | part (owner : String) (index : Nat)
  deriving DecidableEq, Repr, Inhabited

namespace Item

/-- The key of a node. -/
def key? : Item → Option String
  | node key => some key
  | nothing => none
  | part _ _ => none

end Item

/-- What an action is asked to act on: a row of items, or one item on its own. -/
inductive Supply where
  | many (items : List Item)
  | single (item : Item)
  deriving DecidableEq, Repr, Inhabited

namespace Supply

/-- The items as a row; one item on its own is a row of one. -/
def toList : Supply → List Item
  | many items => items
  | single item => [item]

end Supply
end ActionFlow
