import ActionFlow.Binary64.Shortest
import ActionFlow.Expr.Text
import ActionFlow.Text.Quoted

/-!
# Configuration values

What configuration can hand to the library: plain data of any shape, and expressions and menu
entries that are already built. Such a value is shown in messages by `Value.shown`, which is exact:
a message names the very value that was refused.
-/

namespace ActionFlow

/-- A configuration value. A mapping keeps its entries in the order in which their keys first came. -/
inductive Value where
  | null
  | bool (truth : Bool)
  | int (number : Int)
  | real (number : Binary64)
  | text (content : String)
  | list (items : List Value)
  | tuple (items : List Value)
  | map (entries : List (Value × Value))
  | expr (expression : Expr)
  | menu (description args : Value)
  deriving Repr, Inhabited

namespace Value

/-- Whether a value counts as true: everything does but null, false, zero and what is empty. -/
def truthy : Value → Bool
  | null => false
  | bool truth => truth
  | int number => number != 0
  | real number => !number.isZero
  | text content => !content.isEmpty
  | list items => !items.isEmpty
  | tuple items => !items.isEmpty
  | map entries => !entries.isEmpty
  | expr (.leaf _) => true
  | expr (.seq elements) => !elements.isEmpty
  | menu _ _ => true

/-- The name of a kind of value that no expression can be read from. -/
def kindName : Value → String
  | null => "NoneType"
  | bool _ => "bool"
  | int _ => "int"
  | real _ => "float"
  | text _ => "str"
  | list _ => "list"
  | tuple _ => "tuple"
  | map _ => "dict"
  | expr (.leaf _) => "Leaf"
  | expr (.seq _) => "Sequence"
  | menu _ _ => "ActionMenu"

/-- Whether a value is a text. -/
def isText : Value → Bool
  | text _ => true
  | _ => false

/-! ## Keys of a mapping -/

mutual

/-- Whether a value can be a key: lists and mappings cannot, nor can what holds one. -/
def isKey : Value → Bool
  | list _ | map _ => false
  | tuple items => areKeys items
  | menu description args => isKey description && isKey args
  | null | bool _ | int _ | real _ | text _ | expr _ => true

/-- Whether each of several values can be a key. -/
def areKeys : List Value → Bool
  | [] => true
  | item :: rest => isKey item && areKeys rest

end

/-- The number that a value stands for as a key, exactly; NaN is never the same key as another. -/
def keyNumber? : Value → Option Binary64
  | bool truth => some (.finite false (if truth then Binary64.unit else 0))
  | int number => some (.finite (number < 0) (number.natAbs * Binary64.unit))
  | real .nan => none
  | real number => some (if number.isZero then Binary64.zero else number)
  | _ => none

mutual

/-- Whether two values are the same key: numbers are compared by value, whatever their kind. -/
def sameKey : Value → Value → Bool
  | null, null => true
  | text a, text b => a == b
  | tuple as, tuple bs => sameKeys as bs
  | expr a, expr b => a == b
  | menu a b, menu c d => sameKey a c && sameKey b d
  | a, b => a.keyNumber?.isSome && a.keyNumber? == b.keyNumber?

/-- Whether two rows are the same keys in the same order. -/
def sameKeys : List Value → List Value → Bool
  | [], [] => true
  | a :: as, b :: bs => sameKey a b && sameKeys as bs
  | _, _ => false

end

/-- A mapping with one more entry: a key that is there keeps its place and takes the new value. -/
def putEntry (entries : List (Value × Value)) (key value : Value) : List (Value × Value) :=
  if entries.any fun entry => sameKey entry.1 key then
    entries.map fun entry => if sameKey entry.1 key then (entry.1, value) else entry
  else entries ++ [(key, value)]

/-- The mapping that a row of entries makes up. -/
def ofEntries (entries : List (Value × Value)) : Value :=
  map (entries.foldl (fun done entry => putEntry done entry.1 entry.2) [])

/-- The value of a textual key. -/
def lookup? (entries : List (Value × Value)) (key : String) : Option Value :=
  (entries.find? fun entry => sameKey entry.1 (text key)).map (·.2)

/-! ## Text -/

/-- Texts with a comma and a space between neighbours. -/
def commaSeparated (parts : List String) : String := ", ".intercalate parts

/-- The row of a tuple: a single member is followed by a comma. -/
def tupleText : List String → String
  | [single] => "(" ++ single ++ ",)"
  | parts => "(" ++ commaSeparated parts ++ ")"

/-- How a leaf is shown. -/
def leafText (leaf : Leaf) : String :=
  "Leaf(name=" ++ Text.quoted leaf.name ++ ", args=" ++ tupleText (leaf.args.map Text.quoted) ++ ")"

mutual

/-- How an expression is shown. -/
def exprText : Expr → String
  | .leaf leaf => leafText leaf
  | .seq elements => "Sequence(elements=" ++ tupleText (exprTexts elements) ++ ")"

/-- How the elements of a sequence are shown. -/
def exprTexts : List Expr → List String
  | [] => []
  | element :: rest => exprText element :: exprTexts rest

end

mutual

/-- How a value is shown inside a message. -/
def shown : Value → String
  | null => "None"
  | bool truth => if truth then "True" else "False"
  | int number => toString number
  | real number => number.text
  | text content => Text.quoted content
  | list items => "[" ++ commaSeparated (shownItems items) ++ "]"
  | tuple items => tupleText (shownItems items)
  | map entries => "\x7b" ++ commaSeparated (shownEntries entries) ++ "\x7d"
  | expr expression => exprText expression
  | menu description args =>
      "ActionMenu(description=" ++ shown description ++ ", args=" ++ shown args ++ ")"

/-- How the items of a list are shown. -/
def shownItems : List Value → List String
  | [] => []
  | item :: rest => shown item :: shownItems rest

/-- How the entries of a mapping are shown. -/
def shownEntries : List (Value × Value) → List String
  | [] => []
  | (key, value) :: rest => (shown key ++ ": " ++ shown value) :: shownEntries rest

end

/-- A value as a part of a longer text: a text is taken as it is, and a leaf in its written form. -/
def plainText : Value → String
  | text content => content
  | expr (.leaf leaf) => leaf.text
  | value => shown value

end Value
end ActionFlow
