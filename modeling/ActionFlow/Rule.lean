/-!
# Reserved names

In element position of a sequence five leaf names have a meaning of their own: `wait` takes the
shared barrier, and each rule name splits the items by a question about them.

## Main results

* `ofName?_name`, `ofName?_waitName`: a rule is found by its name, and the barrier marker is no rule.
-/

namespace ActionFlow

/-- The name of the barrier marker. -/
def waitName : String := "wait"

/-- A question about one item, by which a condition splits the items it is given. -/
inductive Rule where
  | expandable
  | expanded
  | selected
  | root
  deriving DecidableEq, Repr, Inhabited

namespace Rule

/-- All rules. -/
def all : List Rule := [expandable, expanded, selected, root]

/-- The leaf name that asks the question. -/
def name : Rule → String
  | expandable => "expandable?"
  | expanded => "expanded?"
  | selected => "selected?"
  | root => "root?"

/-- What the rule says of the items that it sends to its first branch. -/
def description : Rule → String
  | expandable => "node is expandable"
  | expanded => "node is expanded"
  | selected => "node is selected"
  | root => "node is the root node"

/-- The rule that a leaf name stands for. -/
def ofName? (text : String) : Option Rule := all.find? fun rule => rule.name = text

@[simp] theorem ofName?_name (rule : Rule) : ofName? rule.name = some rule := by
  cases rule <;> decide

/-- The barrier marker is no rule. -/
theorem ofName?_waitName : ofName? waitName = none := by decide

end Rule
end ActionFlow
