import ActionFlow.Value

/-!
# Complaints

What the library says when it refuses something. A complaint keeps the values that it is about, of
whatever kind they are, and its wording is made of these values alone: a value that is quoted is
written as `Value.shown` writes it, any other as a part of the text.
-/

namespace ActionFlow

/-- A refusal, with the values that it is about. -/
inductive Complaint where
  /-- An action name is taken in a table. -/
  | duplicateAction (name table : Value)
  /-- No expression can be read from a value. -/
  | unreadableExpression (value reason : Value)
  /-- A menu entry has no supported shape. -/
  | invalidMenu (entry reason : Value)
  /-- A condition is followed by too few elements. -/
  | malformedExpression (router found : Value)
  /-- The barrier could not be taken in time. -/
  | timedOut (timeout : Value)
  deriving Repr, Inhabited

namespace Complaint

/-- What a complaint is made about. -/
inductive Kind where
  | duplicateAction
  | unreadableExpression
  | invalidMenu
  | malformedExpression
  | timedOut
  deriving DecidableEq, Repr, Inhabited

/-- The complaint of a kind about a row of values, if their number is right. -/
def ofValues? : Kind → List Value → Option Complaint
  | .duplicateAction, [name, table] => some (duplicateAction name table)
  | .unreadableExpression, [value, reason] => some (unreadableExpression value reason)
  | .invalidMenu, [entry, reason] => some (invalidMenu entry reason)
  | .malformedExpression, [router, found] => some (malformedExpression router found)
  | .timedOut, [timeout] => some (timedOut timeout)
  | _, _ => none

/-- The wording of a complaint. -/
def text : Complaint → String
  | duplicateAction name table =>
      "Action '" ++ name.plainText ++ "' is already registered in the " ++ table.plainText ++ " table"
  | unreadableExpression value reason =>
      "Invalid action expression " ++ value.shown ++ ": " ++ reason.plainText
  | invalidMenu entry reason =>
      "Invalid action menu entry " ++ entry.shown ++ ": " ++ reason.plainText
  | malformedExpression router found =>
      "Condition '" ++ router.plainText ++ "' needs a true and a false branch, found " ++
        found.plainText
  | timedOut timeout => "Timed out after " ++ timeout.plainText ++ "s waiting for the action barrier"

/-- The values that a complaint is about, by name. -/
def fields : Complaint → List (String × Value)
  | duplicateAction name table => [("name", name), ("table", table)]
  | unreadableExpression value reason => [("value", value), ("reason", reason)]
  | invalidMenu entry reason => [("entry", entry), ("reason", reason)]
  | malformedExpression router found => [("router", router), ("found", found)]
  | timedOut timeout => [("timeout", timeout)]

end Complaint
end ActionFlow
