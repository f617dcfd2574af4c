import ActionFlow.Complaint

/-!
# Failures

Everything that can go wrong, by cause. A refusal of the library is worded by its complaint, and what
a callback or a view raises brings its own message; failures of plain misuse (a value of the wrong
kind, say) have no wording.
-/

namespace ActionFlow

/-- The kinds of failure that callbacks and views raise themselves. -/
inductive Raised where
  | runtime
  | value
  | system
  | scripted
  | general
  deriving DecidableEq, Repr, Inhabited

/-- Why a field of a record or of the settings was refused. -/
inductive FieldFault where
  | missing
  | notText
  | notTruth
  | unreadableTruth
  | notNumber
  | unreadableNumber
  deriving DecidableEq, Repr, Inhabited

/-- What went wrong. -/
inductive Failure where
  /-- An action name is taken in a table. -/
  | duplicateAction (name table : String)
  /-- No expression can be read from a value. -/
  | unreadableExpression (value : Value) (reason : String)
  /-- A menu entry has no supported shape. -/
  | invalidMenu (entry : Value) (reason : String)
  /-- A condition is followed by too few elements. -/
  | malformedExpression (router : String) (found : Int)
  /-- The barrier could not be taken in time. -/
  | timedOut (timeout : Value)
  /-- A callback or a view failed. -/
  | raised (kind : Raised) (message : String)
  /-- Fields of a record or of the settings were refused. -/
  | invalidFields (faults : List (String × FieldFault))
  /-- The task was cancelled. -/
  | cancelled
  /-- A value of the wrong kind was used. -/
  | wrongKind
  /-- A value lacks what was asked of it. -/
  | lacking
  /-- An index lies outside a sequence. -/
  | outOfRange
  /-- A number is too large for what it is needed for. -/
  | overflow
  /-- Too many callbacks were called inside each other. -/
  | tooDeep
  deriving Repr, Inhabited

namespace Failure

/-- Why a text that names no action is refused. -/
def emptyName : String := "action name is empty"

/-- Why a value of another kind is refused as an expression. -/
def unsupportedKind (value : Value) : String := "unsupported type " ++ value.kindName

/-- Why a menu entry is refused. -/
def menuShape : String := "entries need an 'args' string"

/-- The complaint that words a failure, if the library words it. -/
def complaint? : Failure → Option Complaint
  | duplicateAction name table => some (.duplicateAction (.text name) (.text table))
  | unreadableExpression value reason => some (.unreadableExpression value (.text reason))
  | invalidMenu entry reason => some (.invalidMenu entry (.text reason))
  | malformedExpression router found => some (.malformedExpression (.text router) (.int found))
  | timedOut timeout => some (.timedOut timeout)
  | _ => none

/-- The wording of a failure that has one. -/
def message? : Failure → Option String
  | raised _ message => some message
  | failure => failure.complaint?.map (·.text)

/-- The complaint of a kind about a row of values; a wrong number of values is misuse. -/
def complain (kind : Complaint.Kind) (values : List Value) : Except Failure Complaint :=
  match Complaint.ofValues? kind values with
  | some complaint => .ok complaint
  | none => .error .wrongKind

/-- What is raised with a row of values: a single value is the message, and several ones are shown
together. -/
def raisedWith (kind : Raised) : List Value → Failure
  | [] => raised kind ""
  | [value] => raised kind value.plainText
  | values => raised kind (Value.tuple values).shown

end Failure
end ActionFlow
