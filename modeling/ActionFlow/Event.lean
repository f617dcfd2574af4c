import ActionFlow.Callback
import ActionFlow.Rule

/-!
# Events

What can be seen from outside while actions run: calls of callbacks and views, marks that callbacks
leave, and the library's own notices.
-/

namespace ActionFlow

/-- What the library itself notes. Keys to the barrier are numbered in the order in which they were
asked for; their numbers are kept apart from the wording. -/
inductive Notice where
  | registered (table name : String)
  | unknownAction (name : String)
  | routed (router : String) (yes no : Nat)
  | reloading (name : String)
  | rendering (name : String)
  | barrierTaken (key : Nat)
  | barrierReleased (key : Nat)
  deriving DecidableEq, Repr, Inhabited

/-- The wording of a notice. -/
def Notice.text : Notice → String
  | registered table name => "Registered " ++ table ++ " action " ++ Text.quoted name
  | unknownAction name => "Action " ++ Text.quoted name ++ " is not registered, skipping"
  | routed router yes no =>
      "Condition " ++ Text.quoted router ++ " routed " ++ toString yes ++ " node(s) to true, " ++
        toString no ++ " to false"
  | reloading name => "Reloading source after action " ++ Text.quoted name
  | rendering name => "Rendering view after action " ++ Text.quoted name
  | barrierTaken _ => "Action barrier acquired"
  | barrierReleased _ => "Action barrier released"

/-- An event. -/
inductive Event where
  /-- A callback was called. -/
  | called (name : String) (context : Context)
  /-- The view of a source was asked to render items. -/
  | requested (source : String) (items : List Item)
  /-- The view of a source was asked to render itself. -/
  | rendering (source : String)
  /-- A view has rendered itself, after it had to wait. -/
  | rendered (source : String)
  /-- A source was asked to load an item. -/
  | loading (source : String) (item : Item)
  /-- A source has loaded, after it had to wait. -/
  | loaded (source : String)
  /-- A callback left a mark. -/
  | marked (text : String)
  /-- The library noted something. -/
  | noted (notice : Notice)
  deriving DecidableEq, Repr, Inhabited

end ActionFlow
