import ActionFlow.Item
import ActionFlow.Options

/-!
# Callbacks

A callback is written as a script: instructions that are followed one after the other when the
action is invoked. A script can look at nothing; it can note a mark, fail, pause, run and invoke
other actions, and change what the explorer shows.
-/

namespace ActionFlow

/-- The way in which an action is invoked; it is passed on to the callback and has no effect. -/
inductive Mode where
  | normal
  | visual
  deriving DecidableEq, Repr, Inhabited

/-- A change to a source: to its selection, its view or its root. -/
inductive Change where
  | select (item : Item)
  | deselect (item : Item)
  | clear
  | expand (item : Item)
  | collapse (item : Item)
  | setRoot (item : Item)
  deriving DecidableEq, Repr, Inhabited

/-- When the instructions of a callback are followed. -/
inductive Style where
  /-- All of them at the call; there is nothing to wait for. -/
  | immediate
  /-- All of them once the caller waits for the outcome. -/
  | deferred
  /-- The call is announced at once, the instructions follow once the caller waits. -/
  | handedOver
  deriving DecidableEq, Repr, Inhabited

/-- An instruction of a callback. Where a source is left out, it is the one that the callback was
invoked on. `own` says what another action is invoked with; where it is left out, that is what the
callback itself was given. -/
inductive Instruction where
  | mark (text : String)
  | fail (kind : Raised) (message : String)
  | dropItems
  | dropArgs
  | awaitGate (gate : String)
  | sleep (span : Value)
  | run (source : Option String) (expression : Value) (own : Option (Supply × Mode))
  | invoke (source : Option String) (name : String) (own : Option (Supply × List String × Mode))
  | change (source : Option String) (change : Change)
  | setExpandable (item : Item) (truth : Bool)
  | setGate (gate : String) (opened : Bool)
  | register (table : Option String) (name description : String) (options : Options.Changes)
      (style : Style) (script : List Instruction)
  | release (hold : String)
  | cancel (task : String)
  deriving Inhabited

/-- What an action does when it is invoked. -/
structure Callback where
  style : Style := .deferred
  script : List Instruction := []
  deriving Inhabited

/-- What a callback is given. -/
structure Context where
  source : String
  items : List Item
  args : List String
  mode : Mode
  deriving DecidableEq, Repr, Inhabited

end ActionFlow
