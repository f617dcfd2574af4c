import ActionFlow.World

/-!
# Scripted explorers

A host whose callbacks follow scripts and whose views do as they are told: each can wait for a gate
and can fail. What a script changes in the items or the arguments that it was given is seen by the
rest of the script alone.
-/

namespace ActionFlow

/-! ## Following a script -/

namespace Script

/-- Gives back a key that was put aside, if there is one. -/
def releaseHold (hold : String) : Run Unit := do
  match ← Run.op (.keyOf hold) with
  | some key => Run.release key
  | none => pure ()

/-- What a single instruction does that leaves the context as it is. -/
def instruction (context : Context) : Instruction → Run Unit
  | .mark text => Run.record (.marked text)
  | .fail kind message => throw (.raised kind message)
  | .dropItems | .dropArgs => pure ()
  | .awaitGate gate => do let _ ← Run.await (.gate gate)
  | .sleep span =>
      match span.pauseSeconds with
      | .error failure => throw failure
      | .ok span => do let _ ← Run.await (.sleep span)
  | .run source expression own =>
      let (items, mode) := own.getD (.many context.items, context.mode)
      Expr.runValue (source.getD context.source) mode expression false items
  | .invoke source name own =>
      let (items, args, mode) := own.getD (.many context.items, context.args, context.mode)
      invoke (source.getD context.source) name items args mode
  | .change source change => Run.op (.change (source.getD context.source) change)
  | .setExpandable item truth => Run.setExpandable item truth
  | .setGate gate opened => ExceptT.lift (Program.perform (.setGate gate opened))
  | .register table name description options style script =>
      Run.register table { name, description, options, callback := { style, script } }
  | .release hold => releaseHold hold
  | .cancel task => ExceptT.lift (Program.perform (.cancel task))

/-- The context for what follows an instruction. -/
def contextAfter (context : Context) : Instruction → Context
  | .dropItems => { context with items := [] }
  | .dropArgs => { context with args := context.args ++ ["dropped"] }
  | _ => context

/-- Follows the instructions of a script one after the other. -/
def follow (context : Context) : List Instruction → Run Unit
  | [] => pure ()
  | next :: rest => do
      instruction context next
      follow (contextAfter context next) rest

end Script

namespace Callback

/-- What happens at the call of a callback, and what once its caller waits for the outcome. -/
def parts (callback : Callback) (name : String) (context : Context) : Run Unit × Run Unit :=
  let announce := Run.record (.called name context)
  let script := Script.follow context callback.script
  match callback.style with
  | .immediate => (do announce; script, pure ())
  | .deferred => (pure (), do announce; script)
  | .handedOver => (announce, script)

/-- Calls a callback and waits for its outcome. -/
def call (callback : Callback) (name : String) (context : Context) : Run Unit :=
  Run.inside do
    (callback.parts name context).1
    (callback.parts name context).2

end Callback

/-! ## Views -/

/-- What a view or a loader does when it is called: it may wait for a gate, unless it answers at
once, and may then fail. -/
structure Hook where
  immediate : Bool := false
  gate : Option String := none
  failure : Option Failure := none
  deriving Inhabited

namespace Hook

/-- Records the call, waits if there is a gate to wait for, and records that too. -/
def call (hook : Hook) (started ended : Event) : Run Unit := do
  Run.record started
  match hook.immediate, hook.gate with
  | false, some gate => do
      let _ ← Run.await (.gate gate)
      Run.record ended
  | _, _ => pure ()
  Run.failIf hook.failure

end Hook

/-- What the view and the loader of a source do. -/
structure View where
  requestFailure : Option Failure := none
  expandedFailure : Option Failure := none
  render : Hook := {}
  load : Hook := {}
  deriving Inhabited

namespace View

/-- The answer of a rule for an item; only the view can fail to tell whether it is expanded. -/
def test (view : View) (source : String) (rule : Rule) (item : Item) : Run Bool := do
  if rule = .expanded then Run.failIf view.expandedFailure
  Run.op (.test source rule item)

/-- Records that items are to be rendered. -/
def requestRender (view : View) (source : String) (items : List Item) : Run Unit := do
  Run.record (.requested source items)
  Run.failIf view.requestFailure

end View

/-- The host of scripted callbacks and of the given views. -/
def scriptedHost (views : String → View) : Host
  | .callback action context => action.callback.call action.name context
  | .test source rule _ item => (views source).test source rule item
  | .requestRender source items => (views source).requestRender source items
  | .render source => (views source).render.call (.rendering source) (.rendered source)
  | .load source item => (views source).load.call (.loading source item) (.loaded source)

end ActionFlow
