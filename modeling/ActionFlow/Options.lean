import ActionFlow.Menu

/-!
# Options of an action

What running an action does beside calling it: how the items it is given are merged with the
selection, and whether the source is reloaded or its view rendered afterwards.
-/

namespace ActionFlow

/-- How the items given to an action are merged with the selection. -/
inductive SelectPolicy where
  /-- The first given item alone. -/
  | replaceSingle
  /-- The given items and the selected ones; the selection is consumed. -/
  | select
  /-- The given items as they are. -/
  | visual
  /-- The given items and the selected ones; the selection stays. -/
  | keep
  deriving DecidableEq, Repr, Inhabited

/-- The options of an action. -/
structure Options where
  select : SelectPolicy := .replaceSingle
  reload : Bool := false
  render : Bool := false
  menus : List Menu := []
  deriving Repr, Inhabited

namespace Options

/-- Some of the options, as configuration gives them. -/
structure Changes where
  select : Option SelectPolicy := none
  reload : Option Bool := none
  render : Option Bool := none
  menus : Option Value := none
  deriving Repr, Inhabited

/-- The menus as the value from which they would be declared again. -/
def declaration (options : Options) : Value := .tuple (options.menus.map Menu.toValue)

/-- Options with some of them changed. They are declared anew as a whole, so what is kept goes
through the same checks again, and a failing change leaves nothing half done. -/
def change (options : Options) (changes : Changes) : Except Failure Options := do
  let menus ← Menu.normalize (changes.menus.getD options.declaration)
  return {
    select := changes.select.getD options.select
    reload := changes.reload.getD options.reload
    render := changes.render.getD options.render
    menus }

/-- The options that a declaration stands for; what it leaves out is as by default. -/
def declare (changes : Changes) : Except Failure Options := change {} changes

end Options
end ActionFlow
