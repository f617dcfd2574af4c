import ActionFlow.Expr.Check
import ActionFlow.Expr.Reading
import ActionFlow.Program

/-!
# Running expressions

What it means to run an expression on items. The elements of a sequence run one after the other on
the same items. In element position three kinds of leaves are told apart by name:

* `wait`, in the outermost sequence, takes the barrier for everything that follows; a second one and
  those of inner sequences do nothing;
* a rule's name splits the items and runs the two elements after it on the two parts, skipping an
  empty part;
* any other leaf is invoked.

A leaf that is the whole expression, or a branch of a condition, is invoked whatever its name.

A sequence is walked by index, with a place beside the walk for the key to the barrier; what runs
comes out as a `Program`, and the key is given back when the walk has ended, however it ended.
-/

namespace ActionFlow

/-! ## Invoking an action -/

namespace Action

/-- What follows a callback however it ended: the source is loaded again from its root, or else its
view renders itself, as the action's options say. -/
def followUp (options : Options) (source name : String) : Run Unit :=
  if options.reload then do
    Run.note (.reloading name)
    let root ← Run.op (.rootOf source)
    Run.call (.load source root)
  else if options.render then do
    Run.note (.rendering name)
    Run.call (.render source)
  else pure ()

/-- Calls an action on given items: they are merged with the selection by the action's policy, and
if that consumed the selection, the view is told of all the items before the callback is called. -/
def callOn (action : Action) (source : String) (given : List Item) (args : List String)
    (mode : Mode) : Run Unit := do
  let items ← Run.op (.gather source action.options.select given)
  if action.options.select = .select then
    Run.call (.requestRender source items)
  Run.call (.callback action { source, items, args, mode })

end Action

/-- Invokes an action by name. A name that means nothing to the source is noted and passed over. -/
def invoke (source name : String) (items : Supply) (args : List String) (mode : Mode) : Run Unit := do
  match ← Run.op (.resolve source name) with
  | none => Run.note (.unknownAction name)
  | some action =>
      Run.ensuring (action.callOn source items.toList args mode)
        (Action.followUp action.options source name)

/-! ## Conditions -/

/-- The items of a supply one by one. One item on its own is not a row: it is gone through part by
part, if it has parts. -/
def Supply.members : Supply → Run (List Item)
  | many items => pure items
  | single item => do
      match ← Run.op (.partsOf item) with
      | .none => throw .wrongKind
      | .some count =>
          pure ((List.range count).map fun index => .part (item.key?.getD "") index)

namespace Rule

/-- Splits items by the rule, asking about one after the other; both parts keep their order. -/
def split (rule : Rule) (source : String) (args : List String) :
    List Item → Run (List Item × List Item)
  | [] => pure ([], [])
  | item :: rest => do
      let answer ← Run.test source rule args item
      let (yes, no) ← rule.split source args rest
      if answer then pure (item :: yes, no) else pure (yes, item :: no)

/-- Splits a supply by the rule and notes how many items went where. -/
def route (rule : Rule) (source : String) (args : List String) (items : Supply) :
    Run (List Item × List Item) := do
  let (yes, no) ← rule.split source args (← items.members)
  Run.note (.routed rule.name yes.length no.length)
  pure (yes, no)

end Rule

/-- Runs something on the items of a part, unless there are none. -/
def onPart (part : List Item) (body : Supply → Run Unit) : Run Unit :=
  if part.isEmpty then pure () else body (.many part)

/-! ## Walking through a sequence -/

/-- A walk through a sequence: a run beside a place for the key to the barrier. What the place holds
outlives a failure. -/
abbrev Walk (α : Type) : Type := ExceptT Failure (StateT (Option PauseId) Program) α

namespace Walk

/-- Does something that leaves the place for the key alone. -/
def lift {α : Type} (body : Run α) : Walk α :=
  ExceptT.mk fun key => body.run.bind fun ending => .done (ending, key)

/-- Takes the barrier, unless it has been taken before. -/
def takeBarrier : Walk Unit := do
  if (← get).isNone then
    let key ← lift (Run.await .barrier)
    set (some key)

/-- What a walk leaves behind is tidied up: the key is given back if there is one. A failure of that
takes the place of the walk's own ending. -/
def giveBack : Except Failure Unit × Option PauseId → Program (Except Failure Unit)
  | (ending, none) => .done ending
  | (ending, some key) => (Run.release key).run.bind fun
      | .ok _ => .done ending
      | .error failure => .done (.error failure)

/-- Walks from where no key is held, and gives the key back at the end, however the walk ends. -/
def complete (walk : Walk Unit) : Run Unit :=
  ExceptT.mk ((walk.run.run none).bind giveBack)

end Walk

namespace Expr

theorem sizeOf_lt_of_getElem? {elements : List Expr} {index : Nat} {element : Expr}
    (h : elements[index]? = some element) : sizeOf element < sizeOf elements :=
  List.sizeOf_lt_of_mem (List.mem_of_getElem? h)

theorem sizeOf_lt_of_branches {elements : List Expr} {index : Nat} {yes no : Expr}
    (h : (elements.drop index).take 2 = [yes, no]) :
    sizeOf yes < sizeOf elements ∧ sizeOf no < sizeOf elements := by
  have inside : ∀ branch ∈ [yes, no], sizeOf branch < sizeOf elements := fun branch member =>
    List.sizeOf_lt_of_mem (List.mem_of_mem_drop (List.mem_of_mem_take (h ▸ member)))
  exact ⟨inside yes (by simp), inside no (by simp)⟩

mutual

/-- Runs an expression that stands inside another one. -/
def runInner (source : String) (mode : Mode) (expression : Expr) (items : Supply) : Run Unit :=
  match expression with
  | leaf l => invoke source l.name items l.args mode
  | seq inside => (walk source mode false inside items 0).complete
termination_by (sizeOf expression, 0)

/-- Walks through the elements of a sequence from an index on. An element takes one step, a condition
takes three, for its branches are no elements of their own. The barrier may be taken at a `wait` if
`outermost` holds. -/
def walk (source : String) (mode : Mode) (outermost : Bool) (elements : List Expr) (items : Supply)
    (index : Nat) : Walk Unit :=
  match element : elements[index]? with
  | none => pure ()
  | some (seq inside) => do
      Walk.lift (runInner source mode (seq inside) items)
      walk source mode outermost elements items (index + 1)
  | some (leaf l) =>
      if l.name = waitName then do
        if outermost then Walk.takeBarrier
        walk source mode outermost elements items (index + 1)
      else
        match Rule.ofName? l.name with
        | none => do
            Walk.lift (runInner source mode (leaf l) items)
            walk source mode outermost elements items (index + 1)
        | some rule =>
            match _branches : (elements.drop (index + 1)).take 2 with
            | [yes, no] => do
                let (yesItems, noItems) ← Walk.lift (rule.route source l.args items)
                Walk.lift (onPart yesItems (runInner source mode yes))
                Walk.lift (onPart noItems (runInner source mode no))
                walk source mode outermost elements items (index + 3)
            | short => throw (.malformedExpression l.name short.length)
termination_by (sizeOf elements, elements.length - index)
decreasing_by
  all_goals
    have inRange := (List.getElem?_eq_some_iff.mp element).1
    have smaller := sizeOf_lt_of_getElem? element
  case _ => exact Prod.Lex.left _ _ smaller
  case _ => exact Prod.Lex.right _ (by omega)
  case _ => exact Prod.Lex.right _ (by omega)
  case _ => exact Prod.Lex.left _ _ smaller
  case _ => exact Prod.Lex.right _ (by omega)
  case _ => exact Prod.Lex.left _ _ (sizeOf_lt_of_branches _branches).1
  case _ => exact Prod.Lex.left _ _ (sizeOf_lt_of_branches _branches).2
  case _ => exact Prod.Lex.right _ (by omega)

end

/-- Runs an expression on its own: it is checked as a whole before anything happens. -/
def run (source : String) (mode : Mode) (expression : Expr) (items : Supply) : Run Unit :=
  match expression.check with
  | .error failure => throw failure
  | .ok () =>
      match expression with
      | leaf l => invoke source l.name items l.args mode
      | seq outside => (walk source mode true outside items 0).complete

/-- Runs what a configuration value denotes, as an expression on its own or as one that stands
inside another. -/
def runValue (source : String) (mode : Mode) (value : Value) (inside : Bool) (items : Supply) :
    Run Unit :=
  match ofValue value with
  | .error failure => throw failure
  | .ok expression =>
      if inside then runInner source mode expression items else run source mode expression items

end Expr
end ActionFlow
