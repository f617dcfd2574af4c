import ActionFlow.Failure

/-!
# Menu entries

An action may offer ready-made arguments. They are declared in one of several forms, which all come
down to a row of entries with a description and a text of arguments.
-/

namespace ActionFlow

/-- One entry: the arguments that it stands for, as one text, and what it says of them. Neither is
checked to be a text when it is declared. -/
structure Menu where
  description : Value
  args : Value
  deriving Repr, Inhabited

namespace Menu

/-- The entry as a configuration value. -/
def toValue (menu : Menu) : Value := .menu menu.description menu.args

/-- The arguments that choosing the entry passes on: the fields of the text, none if there is no
text, and a failure if there is something else. -/
def actionArgs (menu : Menu) : Except Failure (List String) :=
  if !menu.args.truthy then .ok []
  else match menu.args with
    | .text text =>
        let (first, others) := Text.fields text.toList
        .ok ((first :: others).map String.ofList)
    | _ => .error .lacking

/-! ## Declarations -/

/-- The entry that one item of a declared row stands for. -/
def ofEntry : Value → Except Failure Menu
  | .menu description args => .ok ⟨description, args⟩
  | .text args => .ok ⟨.text args, .text args⟩
  | .map entries =>
      match Value.lookup? entries "args" with
      | some args => .ok ⟨(Value.lookup? entries "description").getD args, args⟩
      | none => .error (.invalidMenu (.map entries) Failure.menuShape)
  | entry => .error (.invalidMenu entry Failure.menuShape)

/-- The items of a value that can be gone through one by one: those of a list or a tuple, the
characters of a text, the elements of a sequence. -/
def rowOf? : Value → Option (List Value)
  | .list items => some items
  | .tuple items => some items
  | .text text => some (text.toList.map fun c => .text (String.singleton c))
  | .expr (.seq elements) => some (elements.map .expr)
  | _ => none

/-- The entries that a declaration stands for: a mapping leads from arguments to descriptions, a row
holds entries, and whatever counts as false declares none. -/
def normalize (declaration : Value) : Except Failure (List Menu) :=
  if !declaration.truthy then .ok []
  else match declaration with
    | .map entries => .ok (entries.map fun entry => ⟨entry.2, entry.1⟩)
    | other =>
        match rowOf? other with
        | some row => row.mapM ofEntry
        | none => .error .wrongKind

end Menu
end ActionFlow
