import ActionFlow.Field

/-!
# Node records

The plain description of a node that the built-in explorer uses. A record is built from a mapping of
fields; all faulty fields are reported together, in the order of the record.
-/

namespace ActionFlow

/-- A node as it is described. -/
structure NodeRecord where
  id : String
  name : String := ""
  fullpath : Option String := none
  expandable : Bool := false
  deriving DecidableEq, Repr, Inhabited

namespace NodeRecord

/-- The record that fields with textual names describe. -/
def ofFields (entries : List (Value × Value)) : Except Failure NodeRecord :=
  let field := Value.lookup? entries
  let id := match field "id" with
    | some value => Field.text value
    | none => .error .missing
  let name := Field.orDefault Field.text (field "name") ""
  let fullpath := Field.orDefault (Field.optional Field.text) (field "fullpath") none
  let expandable := Field.orDefault Field.truth (field "expandable") false
  match id, name, fullpath, expandable with
  | .ok id, .ok name, .ok fullpath, .ok expandable => .ok { id, name, fullpath, expandable }
  | _, _, _, _ =>
      .error (.invalidFields ([Field.fault? "id" id, Field.fault? "name" name,
        Field.fault? "fullpath" fullpath, Field.fault? "expandable" expandable].filterMap (·)))

/-- The record that a mapping of fields describes. Fields that a record does not have are ignored, but
all have to be named by texts. -/
def ofEntries (entries : List (Value × Value)) : Except Failure NodeRecord :=
  if entries.any fun entry => !entry.1.isText then .error .wrongKind
  else ofFields entries

/-- How a record is shown. -/
def shown (record : NodeRecord) : String :=
  let path := match record.fullpath with
    | some path => Text.quoted path
    | none => "None"
  "TreeNode(id=" ++ Text.quoted record.id ++ ", name=" ++ Text.quoted record.name ++
    ", fullpath=" ++ path ++ ", expandable=" ++ (Value.bool record.expandable).shown ++ ")"

end NodeRecord

/-- How a selection of things that are shown as `parts` is shown. -/
def selectionShown (parts : List String) : String :=
  "SelectionSet([" ++ Value.commaSeparated parts ++ "])"

end ActionFlow
