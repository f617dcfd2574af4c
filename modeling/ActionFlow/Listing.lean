import ActionFlow.Registry

/-!
# Listings

What an explorer offers to choose from: every action that a source can resolve, in the order of the
names, each followed by its menu entries. The action that opens the listing itself is left out.
-/

namespace ActionFlow

/-- The action that opens the listing. -/
def listingName : String := "actionMenu"

/-- One entry of a listing: choosing it invokes `action` with `args`. -/
structure ListingEntry where
  name : String
  action : String
  description : String
  args : List String := []
  deriving DecidableEq, Repr, Inhabited

namespace Listing

/-- Actions in the order of their names. -/
def sorted (actions : List Action) : List Action :=
  actions.mergeSort fun a b => decide (a.name ≤ b.name)

/-- The entry of one of an action's menus. -/
def menuEntry (action : Action) (menu : Menu) : Except Failure ListingEntry := do
  let args ← menu.actionArgs
  return {
    name := action.name ++ ":" ++ menu.args.plainText
    action := action.name
    description := action.description ++ " " ++ menu.description.plainText
    args }

/-- The entries of one action: itself without arguments, then its menus as they were declared. -/
def entries (action : Action) : Except Failure (List ListingEntry) := do
  let menus ← action.options.menus.mapM (menuEntry action)
  return { name := action.name, action := action.name, description := action.description } :: menus

/-- The listing of a source with its own table and the shared one. -/
def ofTables (own shared : Registry) : Except Failure (List ListingEntry) := do
  let shown := (sorted (own.merged shared)).filter fun action => action.name ≠ listingName
  return (← shown.mapM entries).flatten

end Listing
end ActionFlow
