import ActionFlow.Listing
import ActionFlow.Proofs.Declarations.NormalForm
import ActionFlow.Proofs.Reading.Leaves
import ActionFlow.Proofs.Running.Elements
import ActionFlow.Proofs.Tables.Resolution

/-!
# Listings and expressions

An entry of a listing has a name, and it has the action and the arguments that choosing it comes down to.
The name looks like an expression: the action's name, and behind a colon the arguments as they were
declared. But it was not written by the rules for leaves. The arguments of an entry are the fields of the
declared text as it stands, and none if it is empty; a leaf's arguments are fields of a text without the
blanks at its ends, and a colon always brings one. This module says where both agree.

## Main results

* `Listing.mem_ofTables`: what the entries of a listing are.
* `Listing.ofTables_of_textual`: the listing as one row, if all arguments were declared as texts.
* `Listing.ofText?_menuName_iff`: which texts of arguments are read back from the name of an entry.
* `listing_agrees_with_expressions`: which entries are read as what they stand for, and that these run so.
-/

namespace ActionFlow

/-! ## Failing traversals -/

section Traversals

variable {α β : Type} {f : α → Except Failure β} {items : List α}

/-- What a traversal brings comes of one of the items. -/
theorem exists_of_mem_of_mapM {results : List β} (h : items.mapM f = .ok results) {result : β}
    (mem : result ∈ results) : ∃ item ∈ items, f item = .ok result := by
  have each := mapM_eq_ok_iff.mp h
  clear h
  induction each with
  | nil => cases mem
  | @cons item found items results here _ ih =>
      rcases List.mem_cons.mp mem with rfl | mem
      · exact ⟨item, List.mem_cons_self, here⟩
      · obtain ⟨other, inside, same⟩ := ih mem
        exact ⟨other, List.mem_cons_of_mem _ inside, same⟩

/-- A traversal that never fails brings what comes of the items. -/
theorem mapM_eq_ok_map {g : α → β} (h : ∀ item ∈ items, f item = .ok (g item)) :
    items.mapM f = .ok (items.map g) := by
  rw [mapM_eq_ok_iff, List.forall₂_map_right_iff]
  exact List.forall₂_same.mpr h

end Traversals

/-! ## Entries -/

theorem Registry.find?_name_of_mem {actions : List Action} (h : (actions.map (·.name)).Nodup)
    {action : Action} (mem : action ∈ actions) :
    actions.find? (fun other => other.name = action.name) = some action := by
  induction actions with
  | nil => cases mem
  | cons first rest ih =>
      rw [List.map_cons, List.nodup_cons] at h
      rcases List.mem_cons.mp mem with rfl | mem
      · simp
      · have different : first.name ≠ action.name := fun same =>
          h.1 (same ▸ List.mem_map_of_mem (f := (·.name)) mem)
        rw [List.find?_cons_of_neg (by simpa using different), ih h.2 mem]

namespace Listing

/-- The entry for an action without arguments. -/
def bareEntry (action : Action) : ListingEntry :=
  { name := action.name, action := action.name, description := action.description }

/-- Where an entry comes from: it is the action's own, or one of its menus'. -/
def IsEntryOf (action : Action) (entry : ListingEntry) : Prop :=
  entry = bareEntry action ∨ ∃ menu ∈ action.options.menus, menuEntry action menu = .ok entry

/-- The fields of a text of arguments; an empty one has none. -/
def argFields (text : String) : List String :=
  if text = "" then []
  else ((Text.fields text.toList).1 :: (Text.fields text.toList).2).map String.ofList

theorem actionArgs_of_text {menu : Menu} {text : String} (h : menu.args = .text text) :
    menu.actionArgs = .ok (argFields text) := by
  unfold Menu.actionArgs argFields
  rw [h]
  by_cases empty : text = ""
  · simp [Value.truthy, empty]
  · simp [Value.truthy, empty]

theorem action_of_menuEntry {action : Action} {menu : Menu} {entry : ListingEntry}
    (h : menuEntry action menu = .ok entry) :
    entry.action = action.name ∧ entry.name = action.name ++ ":" ++ menu.args.plainText ∧
      menu.actionArgs = .ok entry.args := by
  unfold menuEntry at h
  cases args : menu.actionArgs with
  | error => rw [args] at h; cases h
  | ok found =>
      rw [args] at h
      cases h
      exact ⟨rfl, rfl, rfl⟩

theorem IsEntryOf.action_eq {action : Action} {entry : ListingEntry} (of : IsEntryOf action entry) :
    entry.action = action.name := by
  rcases of with rfl | ⟨menu, -, same⟩
  · rfl
  · exact (action_of_menuEntry same).1

theorem isEntryOf_of_mem {action : Action} {found : List ListingEntry} (h : entries action = .ok found)
    {entry : ListingEntry} (mem : entry ∈ found) : IsEntryOf action entry := by
  unfold entries at h
  cases menus : action.options.menus.mapM (menuEntry action) with
  | error => rw [menus] at h; cases h
  | ok others =>
      rw [menus] at h
      cases h
      rcases List.mem_cons.mp mem with rfl | mem
      · exact .inl rfl
      · exact .inr (exists_of_mem_of_mapM menus mem)

/-- The entries of a listing are those of the actions that the source can resolve. -/
theorem mem_ofTables {own shared : Registry} {listing : List ListingEntry}
    (h : ofTables own shared = .ok listing) {entry : ListingEntry} (mem : entry ∈ listing) :
    ∃ action ∈ own.merged shared, IsEntryOf action entry := by
  unfold ofTables at h
  generalize shown : (sorted (own.merged shared)).filter (fun action => action.name ≠ listingName) =
    actions at h
  cases found : actions.mapM entries with
  | error => simp only [found] at h; cases h
  | ok rows =>
      simp only [found] at h
      cases h
      obtain ⟨row, inside, mem⟩ := List.mem_flatten.mp mem
      obtain ⟨action, there, same⟩ := exists_of_mem_of_mapM found inside
      refine ⟨action, ?_, isEntryOf_of_mem same mem⟩
      rw [← shown, sorted] at there
      exact List.mem_mergeSort.mp (List.mem_filter.mp there).1

/-- The actions that are listed, in their order. -/
def shown (own shared : Registry) : List Action :=
  (sorted (own.merged shared)).filter fun action => action.name ≠ listingName

theorem mem_shown {own shared : Registry} {action : Action} :
    action ∈ shown own shared ↔ action ∈ own.merged shared ∧ action.name ≠ listingName := by
  simp [shown, sorted]

/-- The entry for a menu whose arguments are a text. -/
def menuRow (action : Action) (menu : Menu) : ListingEntry :=
  { name := action.name ++ ":" ++ menu.args.plainText
    action := action.name
    description := action.description ++ " " ++ menu.description.plainText
    args := argFields menu.args.plainText }

/-- The entries of an action, if all arguments of its menus are texts. -/
def rows (action : Action) : List ListingEntry :=
  bareEntry action :: action.options.menus.map (menuRow action)

theorem length_rows (action : Action) : (rows action).length = 1 + action.options.menus.length := by
  simp [rows, Nat.add_comm]

theorem entries_of_textual {action : Action}
    (h : ∀ menu ∈ action.options.menus, ∃ text, menu.args = .text text) :
    entries action = .ok (rows action) := by
  have each : ∀ menu ∈ action.options.menus,
      menuEntry action menu = .ok (menuRow action menu) := by
    intro menu inside
    obtain ⟨text, declared⟩ := h menu inside
    rw [menuEntry, actionArgs_of_text declared, menuRow, declared]
    rfl
  rw [entries, mapM_eq_ok_map each]
  rfl

/-- **The listing as one row**, if all arguments were declared as texts: the rows of the actions that are
shown, one behind the other. -/
theorem ofTables_of_textual {own shared : Registry}
    (h : ∀ action ∈ own.merged shared, ∀ menu ∈ action.options.menus,
      ∃ text, menu.args = .text text) :
    ofTables own shared = .ok ((shown own shared).flatMap rows) := by
  have each : ∀ action ∈ shown own shared, entries action = .ok (rows action) :=
    fun action inside => entries_of_textual (h action (mem_shown.mp inside).1)
  have found := mapM_eq_ok_map each
  unfold shown at found
  simp only [ofTables, found, shown, List.flatMap]
  rfl

theorem exists_ofTables {own shared : Registry}
    (h : ∀ action ∈ own.merged shared, ∀ menu ∈ action.options.menus,
      ∃ text, menu.args = .text text) :
    ∃ listing, ofTables own shared = .ok listing :=
  ⟨_, ofTables_of_textual h⟩

/-! ## Names of entries -/

/-- An action name that can stand in an expression as it is: it is not empty, has no colon, and neither
begins nor ends with a blank. -/
structure PlainName (name : String) : Prop where
  named : name ≠ ""
  colonless : ':' ∉ name.toList
  trimmed : Text.Trimmed name.toList

/-- Whether a text ends with a blank. -/
def endsBlank (text : String) : Bool := text.toList.getLast?.any Text.isBlank

theorem PlainName.ofText? {name : String} (plain : PlainName name) :
    Leaf.ofText? name = some { name } := by
  rw [Leaf.ofText?_eq_some_iff, Text.trim_eq_self_iff.mpr plain.trimmed]
  refine ⟨plain.named, ?_⟩
  have alone : Text.fields (Text.joined name.toList []) = (name.toList, []) :=
    Text.fields_joined plain.colonless nofun
  simpa [Text.joined] using alone

variable {name text : String}

theorem toList_menuName (name text : String) :
    (name ++ ":" ++ text).toList = name.toList ++ ':' :: text.toList := by
  simp

/-- A leaf of the name with all fields of the text is written as both with a colon in between. -/
theorem text_of_argFields (h : text ≠ "") :
    (Leaf.text { name, args := argFields text }).toList = (name ++ ":" ++ text).toList := by
  have joined := Text.joined_fields text.toList
  rw [Text.joined] at joined
  rw [Leaf.toList_text, toList_menuName]
  simp [argFields, h, Text.joined, Function.comp_def, joined]

theorem trimmed_menuName_iff (plain : PlainName name) (h : text ≠ "") :
    Text.Trimmed (name ++ ":" ++ text).toList ↔ endsBlank text = false := by
  have beginning : (name ++ ":" ++ text).toList.head? = name.toList.head? := by
    have filled : name.toList ≠ [] := fun empty => plain.named (String.toList_eq_nil_iff.mp empty)
    rw [toList_menuName, List.head?_append, Option.or_of_isSome (List.isSome_head?.mpr filled)]
  have ending : (name ++ ":" ++ text).toList.getLast? = text.toList.getLast? := by
    have filled : text.toList ≠ [] := fun empty => h (String.toList_eq_nil_iff.mp empty)
    rw [toList_menuName, List.append_cons, List.getLast?_append,
      Option.or_of_isSome (List.getLast?_isSome.mpr filled)]
  rw [Text.Trimmed, Text.TrimmedWhere, beginning, ending, and_iff_right plain.trimmed.1, endsBlank]
  cases text.toList.getLast? <;> simp

/-- Which texts of arguments are read back from the name of an entry. -/
theorem ofText?_menuName_iff (plain : PlainName name) :
    Leaf.ofText? (name ++ ":" ++ text) = some { name, args := argFields text } ↔
      text ≠ "" ∧ endsBlank text = false := by
  by_cases empty : text = ""
  · subst empty
    refine iff_of_false (fun found => ?_) fun h => h.1 rfl
    have length := Leaf.length_args_of_ofText? found
    rw [toList_menuName] at length
    simp [argFields] at length
  · rw [and_iff_right empty, ← trimmed_menuName_iff plain empty, ← Text.trim_eq_self_iff]
    constructor
    · intro found
      rw [← Leaf.text_of_ofText? found, text_of_argFields empty]
    · intro trimmed
      rw [Leaf.ofText?_eq_some_iff, trimmed, toList_menuName]
      refine ⟨plain.named, ?_⟩
      rw [Text.fields_append plain.colonless]
      simp [Text.fields, argFields, empty, Function.comp_def]

end Listing

/-! ## Choosing an entry, and running its name -/

/-- The merged table of a source has every name once, over any history. -/
theorem Explorer.Blank.nodup_names_merged {explorer : Explorer} (blank : explorer.Blank)
    (history : History) (source : String) :
    (((explorer.after history).merged source).map (·.name)).Nodup := by
  have each (table : Option String) : ((explorer.after history).table table).names.Nodup := by
    refine Explorer.nodup_names_after ?_ history
    rw [Registry.names, blank table]
    exact List.nodup_nil
  exact Registry.nodup_names_merged (each _) (each _)

/-- An expression that is a single leaf runs as its action, whatever the name means in a sequence. -/
theorem Expr.runValue_of_leaf {text : String} {l : Leaf} (h : leafOfText text = .ok l) (source : String)
    (mode : Mode) (items : Supply) :
    runValue source mode (.text text) false items = invoke source l.name items l.args mode := by
  rw [runValue, ofValue, h]
  exact run_leaf source mode items l

open Listing in
/-- **Listings and expressions agree where they can.** Over any history of registrations, every entry of a
listing is an entry of the action that its source resolves. If the action's name can stand in an
expression, the name of the action's own entry is read as that action without arguments, and the name of a
menu's entry is read as the entry's action with the entry's arguments exactly if the declared text of
arguments is not empty and does not end with a blank. Whenever an entry is read so, running its name as an
expression on its own is choosing the entry, for all items and modes, whatever the action is called. A
listing fails only for arguments that were not declared as a text. -/
theorem listing_agrees_with_expressions {explorer : Explorer} (blank : explorer.Blank)
    (history : History) (source : String) :
    let now := explorer.after history
    let listing := ofTables (now.table (some source)) (now.table none)
    ((∀ action ∈ now.merged source, ∀ menu ∈ action.options.menus, ∃ text, menu.args = .text text) →
      ∃ entries, listing = .ok entries) ∧
    ∀ entries, listing = .ok entries → ∀ entry ∈ entries,
      (∃ action, now.resolve source entry.action = some action ∧ IsEntryOf action entry) ∧
      (PlainName entry.action →
        (∀ action, entry = bareEntry action →
          Expr.leafOfText entry.name = .ok { name := entry.action }) ∧
        ∀ action menu text, menuEntry action menu = .ok entry → menu.args = .text text →
          (Expr.leafOfText entry.name = .ok { name := entry.action, args := entry.args } ↔
            text ≠ "" ∧ endsBlank text = false)) ∧
      (Expr.leafOfText entry.name = .ok { name := entry.action, args := entry.args } →
        ∀ chosen mode items, Expr.runValue chosen mode (.text entry.name) false items =
          invoke chosen entry.action items entry.args mode) := by
  intro now listing
  have nodup : ((now.merged source).map (·.name)).Nodup := blank.nodup_names_merged history source
  refine ⟨fun texts => ?_, fun found listed entry mem => ⟨?_, fun plain => ⟨?_, ?_⟩, ?_⟩⟩
  · exact exists_ofTables texts
  · obtain ⟨action, inside, of⟩ := mem_ofTables listed mem
    refine ⟨action, ?_, of⟩
    rw [of.action_eq]
    exact (Registry.resolve_eq_find?_merged ..).symm.trans (Registry.find?_name_of_mem nodup inside)
  · rintro action rfl
    exact Expr.leafOfText_eq_ok_iff.mpr plain.ofText?
  · intro action menu text same declared
    obtain ⟨named, written, args⟩ := action_of_menuEntry same
    rw [actionArgs_of_text declared] at args
    rw [named] at plain
    rw [Expr.leafOfText_eq_ok_iff, named, written, declared, ← Except.ok.inj args]
    exact ofText?_menuName_iff plain
  · exact fun read chosen mode items => Expr.runValue_of_leaf read chosen mode items

/-- An action that is called as the barrier's marker is, with a menu that can be read and one that cannot. -/
def waiting : History :=
  [(none, .direct (some "files")
    { name := "wait", options := { menus := some (.list [.text "split:v", .text ""]) } })]

open Listing in
/-- The entry for `split:v` can be run by its name; the one without arguments cannot. -/
theorem listing_agrees_with_expressions_of_waiting :
    let now := ({} : Explorer).after waiting
    let split : ListingEntry :=
      { name := "wait:split:v", action := "wait", description := " split:v", args := ["split", "v"] }
    let empty : ListingEntry := { name := "wait:", action := "wait", description := " " }
    ({} : Explorer).Blank ∧ PlainName "wait" ∧
      (∀ action ∈ now.merged "files", ∀ menu ∈ action.options.menus,
        ∃ text, menu.args = .text text) ∧
      (∃ entries, ofTables (now.table (some "files")) (now.table none) = .ok entries) ∧
      ofTables (now.table (some "files")) (now.table none) =
        .ok [{ name := "wait", action := "wait", description := "" }, split, empty] ∧
      Expr.leafOfText "wait" = .ok { name := "wait" } ∧
      Expr.leafOfText "wait:" ≠ .ok { name := "wait" } ∧
      ∀ mode items, Expr.runValue "files" mode (.text "wait:split:v") false items =
        invoke "files" "wait" items ["split", "v"] mode := by
  intro now split empty
  have blank : ({} : Explorer).Blank := by
    intro table
    cases table <;> rfl
  have plain : PlainName "wait" :=
    ⟨by decide, by decide, Text.trim_eq_self_iff.mp (by decide +kernel)⟩
  obtain ⟨action, alone, named⟩ : ∃ action, now.merged "files" = [action] ∧
      action = { name := "wait", options := { menus := [⟨.text "split:v", .text "split:v"⟩,
        ⟨.text "", .text ""⟩] } } := ⟨_, rfl, rfl⟩
  have texts : ∀ action ∈ now.merged "files", ∀ menu ∈ action.options.menus,
      ∃ text, menu.args = .text text := by
    rw [alone, named]
    simp
  have listed : ofTables (now.table (some "files")) (now.table none) =
      .ok [{ name := "wait", action := "wait", description := "" }, split, empty] := by
    have alone : (now.table (some "files")).merged (now.table none) = [action] := alone
    rw [ofTables, alone, named, sorted, List.mergeSort_singleton]
    rfl
  obtain ⟨succeeds, entries⟩ := listing_agrees_with_expressions blank waiting "files"
  obtain ⟨-, own, -⟩ := entries _ listed _ List.mem_cons_self
  obtain ⟨-, menus, runs⟩ := entries _ listed split (by simp)
  obtain ⟨-, others, -⟩ := entries _ listed empty (by simp)
  have read := (own plain).1 action (by rw [named]; rfl)
  have split_read := ((menus plain).2 action ⟨.text "split:v", .text "split:v"⟩ "split:v"
    (by rw [named]; rfl) rfl).mpr ⟨by decide, by decide +kernel⟩
  have unread := mt ((others plain).2 action ⟨.text "", .text ""⟩ "" (by rw [named]; rfl) rfl).mp
    fun h => h.1 rfl
  exact ⟨blank, plain, texts, succeeds texts, listed, read, unread, runs split_read "files"⟩

end ActionFlow
