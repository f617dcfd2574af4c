import ActionFlow.Proofs.Declarations.NormalForm

/-!
# The forms of a menu

The same menu can be declared as a mapping from arguments to descriptions, or as a row whose items are texts,
mappings or entries that are made already. What an item declares is said once, and all else follows from
it: a row declares the entries of its items, in their order, and it is refused for the first item that
declares none. So a form can be exchanged for another one wherever it stands.

## Main results

* `Menu.declares_iff`: reading an item gives what it declares.
* `Menu.normalize_eq_ok_iff`, `Menu.normalize_eq_error_iff`: what comes of a row, whether it is accepted or not.
* `Menu.normalize_restated`: items may be put in other words.
* `Menu.forms_agree`: the forms of a menu and how they compare.
-/

namespace ActionFlow
namespace Menu

open Value (lookup?)

/-! ## What an item declares -/

/-- What an item of a declared row declares: a text stands for itself and is its own description, and so are
the arguments of a mapping that does not describe them. -/
inductive Declares : Value → Menu → Prop
  | entry (description args : Value) : Declares (.menu description args) ⟨description, args⟩
  | text (args : String) : Declares (.text args) ⟨.text args, .text args⟩
  | described {entries : List (Value × Value)} {description args : Value}
      (given : lookup? entries "args" = some args)
      (described : lookup? entries "description" = some description) :
      Declares (.map entries) ⟨description, args⟩
  | bare {entries : List (Value × Value)} {args : Value}
      (given : lookup? entries "args" = some args)
      (left : lookup? entries "description" = none) :
      Declares (.map entries) ⟨args, args⟩

/-- The items that can stand in a declared row: entries, texts, and mappings that say what the arguments
are. -/
inductive IsItem : Value → Prop
  | entry (description args : Value) : IsItem (.menu description args)
  | text (args : String) : IsItem (.text args)
  | mapping {entries : List (Value × Value)} {args : Value}
      (given : lookup? entries "args" = some args) : IsItem (.map entries)

/-- A mapping with textual keys. -/
def mapping (entries : List (String × Value)) : Value :=
  .map (entries.map fun entry => (.text entry.1, entry.2))

/-- The mapping that says both what the arguments are and what they are for. -/
def spelledOut (args description : Value) : Value :=
  mapping [("args", args), ("description", description)]

/-- Other words for an item. A text can be spelled out, with or without its description, and whatever
declares an entry without being one can be given as that entry. -/
inductive Restates : Value → Value → Prop
  | same (item : Value) : Restates item item
  | args (content : String) : Restates (.text content) (mapping [("args", .text content)])
  | both (content : String) : Restates (.text content) (spelledOut (.text content) (.text content))
  | entry (content : String) : Restates (.text content) (toValue ⟨.text content, .text content⟩)
  | denoted {entries : List (Value × Value)} {menu : Menu} (declares : Declares (.map entries) menu) :
      Restates (.map entries) menu.toValue

variable {item : Value} {menu : Menu} {row more : List Value} {menus others : List Menu}
  {failure : Failure}

theorem ofEntry_map (entries : List (Value × Value)) :
    ofEntry (.map entries) =
      match lookup? entries "args" with
      | some args => .ok ⟨(lookup? entries "description").getD args, args⟩
      | none => .error (.invalidMenu (.map entries) Failure.menuShape) := rfl

/-- **Reading an item gives what it declares.** -/
theorem declares_iff : ofEntry item = .ok menu ↔ Declares item menu := by
  constructor
  · intro read
    unfold ofEntry at read
    split at read
    · cases read
      exact .entry _ _
    · cases read
      exact .text _
    next entries =>
      split at read
      next args given =>
        cases read
        cases left : lookup? entries "description" with
        | none => exact .bare given left
        | some description => exact .described given left
      next => cases read
    · cases read
  · rintro (⟨description, args⟩ | ⟨args⟩ | ⟨given, described⟩ | ⟨given, left⟩)
    · rfl
    · rfl
    · rw [ofEntry_map, given, described]
      rfl
    · rw [ofEntry_map, given, left]
      rfl

theorem isItem_iff : IsItem item ↔ ∃ menu, Declares item menu := by
  constructor
  · rintro (⟨description, args⟩ | ⟨args⟩ | @⟨entries, args, given⟩)
    · exact ⟨_, .entry _ _⟩
    · exact ⟨_, .text _⟩
    · cases left : lookup? entries "description" with
      | none => exact ⟨_, .bare given left⟩
      | some description => exact ⟨_, .described given left⟩
  · rintro ⟨_, ⟨description, args⟩ | ⟨args⟩ | ⟨given, described⟩ | ⟨given, left⟩⟩
    · exact .entry _ _
    · exact .text _
    · exact .mapping given
    · exact .mapping given

/-- An item is refused as it stands, exactly if it declares nothing. -/
theorem ofEntry_eq_error_iff :
    ofEntry item = .error failure ↔
      ¬IsItem item ∧ failure = .invalidMenu item Failure.menuShape := by
  rw [isItem_iff]
  cases read : ofEntry item with
  | ok menu => exact iff_of_false nofun fun refused => refused.1 ⟨menu, declares_iff.mp read⟩
  | error found =>
      have undeclared : ¬∃ menu, Declares item menu := by
        rintro ⟨menu, declares⟩
        cases (declares_iff.mpr declares).symm.trans read
      rw [failure_of_ofEntry read, Except.error.injEq, eq_comm]
      exact (and_iff_right undeclared).symm

/-- Other words for an item are read as the item is. -/
theorem ofEntry_restated {other : Value} (h : Restates item other) : ofEntry other = ofEntry item := by
  cases h with
  | same => rfl
  | args content => rfl
  | both content => rfl
  | entry content => rfl
  | denoted declares => exact (ofEntry_toValue _).trans (declares_iff.mpr declares).symm

/-! ## Rows -/

/-- A row is read item by item; the empty one declares no entries, like all that counts as false. -/
theorem normalize_row (row : List Value) : normalize (.list row) = row.mapM ofEntry := by
  cases row <;> rfl

/-- **A row that is accepted** has one entry for each of its items, in their order. -/
theorem normalize_eq_ok_iff : normalize (.list row) = .ok menus ↔ List.Forall₂ Declares row menus := by
  rw [normalize_row, mapM_eq_ok_iff]
  simp only [declares_iff]

/-- A row is accepted if all items can stand in it. -/
theorem exists_normalize_eq_ok_iff :
    (∃ menus, normalize (.list row) = .ok menus) ↔ ∀ item ∈ row, IsItem item := by
  rw [normalize_row, exists_mapM_eq_ok_iff]
  simp only [declares_iff, isItem_iff]

theorem exists_normalize_eq_error_iff :
    (∃ failure, normalize (.list row) = .error failure) ↔ ∃ item ∈ row, ¬IsItem item := by
  have fails : (∃ failure, normalize (.list row) = .error failure) ↔
      ¬∃ menus, normalize (.list row) = .ok menus := by
    cases normalize (.list row) with
    | error failure => exact iff_of_true ⟨failure, rfl⟩ nofun
    | ok menus => exact iff_of_false nofun (not_not_intro ⟨menus, rfl⟩)
  rw [fails, exists_normalize_eq_ok_iff]
  simp only [not_forall, exists_prop]

/-- **A row that is refused** is refused for the first item that declares nothing. -/
theorem normalize_eq_error_iff :
    normalize (.list row) = .error failure ↔
      ∃ before item behind, row = before ++ item :: behind ∧ (∀ other ∈ before, IsItem other) ∧
        ¬IsItem item ∧ failure = .invalidMenu item Failure.menuShape := by
  rw [normalize_row, mapM_eq_error_iff]
  simp only [declares_iff, ← isItem_iff, ofEntry_eq_error_iff]

/-- Items may be put in other words. -/
theorem normalize_restated (h : List.Forall₂ Restates row more) :
    normalize (.list more) = normalize (.list row) := by
  rw [normalize_row, normalize_row]
  induction h with
  | nil => rfl
  | cons here _ ih => rw [List.mapM_cons, List.mapM_cons, ofEntry_restated here, ih]

/-- Rows that are accepted can be joined before or after they are read. -/
theorem normalize_append (h : normalize (.list row) = .ok menus)
    (h' : normalize (.list more) = .ok others) :
    normalize (.list (row ++ more)) = .ok (menus ++ others) := by
  rw [normalize_eq_ok_iff] at h h' ⊢
  exact List.rel_append h h'

theorem declares_spelledOut (args description : Value) :
    Declares (spelledOut args description) ⟨description, args⟩ := .described rfl rfl

/-- A mapping is a row of mappings that are spelled out, and every mapping is accepted. -/
theorem normalize_map (entries : List (Value × Value)) :
    normalize (.map entries) =
      normalize (.list (entries.map fun entry => spelledOut entry.1 entry.2)) := by
  have read : normalize (.map entries) = .ok (entries.map fun entry => ⟨entry.2, entry.1⟩) := by
    cases entries <;> rfl
  rw [read, eq_comm, normalize_eq_ok_iff, List.forall₂_map_left_iff, List.forall₂_map_right_iff]
  exact List.forall₂_same.mpr fun entry _ => declares_spelledOut entry.1 entry.2

/-! ## The forms and how they compare -/

/-- **The forms of a menu agree.** A mapping from arguments to descriptions comes to the same as the row of its
entries spelled out. A row comes to the same if texts in it are spelled out, with their descriptions or
without, and if texts and mappings in it are given as the entries that they stand for. It has one entry for
each item, in their order, so rows can be joined before or after they are read. It is refused exactly if
there is an item in it that is no entry, no text and no mapping with arguments, and the failure names the
first one of these. -/
theorem forms_agree :
    (∀ entries, normalize (.map entries) =
      normalize (.list (entries.map fun entry => spelledOut entry.1 entry.2))) ∧
    (∀ row others, List.Forall₂ Restates row others →
      normalize (.list others) = normalize (.list row)) ∧
    (∀ row menus, normalize (.list row) = .ok menus ↔ List.Forall₂ Declares row menus) ∧
    (∀ row more menus others, normalize (.list row) = .ok menus → normalize (.list more) = .ok others →
      normalize (.list (row ++ more)) = .ok (menus ++ others)) ∧
    (∀ row, (∃ failure, normalize (.list row) = .error failure) ↔ ∃ item ∈ row, ¬IsItem item) ∧
    ∀ row failure, normalize (.list row) = .error failure ↔
      ∃ before item behind, row = before ++ item :: behind ∧ (∀ other ∈ before, IsItem other) ∧
        ¬IsItem item ∧ failure = .invalidMenu item Failure.menuShape := by
  refine ⟨normalize_map, fun _ _ => normalize_restated, fun _ _ => normalize_eq_ok_iff,
    fun _ _ _ _ => normalize_append, fun _ => exists_normalize_eq_error_iff,
    fun _ _ => normalize_eq_error_iff⟩

/-- A mapping with a description and without arguments. -/
def argless : Value := mapping [("description", .text "to nowhere")]

/-- A text, a mapping that describes its arguments, and an entry whose arguments are none. -/
def threeForms : List Value :=
  [.text "tab", mapping [("description", .text "to the side"), ("args", .text "split:v")],
    .menu (.text "again") .null]

/-- The text is spelled out and the mapping is given as an entry, and a row of a single text is joined to the
three. Behind them a mapping without arguments is refused, and not the number after it. -/
theorem forms_agree_of_three :
    let menus : List Menu :=
      [⟨.text "tab", .text "tab"⟩, ⟨.text "to the side", .text "split:v"⟩, ⟨.text "again", .null⟩]
    normalize (.list threeForms) = .ok menus ∧
      normalize (.list [spelledOut (.text "tab") (.text "tab"),
        .menu (.text "to the side") (.text "split:v"), .menu (.text "again") .null]) = .ok menus ∧
      normalize (.list (threeForms ++ [.text "last"])) =
        .ok (menus ++ [⟨.text "last", .text "last"⟩]) ∧
      normalize (.list (threeForms ++ [argless, .int 5])) =
        .error (.invalidMenu argless Failure.menuShape) := by
  intro menus
  obtain ⟨-, restated, accepted, joined, -, refused⟩ := forms_agree
  have declares : List.Forall₂ Declares threeForms menus :=
    .cons (.text _) (.cons (.described rfl rfl) (.cons (.entry _ _) .nil))
  have read : normalize (.list threeForms) = .ok menus := (accepted _ _).mpr declares
  have words : List.Forall₂ Restates threeForms [spelledOut (.text "tab") (.text "tab"),
      .menu (.text "to the side") (.text "split:v"), .menu (.text "again") .null] :=
    .cons (.both _) (.cons (.denoted (.described rfl rfl)) (.cons (.same _) .nil))
  have items : ∀ item ∈ threeForms, IsItem item := by
    rintro item (_ | ⟨_, _ | ⟨_, _ | ⟨_, ⟨⟩⟩⟩⟩)
    · exact .text _
    · exact .mapping rfl
    · exact .entry _ _
  refine ⟨read, (restated _ _ words).trans read, joined _ _ _ _ read rfl,
    (refused _ _).mpr ⟨threeForms, argless, [.int 5], rfl, items, ?_, rfl⟩⟩
  rintro ⟨⟩
  contradiction

end Menu
end ActionFlow
