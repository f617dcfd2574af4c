import Mathlib.Data.List.Forall2
import ActionFlow.Options

/-!
# The normal form of menus

Menus are declared in many forms, and options are declared anew with every change: what is kept is
read a second time, and a third, by the rules that read the first declaration. That is harmless
because the entries which reading gives are read as they are. So a change can fail only for the menus that
it sets itself, and menus that are not set stay, however often the options are rebuilt around them.

## Main results

* `Menu.normalize_list`, `Menu.normalize_tuple`: a row of entries is read as itself.
* `Menu.failure_of_normalize`: the two ways in which a declaration of menus can fail.
* `Options.menus_after`: after any changes, the menus are those that were set last.
* `menus_keep_normal_form`: menus over all changes of their options.
-/

namespace ActionFlow

/-! ## Traversals that can fail -/

section Traversals

variable {α β : Type} {f : α → Except Failure β} {items rest : List α} {first : α}
  {results : List β} {failure : Failure}

theorem mapM_cons_eq_ok_iff :
    (first :: rest).mapM f = .ok results ↔
      ∃ result others, f first = .ok result ∧ rest.mapM f = .ok others ∧ results = result :: others := by
  rw [List.mapM_cons]
  cases f first with
  | error found => exact iff_of_false nofun fun ⟨_, _, fails, _⟩ => nomatch fails
  | ok result =>
      cases rest.mapM f with
      | error found => exact iff_of_false nofun fun ⟨_, _, _, fails, _⟩ => nomatch fails
      | ok others =>
          constructor
          · intro same
            cases same
            exact ⟨result, others, rfl, rfl, rfl⟩
          · rintro ⟨_, _, same, alike, rfl⟩
            cases same
            cases alike
            rfl

/-- A traversal succeeds if all items do. -/
theorem exists_mapM_eq_ok_iff :
    (∃ results, items.mapM f = .ok results) ↔ ∀ item ∈ items, ∃ result, f item = .ok result := by
  induction items with
  | nil => exact iff_of_true ⟨[], rfl⟩ nofun
  | cons first rest ih =>
      rw [List.forall_mem_cons, ← ih]
      constructor
      · rintro ⟨results, same⟩
        obtain ⟨result, others, here, there, -⟩ := mapM_cons_eq_ok_iff.mp same
        exact ⟨⟨result, here⟩, others, there⟩
      · rintro ⟨⟨result, here⟩, others, there⟩
        exact ⟨_, mapM_cons_eq_ok_iff.mpr ⟨result, others, here, there, rfl⟩⟩

/-- A traversal brings what comes of the items, one by one. -/
theorem mapM_eq_ok_iff :
    items.mapM f = .ok results ↔
      List.Forall₂ (fun item result => f item = .ok result) items results := by
  induction items generalizing results with
  | nil =>
      rw [List.mapM_nil, List.forall₂_nil_left_iff]
      exact ⟨fun same => (Except.ok.inj same).symm, fun none => none ▸ rfl⟩
  | cons first rest ih => simp only [mapM_cons_eq_ok_iff, List.forall₂_cons_left_iff, ih]

theorem mapM_cons_eq_error_iff :
    (first :: rest).mapM f = .error failure ↔
      f first = .error failure ∨ (∃ result, f first = .ok result) ∧ rest.mapM f = .error failure := by
  rw [List.mapM_cons]
  cases f first with
  | error found =>
      refine ⟨fun same => .inl (by cases same; rfl), fun h => ?_⟩
      rcases h with same | ⟨⟨_, fails⟩, -⟩
      · cases same
        rfl
      · cases fails
  | ok result =>
      rw [or_iff_right nofun, and_iff_right ⟨result, rfl⟩]
      cases rest.mapM f with
      | error found => exact ⟨fun same => by cases same; rfl, fun same => by cases same; rfl⟩
      | ok others => exact iff_of_false nofun nofun

/-- A traversal fails for the first of the items that fails. -/
theorem mapM_eq_error_iff :
    items.mapM f = .error failure ↔
      ∃ before item behind, items = before ++ item :: behind ∧
        (∀ other ∈ before, ∃ result, f other = .ok result) ∧ f item = .error failure := by
  induction items with
  | nil => exact iff_of_false nofun fun ⟨before, item, behind, same, _⟩ => by simp at same
  | cons first rest ih =>
      rw [mapM_cons_eq_error_iff, ih]
      constructor
      · rintro (fails | ⟨read, before, item, behind, rfl, sound, fails⟩)
        · exact ⟨[], first, rest, rfl, nofun, fails⟩
        · exact ⟨first :: before, item, behind, rfl, List.forall_mem_cons.mpr ⟨read, sound⟩, fails⟩
      · rintro ⟨before, item, behind, same, sound, fails⟩
        cases before with
        | nil =>
            cases same
            exact .inl fails
        | cons other before =>
            cases same
            obtain ⟨read, sound⟩ := List.forall_mem_cons.mp sound
            exact .inr ⟨read, before, item, behind, rfl, sound, fails⟩

end Traversals

/-! ## Reading entries again -/

namespace Menu

/-- An entry is read as itself. -/
@[simp] theorem ofEntry_toValue (menu : Menu) : ofEntry menu.toValue = .ok menu := rfl

theorem mapM_ofEntry_toValue (menus : List Menu) :
    (menus.map toValue).mapM ofEntry = .ok menus := by
  have each : ofEntry ∘ toValue = fun menu => pure menu := funext ofEntry_toValue
  rw [List.mapM_map, each, List.mapM_pure, List.map_id']
  rfl

/-- **A list of entries is read as itself**, the empty one because it declares none. -/
theorem normalize_list (menus : List Menu) : normalize (.list (menus.map toValue)) = .ok menus := by
  cases menus with
  | nil => rfl
  | cons first rest => exact mapM_ofEntry_toValue (first :: rest)

/-- So is a tuple of entries. -/
theorem normalize_tuple (menus : List Menu) : normalize (.tuple (menus.map toValue)) = .ok menus := by
  cases menus with
  | nil => rfl
  | cons first rest => exact mapM_ofEntry_toValue (first :: rest)

/-! ## Declarations that fail -/

theorem failure_of_ofEntry {entry : Value} {failure : Failure} (h : ofEntry entry = .error failure) :
    failure = .invalidMenu entry Failure.menuShape := by
  unfold ofEntry at h
  split at h
  case h_3 =>
    -- A mapping is an entry if it says what the arguments are.
    split at h <;> cases h
    rfl
  all_goals cases h
  rfl

/-- **A declaration fails** for the shape of one of its entries, or because it is no row of entries. -/
theorem failure_of_normalize {declaration : Value} {failure : Failure}
    (h : normalize declaration = .error failure) :
    failure = .wrongKind ∨ ∃ entry, failure = .invalidMenu entry Failure.menuShape := by
  unfold normalize at h
  split at h
  · cases h
  · split at h
    · cases h
    · split at h
      · obtain ⟨-, entry, -, -, -, refused⟩ := mapM_eq_error_iff.mp h
        exact .inr ⟨entry, failure_of_ofEntry refused⟩
      · cases h
        exact .inl rfl

end Menu

/-! ## Changing options -/

namespace Options

variable {options : Options} {changes : Changes}

/-- The menus that changes set, if they set some that can be read. -/
def Changes.menus? (changes : Changes) : Option (List Menu) :=
  changes.menus.bind fun declaration => (Menu.normalize declaration).toOption

/-- Tries changes one after the other; what fails is passed over. -/
def after (options : Options) (history : List Changes) : Options :=
  history.foldl (fun now changes => (now.change changes).toOption.getD now) options

/-- Changes succeed if the menus that the options are to have can be read. -/
theorem change_of_read {menus : List Menu}
    (read : Menu.normalize (changes.menus.getD options.declaration) = .ok menus) :
    ∃ next, options.change changes = .ok next ∧ next.menus = menus := by
  unfold change
  rw [read]
  exact ⟨_, rfl, rfl⟩

theorem change_of_unread {failure : Failure}
    (unread : Menu.normalize (changes.menus.getD options.declaration) = .error failure) :
    options.change changes = .error failure := by
  unfold change
  rw [unread]
  rfl

/-- **What comes of changes**: the menus are left out and stay, or they are set and read, or they are set
and cannot be read. -/
theorem change_cases (options : Options) (changes : Changes) :
    (changes.menus = none ∧
      ∃ next, options.change changes = .ok next ∧ next.menus = options.menus) ∨
    (∃ declaration menus, changes.menus = some declaration ∧ Menu.normalize declaration = .ok menus ∧
      ∃ next, options.change changes = .ok next ∧ next.menus = menus) ∨
    ∃ declaration failure, changes.menus = some declaration ∧
      Menu.normalize declaration = .error failure ∧ options.change changes = .error failure := by
  cases set : changes.menus with
  | none =>
      have kept : Menu.normalize (changes.menus.getD options.declaration) = .ok options.menus := by
        rw [set]
        exact Menu.normalize_tuple options.menus
      exact .inl ⟨rfl, change_of_read kept⟩
  | some declaration =>
      have given : changes.menus.getD options.declaration = declaration := by rw [set]; rfl
      cases read : Menu.normalize declaration with
      | ok menus => exact .inr (.inl ⟨declaration, menus, rfl, read, change_of_read (given ▸ read)⟩)
      | error failure =>
          exact .inr (.inr ⟨declaration, failure, rfl, read, change_of_unread (given ▸ read)⟩)

theorem change_of_kept (options : Options) (h : changes.menus = none) :
    ∃ next, options.change changes = .ok next ∧ next.menus = options.menus := by
  rcases change_cases options changes with ⟨-, kept⟩ | ⟨_, _, set, -⟩ | ⟨_, _, set, -⟩
  · exact kept
  · cases h.symm.trans set
  · cases h.symm.trans set

/-- Changes fail exactly if they set menus that cannot be read, whatever the options are. -/
theorem change_eq_error_iff {failure : Failure} :
    options.change changes = .error failure ↔
      ∃ declaration, changes.menus = some declaration ∧
        Menu.normalize declaration = .error failure := by
  rcases change_cases options changes with
    ⟨left, next, kept, -⟩ | ⟨declaration, menus, set, read, next, taken, -⟩ |
      ⟨declaration, found, set, unread, failed⟩
  · simp [kept, left]
  · simp [taken, set, read]
  · simp [failed, set, unread]

/-- What becomes of the menus in one step. -/
theorem menus_step (options : Options) (changes : Changes) :
    ((options.change changes).toOption.getD options).menus = changes.menus?.getD options.menus := by
  unfold Changes.menus?
  rcases change_cases options changes with
    ⟨left, next, kept, same⟩ | ⟨declaration, menus, set, read, next, taken, same⟩ |
      ⟨declaration, failure, set, unread, failed⟩
  · simp [kept, left, same, Except.toOption]
  · simp [taken, set, read, same, Except.toOption]
  · simp [failed, set, unread, Except.toOption]

/-- **After any changes the menus are those that were set last**, among those that could be read. -/
theorem menus_after (options : Options) (history : List Changes) :
    (options.after history).menus =
      (history.filterMap Changes.menus?).getLast?.getD options.menus := by
  induction history generalizing options with
  | nil => rfl
  | cons first rest ih =>
      show (after ((options.change first).toOption.getD options) rest).menus = _
      rw [ih, menus_step, List.filterMap_cons]
      cases first.menus? with
      | none => rfl
      | some menus => rw [List.getLast?_cons]; rfl

end Options

/-! ## Menus over all changes -/

open Options in
/-- **Menus keep their normal form.** Whatever a declaration comes to is read as itself, as a list and as a
tuple. So options stay as they are when they are rebuilt: over any changes, of any fields and failing or
not, the menus are those that were set last, they are a tuple of entries which is read as itself, and they
can be declared anew. Changes that leave the menus out succeed and leave them as they are; changes that
fail do so for a declaration of menus that cannot be read, and leave the options as they were. -/
theorem menus_keep_normal_form :
    (∀ declaration menus, Menu.normalize declaration = .ok menus →
      Menu.normalize (.list (menus.map Menu.toValue)) = .ok menus ∧
      Menu.normalize (.tuple (menus.map Menu.toValue)) = .ok menus) ∧
    ∀ (options : Options) (history : List Changes),
      let now := options.after history
      now.menus = (history.filterMap Changes.menus?).getLast?.getD options.menus ∧
      now.declaration = .tuple (now.menus.map Menu.toValue) ∧
      Menu.normalize now.declaration = .ok now.menus ∧
      (∃ rebuilt, declare { menus := some now.declaration } = .ok rebuilt ∧
        rebuilt.menus = now.menus) ∧
      ∀ changes,
        (changes.menus = none → ∃ next, now.change changes = .ok next ∧ next.menus = now.menus) ∧
        ∀ failure, now.change changes = .error failure →
          (failure = .wrongKind ∨ ∃ entry, failure = .invalidMenu entry Failure.menuShape) ∧
          options.after (history ++ [changes]) = now := by
  refine ⟨fun _ menus _ => ⟨Menu.normalize_list menus, Menu.normalize_tuple menus⟩,
    fun options history => ?_⟩
  intro now
  have read : Menu.normalize now.declaration = .ok now.menus := Menu.normalize_tuple now.menus
  refine ⟨menus_after options history, rfl, read, change_of_read read, fun changes =>
    ⟨change_of_kept now, fun failure failed => ⟨?_, ?_⟩⟩⟩
  · obtain ⟨_, -, unread⟩ := change_eq_error_iff.mp failed
    exact Menu.failure_of_normalize unread
  · rw [after, List.foldl_append]
    show (now.change changes).toOption.getD now = now
    rw [failed]
    rfl

/-- Menus that are no row, a reload, a row of three forms, a row with a bare number in it, and a rendering. -/
def rebuilding : List Options.Changes :=
  [{ menus := some (.int 5) }, { reload := some true },
    { menus := some (.list [.text "tab", .map [(.text "args", .text "split:v")],
      .menu (.text "again") .null]) },
    { menus := some (.list [.text "lost", .int 1]), render := some true }, { render := some true }]

open Options in
/-- The third of the changes sets the menus. The first and the fourth fail, and the others rebuild the
options around their menus. -/
theorem menus_keep_normal_form_of_rebuilding :
    let now := ({} : Options).after rebuilding
    let menus : List Menu :=
      [⟨.text "tab", .text "tab"⟩, ⟨.text "split:v", .text "split:v"⟩, ⟨.text "again", .null⟩]
    now.menus = menus ∧ now.reload ∧ now.render ∧
      Menu.normalize (.list (menus.map Menu.toValue)) = .ok menus ∧
      (∃ rebuilt, declare { menus := some now.declaration } = .ok rebuilt ∧ rebuilt.menus = menus) ∧
      now.change { menus := some (.int 5) } = .error .wrongKind ∧
      ({} : Options).after (rebuilding ++ [{ menus := some (.int 5) }]) = now := by
  intro now menus
  obtain ⟨again, chains⟩ := menus_keep_normal_form
  obtain ⟨last, -, -, rebuilt, each⟩ := chains {} rebuilding
  have failed : now.change { menus := some (.int 5) } = .error .wrongKind := rfl
  have found : now.menus = menus := last
  exact ⟨found, rfl, rfl, (again (.list (menus.map Menu.toValue)) menus rfl).1, found ▸ rebuilt, failed,
    ((each _).2 _ failed).2⟩

end ActionFlow
