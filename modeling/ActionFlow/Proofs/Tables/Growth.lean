import Mathlib.Data.Finset.Card
import ActionFlow.Proofs.Declarations.NormalForm
import ActionFlow.Proofs.Tables.Resolution

/-!
# The growth of a table

A table starts empty, and registrations are tried on it one after the other. Each of them comes to one of
three things. Its options cannot be declared, which is found out before anybody looks at the table; or its
name is taken, and the table refuses it; or the table takes the action, behind all others. So a table is the
row of what was registered, and what fails leaves no trace in it.

## Main results

* `register_cases`: the three things that a registration can come to.
* `actions_after`: a table holds what was registered, in the order of the registrations.
* `table_after`: in an explorer, a table sees the attempts that are for it, and no others.
* `table_holds_what_was_registered`: a table over its whole history.
* `undeclared_before_taken`: a registration of a taken name may fail for its options instead.
-/

namespace ActionFlow

/-! ## One registration -/

/-- Options that cannot be declared are never refused for a name. -/
theorem Registration.not_duplicate_of_action {registration : Registration} {failure : Failure}
    (h : registration.action = .error failure) (name table : String) :
    failure ≠ .duplicateAction name table := by
  have undeclared : Options.declare registration.options = .error failure := by
    unfold Registration.action at h
    cases declared : Options.declare registration.options with
    | ok options => rw [declared] at h; cases h
    | error found => rw [declared] at h; cases h; rfl
  obtain ⟨declaration, -, unread⟩ := Options.change_eq_error_iff.mp undeclared
  rcases Menu.failure_of_normalize unread with rfl | ⟨entry, rfl⟩ <;> nofun

namespace Registry

variable {registry : Registry} {registration : Registration}

theorem contains_iff_mem_names {name : String} : registry.contains name = true ↔ name ∈ registry.names := by
  simp [contains, names]

/-- **What a registration can come to.** -/
theorem register_cases (registry : Registry) (registration : Registration) :
    (∃ failure, registration.action = .error failure ∧
      registry.register registration = (registry, .error failure)) ∨
    (∃ action, registration.action = .ok action ∧ registration.name ∈ registry.names ∧
      registry.register registration =
        (registry, .error (.duplicateAction registration.name registry.table))) ∨
    ∃ action, registration.action = .ok action ∧ registration.name ∉ registry.names ∧
      registry.register registration =
        ({ registry with actions := registry.actions ++ [action] }, .ok action) := by
  cases declared : registration.action with
  | error failure => exact .inl ⟨failure, rfl, register_of_undeclared declared⟩
  | ok action =>
      have named := name_of_action declared
      rw [register_of_action declared, ← named, ← contains_iff_mem_names, add]
      by_cases taken : registry.contains action.name = true
      · exact .inr (.inl ⟨action, rfl, taken, by rw [if_pos taken]⟩)
      · exact .inr (.inr ⟨action, rfl, taken, by rw [if_neg taken]⟩)

/-! ## All registrations -/

/-- Tries registrations one after the other; the table is given, whichever one they were meant for. -/
def after (registry : Registry) (attempts : List Attempt) : Registry :=
  attempts.foldl (fun now attempt => (now.register attempt.registration).1) registry

/-- What each of them comes to. -/
def outcomes (registry : Registry) : List Attempt → List (Except Failure Action)
  | [] => []
  | attempt :: rest =>
      (registry.register attempt.registration).2 ::
        (registry.register attempt.registration).1.outcomes rest

/-- The actions of those that succeed, in their order. -/
def registered (registry : Registry) (attempts : List Attempt) : List Action :=
  (registry.outcomes attempts).filterMap Except.toOption

theorem after_cons (registry : Registry) (attempt : Attempt) (rest : List Attempt) :
    registry.after (attempt :: rest) = (registry.register attempt.registration).1.after rest := rfl

theorem registered_cons (registry : Registry) (attempt : Attempt) (rest : List Attempt) :
    registry.registered (attempt :: rest) =
      (registry.register attempt.registration).2.toOption.toList ++
        (registry.register attempt.registration).1.registered rest := by
  rw [registered, outcomes, List.filterMap_cons]
  cases (registry.register attempt.registration).2 <;> rfl

/-- **A table holds what was registered**, in the order of the registrations. -/
theorem actions_after (registry : Registry) (attempts : List Attempt) :
    (registry.after attempts).actions = registry.actions ++ registry.registered attempts := by
  induction attempts generalizing registry with
  | nil => exact (List.append_nil _).symm
  | cons attempt rest ih =>
      rw [after_cons, ih, registered_cons, ← List.append_assoc]
      congr 1
      rcases register_cases registry attempt.registration with
        ⟨failure, -, refused⟩ | ⟨action, -, -, refused⟩ | ⟨action, -, -, taken⟩
      · simp [refused, Except.toOption]
      · simp [refused, Except.toOption]
      · simp [taken, Except.toOption]

/-- It keeps its own name. -/
theorem table_eq_after (registry : Registry) (attempts : List Attempt) :
    (registry.after attempts).table = registry.table := by
  induction attempts generalizing registry with
  | nil => rfl
  | cons attempt rest ih =>
      rw [after_cons, ih]
      rcases register_cases registry attempt.registration with
        ⟨failure, -, refused⟩ | ⟨action, -, -, refused⟩ | ⟨action, -, -, taken⟩
      · rw [refused]
      · rw [refused]
      · rw [taken]

theorem nodup_names_after (registry : Registry) (h : registry.names.Nodup) (attempts : List Attempt) :
    (registry.after attempts).names.Nodup := by
  induction attempts generalizing registry with
  | nil => exact h
  | cons attempt rest ih => exact ih _ (nodup_names_register h attempt.registration)

/-- What was registered was declared by one of the registrations. -/
theorem declared_of_mem_registered {attempts : List Attempt} {action : Action}
    (mem : action ∈ registry.registered attempts) :
    ∃ attempt ∈ attempts, attempt.registration.action = .ok action := by
  induction attempts generalizing registry with
  | nil => cases mem
  | cons attempt rest ih =>
      rw [registered_cons, List.mem_append] at mem
      rcases mem with here | there
      · refine ⟨attempt, List.mem_cons_self, ?_⟩
        rcases register_cases registry attempt.registration with
          ⟨failure, -, refused⟩ | ⟨found, -, -, refused⟩ | ⟨found, declared, -, taken⟩
        · simp [refused, Except.toOption] at here
        · simp [refused, Except.toOption] at here
        · rw [taken] at here
          cases List.mem_singleton.mp here
          exact declared
      · obtain ⟨found, inside, declared⟩ := ih there
        exact ⟨found, List.mem_cons_of_mem _ inside, declared⟩

end Registry

/-- **In an explorer a table sees the attempts that are for it**, and no others. -/
theorem Explorer.table_after (explorer : Explorer) (history : History) (table : Option String) :
    (explorer.after history).table table =
      (explorer.table table).after ((history.map (·.2)).filter (·.table = table)) := by
  induction history generalizing explorer with
  | nil => rfl
  | cons first rest ih =>
      show ((explorer.attempt first.1 first.2).1.after rest).table table = _
      rw [ih, table_attempt, List.map_cons]
      split
      next here => rw [List.filter_cons_of_pos (by simpa using here), Registry.after_cons]
      next elsewhere => rw [List.filter_cons_of_neg (by simpa using elsewhere)]

/-! ## A table over its whole history -/

/-- **A table holds what was registered.** Whatever registrations are tried on an empty table, in either
form, it holds the actions of those that succeeded, in their order and each under its own name; no name
comes twice, and a name means the first action that was registered under it. A further registration whose
options can be declared is refused for its name exactly if something was registered under that name, and is
registered otherwise. One whose options cannot be declared fails for that, whatever its name. No
registration that fails changes anything. -/
theorem table_holds_what_was_registered (table : String) (attempts : List Attempt) :
    let now := Registry.after { table } attempts
    let registered := Registry.registered { table } attempts
    now.actions = registered ∧
    now.names = registered.map (·.name) ∧ now.names.Nodup ∧
    (∀ name, now.get? name = registered.find? fun action => action.name = name) ∧
    (∀ name action, now.get? name = some action → action.name = name) ∧
    now.size = (registered.map (·.name)).toFinset.card ∧
    (∀ name, now.contains name = (now.get? name).isSome) ∧
    ∀ attempt : Attempt,
      let name := attempt.registration.name
      let next := now.register attempt.registration
      (∀ action, attempt.registration.action = .ok action →
        (next.2 = .error (.duplicateAction name table) ↔ name ∈ registered.map (·.name)) ∧
        (next.2 = .ok action ↔ name ∉ registered.map (·.name))) ∧
      (∀ failure, attempt.registration.action = .error failure →
        next.2 = .error failure ∧ ∀ name table, failure ≠ .duplicateAction name table) ∧
      ∀ failure, next.2 = .error failure → next.1 = now := by
  intro now registered
  have actions : now.actions = registered := Registry.actions_after { table } attempts
  have names : now.names = registered.map (·.name) := by rw [Registry.names, actions]
  have nodup : now.names.Nodup := Registry.nodup_names_after { table } List.nodup_nil attempts
  have titled : now.table = table := Registry.table_eq_after { table } attempts
  refine ⟨actions, names, nodup, fun name => by rw [Registry.get?, actions],
    fun _ _ => Registry.name_of_get?, ?_, Registry.contains_eq_isSome_get? now, fun attempt => ?_⟩
  · rw [← names, List.toFinset_card_of_nodup nodup, Registry.names, List.length_map, Registry.size]
  · intro name next
    rw [← names, ← titled]
    rcases Registry.register_cases now attempt.registration with
      ⟨failure, undeclared, refused⟩ | ⟨action, declared, taken, refused⟩ |
        ⟨action, declared, free, registers⟩
    · simp [next, refused, undeclared, Registration.not_duplicate_of_action undeclared]
    · simp [next, name, refused, declared, taken]
    · simp [next, name, registers, declared, free]

/-- **A name that is taken is not always what a registration fails for**: options that cannot be declared
come first. -/
theorem undeclared_before_taken :
    let first : Attempt := .direct none { name := "open" }
    let second : Attempt :=
      .direct none { name := "open", options := { menus := some (.list [.int 5]) } }
    (Registry.registered { table := "local" } [first]).map (·.name) = ["open"] ∧
    ((Registry.after { table := "local" } [first]).register second.registration).2 =
      .error (.invalidMenu (.int 5) Failure.menuShape) ∧
    ¬∀ (table : String) (attempts : List Attempt) (attempt : Attempt),
      ((Registry.after { table } attempts).register attempt.registration).2 =
          .error (.duplicateAction attempt.registration.name table) ↔
        attempt.registration.name ∈ (Registry.registered { table } attempts).map (·.name) := by
  intro first second
  have taken : (Registry.registered { table := "local" } [first]).map (·.name) = ["open"] := rfl
  have failed : ((Registry.after { table := "local" } [first]).register second.registration).2 =
      .error (.invalidMenu (.int 5) Failure.menuShape) := rfl
  refine ⟨taken, failed, fun always => ?_⟩
  have refused := (always "local" [first] second).mpr (taken ▸ List.mem_singleton_self _)
  cases failed.symm.trans refused

end ActionFlow
