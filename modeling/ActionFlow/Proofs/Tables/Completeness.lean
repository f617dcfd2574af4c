import Mathlib.Algebra.Ring.Nat
import ActionFlow.Proofs.Tables.Growth
import ActionFlow.Proofs.Tables.Listing

/-!
# What a listing holds

A listing is put together from two tables, of which one hides parts of the other; it is sorted, one action is
left out, and each of the others is followed by its menus. Nothing is lost on the way, and nothing comes
twice: the names of both tables, in their order, tell the whole listing, once it is known what they mean to
the source.

## Main results

* `Registry.mem_names_merged`: the merged table has the names of both tables.
* `Listing.pairwise_lt_sorted`: sorting distinct names gives a strictly increasing row.
* `listing_is_complete`: what a listing holds after any registrations.
-/

namespace ActionFlow

/-! ## The merged table -/

namespace Registry

variable {own shared : Registry}

/-- **The merged table has the names of both tables.** -/
theorem mem_names_merged {name : String} :
    name ∈ (own.merged shared).map (·.name) ↔ name ∈ own.names ∨ name ∈ shared.names := by
  rw [names_merged, List.mem_append, List.mem_filter, ← contains_iff_mem_names]
  by_cases known : shared.contains name = true <;> simp [known, ← contains_iff_mem_names]

/-- Its actions come from one of them. -/
theorem mem_of_mem_merged {action : Action} (mem : action ∈ own.merged shared) :
    action ∈ own.actions ∨ action ∈ shared.actions := by
  rcases List.mem_append.mp mem with mem | mem
  · obtain ⟨hidden, inside, same⟩ := List.mem_map.mp mem
    cases found : own.get? hidden.name with
    | none =>
        rw [found, Option.getD_none] at same
        exact .inr (same ▸ inside)
    | some replacing =>
        rw [found, Option.getD_some] at same
        exact .inl (same ▸ List.mem_of_find?_eq_some found)
  · exact .inl (List.mem_filter.mp mem).1

end Registry

/-! ## Sorted actions -/

namespace Listing

theorem pairwise_le_sorted (actions : List Action) :
    (sorted actions).Pairwise fun a b => a.name ≤ b.name := by
  have ordered := @List.pairwise_mergeSort Action (fun a b => decide (a.name ≤ b.name))
    (fun _ _ _ first second => decide_eq_true
      (String.le_trans (of_decide_eq_true first) (of_decide_eq_true second)))
    (fun a b => by simpa using String.le_total a.name b.name) actions
  exact ordered.imp of_decide_eq_true

/-- **Sorting distinct names gives a strictly increasing row**, in the order of code points. -/
theorem pairwise_lt_sorted {actions : List Action} (h : (actions.map (·.name)).Nodup) :
    ((sorted actions).map (·.name)).Pairwise (· < ·) := by
  have distinct : ((sorted actions).map (·.name)).Nodup :=
    ((List.mergeSort_perm actions _).map _).nodup_iff.mpr h
  have ordered := List.pairwise_map.mpr (pairwise_le_sorted actions)
  refine (ordered.and distinct).imp fun ⟨le, ne⟩ => ?_
  exact String.not_le.mp fun ge => ne (String.le_antisymm le ge)

end Listing

/-! ## Listings over a history -/

/-- All menus that a registration declares have a text for their arguments. -/
def Registration.Textual (registration : Registration) : Prop :=
  ∀ action, registration.action = .ok action →
    ∀ menu ∈ action.options.menus, ∃ text, menu.args = .text text

/-- The actions of a table were declared by registrations of the history. -/
theorem Explorer.Blank.declared_of_mem {explorer : Explorer} (blank : explorer.Blank)
    {history : History} {table : Option String} {action : Action}
    (mem : action ∈ ((explorer.after history).table table).actions) :
    ∃ attempt ∈ history, attempt.2.registration.action = .ok action := by
  rw [Explorer.table_after, Registry.actions_after, blank table, List.nil_append] at mem
  obtain ⟨attempt, inside, declared⟩ := Registry.declared_of_mem_registered mem
  obtain ⟨tried, there, rfl⟩ := List.mem_map.mp (List.mem_filter.mp inside).1
  exact ⟨tried, there, declared⟩

open Listing in
/-- **A listing is complete**, over any history of registrations whose menus have texts for their arguments.
It consists of the rows of certain actions, one behind the other. Their names are those of both tables but
the one that opens the listing, each once and strictly increasing; each of them is what its name means to
the source, so a hidden action has no part in it. -/
theorem listing_is_complete {explorer : Explorer} (blank : explorer.Blank) (history : History)
    (textual : ∀ attempt ∈ history, attempt.2.registration.Textual) (source : String) :
    let now := explorer.after history
    let own := now.table (some source)
    let shared := now.table none
    ∃ listed : List Action,
      (listed.map (·.name)).Pairwise (· < ·) ∧
      (∀ name, name ∈ listed.map (·.name) ↔
        name ≠ listingName ∧ (name ∈ own.names ∨ name ∈ shared.names)) ∧
      (∀ action ∈ listed, now.resolve source action.name = some action) ∧
      ofTables own shared = .ok (listed.flatMap rows) ∧
      (listed.flatMap rows).length = (listed.map fun action => 1 + action.options.menus.length).sum := by
  intro now own shared
  have distinct : ((own.merged shared).map (·.name)).Nodup := blank.nodup_names_merged history source
  have texts : ∀ action ∈ own.merged shared, ∀ menu ∈ action.options.menus,
      ∃ text, menu.args = .text text := by
    intro action inside
    obtain ⟨attempt, there, declared⟩ : ∃ attempt ∈ history,
        attempt.2.registration.action = .ok action :=
      (Registry.mem_of_mem_merged inside).elim blank.declared_of_mem blank.declared_of_mem
    exact textual attempt there action declared
  refine ⟨shown own shared, ?_, fun name => ?_, fun action inside => ?_, ofTables_of_textual texts, ?_⟩
  · exact (pairwise_lt_sorted distinct).sublist (List.filter_sublist.map _)
  · rw [← Registry.mem_names_merged]
    simp only [List.mem_map, mem_shown]
    constructor
    · rintro ⟨action, ⟨inside, other⟩, rfl⟩
      exact ⟨other, action, inside, rfl⟩
    · rintro ⟨other, action, inside, rfl⟩
      exact ⟨action, ⟨inside, other⟩, rfl⟩
  · exact (Registry.resolve_eq_find?_merged ..).symm.trans
      (Registry.find?_name_of_mem distinct (mem_shown.mp inside).1)
  · simp only [List.length_flatMap, length_rows]

/-- Shared actions out of order, among them the one that opens the listing, and an own one that hides a shared
one together with its menu. -/
def offering : History :=
  [(none, .direct none { name := "quit" }),
    (none, .direct none { name := "actionMenu", options := { menus := some (.text "x") } }),
    (none, .decorating none "open" "shared" { menus := some (.list [.text "lost"]) } {}),
    (none, .decorating (some "files") "open" "own"
      { menus := some (.map [(.text "split:v", .text "vertical"), (.text "", .null)]) } {})]

open Listing in
/-- The listing of the source `files` has its own `open` with both menus, and `quit`. -/
theorem listing_is_complete_of_offering :
    let now := ({} : Explorer).after offering
    let found : List ListingEntry :=
      [{ name := "open", action := "open", description := "own" },
        { name := "open:split:v", action := "open", description := "own vertical",
          args := ["split", "v"] },
        { name := "open:", action := "open", description := "own None" },
        { name := "quit", action := "quit", description := "" }]
    ({} : Explorer).Blank ∧ (∀ attempt ∈ offering, attempt.2.registration.Textual) ∧
      ofTables (now.table (some "files")) (now.table none) = .ok found ∧
      ∃ listed : List Action, listed.flatMap rows = found ∧
        (listed.map (·.name)).Pairwise (· < ·) ∧
        ∀ action ∈ listed, now.resolve "files" action.name = some action := by
  intro now found
  have blank : ({} : Explorer).Blank := by
    intro table
    cases table <;> rfl
  have textual : ∀ attempt ∈ offering, attempt.2.registration.Textual := by
    intro attempt inside action declared menu mem
    simp only [offering, List.mem_cons, List.not_mem_nil, or_false] at inside
    rcases inside with rfl | rfl | rfl | rfl <;> cases declared
    · cases mem
    · cases List.mem_singleton.mp mem
      exact ⟨_, rfl⟩
    · cases List.mem_singleton.mp mem
      exact ⟨_, rfl⟩
    · rcases List.mem_cons.mp mem with rfl | mem
      · exact ⟨_, rfl⟩
      · cases List.mem_singleton.mp mem
        exact ⟨_, rfl⟩
  have listed : ofTables (now.table (some "files")) (now.table none) = .ok found := by
    obtain ⟨quit, opening, own, merged, quits, opens, owns, last, first⟩ :
        ∃ quit opening own : Action,
          (now.table (some "files")).merged (now.table none) = [quit, opening, own] ∧
          quit.name = "quit" ∧ opening.name = listingName ∧ own.name = "open" ∧
          entries quit = .ok (found.drop 3) ∧ entries own = .ok (found.take 3) :=
      ⟨_, _, _, rfl, rfl, rfl, rfl, rfl, rfl⟩
    have order : sorted [quit, opening, own] = [opening, own, quit] := by
      simp [sorted, List.mergeSort, List.MergeSort.Internal.splitInTwo, quits, opens, owns,
        listingName, show ¬"quit" ≤ "actionMenu" by decide, show ¬"quit" ≤ "open" by decide,
        show "actionMenu" ≤ "open" by decide]
    have chosen : [opening, own, quit].filter (fun action => action.name ≠ listingName) =
        [own, quit] := by
      simp [quits, opens, owns, listingName]
    simp only [ofTables, merged, order, chosen, List.mapM_cons, List.mapM_nil, first, last]
    rfl
  obtain ⟨rest, increasing, -, resolved, same, -⟩ := listing_is_complete blank offering textual "files"
  exact ⟨blank, textual, listed, rest, Except.ok.inj (same.symm.trans listed), increasing, resolved⟩

end ActionFlow
