import ActionFlow.Failure
import Mathlib.Order.Basic

/-!
# The first fault of several

A nested value can be wrong in more than one place, and one failure is all that is reported. Which places
are at fault is said without going through the value, and which fault is the first one is a matter of the
order of positions: a position is the list of the indices on the way down to it, and positions are ordered
as words are, so that a row comes before what is in it, and what is in an item before the next item.

An outcome judges the faults of a value if it is a failure exactly if there are any, and then the first
one. Judging goes along with how a value is put together of its parts.

## Main results

* `Judges.andThen`: what is judged part by part, from left to right, is judged as a whole.
* `Judges.under`, `Judges.later`: so are the faults of an item, and of the rest of a row, from the row.
* `Judges.eq_ok_iff`, `Judges.eq_error_iff`: what the outcomes say.
-/

namespace ActionFlow

/-- What is at fault in a value, by positions: the indices on the way down from the outermost row. -/
abbrev Faults : Type := List Nat → Failure → Prop

namespace Faults

/-- The fault at a position comes before all others. -/
def FirstAt (faults : Faults) (position : List Nat) (failure : Failure) : Prop :=
  faults position failure ∧
    ∀ other different, faults other different →
      other = position ∧ different = failure ∨ position < other

/-- Whether an outcome is the first fault, or no failure if nothing is at fault. -/
def Judges {α : Type} (faults : Faults) : Except Failure α → Prop
  | .ok _ => ∀ position failure, ¬ faults position failure
  | .error failure => ∃ position, faults.FirstAt position failure

/-- The faults of an item, as faults of the row in which the item has an index. -/
def under (faults : Faults) (index : Nat) : Faults := fun position failure =>
  ∃ inner, position = index :: inner ∧ faults inner failure

/-- The faults of the rest of a row, as faults of the row in which so many items stand before it. -/
def later (faults : Faults) (count : Nat) : Faults := fun position failure =>
  ∃ index inner, position = (index + count) :: inner ∧ faults (index :: inner) failure

variable {α β : Type} {faults before behind : Faults} {position : List Nat} {failure : Failure}
  {outcome : Except Failure α}

/-! ## What the outcomes say -/

/-- There is one first fault at most. -/
theorem FirstAt.unique {other : List Nat} {different : Failure} (first : faults.FirstAt position failure)
    (same : faults.FirstAt other different) : position = other ∧ failure = different := by
  rcases same.2 _ _ first.1 with ⟨rfl, rfl⟩ | lower
  · exact ⟨rfl, rfl⟩
  · rcases first.2 _ _ same.1 with ⟨rfl, rfl⟩ | upper
    · exact ⟨rfl, rfl⟩
    · exact absurd lower (List.lt_asymm upper)

theorem Judges.eq_ok_iff (judges : faults.Judges outcome) :
    (∃ result, outcome = .ok result) ↔ ∀ position failure, ¬ faults position failure := by
  cases outcome with
  | ok result => exact ⟨fun _ => judges, fun _ => ⟨result, rfl⟩⟩
  | error found =>
      obtain ⟨position, first, -⟩ := judges
      exact iff_of_false nofun fun none => none _ _ first

theorem Judges.eq_error_iff (judges : faults.Judges outcome) :
    outcome = .error failure ↔ ∃ position, faults.FirstAt position failure := by
  cases outcome with
  | ok result => exact iff_of_false nofun fun ⟨position, first, _⟩ => judges _ _ first
  | error found =>
      constructor
      · intro same
        cases same
        exact judges
      · rintro ⟨position, first⟩
        obtain ⟨_, found⟩ := judges
        rw [(found.unique first).2]

/-! ## Judging part by part -/

theorem judges_congr (same : ∀ position failure, faults position failure ↔ before position failure) :
    faults.Judges outcome ↔ before.Judges outcome := by
  rw [show faults = before from funext fun position => funext fun failure => propext (same _ _)]

theorem judges_map (f : α → β) : faults.Judges (outcome.map f) ↔ faults.Judges outcome := by
  cases outcome <;> exact Iff.rfl

/-- What is judged in two parts, one after the other, is judged as a whole if the faults of the one part
come before those of the other. -/
theorem Judges.andThen {next : α → Except Failure β} (judges : before.Judges outcome)
    (goesOn : ∀ result, outcome = .ok result → behind.Judges (next result))
    (parts : ∀ position failure,
      faults position failure ↔ before position failure ∨ behind position failure)
    (order : ∀ {position failure other different},
      before position failure → behind other different → position < other) :
    faults.Judges (outcome >>= next) := by
  rw [judges_congr parts]
  cases outcome with
  | error found =>
      obtain ⟨position, first, least⟩ := judges
      refine ⟨position, .inl first, fun other different at_fault => ?_⟩
      exact at_fault.elim (least _ _) fun at_fault => .inr (order first at_fault)
  | ok result =>
      have goesOn : behind.Judges (next result) := goesOn result rfl
      show Faults.Judges _ (next result)
      refine (judges_congr fun position failure => ?_).mpr goesOn
      exact or_iff_right (judges _ _)

/-- Faults that keep their order when they are moved keep the first one. -/
theorem Judges.moved {move : List Nat → List Nat} {moved : Faults} (judges : faults.Judges outcome)
    (same : ∀ position failure,
      moved position failure ↔ ∃ inner, position = move inner ∧ faults inner failure)
    (increasing : ∀ {inner other failure different}, faults inner failure → faults other different →
      inner < other → move inner < move other) :
    moved.Judges outcome := by
  rw [judges_congr same]
  cases outcome with
  | ok result =>
      rintro position failure ⟨inner, -, at_fault⟩
      exact judges _ _ at_fault
  | error found =>
      obtain ⟨position, first, least⟩ := judges
      refine ⟨move position, ⟨position, rfl, first⟩, ?_⟩
      rintro _ different ⟨inner, rfl, at_fault⟩
      rcases least _ _ at_fault with ⟨rfl, rfl⟩ | lower
      · exact .inl ⟨rfl, rfl⟩
      · exact .inr (increasing first at_fault lower)

theorem Judges.under (judges : faults.Judges outcome) (index : Nat) :
    (faults.under index).Judges outcome :=
  judges.moved (fun _ _ => Iff.rfl) fun _ _ lower => List.cons_lt_cons_self.mpr lower

theorem Judges.later (judges : faults.Judges outcome) (inside : ∀ failure, ¬ faults [] failure)
    (count : Nat) : (faults.later count).Judges outcome := by
  have places : ∀ position failure, faults.later count position failure ↔
      ∃ inner, position = inner.modifyHead (· + count) ∧ faults inner failure := by
    intro position failure
    constructor
    · rintro ⟨index, inner, rfl, at_fault⟩
      exact ⟨index :: inner, rfl, at_fault⟩
    · rintro ⟨_ | ⟨index, inner⟩, rfl, at_fault⟩
      · exact absurd at_fault (inside _)
      · exact ⟨index, inner, rfl, at_fault⟩
  refine judges.moved places ?_
  rintro (_ | ⟨index, inner⟩) (_ | ⟨other, further⟩) failure different here there lower
  · exact absurd here (inside _)
  · exact absurd here (inside _)
  · exact absurd there (inside _)
  · refine List.cons_lt_cons_iff.mpr ((List.cons_lt_cons_iff.mp lower).imp ?_ ?_)
    · exact fun lower => Nat.add_lt_add_right lower count
    · exact fun ⟨same, lower⟩ => ⟨congrArg (· + count) same, lower⟩

/-! Items come in the order of their indices, and before the rest of the row. -/

theorem under_lt_under {index other : Nat} (lower : index < other) {place : List Nat}
    {different : Failure} (here : before.under index position failure)
    (there : behind.under other place different) : position < place := by
  obtain ⟨inner, rfl, -⟩ := here
  obtain ⟨further, rfl, -⟩ := there
  exact List.cons_lt_cons_iff.mpr (.inl lower)

theorem under_lt_later {index count : Nat} (lower : index < count) {place : List Nat}
    {different : Failure} (here : before.under index position failure)
    (there : behind.later count place different) : position < place := by
  obtain ⟨inner, rfl, -⟩ := here
  obtain ⟨other, further, rfl, -⟩ := there
  exact List.cons_lt_cons_iff.mpr (.inl (by omega))

end Faults
end ActionFlow
