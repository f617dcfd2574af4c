/-!
# Amending a table

The state of an explorer and of its tasks is kept in tables that have an entry for every key, so a
lookup never fails and two tables with the same entries are equal.
-/

namespace ActionFlow

variable {α β : Type} [DecidableEq α]

/-- The table with the entry of one key replaced. -/
def amend (table : α → β) (key : α) (entry : β) : α → β :=
  fun other => if other = key then entry else table other

@[simp] theorem amend_self (table : α → β) (key : α) (entry : β) :
    amend table key entry key = entry := by simp [amend]

theorem amend_of_ne {key other : α} (h : other ≠ key) (table : α → β) (entry : β) :
    amend table key entry other = table other := by simp [amend, h]

@[simp] theorem amend_amend (table : α → β) (key : α) (first second : β) :
    amend (amend table key first) key second = amend table key second := by
  funext other
  by_cases h : other = key <;> simp [amend, h]

@[simp] theorem amend_eq_self (table : α → β) (key : α) : amend table key (table key) = table := by
  funext other
  by_cases h : other = key <;> simp [amend, h]

/-- Amendments of different keys can change places. -/
theorem amend_comm {key other : α} (h : key ≠ other) (table : α → β) (first second : β) :
    amend (amend table key first) other second = amend (amend table other second) key first := by
  funext x
  by_cases hx : x = key <;> by_cases hy : x = other <;> simp_all [amend]

end ActionFlow
