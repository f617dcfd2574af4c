import ActionFlow.Failure
import ActionFlow.Rule

/-!
# Checking expressions

A rule name in element position needs two elements after it, its branches, which are then no
elements of their own. The check walks the elements from left to right, looks at the number of
branches before it enters them, and finishes both branches before it goes on.

## Main results

* `checkElements_cons_seq`, `checkElements_cons_plain`, `checkElements_cons_rule`: what passes, one
  equation for each kind of element.
-/

namespace ActionFlow
namespace Expr

mutual

/-- Finds the first condition that lacks a branch. A leaf on its own is always fine. -/
def check : Expr → Except Failure Unit
  | leaf _ => .ok ()
  | seq elements => checkElements elements

/-- Checks the elements of a sequence. -/
def checkElements : List Expr → Except Failure Unit
  | [] => .ok ()
  | seq inner :: rest => do
      checkElements inner
      checkElements rest
  | leaf l :: rest =>
      match Rule.ofName? l.name with
      | none => checkElements rest
      | some _ =>
          match rest with
          | yes :: no :: others => do
              check yes
              check no
              checkElements others
          | short => .error (.malformedExpression l.name short.length)

end

/-! ## What passes -/

theorem both_ok_iff {first second : Except Failure Unit} :
    (first >>= fun _ => second) = .ok () ↔ first = .ok () ∧ second = .ok () := by
  cases first with
  | ok result => exact ⟨fun h => ⟨rfl, h⟩, fun h => h.2⟩
  | error => exact ⟨nofun, fun h => nomatch h.1⟩

theorem check_leaf (l : Leaf) : (leaf l).check = .ok () := by
  rw [check]

theorem check_seq (elements : List Expr) : (seq elements).check = checkElements elements := by
  rw [check]

theorem checkElements_cons_seq (inside rest : List Expr) :
    checkElements (seq inside :: rest) = .ok () ↔
      checkElements inside = .ok () ∧ checkElements rest = .ok () := by
  rw [checkElements]
  exact both_ok_iff

theorem checkElements_cons_plain {l : Leaf} (h : Rule.ofName? l.name = none) (rest : List Expr) :
    checkElements (leaf l :: rest) = checkElements rest := by
  match rest with
  | [] | [_] | _ :: _ :: _ => simp [checkElements, h]

theorem checkElements_cons_rule {l : Leaf} {rule : Rule} (h : Rule.ofName? l.name = some rule)
    (yes no : Expr) (others : List Expr) :
    checkElements (leaf l :: yes :: no :: others) = .ok () ↔
      yes.check = .ok () ∧ no.check = .ok () ∧ checkElements others = .ok () := by
  rw [checkElements]
  simp only [h]
  rw [both_ok_iff, both_ok_iff]

theorem checkElements_cons_rule_short {l : Leaf} {rule : Rule}
    (h : Rule.ofName? l.name = some rule) {short : List Expr} (hshort : short.length < 2) :
    checkElements (leaf l :: short) = .error (.malformedExpression l.name short.length) := by
  match short, hshort with
  | [], _ | [_], _ => simp only [checkElements, h]

end Expr
end ActionFlow
