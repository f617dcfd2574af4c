import ActionFlow.Proofs.Running.Course

/-!
# What running an expression means

An expression that passes the check is run by walking its elements by index; what that does is the
course of the expression, which is said by recursion on the element list alone. Nothing is assumed of
the explorer, the callbacks, the rules or the views: an oracle answers in their place.

## Main results

* `run_follows_course`: the run of an expression that passes the check is its course, and ends well
  unless something that it calls fails.
-/

namespace ActionFlow

variable {σ : Type}

/-- Under an obliging oracle nothing in a log has failed. -/
theorem Oracle.Obliging.failure?_eq_none {oracle : Oracle σ} (h : oracle.Obliging) {α : Type}
    {run : Run α} {state : σ} {entry : Answered} (hentry : entry ∈ (run.play oracle state).log) :
    entry.failure? = none := by
  obtain ⟨before, effect, rfl⟩ := Program.exists_answer_of_mem_log hentry
  exact h before effect

namespace Expr

/-- **A run and its course.** Against every oracle, running an expression that passes the check has the
effects, the outcome and the final state of the oracle that its course has; and if nothing that the
run calls fails, everything is done. -/
theorem run_follows_course (oracle : Oracle σ) (source : String) (mode : Mode)
    {expression : Expr} (h : expression.check = .ok ()) (items : List Item) (state : σ) :
    (run source mode expression (.many items)).play oracle state =
        (outermostCourse oracle source mode expression items state).played ∧
      (oracle.Obliging →
        (outermostCourse oracle source mode expression items state).ending = .finished) := by
  have same := play_run_eq_outermostCourse oracle source mode h items state
  refine ⟨same, fun obliging => ?_⟩
  have whole := whole_outermostCourse oracle source mode h items state
  have explained := explained_outermostCourse oracle source mode expression items state
  unfold Course.Explained at explained
  cases hending : (outermostCourse oracle source mode expression items state).ending with
  | finished => rfl
  | lacking router found => exact absurd hending (whole router found)
  | failed failure =>
      simp only [hending] at explained
      obtain ⟨entry, hentry, hfail⟩ := explained
      have logged : entry ∈ ((run source mode expression (.many items)).play oracle state).log := by
        rw [same]
        exact hentry
      rw [obliging.failure?_eq_none logged] at hfail
      cases hfail

end Expr

/-- An oracle under which names mean nothing, every rule says yes and nothing fails; it counts the
effects. -/
def Oracle.agreeable : Oracle Nat where
  answer count effect :=
    (match effect with
      | .op (.resolve ..) => none
      | .op (.gather _ _ given) => given
      | .op (.test ..) => true
      | .op (.rootOf _) => Item.nothing
      | .op (.partsOf _) => Parts.none
      | .op (.keyOf _) => none
      | .op (.register ..) | .op (.setExpandable ..) | .op .enter => Except.ok ()
      | .op (.record _) | .op (.change ..) | .op (.keep ..) | .op .leave => ()
      | .call (.test ..) => Except.ok true
      | .call (.callback ..) | .call (.requestRender ..) | .call (.render _) | .call (.load ..) =>
          Except.ok ()
      | .await _ => Except.ok count
      | .release _ => Except.ok ()
      | .setGate .. | .cancel _ => (), count + 1)

theorem Oracle.agreeable_obliging : Oracle.agreeable.Obliging := by
  intro count effect
  cases effect with
  | op op => cases op <;> rfl
  | call call => cases call <;> rfl
  | await | release | setGate | cancel => rfl

/-- An outermost `wait`, one inside, and a condition with a rule's name as its branch. -/
theorem run_follows_course_of_nested_wait :
    let expression := Expr.seq [.leaf { name := "wait" }, .seq [.leaf { name := "wait" }],
      .leaf { name := "root?" }, .leaf { name := "selected?" }, .seq [.leaf { name := "open" }],
      .leaf { name := "wait" }]
    expression.check = .ok () ∧ Oracle.agreeable.Obliging ∧
      (expression.run "files" .normal (.many [.node "a", .node "b"])).play Oracle.agreeable 0 =
        (expression.outermostCourse Oracle.agreeable "files" .normal [.node "a", .node "b"] 0).played ∧
      (expression.outermostCourse Oracle.agreeable "files" .normal
        [.node "a", .node "b"] 0).ending = .finished := by
  intro expression
  have passes : expression.check = .ok () := rfl
  obtain ⟨same, ending⟩ := Expr.run_follows_course Oracle.agreeable "files" .normal passes
    [.node "a", .node "b"] 0
  exact ⟨passes, Oracle.agreeable_obliging, same, ending Oracle.agreeable_obliging⟩

end ActionFlow
