import ActionFlow.Proofs.Running.Course

/-!
# The check and the runs

The check and the interpreter walk through an expression separately: the one looks for branches, the
other takes them as they come. Here they are shown to see the same elements as conditions and the same
ones as branches, so that an expression which passes never stops for want of a branch, and one which
does not is not begun.

## Main results

* `runInner_append`: the elements before a point run completely before those behind it.
* `check_agrees_with_runs`: what passing, and not passing, means for the runs of an expression.
-/

namespace ActionFlow
namespace Expr

/-! ## What the check refuses -/

/-- Refused is only a condition that lacks a branch. -/
def Refusal (failure : Failure) : Prop :=
  ∃ (router : String) (found : Nat), failure = .malformedExpression router found ∧
    (Rule.ofName? router).isSome ∧ found < 2

theorem both_error {first second : Except Failure Unit} {failure : Failure}
    (h : (first >>= fun _ => second) = .error failure) :
    first = .error failure ∨ second = .error failure := by
  cases first with
  | ok => exact .inr h
  | error => exact .inl h

theorem refusal_of_check_error :
    (∀ (expression : Expr) {failure : Failure}, expression.check = .error failure → Refusal failure) ∧
    ∀ (elements : List Expr) {failure : Failure},
      checkElements elements = .error failure → Refusal failure := by
  refine running_induction ?single ?several ?nil ?nested ?wait ?action ?condition ?short
  case single =>
    intro l failure h
    rw [check_leaf] at h
    cases h
  case several =>
    intro elements ih failure h
    exact ih ((check_seq elements).symm.trans h)
  case nil =>
    intro failure h
    rw [checkElements] at h
    cases h
  case nested =>
    intro inside rest ihInside ihRest failure h
    rw [checkElements] at h
    exact (both_error h).elim ihInside ihRest
  case wait =>
    intro l rest hwait ih failure h
    exact ih ((checkElements_cons_plain (hwait ▸ Rule.ofName?_waitName) rest).symm.trans h)
  case action =>
    intro l rest _ hrule ih failure h
    exact ih ((checkElements_cons_plain hrule rest).symm.trans h)
  case condition =>
    intro l rule yes no others hrule ihYes ihNo ihOthers failure h
    rw [checkElements] at h
    simp only [hrule] at h
    exact (both_error h).elim ihYes fun h => (both_error h).elim ihNo ihOthers
  case short =>
    intro l rule short hrule hshort failure h
    rw [checkElements_cons_rule_short hrule hshort] at h
    exact ⟨l.name, short.length, (Except.error.inj h).symm, by simp [hrule], hshort⟩

/-! ## What runs before a point -/

/-- Whether every condition among the elements has its branches among them, too. What is inside the
elements does not matter. -/
def closed : List Expr → Bool
  | [] => true
  | seq _ :: rest => closed rest
  | leaf l :: rest =>
      match Rule.ofName? l.name with
      | none => closed rest
      | some _ =>
          match rest with
          | _ :: _ :: others => closed others
          | _ => false

theorem closed_cons_plain {l : Leaf} (h : Rule.ofName? l.name = none) (rest : List Expr) :
    closed (leaf l :: rest) = closed rest := by
  match rest with
  | [] | [_] | _ :: _ :: _ => simp only [closed, h]

theorem closed_cons_rule {l : Leaf} {rule : Rule} (h : Rule.ofName? l.name = some rule)
    (yes no : Expr) (others : List Expr) :
    closed (leaf l :: yes :: no :: others) = closed others := by
  simp only [closed, h]

theorem not_closed_cons_rule_short {l : Leaf} {rule : Rule} (h : Rule.ofName? l.name = some rule)
    {short : List Expr} (hshort : short.length < 2) : closed (leaf l :: short) = false := by
  match short, hshort with
  | [], _ | [_], _ => simp only [closed, h]

variable (source : String) (mode : Mode) (items : Supply)

theorem runElements_append {before : List Expr} (h : closed before) (behind : List Expr) :
    runElements source mode false (before ++ behind) items = (do
      runElements source mode false before items
      runElements source mode false behind items) := by
  induction before using elements_induction with
  | nil => rw [runElements_nil, pure_bind, List.nil_append]
  | nested inside rest ih =>
      rw [List.cons_append, runElements_cons_seq, runElements_cons_seq, ih h, bind_assoc]
  | wait l rest hwait ih =>
      rw [closed_cons_plain (hwait ▸ Rule.ofName?_waitName)] at h
      rw [List.cons_append, runElements_cons_wait _ _ _ hwait, runElements_cons_wait _ _ _ hwait, ih h]
  | action l rest hwait hrule ih =>
      rw [closed_cons_plain hrule] at h
      rw [List.cons_append, runElements_cons_action _ _ _ _ hwait hrule,
        runElements_cons_action _ _ _ _ hwait hrule, ih h, bind_assoc]
  | condition l rule yes no others hrule ih =>
      rw [closed_cons_rule hrule] at h
      simp only [List.cons_append, runElements_cons_rule _ _ _ _ hrule, ih h, bind_assoc]
  | short l rule short hrule hshort =>
      rw [not_closed_cons_rule_short hrule hshort] at h
      cases h

/-- In a nested run, everything before a point runs completely before what is behind it. -/
theorem runInner_append {before : List Expr} (h : closed before) (behind : List Expr) :
    runInner source mode (seq (before ++ behind)) items = (do
      runInner source mode (seq before) items
      runInner source mode (seq behind) items) := by
  simp only [runInner_seq, runElements_append source mode items h]

/-- A nested run that begins with a condition which lacks a branch fails at once. -/
theorem runInner_cons_rule_short {l : Leaf} (hrule : (Rule.ofName? l.name).isSome)
    {short : List Expr} (hshort : short.length < 2) :
    runInner source mode (seq (leaf l :: short)) items =
      throw (.malformedExpression l.name short.length) := by
  obtain ⟨rule, hrule⟩ := Option.isSome_iff_exists.mp hrule
  rw [runInner_seq, runElements_cons_rule_short _ _ _ _ hrule hshort]

/-! ## Failures of runs -/

/-- If no course of a run lacks a branch, the run fails only as something that it calls does. -/
theorem relays_of_whole {run : Run Unit} (courseUnder : ∀ {σ : Type}, Oracle σ → σ → Course σ)
    (same : ∀ {σ : Type} (oracle : Oracle σ) (state : σ),
      run.play oracle state = (courseUnder oracle state).played)
    (whole : ∀ {σ : Type} (oracle : Oracle σ) (state : σ), (courseUnder oracle state).Whole)
    (explained : ∀ {σ : Type} (oracle : Oracle σ) (state : σ), (courseUnder oracle state).Explained) :
    run.Relays := by
  intro σ oracle state failure h
  have whole := whole oracle state
  have explained := explained oracle state
  rw [same] at h ⊢
  unfold Course.Explained at explained
  generalize courseUnder oracle state = course at h whole explained ⊢
  obtain ⟨log, ending, after⟩ := course
  cases ending with
  | finished => cases h
  | lacking router found => exact absurd rfl (whole router found)
  | failed found =>
      cases h
      exact explained

theorem relays_runInner {expression : Expr} (h : expression.check = .ok ()) (items : List Item) :
    (runInner source mode expression (.many items)).Relays :=
  relays_of_whole (fun oracle => course oracle source mode expression items)
    (fun oracle => (play_eq_course oracle source mode).1 expression items)
    (fun oracle => (whole_course oracle source mode).1 expression h items)
    (fun oracle => (explained_course oracle source mode).1 expression items)

theorem relays_run {expression : Expr} (h : expression.check = .ok ()) (items : List Item) :
    (run source mode expression (.many items)).Relays :=
  relays_of_whole (fun oracle => outermostCourse oracle source mode expression items)
    (fun oracle => play_run_eq_outermostCourse oracle source mode h items)
    (fun oracle => whole_outermostCourse oracle source mode h items)
    (fun oracle => explained_outermostCourse oracle source mode expression items)

/-- **The check and the runs agree.** If an expression passes the check, then whatever its runs fail
with, on their own or inside another one, is what one of their effects was answered with. If it does
not pass, the failure is about a condition that lacks a branch, and running the expression on its own is
that failure and nothing else. Passing or not, a nested run has the course of the expression, in which
a run's own failure is a condition that was reached and lacks a branch; where such a condition stands
in a sequence, the elements before it run completely, and then the run fails. -/
theorem check_agrees_with_runs (source : String) (mode : Mode) (expression : Expr) :
    (expression.check = .ok () → ∀ items,
      (runInner source mode expression (.many items)).Relays ∧
        (run source mode expression (.many items)).Relays) ∧
    (∀ failure, expression.check = .error failure →
      Refusal failure ∧ ∀ items, run source mode expression items = throw failure) ∧
    (∀ (σ : Type) (oracle : Oracle σ) (items : List Item) (state : σ),
      (runInner source mode expression (.many items)).play oracle state =
          (course oracle source mode expression items state).played ∧
        (course oracle source mode expression items state).Explained) ∧
    ∀ before l short, expression = seq (before ++ leaf l :: short) → closed before →
      (Rule.ofName? l.name).isSome → short.length < 2 → ∀ items,
        runInner source mode expression items = (do
          runInner source mode (seq before) items
          throw (.malformedExpression l.name short.length)) := by
  refine ⟨fun passes items => ⟨relays_runInner source mode passes items,
    relays_run source mode passes items⟩, fun failure refused => ?_, fun σ oracle items state => ?_, ?_⟩
  · exact ⟨refusal_of_check_error.1 expression refused,
      fun items => run_of_check_error source mode items refused⟩
  · exact ⟨(play_eq_course oracle source mode).1 expression items state,
      (explained_course oracle source mode).1 expression items state⟩
  · rintro before l short rfl hclosed hrule hshort items
    rw [runInner_append source mode items hclosed,
      runInner_cons_rule_short source mode items hrule hshort]

/-- An action, then a condition with one branch only. -/
theorem check_agrees_with_runs_of_short :
    let expression := Expr.seq
      [.leaf { name := "open" }, .leaf { name := "expandable?" }, .leaf { name := "expand" }]
    (∀ items, run "files" .normal expression items = throw (.malformedExpression "expandable?" 1)) ∧
      ∀ items, runInner "files" .normal expression items = (do
        runInner "files" .normal (seq [.leaf { name := "open" }]) items
        throw (.malformedExpression "expandable?" 1)) := by
  intro expression
  obtain ⟨-, refused, -, stops⟩ := check_agrees_with_runs "files" .normal expression
  exact ⟨(refused (.malformedExpression "expandable?" 1) rfl).2,
    stops [.leaf { name := "open" }] { name := "expandable?" } [.leaf { name := "expand" }] rfl rfl
      rfl (by decide)⟩

end Expr
end ActionFlow
