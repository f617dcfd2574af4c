import ActionFlow.Proofs.Running.Checked

/-!
# Splicing sequences

Running a concatenation is running one part and then the other, and a sequence inside a sequence can be
replaced by its elements. A condition reaches over the two elements behind it, so this holds where the
parts are joined at a point that no condition reaches over: behind elements that pass the check.

Where the barrier may be taken a concatenation is no such composition, since the first outermost `wait`
brackets all that follows it, up to the end of the other part. What holds there is that elements may be
exchanged behind a common beginning, and that elements without a marker of their own come before
everything else, bracket or not.

## Main results

* `closed_of_check`, `check_append`: where sequences that pass the check may be joined.
* `runElements_congr_behind`, `runElements_unmarked_append`: what may be done in the outermost sequence.
* `concatenation_and_splicing`: concatenations and spliced sequences.
-/

namespace ActionFlow
namespace Expr

/-! ## Joining sequences that pass the check -/

/-- In elements that pass the check every condition has its branches. -/
theorem closed_of_check {elements : List Expr} (h : checkElements elements = .ok ()) :
    closed elements := by
  induction elements using elements_induction with
  | nil => rfl
  | nested inside rest ih => exact ih ((checkElements_cons_seq inside rest).mp h).2
  | wait l rest hwait ih =>
      have plain : Rule.ofName? l.name = none := hwait ▸ Rule.ofName?_waitName
      rw [checkElements_cons_plain plain] at h
      rw [closed_cons_plain plain]
      exact ih h
  | action l rest _ hrule ih =>
      rw [checkElements_cons_plain hrule] at h
      rw [closed_cons_plain hrule]
      exact ih h
  | condition l rule yes no others hrule ih =>
      rw [closed_cons_rule hrule]
      exact ih ((checkElements_cons_rule hrule yes no others).mp h).2.2
  | short l rule short hrule hshort =>
      rw [checkElements_cons_rule_short hrule hshort] at h
      cases h

/-- Behind elements that pass the check, others pass it if they do so on their own. -/
theorem check_append {before : List Expr} (h : checkElements before = .ok ()) (behind : List Expr) :
    checkElements (before ++ behind) = .ok () ↔ checkElements behind = .ok () := by
  induction before using elements_induction with
  | nil => rfl
  | nested inside rest ih =>
      obtain ⟨hinside, hrest⟩ := (checkElements_cons_seq inside rest).mp h
      rw [List.cons_append, checkElements_cons_seq, ih hrest]
      exact and_iff_right hinside
  | wait l rest hwait ih =>
      have plain : Rule.ofName? l.name = none := hwait ▸ Rule.ofName?_waitName
      rw [checkElements_cons_plain plain] at h
      rw [List.cons_append, checkElements_cons_plain plain, ih h]
  | action l rest _ hrule ih =>
      rw [checkElements_cons_plain hrule] at h
      rw [List.cons_append, checkElements_cons_plain hrule, ih h]
  | condition l rule yes no others hrule ih =>
      obtain ⟨hyes, hno, hothers⟩ := (checkElements_cons_rule hrule yes no others).mp h
      simp only [List.cons_append]
      rw [checkElements_cons_rule hrule, ih hothers]
      simp only [hyes, hno, true_and]
  | short l rule short hrule hshort =>
      rw [checkElements_cons_rule_short hrule hshort] at h
      cases h

/-! ## Sequences without markers -/

/-- Whether there is no `wait` among the elements. One that is a branch of a condition is no element, and
those inside other elements do not matter. -/
def unmarked : List Expr → Bool
  | [] => true
  | seq _ :: rest => unmarked rest
  | leaf l :: rest =>
      if l.name = waitName then false
      else
        match Rule.ofName? l.name with
        | none => unmarked rest
        | some _ =>
            match rest with
            | _ :: _ :: others => unmarked others
            | _ => true

theorem not_unmarked_cons_wait {l : Leaf} (h : l.name = waitName) (rest : List Expr) :
    unmarked (leaf l :: rest) = false := by
  match rest with
  | [] | [_] | _ :: _ :: _ => simp only [unmarked, if_pos h]

theorem unmarked_cons_action {l : Leaf} (hwait : l.name ≠ waitName)
    (hrule : Rule.ofName? l.name = none) (rest : List Expr) :
    unmarked (leaf l :: rest) = unmarked rest := by
  match rest with
  | [] | [_] | _ :: _ :: _ => simp only [unmarked, if_neg hwait, hrule]

theorem unmarked_cons_rule {l : Leaf} {rule : Rule} (h : Rule.ofName? l.name = some rule)
    (yes no : Expr) (others : List Expr) :
    unmarked (leaf l :: yes :: no :: others) = unmarked others := by
  simp only [unmarked, if_neg (ne_waitName_of_rule h), h]

variable (source : String) (mode : Mode) (outermost : Bool) (items : Supply)

/-- Elements without a marker run completely before those behind them, also where the barrier may be
taken. -/
theorem runElements_unmarked_append {before : List Expr} (h : closed before) (plain : unmarked before)
    (behind : List Expr) :
    runElements source mode outermost (before ++ behind) items = (do
      runElements source mode false before items
      runElements source mode outermost behind items) := by
  induction before using elements_induction with
  | nil => rw [runElements_nil, pure_bind, List.nil_append]
  | nested inside rest ih =>
      rw [List.cons_append, runElements_cons_seq, runElements_cons_seq, ih h plain, bind_assoc]
  | wait l rest hwait ih =>
      rw [not_unmarked_cons_wait hwait] at plain
      cases plain
  | action l rest hwait hrule ih =>
      rw [closed_cons_plain hrule] at h
      rw [unmarked_cons_action hwait hrule] at plain
      rw [List.cons_append, runElements_cons_action _ _ _ _ hwait hrule,
        runElements_cons_action _ _ _ _ hwait hrule, ih h plain, bind_assoc]
  | condition l rule yes no others hrule ih =>
      rw [closed_cons_rule hrule] at h
      rw [unmarked_cons_rule hrule] at plain
      simp only [List.cons_append, runElements_cons_rule _ _ _ _ hrule, ih h plain, bind_assoc]
  | short l rule short hrule hshort =>
      rw [not_closed_cons_rule_short hrule hshort] at h
      cases h

/-- Without a marker there is no use for the permission to take the barrier. -/
theorem runElements_unmarked {elements : List Expr} (h : closed elements) (plain : unmarked elements) :
    runElements source mode outermost elements items = runElements source mode false elements items := by
  have alone := runElements_unmarked_append source mode outermost items h plain []
  rwa [List.append_nil, runElements_nil, bind_pure_unit] at alone

/-- Behind a common beginning, elements may be replaced by others that run alike. -/
theorem runElements_congr_behind {before : List Expr} (h : closed before) {first second : List Expr}
    (alike : ∀ outermost, runElements source mode outermost first items =
      runElements source mode outermost second items) :
    runElements source mode outermost (before ++ first) items =
      runElements source mode outermost (before ++ second) items := by
  induction before using elements_induction generalizing outermost with
  | nil => exact alike outermost
  | nested inside rest ih =>
      rw [List.cons_append, List.cons_append, runElements_cons_seq, runElements_cons_seq, ih outermost h]
  | wait l rest hwait ih =>
      rw [closed_cons_plain (hwait ▸ Rule.ofName?_waitName)] at h
      rw [List.cons_append, List.cons_append]
      cases outermost with
      | true =>
          rw [runElements_cons_outermost_wait _ _ _ hwait, runElements_cons_outermost_wait _ _ _ hwait,
            ih false h]
      | false =>
          rw [runElements_cons_wait _ _ _ hwait, runElements_cons_wait _ _ _ hwait, ih false h]
  | action l rest hwait hrule ih =>
      rw [closed_cons_plain hrule] at h
      rw [List.cons_append, List.cons_append, runElements_cons_action _ _ _ _ hwait hrule,
        runElements_cons_action _ _ _ _ hwait hrule, ih outermost h]
  | condition l rule yes no others hrule ih =>
      rw [closed_cons_rule hrule] at h
      simp only [List.cons_append, runElements_cons_rule _ _ _ _ hrule, ih outermost h]
  | short l rule short hrule hshort =>
      rw [not_closed_cons_rule_short hrule hshort] at h
      cases h

/-- A sequence among the elements, without a marker of its own, runs as its elements do in its place. -/
theorem runElements_splice {before inside : List Expr} (hbefore : closed before) (hinside : closed inside)
    (plain : unmarked inside) (behind : List Expr) :
    runElements source mode outermost (before ++ seq inside :: behind) items =
      runElements source mode outermost (before ++ (inside ++ behind)) items := by
  refine runElements_congr_behind source mode outermost items hbefore fun outermost => ?_
  rw [runElements_cons_seq, runInner_seq,
    runElements_unmarked_append source mode outermost items hinside plain]

/-- **Concatenations and spliced sequences.** If two sequences pass the check, then so does their
concatenation, and running it inside another expression is the same program as running the first and
then, unless that fails, the second; played against any oracle, it leaves the one log behind the other.
And if a sequence passes the check that holds, behind elements which pass it themselves, a sequence
without a marker of its own, then what comes of replacing that sequence by its elements passes the check,
and it runs as the same program, on its own as well as inside another expression. -/
theorem concatenation_and_splicing :
    (∀ first second, (seq first).check = .ok () → (seq second).check = .ok () →
      (seq (first ++ second)).check = .ok () ∧ ∀ source mode items,
        runInner source mode (seq (first ++ second)) items = (do
          runInner source mode (seq first) items
          runInner source mode (seq second) items) ∧
        ∀ {σ : Type} (oracle : Oracle σ) (state : σ),
          (runInner source mode (seq (first ++ second)) items).play oracle state =
            ((runInner source mode (seq first) items).play oracle state).andThen fun
              | .ok _ => (runInner source mode (seq second) items).play oracle
              | .error failure => fun state => ⟨[], .error failure, state⟩) ∧
    ∀ before inside behind, (seq (before ++ seq inside :: behind)).check = .ok () →
      (seq before).check = .ok () → (seq inside).check = .ok () → unmarked inside →
      (seq (before ++ (inside ++ behind))).check = .ok () ∧ ∀ source mode items,
        run source mode (seq (before ++ seq inside :: behind)) items =
          run source mode (seq (before ++ (inside ++ behind))) items ∧
        runInner source mode (seq (before ++ seq inside :: behind)) items =
          runInner source mode (seq (before ++ (inside ++ behind))) items := by
  simp only [check_seq]
  constructor
  · intro first second hfirst hsecond
    refine ⟨(check_append hfirst second).mpr hsecond, fun source mode items => ?_⟩
    have joined := runInner_append source mode items (closed_of_check hfirst) second
    refine ⟨joined, fun oracle state => ?_⟩
    rw [joined, Run.play_bind]
    refine congrArg (Play.andThen _) (funext fun ending => ?_)
    cases ending <;> rfl
  · intro before inside behind hwhole hbefore hinside plain
    have hbehind : checkElements behind = .ok () :=
      ((checkElements_cons_seq inside behind).mp ((check_append hbefore _).mp hwhole)).2
    have hspliced : checkElements (before ++ (inside ++ behind)) = .ok () :=
      (check_append hbefore _).mpr ((check_append hinside _).mpr hbehind)
    have same := fun source mode outermost items => runElements_splice source mode outermost items
      (closed_of_check hbefore) (closed_of_check hinside) plain behind
    refine ⟨hspliced, fun source mode items => ⟨?_, ?_⟩⟩
    · rw [run_seq _ _ _ ((check_seq _).trans hwhole), run_seq _ _ _ ((check_seq _).trans hspliced), same]
    · rw [runInner_seq, runInner_seq, same]

/-- A marker, then a sequence that begins with a condition, between two conditions. -/
theorem splicing_between_conditions :
    let marker := Expr.leaf { name := "wait" }
    let condition := [Expr.leaf { name := "root?" }, marker, .seq [marker]]
    let inside := condition ++ [Expr.leaf { name := "open" }]
    (∀ source mode items, runInner source mode (.seq (condition ++ inside)) items = (do
      runInner source mode (.seq condition) items
      runInner source mode (.seq inside) items)) ∧
    ∀ source mode items,
      run source mode (.seq (marker :: condition ++ .seq inside :: condition)) items =
        run source mode (.seq (marker :: condition ++ (inside ++ condition))) items := by
  intro marker condition inside
  obtain ⟨joined, spliced⟩ := concatenation_and_splicing
  exact ⟨fun source mode items => ((joined condition inside rfl rfl).2 source mode items).1,
    fun source mode items => ((spliced (marker :: condition) inside condition rfl rfl rfl rfl).2
      source mode items).1⟩

end Expr
end ActionFlow
