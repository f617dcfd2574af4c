import ActionFlow.Proofs.Running.Elements

/-!
# Markers that mean nothing

A `wait` in element position of a sequence is a marker. Only one marker of an expression ever does
anything: the first of the outermost sequence, and only if the expression runs on its own. This module
erases any choice of the others and shows that the run is the same program afterwards.

Erasing an element moves everything behind it to another index, and next to a condition a `wait` is a
branch and no marker. So what is erased is said along the elements as they run, where a condition comes
with its branches, and not by filtering the list.

## Main results

* `erase`, `eraseLater`: an expression without the chosen markers.
* `check_erase`, `runInner_erase`: inside another expression no marker counts.
* `later_markers_mean_nothing`: on its own, none but the first outermost one.
-/

namespace ActionFlow
namespace Expr

/-! ## Erasing -/

/-- Where an element stands: the indices of the sequences and branches around it, from the outermost
sequence on, and then its own index. -/
abbrev Position : Type := List Nat

mutual

/-- Erases the chosen markers of all sequences in an expression. -/
def erase (chosen : Position → Bool) : Expr → Expr
  | leaf l => leaf l
  | seq elements => seq (eraseElements chosen false 0 elements)

/-- Erases the chosen markers among elements that have the indices from `index` on. As long as
`keepsNext` holds the next marker of this very sequence stays, chosen or not. -/
def eraseElements (chosen : Position → Bool) (keepsNext : Bool) (index : Nat) :
    List Expr → List Expr
  | [] => []
  | seq inside :: rest =>
      seq (eraseElements (fun position => chosen (index :: position)) false 0 inside) ::
        eraseElements chosen keepsNext (index + 1) rest
  | leaf l :: rest =>
      if l.name = waitName then
        if !keepsNext && chosen [index] then eraseElements chosen false (index + 1) rest
        else leaf l :: eraseElements chosen false (index + 1) rest
      else
        match Rule.ofName? l.name with
        | none => leaf l :: eraseElements chosen keepsNext (index + 1) rest
        | some _ =>
            match rest with
            | yes :: no :: others =>
                leaf l :: erase (fun position => chosen ((index + 1) :: position)) yes ::
                  erase (fun position => chosen ((index + 2) :: position)) no ::
                  eraseElements chosen keepsNext (index + 3) others
            | short => leaf l :: short

end

/-- Erases the chosen markers, but not the first one of the outermost sequence. -/
def eraseLater (chosen : Position → Bool) : Expr → Expr
  | leaf l => leaf l
  | seq elements => seq (eraseElements chosen true 0 elements)

/-- Whether an element belongs to the outermost sequence itself. -/
def isOutermost (position : Position) : Bool := decide (position.length = 1)

/-! ### One equation for each kind of element -/

section Equations

variable (chosen : Position → Bool) (keepsNext : Bool) (index : Nat)

theorem erase_leaf (l : Leaf) : erase chosen (leaf l) = leaf l := by
  rw [erase]

theorem erase_seq (elements : List Expr) :
    erase chosen (seq elements) = seq (eraseElements chosen false 0 elements) := by
  rw [erase]

theorem eraseElements_nil : eraseElements chosen keepsNext index [] = [] := by
  rw [eraseElements]

theorem eraseElements_cons_seq (inside rest : List Expr) :
    eraseElements chosen keepsNext index (seq inside :: rest) =
      erase (fun position => chosen (index :: position)) (seq inside) ::
        eraseElements chosen keepsNext (index + 1) rest := by
  rw [eraseElements, erase_seq]

theorem eraseElements_cons_wait {l : Leaf} (h : l.name = waitName) (rest : List Expr) :
    eraseElements chosen keepsNext index (leaf l :: rest) =
      if !keepsNext && chosen [index] then eraseElements chosen false (index + 1) rest
      else leaf l :: eraseElements chosen false (index + 1) rest := by
  match rest with
  | [] | [_] | _ :: _ :: _ => simp only [eraseElements, if_pos h]

theorem eraseElements_cons_action {l : Leaf} (hwait : l.name ≠ waitName)
    (hrule : Rule.ofName? l.name = none) (rest : List Expr) :
    eraseElements chosen keepsNext index (leaf l :: rest) =
      leaf l :: eraseElements chosen keepsNext (index + 1) rest := by
  match rest with
  | [] | [_] | _ :: _ :: _ => simp only [eraseElements, if_neg hwait, hrule]

theorem eraseElements_cons_rule {l : Leaf} {rule : Rule} (h : Rule.ofName? l.name = some rule)
    (yes no : Expr) (others : List Expr) :
    eraseElements chosen keepsNext index (leaf l :: yes :: no :: others) =
      leaf l :: erase (fun position => chosen ((index + 1) :: position)) yes ::
        erase (fun position => chosen ((index + 2) :: position)) no ::
        eraseElements chosen keepsNext (index + 3) others := by
  rw [eraseElements, if_neg (ne_waitName_of_rule h)]
  simp only [h]

end Equations

/-! ## What is left -/

/-- An expression that passes the check passes it without the chosen markers, too. -/
theorem check_erase :
    (∀ (expression : Expr), expression.check = .ok () → ∀ chosen,
      (erase chosen expression).check = .ok ()) ∧
    ∀ (elements : List Expr), checkElements elements = .ok () → ∀ chosen keepsNext index,
      checkElements (eraseElements chosen keepsNext index elements) = .ok () := by
  refine running_induction ?single ?several ?nil ?nested ?wait ?action ?condition ?short
  case single =>
    intro l h chosen
    rw [erase_leaf]
    exact h
  case several =>
    intro elements ih h chosen
    rw [check_seq] at h
    rw [erase_seq, check_seq]
    exact ih h chosen false 0
  case nil =>
    intro h chosen keepsNext index
    rw [eraseElements_nil]
    exact h
  case nested =>
    intro inside rest ihInside ihRest h chosen keepsNext index
    obtain ⟨hinside, hrest⟩ := (checkElements_cons_seq inside rest).mp h
    rw [eraseElements_cons_seq, erase_seq, checkElements_cons_seq]
    exact ⟨ihInside hinside _ _ _, ihRest hrest _ _ _⟩
  case wait =>
    intro l rest hwait ih h chosen keepsNext index
    have hrule : Rule.ofName? l.name = none := hwait ▸ Rule.ofName?_waitName
    rw [checkElements_cons_plain hrule] at h
    rw [eraseElements_cons_wait _ _ _ hwait]
    split
    · exact ih h _ _ _
    · rw [checkElements_cons_plain hrule]
      exact ih h _ _ _
  case action =>
    intro l rest hwait hrule ih h chosen keepsNext index
    rw [checkElements_cons_plain hrule] at h
    rw [eraseElements_cons_action _ _ _ hwait hrule, checkElements_cons_plain hrule]
    exact ih h _ _ _
  case condition =>
    intro l rule yes no others hrule ihYes ihNo ihOthers h chosen keepsNext index
    obtain ⟨hyes, hno, hothers⟩ := (checkElements_cons_rule hrule yes no others).mp h
    rw [eraseElements_cons_rule _ _ _ hrule, checkElements_cons_rule hrule]
    exact ⟨ihYes hyes _, ihNo hno _, ihOthers hothers _ _ _⟩
  case short =>
    intro l rule short hrule hshort h
    rw [checkElements_cons_rule_short hrule hshort] at h
    cases h

/-! ## What runs -/

variable (source : String) (mode : Mode)

/-- What stands inside another expression runs alike without the chosen markers, and so do the elements
of a sequence if its first marker is kept where it takes the barrier. -/
theorem runInner_erase :
    (∀ (expression : Expr), expression.check = .ok () → ∀ chosen,
      runInner source mode (erase chosen expression) = runInner source mode expression) ∧
    ∀ (elements : List Expr), checkElements elements = .ok () → ∀ chosen outermost index,
      runElements source mode outermost (eraseElements chosen outermost index elements) =
        runElements source mode outermost elements := by
  refine running_induction ?single ?several ?nil ?nested ?wait ?action ?condition ?short
  case single =>
    intro l _ chosen
    rw [erase_leaf]
  case several =>
    intro elements ih h chosen
    rw [check_seq] at h
    funext items
    rw [erase_seq, runInner_seq, runInner_seq, ih h]
  case nil =>
    intro _ chosen outermost index
    rw [eraseElements_nil]
  case nested =>
    intro inside rest ihInside ihRest h chosen outermost index
    obtain ⟨hinside, hrest⟩ := (checkElements_cons_seq inside rest).mp h
    funext items
    rw [eraseElements_cons_seq, erase_seq, runElements_cons_seq, runElements_cons_seq, runInner_seq,
      runInner_seq, ihInside hinside, ihRest hrest]
  case wait =>
    -- Behind a marker nothing takes the barrier any more, whether or not the marker was one that does.
    intro l rest hwait ih h chosen outermost index
    rw [checkElements_cons_plain (hwait ▸ Rule.ofName?_waitName)] at h
    have behind := ih h chosen false (index + 1)
    funext items
    rw [eraseElements_cons_wait _ _ _ hwait]
    cases outermost with
    | true =>
        simp only [Bool.not_true, Bool.false_and, Bool.false_eq_true, ↓reduceIte]
        rw [runElements_cons_outermost_wait _ _ _ hwait, runElements_cons_outermost_wait _ _ _ hwait,
          behind]
    | false =>
        rw [runElements_cons_wait _ _ _ hwait]
        split
        · rw [behind]
        · rw [runElements_cons_wait _ _ _ hwait, behind]
  case action =>
    intro l rest hwait hrule ih h chosen outermost index
    rw [checkElements_cons_plain hrule] at h
    funext items
    rw [eraseElements_cons_action _ _ _ hwait hrule, runElements_cons_action _ _ _ _ hwait hrule,
      runElements_cons_action _ _ _ _ hwait hrule, ih h]
  case condition =>
    intro l rule yes no others hrule ihYes ihNo ihOthers h chosen outermost index
    obtain ⟨hyes, hno, hothers⟩ := (checkElements_cons_rule hrule yes no others).mp h
    funext items
    rw [eraseElements_cons_rule _ _ _ hrule, runElements_cons_rule _ _ _ _ hrule,
      runElements_cons_rule _ _ _ _ hrule, ihYes hyes, ihNo hno, ihOthers hothers]
  case short =>
    intro l rule short hrule hshort h
    rw [checkElements_cons_rule_short hrule hshort] at h
    cases h

/-- Without its own markers a sequence has no use for the permission to take the barrier. -/
theorem runElements_erase_own {chosen : Position → Bool} (own : ∀ index, chosen [index] = true)
    {elements : List Expr} (h : checkElements elements = .ok ()) (index : Nat) (items : Supply) :
    runElements source mode true (eraseElements chosen false index elements) items =
      runElements source mode false elements items := by
  obtain ⟨inner, -⟩ := runInner_erase source mode
  induction elements using elements_induction generalizing index with
  | nil => rw [eraseElements_nil, runElements_nil, runElements_nil]
  | nested inside rest ih =>
      obtain ⟨hinside, hrest⟩ := (checkElements_cons_seq inside rest).mp h
      rw [← check_seq] at hinside
      rw [eraseElements_cons_seq, erase_seq, runElements_cons_seq, runElements_cons_seq, ← erase_seq,
        inner _ hinside, ih hrest]
  | wait l rest hwait ih =>
      rw [checkElements_cons_plain (hwait ▸ Rule.ofName?_waitName)] at h
      rw [eraseElements_cons_wait _ _ _ hwait, own, runElements_cons_wait _ _ _ hwait]
      exact ih h (index + 1)
  | action l rest hwait hrule ih =>
      rw [checkElements_cons_plain hrule] at h
      rw [eraseElements_cons_action _ _ _ hwait hrule, runElements_cons_action _ _ _ _ hwait hrule,
        runElements_cons_action _ _ _ _ hwait hrule, ih h]
  | condition l rule yes no others hrule ih =>
      obtain ⟨hyes, hno, hothers⟩ := (checkElements_cons_rule hrule yes no others).mp h
      rw [eraseElements_cons_rule _ _ _ hrule, runElements_cons_rule _ _ _ _ hrule,
        runElements_cons_rule _ _ _ _ hrule, inner _ hyes, inner _ hno, ih hothers]
  | short l rule short hrule hshort =>
      rw [checkElements_cons_rule_short hrule hshort] at h
      cases h

/-- **Later markers mean nothing.** From an expression that passes the check, erase any choice of
markers but the first one of the outermost sequence: what is left passes the check, and running it on
its own is the same program, so it has the same effects and the same outcome whatever happens
meanwhile. And running an expression inside another one is the same program as running it on its own
without the markers of its outermost sequence. -/
theorem later_markers_mean_nothing {expression : Expr} (passes : expression.check = .ok ()) :
    (∀ chosen, (eraseLater chosen expression).check = .ok () ∧ ∀ source mode items,
      run source mode (eraseLater chosen expression) items = run source mode expression items) ∧
    (erase isOutermost expression).check = .ok () ∧ ∀ source mode items,
      runInner source mode expression items = run source mode (erase isOutermost expression) items := by
  have inner := check_erase.1 expression passes isOutermost
  cases expression with
  | leaf l =>
      rw [erase_leaf]
      exact ⟨fun chosen => ⟨passes, fun _ _ _ => rfl⟩, passes, fun _ _ _ => runInner_leaf _ _ _ _⟩
  | seq elements =>
      have behind := (check_seq elements).symm.trans passes
      refine ⟨fun chosen => ?_, inner, fun source mode items => ?_⟩
      · have outer : (eraseLater chosen (seq elements)).check = .ok () := by
          rw [eraseLater, check_seq]
          exact check_erase.2 elements behind chosen true 0
        refine ⟨outer, fun source mode items => ?_⟩
        rw [eraseLater] at outer ⊢
        rw [run_seq _ _ _ outer, run_seq _ _ _ passes, (runInner_erase source mode).2 elements behind]
      · rw [erase_seq] at inner ⊢
        rw [run_seq _ _ _ inner, runInner_seq,
          runElements_erase_own source mode (fun _ => rfl) behind]

/-- Markers inside, behind the first one and behind a condition, one of whose branches is a `wait`. -/
theorem later_markers_mean_nothing_of_mixed :
    let marker := Expr.leaf { name := "wait" }
    let expression := Expr.seq [.leaf { name := "open" }, marker, .seq [marker, .leaf { name := "close" }],
      .leaf { name := "root?" }, marker, .seq [marker], marker, .leaf { name := "expand" }]
    expression.check = .ok () ∧
      (∀ source mode items, run source mode (.seq [.leaf { name := "open" }, marker,
          .seq [.leaf { name := "close" }], .leaf { name := "root?" }, marker, .seq [],
          .leaf { name := "expand" }]) items = run source mode expression items) ∧
      ∀ source mode items, runInner source mode expression items =
        run source mode (.seq [.leaf { name := "open" }, .seq [marker, .leaf { name := "close" }],
          .leaf { name := "root?" }, marker, .seq [marker], .leaf { name := "expand" }]) items := by
  intro marker expression
  have passes : expression.check = .ok () := rfl
  obtain ⟨later, -, inside⟩ := later_markers_mean_nothing passes
  exact ⟨passes, (later fun _ => true).2, inside⟩

end Expr
end ActionFlow
