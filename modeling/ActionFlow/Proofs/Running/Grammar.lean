import ActionFlow.Proofs.Reading.FirstFault
import ActionFlow.Proofs.Running.Checked

/-!
# What the check accepts

Whether a leaf with a rule's name is a condition or the branch of one depends on all that stands to its
left. The well-formed expressions are given by a grammar, which says what a row of elements begins with and
leaves the rest to the rest. The faults of the others are given by position: which indices are those of
elements, counted from the left, and which of them hold a condition without its branches.

The check is shown to accept the grammar and to report the first fault in the order of positions. A
condition's own position comes before the positions inside its branches, and these come before those of
the elements behind them.

## Main results

* `Expr.WellFormed`, `Expr.Derivable`: the grammar of expressions and of rows of elements.
* `Expr.Lacks`: the conditions that lack a branch, at whatever depth.
* `Expr.check_eq_ok_iff_wellFormed`, `Expr.judges_check`: what the check accepts, and what it reports.
* `Expr.check_accepts_grammar`: both together.
-/

namespace ActionFlow
namespace Expr

/-! ## The grammar -/

mutual

/-- The expressions that can be run: leaves, and sequences of well-formed elements. -/
inductive WellFormed : Expr → Prop where
  | leaf (l : Leaf) : WellFormed (leaf l)
  | seq {elements : List Expr} (elementsOk : Derivable elements) : WellFormed (seq elements)

/-- The rows of elements that a sequence can have. -/
inductive Derivable : List Expr → Prop where
  | nil : Derivable []
  | plain {l : Leaf} {rest : List Expr} (noRule : Rule.ofName? l.name = none)
      (restOk : Derivable rest) : Derivable (.leaf l :: rest)
  | nested {inside rest : List Expr} (insideOk : WellFormed (.seq inside))
      (restOk : Derivable rest) : Derivable (.seq inside :: rest)
  | condition {l : Leaf} {yes no : Expr} {others : List Expr} (rule : (Rule.ofName? l.name).isSome)
      (yesOk : WellFormed yes) (noOk : WellFormed no) (othersOk : Derivable others) :
      Derivable (.leaf l :: yes :: no :: others)

end

theorem wellFormed_leaf (l : Leaf) : WellFormed (leaf l) := .leaf l

theorem wellFormed_seq {elements : List Expr} : WellFormed (seq elements) ↔ Derivable elements :=
  ⟨fun (.seq elementsOk) => elementsOk, .seq⟩

theorem derivable_cons_seq {inside rest : List Expr} :
    Derivable (seq inside :: rest) ↔ Derivable inside ∧ Derivable rest :=
  ⟨fun (.nested (.seq insideOk) restOk) => ⟨insideOk, restOk⟩, fun both => .nested (.seq both.1) both.2⟩

theorem derivable_cons_plain {l : Leaf} (h : Rule.ofName? l.name = none) {rest : List Expr} :
    Derivable (leaf l :: rest) ↔ Derivable rest := by
  refine ⟨fun derivable => ?_, .plain h⟩
  cases derivable with
  | plain _ restOk => exact restOk
  | condition rule => simp [h] at rule

theorem derivable_cons_rule {l : Leaf} (h : (Rule.ofName? l.name).isSome) {yes no : Expr}
    {others : List Expr} :
    Derivable (leaf l :: yes :: no :: others) ↔ WellFormed yes ∧ WellFormed no ∧ Derivable others := by
  refine ⟨fun derivable => ?_, fun ⟨yesOk, noOk, othersOk⟩ => .condition h yesOk noOk othersOk⟩
  cases derivable with
  | plain noRule => simp [noRule] at h
  | condition _ yesOk noOk othersOk => exact ⟨yesOk, noOk, othersOk⟩

theorem not_derivable_cons_rule_short {l : Leaf} (h : (Rule.ofName? l.name).isSome) {short : List Expr}
    (hshort : short.length < 2) : ¬ Derivable (leaf l :: short) := by
  intro derivable
  cases derivable with
  | plain noRule => simp [noRule] at h
  | condition => exact absurd hshort (by simp)

/-- What passes is what the grammar derives. -/
theorem check_ok_iff_both :
    (∀ expression : Expr, expression.check = .ok () ↔ WellFormed expression) ∧
    ∀ elements : List Expr, checkElements elements = .ok () ↔ Derivable elements := by
  refine running_induction ?single ?several ?nil ?nested ?wait ?action ?condition ?short
  case single => exact fun l => iff_of_true (check_leaf l) (wellFormed_leaf l)
  case several =>
    intro elements ih
    rw [check_seq, ih, wellFormed_seq]
  case nil => exact iff_of_true (by rw [checkElements]) .nil
  case nested =>
    intro inside rest ihInside ihRest
    rw [checkElements_cons_seq, ihInside, ihRest, derivable_cons_seq]
  case wait =>
    intro l rest hwait ih
    have hrule : Rule.ofName? l.name = none := hwait ▸ Rule.ofName?_waitName
    rw [checkElements_cons_plain hrule, ih, derivable_cons_plain hrule]
  case action =>
    intro l rest _ hrule ih
    rw [checkElements_cons_plain hrule, ih, derivable_cons_plain hrule]
  case condition =>
    intro l rule yes no others hrule ihYes ihNo ihOthers
    rw [checkElements_cons_rule hrule, ihYes, ihNo, ihOthers,
      derivable_cons_rule (Option.isSome_of_mem hrule)]
  case short =>
    intro l rule short hrule hshort
    rw [checkElements_cons_rule_short hrule hshort]
    have underivable := not_derivable_cons_rule_short (Option.isSome_of_mem hrule) hshort
    exact iff_of_false (fun same => by cases same) underivable

theorem check_eq_ok_iff_wellFormed (expression : Expr) :
    expression.check = .ok () ↔ WellFormed expression := check_ok_iff_both.1 expression

/-! ## Faults by position -/

/-- How many places an element takes: a condition takes its two branches along. -/
def stride : Expr → Nat
  | leaf l => if (Rule.ofName? l.name).isSome then 3 else 1
  | seq _ => 1

theorem stride_plain {l : Leaf} (h : Rule.ofName? l.name = none) : (leaf l).stride = 1 := by
  simp [stride, h]

theorem stride_rule {l : Leaf} (h : (Rule.ofName? l.name).isSome) : (leaf l).stride = 3 := by
  simp [stride, h]

/-- The indices of elements: the first one, and from each element the one behind all its places. -/
inductive IsElement (elements : List Expr) : Nat → Prop where
  | first : IsElement elements 0
  | next {index : Nat} {element : Expr} (before : IsElement elements index)
      (here : elements[index]? = some element) : IsElement elements (index + element.stride)

/-- The conditions in an expression that lack a branch, with what is to be reported about each: its name,
and how many elements there are behind it. -/
inductive Lacks : Expr → List Nat → Failure → Prop where
  | here {elements following : List Expr} {index : Nat} {l : Leaf} (element : IsElement elements index)
      (found : elements.drop index = leaf l :: following) (rule : (Rule.ofName? l.name).isSome)
      (short : following.length < 2) :
      Lacks (seq elements) [index] (.malformedExpression l.name following.length)
  | inside {elements : List Expr} {index : Nat} {element : Expr} {position : List Nat} {failure : Failure}
      (here : elements[index]? = some element) (lacks : Lacks element position failure) :
      Lacks (seq elements) (index :: position) failure

theorem Lacks.refusal {expression : Expr} {position : List Nat} {failure : Failure}
    (lacks : Lacks expression position failure) : Refusal failure := by
  induction lacks with
  | here _ _ rule short => exact ⟨_, _, rfl, rule, by omega⟩
  | inside _ _ ih => exact ih

theorem not_lacks_leaf {l : Leaf} {position : List Nat} {failure : Failure} :
    ¬ Lacks (leaf l) position failure := nofun

theorem not_lacks_nil {expression : Expr} {failure : Failure} : ¬ Lacks expression [] failure := nofun

/-- Elements behind the first one are elements of the rest. -/
theorem isElement_cons_iff {element : Expr} {rest : List Expr} {index : Nat} :
    IsElement (element :: rest) index ↔ index = 0 ∨
      ∃ other, index = other + element.stride ∧
        IsElement ((element :: rest).drop element.stride) other := by
  constructor
  · intro isElement
    induction isElement with
    | first => exact .inl rfl
    | @next index found before here ih =>
        refine .inr ?_
        rcases ih with rfl | ⟨other, rfl, isElement⟩
        · cases here
          exact ⟨0, rfl, .first⟩
        · refine ⟨other + found.stride, Nat.add_right_comm .., isElement.next ?_⟩
          rw [List.getElem?_drop, Nat.add_comm, here]
  · rintro (rfl | ⟨other, rfl, isElement⟩)
    · exact .first
    · induction isElement with
      | first => exact IsElement.first.next rfl
      | next before here ih =>
          rw [Nat.add_right_comm]
          rw [List.getElem?_drop, Nat.add_comm] at here
          exact ih.next here

/-- Faults of a row: the first element lacks a branch, or there is a fault inside one of its places, or
among the elements behind them. -/
theorem lacks_cons_iff {element : Expr} {rest : List Expr} {position : List Nat} {failure : Failure} :
    Lacks (seq (element :: rest)) position failure ↔
      (∃ l, element = leaf l ∧ (Rule.ofName? l.name).isSome ∧ rest.length < 2 ∧ position = [0] ∧
        failure = .malformedExpression l.name rest.length) ∨
      (∃ index < element.stride, ∃ part, (element :: rest)[index]? = some part ∧
        Faults.under (Lacks part) index position failure) ∨
      Faults.later (Lacks (seq ((element :: rest).drop element.stride))) element.stride position
        failure := by
  constructor
  · intro lacks
    cases lacks with
    | @here _ following index l isElement found rule short =>
        rcases isElement_cons_iff.mp isElement with rfl | ⟨other, rfl, isElement⟩
        · cases found
          exact .inl ⟨l, rfl, rule, short, rfl, rfl⟩
        · have found : ((element :: rest).drop element.stride).drop other = leaf l :: following := by
            rw [List.drop_drop, Nat.add_comm, found]
          exact .inr (.inr ⟨other, [], rfl, .here ‹_› found rule short⟩)
    | @inside _ index part inner _ here lacks =>
        by_cases within : index < element.stride
        · exact .inr (.inl ⟨index, within, part, here, inner, rfl, lacks⟩)
        · have beyond := Nat.le_of_not_lt within
          have here : ((element :: rest).drop element.stride)[index - element.stride]? = some part := by
            rw [List.getElem?_drop, Nat.add_sub_cancel' beyond, here]
          exact .inr (.inr ⟨_, inner, by rw [Nat.sub_add_cancel beyond], .inside here lacks⟩)
  · rintro (⟨l, rfl, rule, short, rfl, rfl⟩ | ⟨index, -, part, here, inner, rfl, lacks⟩ |
      ⟨index, inner, rfl, lacks⟩)
    · exact .here .first rfl rule short
    · exact .inside here lacks
    · cases lacks with
      | here isElement found rule short =>
          refine .here (isElement_cons_iff.mpr (.inr ⟨index, rfl, isElement⟩)) ?_ rule short
          rw [Nat.add_comm, ← List.drop_drop, found]
      | inside here lacks =>
          refine .inside ?_ lacks
          rw [Nat.add_comm, ← List.getElem?_drop, here]

/-! ### The faults of each kind of row -/

theorem not_lacks_seq_nil {position : List Nat} {failure : Failure} :
    ¬ Lacks (seq []) position failure := by
  intro lacks
  cases lacks with
  | here _ found => simp at found
  | inside here => simp at here

theorem lacks_cons_plain {element : Expr} (h : element.stride = 1) (rest : List Expr)
    (position : List Nat) (failure : Failure) :
    Lacks (seq (element :: rest)) position failure ↔
      Faults.under (Lacks element) 0 position failure ∨
        Faults.later (Lacks (seq rest)) 1 position failure := by
  rw [lacks_cons_iff, h]
  constructor
  · rintro (⟨l, rfl, rule, -⟩ | ⟨index, zero, part, here, lacks⟩ | lacks)
    · exact absurd ((stride_rule rule).symm.trans h) (by decide)
    · cases Nat.lt_one_iff.mp zero
      cases here
      exact .inl lacks
    · exact .inr lacks
  · rintro (lacks | lacks)
    · exact .inr (.inl ⟨0, Nat.one_pos, element, rfl, lacks⟩)
    · exact .inr (.inr lacks)

theorem lacks_cons_rule {l : Leaf} (h : (Rule.ofName? l.name).isSome) (yes no : Expr)
    (others : List Expr) (position : List Nat) (failure : Failure) :
    Lacks (seq (leaf l :: yes :: no :: others)) position failure ↔
      Faults.under (Lacks yes) 1 position failure ∨
        Faults.under (Lacks no) 2 position failure ∨
        Faults.later (Lacks (seq others)) 3 position failure := by
  rw [lacks_cons_iff, stride_rule h]
  constructor
  · rintro (⟨-, -, -, short, -⟩ | ⟨index, within, part, here, lacks⟩ | lacks)
    · exact absurd short (by simp)
    · match index, within with
      | 0, _ =>
          cases here
          obtain ⟨_, -, lacks⟩ := lacks
          cases lacks
      | 1, _ =>
          cases here
          exact .inl lacks
      | 2, _ =>
          cases here
          exact .inr (.inl lacks)
    · exact .inr (.inr lacks)
  · rintro (lacks | lacks | lacks)
    · exact .inr (.inl ⟨1, by decide, yes, rfl, lacks⟩)
    · exact .inr (.inl ⟨2, by decide, no, rfl, lacks⟩)
    · exact .inr (.inr lacks)

/-- A condition that lacks a branch comes before whatever else is at fault behind it. -/
theorem firstAt_cons_rule_short {l : Leaf} (h : (Rule.ofName? l.name).isSome) {short : List Expr}
    (hshort : short.length < 2) :
    Faults.FirstAt (Lacks (seq (leaf l :: short))) [0] (.malformedExpression l.name short.length) := by
  refine ⟨.here .first rfl h hshort, fun other different lacks => ?_⟩
  rcases lacks_cons_iff.mp lacks with
    ⟨_, same, -, -, rfl, rfl⟩ | ⟨index, -, part, here, inner, rfl, lacks⟩ | ⟨index, inner, rfl, -⟩
  · cases same
    exact .inl ⟨rfl, rfl⟩
  · cases index with
    | zero =>
        cases here
        cases lacks
    | succ index => exact .inr (List.cons_lt_cons_iff.mpr (.inl index.succ_pos))
  · exact .inr (List.cons_lt_cons_iff.mpr (.inl (by rw [stride_rule h]; omega)))

/-! ## What the check reports -/

theorem Lacks.judges_later {elements : List Expr}
    (judges : Faults.Judges (Lacks (seq elements)) (checkElements elements)) (count : Nat) :
    Faults.Judges (Faults.later (Lacks (seq elements)) count) (checkElements elements) :=
  judges.later (fun _ => not_lacks_nil) count

/-- Nothing is at fault in a leaf that is no condition. -/
theorem judges_cons_plain {l : Leaf} (h : Rule.ofName? l.name = none) {rest : List Expr}
    (judges : Faults.Judges (Lacks (seq rest)) (checkElements rest)) :
    Faults.Judges (Lacks (seq (leaf l :: rest))) (checkElements (leaf l :: rest)) := by
  rw [checkElements_cons_plain h]
  refine (Faults.judges_congr fun position failure => ?_).mpr (Lacks.judges_later judges 1)
  rw [lacks_cons_plain (stride_plain h)]
  exact or_iff_right fun ⟨_, _, lacks⟩ => not_lacks_leaf lacks

/-- The check goes through the faults in the order of their positions. -/
theorem judges_check_both :
    (∀ expression : Expr, Faults.Judges (Lacks expression) expression.check) ∧
    ∀ elements : List Expr, Faults.Judges (Lacks (seq elements)) (checkElements elements) := by
  refine running_induction ?single ?several ?nil ?nested ?wait ?action ?condition ?short
  case single =>
    intro l
    rw [check_leaf]
    exact fun _ _ => not_lacks_leaf
  case several =>
    intro elements ih
    rw [check_seq]
    exact ih
  case nil =>
    rw [checkElements]
    exact fun _ _ => not_lacks_seq_nil
  case nested =>
    intro inside rest ihInside ihRest
    rw [checkElements]
    exact (ihInside.under 0).andThen (fun _ _ => Lacks.judges_later ihRest 1) (lacks_cons_plain rfl rest)
      (Faults.under_lt_later Nat.one_pos)
  case wait => exact fun l rest hwait ih => judges_cons_plain (hwait ▸ Rule.ofName?_waitName) ih
  case action => exact fun l rest _ hrule ih => judges_cons_plain hrule ih
  case condition =>
    intro l rule yes no others hrule ihYes ihNo ihOthers
    have hsome : (Rule.ofName? l.name).isSome := Option.isSome_of_mem hrule
    have behind := (ihNo.under 2).andThen (fun _ _ => Lacks.judges_later ihOthers 3) (fun _ _ => Iff.rfl)
      (Faults.under_lt_later (by decide))
    rw [checkElements]
    simp only [hrule]
    exact (ihYes.under 1).andThen (fun _ _ => behind) (lacks_cons_rule hsome yes no others)
      fun here there => there.elim (Faults.under_lt_under (by decide) here)
        (Faults.under_lt_later (by decide) here)
  case short =>
    intro l rule short hrule hshort
    rw [checkElements_cons_rule_short hrule hshort]
    exact ⟨[0], firstAt_cons_rule_short (Option.isSome_of_mem hrule) hshort⟩

theorem judges_check (expression : Expr) : Faults.Judges (Lacks expression) expression.check :=
  judges_check_both.1 expression

/-- **The check accepts the grammar and reports the first fault.** An expression passes exactly if it is a
leaf or a sequence whose row of elements the grammar derives. Otherwise the check fails, and it fails with
the first condition that lacks a branch in the order of positions: the failure names a rule, and with it
the number of elements behind that condition, which is none or one. -/
theorem check_accepts_grammar (expression : Expr) :
    (expression.check = .ok () ↔ WellFormed expression) ∧
    (¬ WellFormed expression → ∃ failure, expression.check = .error failure) ∧
    (∀ failure, expression.check = .error failure ↔
      ∃ position, Faults.FirstAt (Lacks expression) position failure) ∧
    ∀ position failure, Lacks expression position failure →
      ∃ (router : String) (found : Nat), failure = .malformedExpression router found ∧
        (Rule.ofName? router).isSome ∧ (found = 0 ∨ found = 1) := by
  have judges := judges_check expression
  refine ⟨check_eq_ok_iff_wellFormed expression, fun refused => ?_, fun failure => judges.eq_error_iff,
    fun position failure lacks => ?_⟩
  · cases outcome : expression.check with
    | ok => exact absurd ((check_eq_ok_iff_wellFormed expression).mp outcome) refused
    | error failure => exact ⟨failure, rfl⟩
  · obtain ⟨router, found, same, rule, few⟩ := lacks.refusal
    exact ⟨router, found, same, rule, by omega⟩

/-- A condition among the branches of another one is a leaf like any other, and the first fault is the one
inside the sequence behind them. -/
theorem check_accepts_grammar_of_branches :
    let behind := [Expr.seq [.leaf { name := "selected?" }, .leaf { name := "open" }],
      .leaf { name := "expandable?" }]
    let expression := Expr.seq (.leaf { name := "root?" } :: .leaf { name := "expanded?" } ::
      .leaf { name := "open" } :: behind)
    ¬ WellFormed expression ∧ expression.check = .error (.malformedExpression "selected?" 1) ∧
      ∃ position, Faults.FirstAt (Lacks expression) position (.malformedExpression "selected?" 1) := by
  intro behind expression
  obtain ⟨accepts, -, reports, -⟩ := check_accepts_grammar expression
  have outcome : expression.check = .error (.malformedExpression "selected?" 1) := rfl
  refine ⟨fun wellFormed => ?_, outcome, (reports _).mp outcome⟩
  exact nomatch outcome.symm.trans (accepts.mpr wellFormed)

end Expr
end ActionFlow
