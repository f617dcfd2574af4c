import ActionFlow.Proofs.Reading.Leaves

/-!
# Reading expressions back

An expression is written as a value: a leaf as its text, a sequence as the list of what its elements are
written as. It is read back from there if its leaves are.

What a configuration hands over may be read in part already, and a row of values may be a list or a tuple.
Neither makes a difference, anywhere in a value: reading goes through a value from its items up, and what
was read is taken as it is.

## Main results

* `toValue`: the value that an expression is written as.
* `ofValue_toValue_iff`: which expressions are read back as they were written.
* `Value.ReadAhead`, `ofValue_eq_of_readAhead`: what was read in part is read as what it was.
* `format_round_trips`: both together.
-/

namespace ActionFlow
namespace Expr

/-! ## Writing expressions -/

mutual

/-- The value that an expression is written as. -/
def toValue : Expr → Value
  | leaf l => .text l.text
  | seq elements => .list (toValues elements)

/-- The values that the elements of a sequence are written as. -/
def toValues : List Expr → List Value
  | [] => []
  | element :: rest => toValue element :: toValues rest

end

mutual

/-- The leaves of an expression from left to right, at whatever depth. -/
def leaves : Expr → List Leaf
  | leaf l => [l]
  | seq elements => leavesOf elements

/-- The leaves of the elements of a sequence. -/
def leavesOf : List Expr → List Leaf
  | [] => []
  | element :: rest => leaves element ++ leavesOf rest

end

/-! ## Reading what was written -/

theorem map_leaf_eq_ok_iff {read : Except Failure Leaf} {l : Leaf} :
    read.map leaf = .ok (leaf l) ↔ read = .ok l := by
  cases read <;> simp [Except.map]

theorem map_seq_eq_ok_iff {read : Except Failure (List Expr)} {elements : List Expr} :
    read.map seq = .ok (seq elements) ↔ read = .ok elements := by
  cases read <;> simp [Except.map]

/-- A row is read as a row if its first item is read and the others are. -/
theorem ofValues_cons_eq_ok_iff {value : Value} {values : List Value} {element : Expr}
    {rest : List Expr} :
    ofValues (value :: values) = .ok (element :: rest) ↔
      ofValue value = .ok element ∧ ofValues values = .ok rest := by
  rw [ofValues]
  cases ofValue value with
  | error failure => exact iff_of_false nofun (nomatch ·.1)
  | ok first =>
      cases ofValues values with
      | error failure => exact iff_of_false nofun (nomatch ·.2)
      | ok others =>
          simp only [bind, Except.bind, pure, Except.pure, Except.ok.injEq, List.cons.injEq]

mutual

/-- **Which expressions are read back.** An expression is read back as it was written exactly if every leaf
in it can be told from its written form. -/
theorem ofValue_toValue_iff :
    (expression : Expr) → (ofValue expression.toValue = .ok expression ↔
      ∀ l ∈ expression.leaves, l.Legible)
  | leaf l => by
      rw [toValue, ofValue, map_leaf_eq_ok_iff, leafOfText_eq_ok_iff, l.ofText?_text_iff, leaves]
      exact (List.forall_mem_singleton ..).symm
  | seq elements => by
      rw [toValue, ofValue, map_seq_eq_ok_iff, leaves]
      exact ofValues_toValues_iff elements

theorem ofValues_toValues_iff :
    (elements : List Expr) → (ofValues (toValues elements) = .ok elements ↔
      ∀ l ∈ leavesOf elements, l.Legible)
  | [] => by
      rw [toValues, ofValues, leavesOf]
      exact iff_of_true rfl nofun
  | element :: rest => by
      rw [toValues, ofValues_cons_eq_ok_iff, ofValue_toValue_iff element, ofValues_toValues_iff rest,
        leavesOf, List.forall_mem_append]

end

end Expr

/-! ## Values that are read in part -/

/-- Whether a value is a row of items, in either kind of brackets. -/
def Value.IsRow (value : Value) (items : List Value) : Prop := value = .list items ∨ value = .tuple items

/-- Whether a value comes of another one by reading some of its sub-values ahead, the value itself and
those at any depth included, and by writing some of its rows in other brackets. -/
inductive Value.ReadAhead : Value → Value → Prop where
  | same (value : Value) : ReadAhead value value
  | read {value : Value} {expression : Expr} (reads : Expr.ofValue value = .ok expression) :
      ReadAhead value (.expr expression)
  | row {value other : Value} {items others : List Value} (before : value.IsRow items)
      (after : other.IsRow others) (length : items.length = others.length)
      (each : ∀ pair ∈ items.zip others, ReadAhead pair.1 pair.2) : ReadAhead value other

namespace Expr

/-- The brackets of a row make no difference. -/
theorem ofValue_of_isRow {value : Value} {items : List Value} (row : value.IsRow items) :
    ofValue value = (ofValues items).map seq := by
  rcases row with rfl | rfl
  · rw [ofValue]
  · rw [ofValue]

/-- Rows are read alike if their items are. -/
theorem ofValues_congr {items others : List Value} (length : items.length = others.length)
    (each : ∀ pair ∈ items.zip others, ofValue pair.2 = ofValue pair.1) :
    ofValues others = ofValues items := by
  induction items generalizing others with
  | nil => rw [List.length_eq_zero_iff.mp length.symm]
  | cons item rest ih =>
      cases others with
      | nil => cases length
      | cons other more =>
          rw [List.zip_cons_cons, List.forall_mem_cons] at each
          rw [ofValues, ofValues, each.1, ih (Nat.succ.inj length) each.2]

/-- **What was read in part is read as what it was**, whether it can be read or not. -/
theorem ofValue_eq_of_readAhead {value other : Value} (ahead : value.ReadAhead other) :
    ofValue other = ofValue value := by
  induction ahead with
  | same value => rfl
  | read reads => rw [ofValue, reads]
  | row before after length _ each =>
      rw [ofValue_of_isRow before, ofValue_of_isRow after, ofValues_congr length each]

/-- **The format of expressions.** An expression of any depth is read back from what it is written as
exactly if each of its leaves has a name, has no colon in its name and its arguments, and has a written
form that neither begins nor ends with a blank. And whichever sub-values of a value are replaced by what
they are read as, and whichever lists by tuples of the same items, the value is read as before; where it
was refused, it is refused for the same reason. -/
theorem format_round_trips :
    (∀ expression : Expr, ofValue expression.toValue = .ok expression ↔
      ∀ l ∈ expression.leaves, l.Legible) ∧
    ∀ value other : Value, value.ReadAhead other → ofValue other = ofValue value :=
  ⟨ofValue_toValue_iff, fun _ _ => ofValue_eq_of_readAhead⟩

/-- A sequence inside a sequence, which is also read with one leaf and the inner row read ahead, and with
a tuple outside. -/
theorem format_round_trips_of_nested :
    let inside := [Expr.leaf { name := "root?" }, .leaf { name := "open", args := ["tab", ""] }, .seq []]
    let expression := Expr.seq [.leaf { name := "wait" }, .seq inside, .leaf { name := "quit" }]
    let partly := Value.tuple [.text "wait", .expr (.seq inside), .expr (.leaf { name := "quit" })]
    (∀ l ∈ expression.leaves, l.Legible) ∧ ofValue expression.toValue = .ok expression ∧
      expression.toValue.ReadAhead partly ∧ ofValue partly = .ok expression := by
  intro inside expression partly
  obtain ⟨written, alike⟩ := format_round_trips
  have legible : ∀ l ∈ expression.leaves, l.Legible := by
    have each : ∀ l ∈ expression.leaves, Leaf.ofText? l.text = some l := by decide +kernel
    exact fun l mem => l.ofText?_text_iff.mp (each l mem)
  have inner : ofValue (toValue (.seq inside)) = .ok (.seq inside) := (written _).mpr fun l mem =>
    legible l (List.mem_append_right [_] (List.mem_append_left _ mem))
  have last : ofValue (toValue (.leaf { name := "quit" })) = .ok (.leaf { name := "quit" }) :=
    (written _).mpr fun l mem =>
      legible l (List.mem_append_right [_] (List.mem_append_right _ (List.mem_append_left _ mem)))
  have ahead : expression.toValue.ReadAhead partly := by
    refine .row (.inl rfl) (.inr rfl) rfl ?_
    simp only [toValues, List.zip_cons_cons, List.zip_nil_left, List.forall_mem_cons]
    exact ⟨.same _, .read inner, .read last, nofun⟩
  have whole := (written expression).mpr legible
  exact ⟨legible, whole, ahead, (alike _ _ ahead).trans whole⟩

end Expr
end ActionFlow
