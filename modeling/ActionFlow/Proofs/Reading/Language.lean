import ActionFlow.Proofs.Reading.Expressions
import ActionFlow.Proofs.Reading.FirstFault

/-!
# The values that are expressions

Reading goes down through lists and tuples, to whatever depth, and comes to a tip where a value is neither.
Whether a value is read is a matter of its tips alone, which are found without reading anything: all of
them have to be readable, each for itself. What is read has the shape of the value, row for row. What
cannot be read is refused for the first of its unreadable tips, from left to right.

## Main results

* `Value.Tip`, `Value.Readable`: where reading comes to, and what it needs to find there.
* `Value.Mirrors`: what a value is read as.
* `Expr.ofValue_eq_ok_iff`, `Expr.judges_ofValue`: what is read, and what is reported.
* `Expr.reading_accepts_language`: all of it together.
-/

namespace ActionFlow

namespace Value

/-! ## Tips -/

/-- The values that are reached from a value by going down through rows and that are no rows themselves, by
position. -/
inductive Tip : Value → List Nat → Value → Prop where
  | here {value : Value} (noRow : ∀ items, ¬ value.IsRow items) : Tip value [] value
  | inside {value item tip : Value} {items : List Value} {index : Nat} {position : List Nat}
      (row : value.IsRow items) (found : items[index]? = some item) (below : Tip item position tip) :
      Tip value (index :: position) tip

/-- What can be read at a tip: an expression, and a text that names an action. -/
def Readable : Value → Prop
  | expr _ => True
  | text content =>
      Text.trim content.toList ≠ [] ∧ (Text.trim content.toList).head? ≠ some ':'
  | _ => False

/-- How a tip is refused: with the value itself, a text with its blanks. -/
def refusal (tip : Value) : Failure :=
  .unreadableExpression tip (if tip.isText then Failure.emptyName else Failure.unsupportedKind tip)

/-- The unreadable tips of a value. -/
def Unreadable (value : Value) : Faults := fun position failure =>
  ∃ tip, value.Tip position tip ∧ ¬ tip.Readable ∧ failure = tip.refusal

/-- What a value is read as: a text as the leaf that it denotes, and a row as a sequence of as many
elements, position by position. -/
inductive Mirrors : Value → Expr → Prop where
  | built (expression : Expr) : Mirrors (.expr expression) expression
  | leaf {content : String} {l : Leaf} (denotes : Leaf.ofText? content = some l) :
      Mirrors (.text content) (.leaf l)
  | row {value : Value} {items : List Value} {elements : List Expr} (row : value.IsRow items)
      (length : items.length = elements.length)
      (each : ∀ (index : Nat) (item : Value) (element : Expr), items[index]? = some item →
        elements[index]? = some element → Mirrors item element) :
      Mirrors value (.seq elements)

theorem isRow_list (items : List Value) : (list items).IsRow items := .inl rfl

theorem IsRow.unique {value : Value} {items others : List Value} (row : value.IsRow items)
    (same : value.IsRow others) : items = others := by
  rcases row with rfl | rfl <;> rcases same with same | same <;> cases same <;> rfl

theorem tip_of_isRow {value : Value} {items : List Value} (row : value.IsRow items)
    {position : List Nat} {tip : Value} :
    value.Tip position tip ↔ ∃ index item inner, position = index :: inner ∧
      items[index]? = some item ∧ item.Tip inner tip := by
  constructor
  · intro tips
    cases tips with
    | here noRow => exact absurd row (noRow items)
    | inside same found below => exact ⟨_, _, _, rfl, same.unique row ▸ found, below⟩
  · rintro ⟨index, item, inner, rfl, found, below⟩
    exact .inside row found below

theorem tip_of_not_isRow {value : Value} (noRow : ∀ items, ¬ value.IsRow items) {position : List Nat}
    {tip : Value} : value.Tip position tip ↔ position = [] ∧ tip = value := by
  constructor
  · intro tips
    cases tips with
    | here => exact ⟨rfl, rfl⟩
    | inside row => exact absurd row (noRow _)
  · rintro ⟨rfl, rfl⟩
    exact .here noRow

theorem Tip.unique {value tip other : Value} {position : List Nat} (tips : value.Tip position tip)
    (same : value.Tip position other) : other = tip := by
  induction tips with
  | here noRow => exact ((tip_of_not_isRow noRow).mp same).2
  | inside row found _ ih =>
      obtain ⟨_, _, _, ⟨⟩, here, below⟩ := (tip_of_isRow row).mp same
      cases found.symm.trans here
      exact ih below

/-! ### Unreadable tips of rows -/

theorem unreadable_of_isRow {value : Value} {items : List Value} (row : value.IsRow items)
    (position : List Nat) (failure : Failure) :
    value.Unreadable position failure ↔ (list items).Unreadable position failure := by
  simp only [Unreadable, tip_of_isRow row, tip_of_isRow (isRow_list items)]

theorem not_unreadable_list_nil {position : List Nat} {failure : Failure} :
    ¬ (list []).Unreadable position failure := by
  rintro ⟨tip, tips, -⟩
  obtain ⟨index, item, inner, -, found, -⟩ := (tip_of_isRow (isRow_list [])).mp tips
  simp at found

theorem not_unreadable_list_root {items : List Value} {failure : Failure} :
    ¬ (list items).Unreadable [] failure := by
  rintro ⟨tip, tips, -⟩
  obtain ⟨index, item, inner, same, -⟩ := (tip_of_isRow (isRow_list items)).mp tips
  cases same

theorem unreadable_list_cons (item : Value) (rest : List Value) (position : List Nat)
    (failure : Failure) :
    (list (item :: rest)).Unreadable position failure ↔
      Faults.under item.Unreadable 0 position failure ∨
        Faults.later (list rest).Unreadable 1 position failure := by
  constructor
  · rintro ⟨tip, tips, refused⟩
    obtain ⟨index, found, inner, rfl, here, below⟩ := (tip_of_isRow (isRow_list _)).mp tips
    cases index with
    | zero =>
        cases here
        exact .inl ⟨inner, rfl, tip, below, refused⟩
    | succ index => exact .inr ⟨index, inner, rfl, tip, .inside (isRow_list rest) here below, refused⟩
  · rintro (⟨inner, rfl, tip, below, refused⟩ | ⟨index, inner, rfl, tip, tips, refused⟩)
    · exact ⟨tip, .inside (isRow_list _) rfl below, refused⟩
    · obtain ⟨_, found, _, ⟨⟩, here, below⟩ := (tip_of_isRow (isRow_list rest)).mp tips
      exact ⟨tip, .inside (isRow_list _) here below, refused⟩

end Value

namespace Expr

/-! ## What is reported -/

/-- A value that is no row is judged by what is read from itself. -/
theorem judges_ofValue_of_not_isRow {value : Value} (noRow : ∀ items, ¬ value.IsRow items)
    (reads : value.Readable → ∃ expression, ofValue value = .ok expression)
    (refuses : ¬ value.Readable → ofValue value = .error value.refusal) :
    value.Unreadable.Judges (ofValue value) := by
  by_cases readable : value.Readable
  · obtain ⟨expression, reads⟩ := reads readable
    rw [reads]
    rintro position failure ⟨tip, tips, refused, -⟩
    obtain ⟨-, rfl⟩ := (Value.tip_of_not_isRow noRow).mp tips
    exact refused readable
  · rw [refuses readable]
    refine ⟨[], ⟨value, .here noRow, readable, rfl⟩, ?_⟩
    rintro other different ⟨tip, tips, -, rfl⟩
    obtain ⟨rfl, rfl⟩ := (Value.tip_of_not_isRow noRow).mp tips
    exact .inl ⟨rfl, rfl⟩

theorem judges_ofValue_text (content : String) :
    (Value.text content).Unreadable.Judges (ofValue (.text content)) := by
  have noRow : ∀ items, ¬ (Value.text content).IsRow items := by rintro _ (h | h) <;> cases h
  refine judges_ofValue_of_not_isRow noRow (fun readable => ?_) fun refused => ?_
  · cases found : Leaf.ofText? content with
    | none => exact ((Leaf.ofText?_eq_none_iff.mp found).elim readable.1 readable.2).elim
    | some l => exact ⟨leaf l, by rw [ofValue, leafOfText_eq_ok_iff.mpr found]; rfl⟩
  · have none := or_iff_not_and_not.mpr refused
    rw [ofValue, leafOfText_eq_error_iff.mpr ⟨none, rfl⟩]
    rfl

mutual

/-- Reading goes through the unreadable tips in the order of their positions. -/
theorem judges_ofValue : (value : Value) → value.Unreadable.Judges (ofValue value)
  | .list items => by
      rw [ofValue, Faults.judges_map]
      exact judges_ofValues items
  | .tuple items => by
      rw [ofValue, Faults.judges_map, Faults.judges_congr (Value.unreadable_of_isRow (.inr rfl))]
      exact judges_ofValues items
  | .text content => judges_ofValue_text content
  | .expr expression =>
      judges_ofValue_of_not_isRow (by rintro _ (h | h) <;> cases h)
        (fun _ => ⟨expression, by rw [ofValue]⟩) fun refused => absurd trivial refused
  | .null | .bool _ | .int _ | .real _ | .map _ | .menu _ _ =>
      judges_ofValue_of_not_isRow (by rintro _ (h | h) <;> cases h) nofun fun _ => by
        rw [ofValue]
        exacts [rfl, nofun, nofun, nofun, nofun]

theorem judges_ofValues :
    (items : List Value) → (Value.list items).Unreadable.Judges (ofValues items)
  | [] => by
      rw [ofValues]
      exact fun _ _ => Value.not_unreadable_list_nil
  | item :: rest => by
      rw [ofValues]
      have behind := (judges_ofValues rest).later (fun _ => Value.not_unreadable_list_root) 1
      exact ((judges_ofValue item).under 0).andThen
        (fun first _ => (Faults.judges_map (first :: ·)).mpr behind)
        (Value.unreadable_list_cons item rest) (Faults.under_lt_later Nat.one_pos)

end

/-! ## What is read -/

/-- As many elements as items, each read from its item, are what is read from the row. -/
theorem ofValues_eq_ok_of_each {items : List Value} {elements : List Expr}
    (length : items.length = elements.length)
    (each : ∀ (index : Nat) (item : Value) (element : Expr), items[index]? = some item →
      elements[index]? = some element → ofValue item = .ok element) :
    ofValues items = .ok elements := by
  induction items generalizing elements with
  | nil => rw [ofValues, List.length_eq_zero_iff.mp length.symm]
  | cons item rest ih =>
      cases elements with
      | nil => cases length
      | cons element others =>
          exact ofValues_cons_eq_ok_iff.mpr ⟨each 0 item element rfl rfl,
            ih (Nat.succ.inj length) fun index => each (index + 1)⟩

theorem ofValue_eq_ok_of_mirrors {value : Value} {expression : Expr}
    (mirrors : value.Mirrors expression) : ofValue value = .ok expression := by
  induction mirrors with
  | built expression => rw [ofValue]
  | leaf denotes => rw [ofValue, leafOfText_eq_ok_iff.mpr denotes]; rfl
  | row row length _ ih =>
      rw [ofValue_of_isRow row, map_seq_eq_ok_iff]
      exact ofValues_eq_ok_of_each length ih

theorem exists_of_map_eq_ok {α β : Type} {read : Except Failure α} {f : α → β} {result : β}
    (h : read.map f = .ok result) : ∃ found, read = .ok found ∧ f found = result := by
  cases read with
  | error => cases h
  | ok found => exact ⟨found, rfl, Except.ok.inj h⟩

/-- What is read from a row with a first item begins with what is read from that. -/
theorem exists_of_ofValues_cons_eq_ok {item : Value} {rest : List Value} {elements : List Expr}
    (h : ofValues (item :: rest) = .ok elements) :
    ∃ element others, elements = element :: others ∧ ofValue item = .ok element ∧
      ofValues rest = .ok others := by
  cases elements with
  | nil =>
      rw [ofValues] at h
      cases first : ofValue item with
      | error => rw [first] at h; cases h
      | ok element =>
          rw [first] at h
          obtain ⟨others, -, same⟩ := exists_of_map_eq_ok (f := (element :: ·)) h
          cases same
  | cons element others => exact ⟨element, others, rfl, ofValues_cons_eq_ok_iff.mp h⟩

mutual

theorem mirrors_of_ofValue_eq_ok :
    (value : Value) → {expression : Expr} → ofValue value = .ok expression → value.Mirrors expression
  | .list items, _, h => by
      rw [ofValue] at h
      obtain ⟨elements, reads, rfl⟩ := exists_of_map_eq_ok h
      obtain ⟨length, each⟩ := mirrors_of_ofValues_eq_ok items reads
      exact .row (.inl rfl) length each
  | .tuple items, _, h => by
      rw [ofValue] at h
      obtain ⟨elements, reads, rfl⟩ := exists_of_map_eq_ok h
      obtain ⟨length, each⟩ := mirrors_of_ofValues_eq_ok items reads
      exact .row (.inr rfl) length each
  | .text content, _, h => by
      rw [ofValue] at h
      obtain ⟨l, reads, rfl⟩ := exists_of_map_eq_ok h
      exact .leaf (leafOfText_eq_ok_iff.mp reads)
  | .expr found, _, h => by
      rw [ofValue] at h
      cases h
      exact .built found
  | .null, _, h | .bool _, _, h | .int _, _, h | .real _, _, h | .map _, _, h | .menu _ _, _, h => by
      simp [ofValue] at h

theorem mirrors_of_ofValues_eq_ok :
    (items : List Value) → {elements : List Expr} → ofValues items = .ok elements →
      items.length = elements.length ∧
        ∀ (index : Nat) (item : Value) (element : Expr), items[index]? = some item →
          elements[index]? = some element → item.Mirrors element
  | [], _, h => by
      rw [ofValues] at h
      cases h
      exact ⟨rfl, nofun⟩
  | item :: rest, _, h => by
      obtain ⟨element, others, rfl, first, reads⟩ := exists_of_ofValues_cons_eq_ok h
      obtain ⟨length, each⟩ := mirrors_of_ofValues_eq_ok rest reads
      refine ⟨congrArg Nat.succ length, fun index => ?_⟩
      cases index with
      | zero =>
          rintro _ _ ⟨⟩ ⟨⟩
          exact mirrors_of_ofValue_eq_ok item first
      | succ index => exact each index

end

theorem ofValue_eq_ok_iff {value : Value} {expression : Expr} :
    ofValue value = .ok expression ↔ value.Mirrors expression :=
  ⟨mirrors_of_ofValue_eq_ok value, ofValue_eq_ok_of_mirrors⟩

/-- **Reading accepts exactly its language and reports the leftmost fault.** A value is read exactly if all
of its tips are readable: each is an expression, or a text of which something is left without the blanks at
its ends, and that does not begin with a colon. What it is read as mirrors it, row by row and item by item.
A value with an unreadable tip is refused, and the failure shows the first such tip in the order of
positions, a text as it was given and anything else with its kind. -/
theorem reading_accepts_language (value : Value) :
    ((∃ expression, ofValue value = .ok expression) ↔
      ∀ position tip, value.Tip position tip → tip.Readable) ∧
    (∀ expression, ofValue value = .ok expression ↔ value.Mirrors expression) ∧
    (∀ position tip, value.Tip position tip → ¬ tip.Readable →
      ∃ failure, ofValue value = .error failure) ∧
    ∀ failure, ofValue value = .error failure ↔ ∃ position tip, value.Tip position tip ∧
      ¬ tip.Readable ∧
      failure = .unreadableExpression tip
        (if tip.isText then Failure.emptyName else Failure.unsupportedKind tip) ∧
      ∀ other different, value.Tip other different → ¬ different.Readable →
        other = position ∨ position < other := by
  have judges := judges_ofValue value
  have accepts : (∃ expression, ofValue value = .ok expression) ↔
      ∀ position tip, value.Tip position tip → tip.Readable := by
    refine judges.eq_ok_iff.trans ⟨fun none position tip tips => ?_, fun all => ?_⟩
    · exact not_not.mp fun refused => none position _ ⟨tip, tips, refused, rfl⟩
    · rintro position failure ⟨tip, tips, refused, -⟩
      exact refused (all position tip tips)
  refine ⟨accepts, fun expression => ofValue_eq_ok_iff, fun position tip tips refused => ?_,
    fun failure => ?_⟩
  · cases outcome : ofValue value with
    | ok expression => exact absurd (accepts.mp ⟨expression, outcome⟩ position tip tips) refused
    | error failure => exact ⟨failure, rfl⟩
  · rw [judges.eq_error_iff]
    constructor
    · rintro ⟨position, ⟨tip, tips, refused, rfl⟩, least⟩
      refine ⟨position, tip, tips, refused, rfl, fun other different there unreadable => ?_⟩
      exact (least other _ ⟨different, there, unreadable, rfl⟩).imp_left (·.1)
    · rintro ⟨position, tip, tips, refused, rfl, least⟩
      refine ⟨position, ⟨tip, tips, refused, rfl⟩, ?_⟩
      rintro other _ ⟨different, there, unreadable, rfl⟩
      refine (least other different there unreadable).imp_left ?_
      rintro rfl
      exact ⟨rfl, congrArg Value.refusal (tips.unique there)⟩

/-- Of a name that is missing inside and of a number behind it, the former is reported. -/
theorem reading_accepts_language_of_two_faults :
    let inner := Value.tuple [.text "wait", .text " :tab"]
    let value := Value.list [.text "open:tab", inner, .int 3]
    value.Tip [1, 1] (.text " :tab") ∧ ¬ (Value.text " :tab").Readable ∧
      (∃ failure, ofValue value = .error failure) ∧
      ∃ position tip, value.Tip position tip ∧ ¬ tip.Readable ∧
        Failure.unreadableExpression (.text " :tab") Failure.emptyName = .unreadableExpression tip
          (if tip.isText then Failure.emptyName else Failure.unsupportedKind tip) ∧
        ∀ other different, value.Tip other different → ¬ different.Readable →
          other = position ∨ position < other := by
  intro inner value
  obtain ⟨-, -, refuses, reports⟩ := reading_accepts_language value
  have tips : value.Tip [1, 1] (.text " :tab") := by
    refine .inside (.inl rfl) rfl (.inside (.inr rfl) rfl (.here ?_))
    rintro _ (h | h) <;> cases h
  have refused : ¬ (Value.text " :tab").Readable := fun readable => readable.2 (by decide +kernel)
  have outcome : ofValue value = .error (.unreadableExpression (.text " :tab") Failure.emptyName) := by
    rfl
  exact ⟨tips, refused, refuses _ _ tips refused, (reports _).mp outcome⟩

end Expr
end ActionFlow
