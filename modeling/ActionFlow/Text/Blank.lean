/-!
# Blank characters

The characters that are taken off both ends of a text before it is read. Inside a text they count
like any other character.

## Main results

* `trim_trim`: a trimmed text has nothing more to take off.
* `trim_eq_self_iff`: a text is its own trimming exactly if it neither begins nor ends with a blank.
-/

namespace ActionFlow
namespace Text

/-- The spaces and line ends of all scripts. -/
def isSpace (c : Char) : Bool :=
  let n := c.toNat
  (0x9 ≤ n && n ≤ 0xD) || n == 0x20 || n == 0x85 || n == 0xA0 || n == 0x1680 ||
    (0x2000 ≤ n && n ≤ 0x200A) || n == 0x2028 || n == 0x2029 || n == 0x202F || n == 0x205F ||
    n == 0x3000

/-- The blank characters: spaces, line ends, and the four separators of ASCII. -/
def isBlank (c : Char) : Bool := isSpace c || (0x1C ≤ c.toNat && c.toNat ≤ 0x1F)

/-! ## Trimming -/

/-- A text without the characters at its end for which `p` holds. -/
def trimEndWhere (p : Char → Bool) (text : List Char) : List Char :=
  (text.reverse.dropWhile p).reverse

/-- A text without the characters at both ends for which `p` holds. -/
def trimWhere (p : Char → Bool) (text : List Char) : List Char :=
  trimEndWhere p (text.dropWhile p)

/-- A text without the blanks at both ends. -/
def trim (text : List Char) : List Char := trimWhere isBlank text

/-- A text without the spaces and line ends at both ends, as numbers are read. -/
def trimSpace (text : List Char) : List Char := trimWhere isSpace text

/-! ## What trimming leaves -/

variable {p : Char → Bool}

/-- The text neither begins nor ends with a character for which `p` holds. -/
def TrimmedWhere (p : Char → Bool) (text : List Char) : Prop :=
  (∀ c, text.head? = some c → p c = false) ∧ ∀ c, text.getLast? = some c → p c = false

/-- The text neither begins nor ends with a blank. -/
def Trimmed (text : List Char) : Prop := TrimmedWhere isBlank text

theorem trimEndWhere_eq_self_iff {text : List Char} :
    trimEndWhere p text = text ↔ ∀ c, text.getLast? = some c → p c = false := by
  have key : ∀ l : List Char, l.dropWhile p = l ↔ ∀ c, l.head? = some c → p c = false := by
    intro l
    cases l with
    | nil => simp
    | cons c rest =>
        cases h : p c
        · simp [h]
        · simp only [List.dropWhile_cons, h, ↓reduceIte, List.head?_cons, Option.some.injEq,
            forall_eq', Bool.true_eq_false, iff_false]
          intro same
          have := congrArg List.length same
          have := (List.dropWhile_sublist p (l := rest)).length_le
          simp at *
          omega
  rw [trimEndWhere, ← List.head?_reverse, ← key, List.reverse_eq_iff]

theorem trimWhere_eq_self_iff {text : List Char} :
    trimWhere p text = text ↔ TrimmedWhere p text := by
  cases text with
  | nil => simp [trimWhere, trimEndWhere, TrimmedWhere]
  | cons c rest =>
      cases h : p c
      · simp only [trimWhere, List.dropWhile_cons, h, Bool.false_eq_true, ↓reduceIte, TrimmedWhere,
          List.head?_cons, Option.some.injEq, forall_eq', true_and]
        exact trimEndWhere_eq_self_iff
      · simp only [TrimmedWhere, List.head?_cons, Option.some.injEq, forall_eq', h,
          Bool.true_eq_false, false_and, iff_false, trimWhere, List.dropWhile_cons, ↓reduceIte]
        intro same
        have := congrArg List.length same
        have := (List.dropWhile_sublist p (l := rest)).length_le
        have := (List.dropWhile_sublist p (l := (rest.dropWhile p).reverse)).length_le
        simp [trimEndWhere] at *
        omega

theorem trimmedWhere_trimWhere (text : List Char) : TrimmedWhere p (trimWhere p text) := by
  have ends : ∀ l : List Char, ∀ c, (l.dropWhile p).head? = some c → p c = false := by
    intro l
    induction l with
    | nil => simp
    | cons d rest ih =>
        cases h : p d
        · simp [h]
        · simpa [h] using ih
  refine ⟨?_, ?_⟩
  · intro c hc
    apply ends text c
    rw [trimWhere, trimEndWhere, List.head?_reverse] at hc
    have split := List.takeWhile_append_dropWhile (p := p) (l := (text.dropWhile p).reverse)
    rw [← List.getLast?_reverse, ← split, List.getLast?_append, hc]
    rfl
  · intro c hc
    rw [trimWhere, trimEndWhere, List.getLast?_reverse] at hc
    exact ends _ c hc

theorem trim_eq_self_iff {text : List Char} : trim text = text ↔ Trimmed text :=
  trimWhere_eq_self_iff

theorem trimmed_trim (text : List Char) : Trimmed (trim text) := trimmedWhere_trimWhere text

theorem trim_trim (text : List Char) : trim (trim text) = trim text :=
  trim_eq_self_iff.2 (trimmed_trim text)

end Text
end ActionFlow
