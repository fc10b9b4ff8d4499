/-
**The grammar of expressions.**

The rules that a text has to follow, and the value that they give it, stated without any reader.
A derivation says which rest of the text is left behind a factor, a term or an expression; the
rest counts, because a number is a *maximal* run of digits and points, and because a closing
parenthesis may be missing only at the end of the text.

    expression := term (('+' | '-') term)*
    term       := factor (('*' | '/') factor)*
    factor     := '+' factor | '-' factor | '(' expression ')' | number

Operators of one level are joined from the left: the derivation of `1 - 2 - 3` subtracts `3` from
the value of `1 - 2`, and there is no other.

Main definitions:

* `Calculator.Expression.Numeral` — digits with at most one point, and the decimal they denote;
* `Calculator.Expression.Blank` — nothing but spaces;
* `Calculator.Expression.Derives` — **the grammar**, with values;
* `Calculator.Expression.Sentence` — a whole text with its value.

Main results:

* `Calculator.Expression.ofLiteral?_eq_some_iff` — literals are read as the grammar says;
* `Calculator.Expression.Derives.of_skipSpaces` — spaces may stand before a factor.
-/

import Calculator.Proofs.Expression.Factor

set_option relaxedAutoImplicit false
set_option autoImplicit false

namespace Calculator.Expression

/-! ### Numerals -/

/-- Digits with at most one point among, before or after them, and at least one digit; the point
divides the digits by a power of ten. -/
inductive Numeral : List Char → Decimal → Prop where
  | whole {digits : List Char} : (∀ c ∈ digits, c.isDigit = true) → digits ≠ [] →
      Numeral digits ⟨Nat.ofDigitChars 10 digits 0, 0⟩
  | pointed {digits fraction : List Char} : (∀ c ∈ digits, c.isDigit = true) →
      (∀ c ∈ fraction, c.isDigit = true) → digits ++ fraction ≠ [] →
      Numeral (digits ++ '.' :: fraction)
        ⟨Nat.ofDigitChars 10 (digits ++ fraction) 0, -fraction.length⟩

theorem ne_point_of_isDigit {c : Char} (h : c.isDigit = true) : c ≠ '.' := by
  rintro rfl
  exact absurd h (by decide)

/-- Digits are what is read up to a point that follows them or to the end of the text. -/
theorem span_of_digits {digits : List Char} (hd : ∀ c ∈ digits, c.isDigit = true)
    (rest : List Char) (hr : ∀ c, rest.head? = some c → c = '.') :
    (digits ++ rest).takeWhile (· ≠ '.') = digits ∧
      (digits ++ rest).dropWhile (· ≠ '.') = rest := by
  have hne : ∀ c ∈ digits, decide (c ≠ '.') = true := fun c hc =>
    decide_eq_true (ne_point_of_isDigit (hd c hc))
  rw [List.takeWhile_append_of_pos hne, List.dropWhile_append_of_pos hne]
  cases rest with
  | nil => simp
  | cons c rest => simp [hr c rfl]

theorem numeral_of_ofLiteral? {literal : List Char} {decimal : Decimal}
    (h : Decimal.ofLiteral? literal = some decimal) : Numeral literal decimal := by
  unfold Decimal.ofLiteral? at h
  dsimp only at h
  split at h
  · next hall =>
      obtain ⟨hne, hd⟩ := hall
      rw [List.all_eq_true] at hd
      cases h
      have hsplit := List.takeWhile_append_dropWhile (p := (· ≠ '.')) (l := literal)
      cases hdrop : literal.dropWhile (· ≠ '.') with
      | nil =>
          rw [hdrop, List.append_nil] at hsplit
          rw [hdrop] at hd hne
          simp only [List.tail_nil, List.append_nil, hsplit] at hd hne ⊢
          exact .whole hd hne
      | cons c fraction =>
          have hc : c = '.' := by
            have := List.head?_dropWhile_not (· ≠ '.') literal
            rw [hdrop] at this
            simpa using this
          subst hc
          rw [hdrop] at hd hne hsplit
          simp only [List.tail_cons] at hd hne ⊢
          conv => lhs; rw [← hsplit]
          exact .pointed (fun c hc => hd c (List.mem_append_left _ hc))
            (fun c hc => hd c (List.mem_append_right _ hc)) hne
  · simp at h

/-- Literals are read as the grammar says. -/
theorem ofLiteral?_eq_some_iff {literal : List Char} {decimal : Decimal} :
    Decimal.ofLiteral? literal = some decimal ↔ Numeral literal decimal := by
  refine ⟨numeral_of_ofLiteral?, fun h => ?_⟩
  cases h with
  | whole hd hne =>
      obtain ⟨ht, hw⟩ := span_of_digits hd [] (by simp)
      rw [List.append_nil] at ht hw
      unfold Decimal.ofLiteral?
      simp only [ht, hw, List.tail_nil, List.append_nil]
      exact if_pos ⟨hne, List.all_eq_true.2 hd⟩
  | @pointed digits fraction hd hf hne =>
      obtain ⟨ht, hw⟩ := span_of_digits hd ('.' :: fraction) (by simp)
      unfold Decimal.ofLiteral?
      simp only [ht, hw, List.tail_cons]
      refine if_pos ⟨hne, List.all_eq_true.2 fun c hc => ?_⟩
      rcases List.mem_append.1 hc with hc | hc
      · exact hd c hc
      · exact hf c hc

/-- The characters of a numeral are digits and points. -/
theorem Numeral.isLiteralChar {literal : List Char} {decimal : Decimal}
    (h : Numeral literal decimal) : ∀ c ∈ literal, isLiteralChar c = true := by
  intro c hc
  cases h with
  | whole hd hne => simp [Calculator.isLiteralChar, hd c hc]
  | pointed hd hf hne =>
      rcases List.mem_append.1 hc with hc | hc
      · simp [Calculator.isLiteralChar, hd c hc]
      · rcases List.mem_cons.1 hc with rfl | hc
        · rfl
        · simp [Calculator.isLiteralChar, hf c hc]

/-- A numeral has a character. -/
theorem Numeral.ne_nil {literal : List Char} {decimal : Decimal} (h : Numeral literal decimal) :
    literal ≠ [] := by
  cases h with
  | whole hd hne => exact hne
  | pointed hd hf hne => simp

/-! ### The grammar -/

/-- Nothing but spaces. -/
def Blank (text : List Char) : Prop := ∀ c ∈ text, c = ' '

/-- The levels of the grammar. -/
inductive Level where
  | factor
  | term
  | expression

/-- **The grammar.**  `Derives level text value rest` says that a beginning of the text is a factor,
a term or an expression with this value, and that the rest is left behind it. -/
inductive Derives : Level → List Char → Double → List Char → Prop where
  | space {text rest : List Char} {value : Double} :
      Derives .factor text value rest → Derives .factor (' ' :: text) value rest
  | plus {text rest : List Char} {value : Double} :
      Derives .factor text value rest → Derives .factor ('+' :: text) value rest
  | minus {text rest : List Char} {value : Double} :
      Derives .factor text value rest → Derives .factor ('-' :: text) (-value) rest
  | group {text spaces rest : List Char} {value : Double} :
      Derives .expression text value (spaces ++ ')' :: rest) → Blank spaces →
      Derives .factor ('(' :: text) value rest
  /-- A closing parenthesis may be missing if nothing but spaces remains. -/
  | openGroup {text spaces : List Char} {value : Double} :
      Derives .expression text value spaces → Blank spaces →
      Derives .factor ('(' :: text) value []
  /-- A number is a maximal run of digits and points. -/
  | number {literal rest : List Char} {decimal : Decimal} :
      Numeral literal decimal → (∀ c, rest.head? = some c → isLiteralChar c = false) →
      Derives .factor (literal ++ rest) (Double.ofDecimal false decimal) rest
  | single {text rest : List Char} {value : Double} :
      Derives .factor text value rest → Derives .term text value rest
  | times {text spaces middle rest : List Char} {value further : Double} :
      Derives .term text value (spaces ++ '*' :: middle) → Blank spaces →
      Derives .factor middle further rest → Derives .term text (value * further) rest
  | divide {text spaces middle rest : List Char} {value further : Double} :
      Derives .term text value (spaces ++ '/' :: middle) → Blank spaces →
      Derives .factor middle further rest → Derives .term text (value / further) rest
  | alone {text rest : List Char} {value : Double} :
      Derives .term text value rest → Derives .expression text value rest
  | add {text spaces middle rest : List Char} {value further : Double} :
      Derives .expression text value (spaces ++ '+' :: middle) → Blank spaces →
      Derives .term middle further rest → Derives .expression text (value + further) rest
  | subtract {text spaces middle rest : List Char} {value further : Double} :
      Derives .expression text value (spaces ++ '-' :: middle) → Blank spaces →
      Derives .term middle further rest → Derives .expression text (value - further) rest

/-- A whole text with its value: an expression, with nothing but spaces behind it. -/
def Sentence (text : List Char) (value : Double) : Prop :=
  ∃ rest, Derives .expression text value rest ∧ Blank rest

/-! ### Spaces -/

theorem blank_nil : Blank [] := by simp [Blank]

/-- What is passed over is blank. -/
theorem exists_blank_append_skipSpaces (text : List Char) :
    ∃ spaces, Blank spaces ∧ spaces ++ skipSpaces text = text := by
  refine ⟨text.takeWhile (· == ' '), fun c hc => ?_, List.takeWhile_append_dropWhile⟩
  simpa using List.all_eq_true.1 List.all_takeWhile c hc

/-- Blanks are passed over. -/
theorem skipSpaces_blank_append {spaces : List Char} (h : Blank spaces) (text : List Char) :
    skipSpaces (spaces ++ text) = skipSpaces text := by
  induction spaces with
  | nil => rfl
  | cons c spaces ih =>
      obtain rfl := h c (by simp)
      exact ih fun d hd => h d (by simp [hd])

/-- Spaces may stand before a factor. -/
theorem Derives.of_skipSpaces {text rest : List Char} {value : Double}
    (h : Derives .factor (skipSpaces text) value rest) : Derives .factor text value rest := by
  induction text with
  | nil => exact h
  | cons c text ih =>
      by_cases hc : c = ' '
      · subst hc
        exact .space (ih h)
      · rwa [skipSpaces_cons hc] at h

end Calculator.Expression
