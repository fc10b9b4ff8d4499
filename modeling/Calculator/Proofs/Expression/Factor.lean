/-
**A factor by its first character.**

What a factor is, is decided by the first character that is no space.  There is one equation for
each kind of character, and for signs and parentheses a second one for a budget that does not allow
them.

Main definitions:

* `Calculator.Expression.Opening` — how a text starts behind its spaces.

Main results:

* `Calculator.Expression.factor_plus`, `Calculator.Expression.factor_minus`,
  `Calculator.Expression.factor_group`, `Calculator.Expression.factor_literal` — the four kinds of
  factors;
* `Calculator.Expression.factor_sign_of_depth`, `Calculator.Expression.factor_group_of_depth` — what
  the budget does not allow;
* `Calculator.Expression.factor_nil`, `Calculator.Expression.factor_other` — what is no factor;
* `Calculator.Expression.opening` — there are no other cases.
-/

import Calculator.Expression.Parser

set_option relaxedAutoImplicit false
set_option autoImplicit false

namespace Calculator.Expression

/-! ### Spaces -/

theorem skipSpaces_suffix (text : List Char) : skipSpaces text <:+ text :=
  List.dropWhile_suffix _

/-- Behind its spaces a text has no space. -/
theorem skipSpaces_ne_space {text rest : List Char} {c : Char} (h : skipSpaces text = c :: rest) :
    c ≠ ' ' := by
  rintro rfl
  have hs : skipSpaces rest = ' ' :: rest := by
    rw [← skipSpaces_space rest, ← h, skipSpaces_skipSpaces]
  have hl := (skipSpaces_suffix rest).length_le
  rw [hs, List.length_cons] at hl
  omega

/-- A text whose spaces have been passed over stays as it is. -/
theorem skipSpaces_of_skipSpaces_eq {text rest : List Char} (h : skipSpaces text = rest) :
    skipSpaces rest = rest := by
  rw [← h, skipSpaces_skipSpaces]

/-! ### The four kinds of factors -/

section

variable {text rest : List Char}

/-- A character that starts no factor. -/
def StartsNothing (c : Char) : Prop :=
  c ≠ ' ' ∧ c ≠ '+' ∧ c ≠ '-' ∧ c ≠ '(' ∧ isLiteralChar c = false

theorem factor_nil (h : skipSpaces text = []) (budget : Nat) :
    factor budget text = .error ⟨.endOfText, []⟩ := by
  unfold factor
  simp only [h]

theorem factor_plus (h : skipSpaces text = '+' :: rest) (budget : Nat) :
    factor (budget + 1) text = factor budget rest := by
  rw [factor.eq_def]
  simp only [h, if_pos]

theorem factor_minus (h : skipSpaces text = '-' :: rest) (budget : Nat) :
    factor (budget + 1) text = (factor budget rest).negated := by
  rw [factor.eq_def]
  simp only [h]
  rfl

theorem factor_group (h : skipSpaces text = '(' :: rest) (budget : Nat) :
    factor (budget + 3) text = (expression budget rest).closed := by
  rw [factor.eq_def]
  simp only [h]
  rfl

/-- A number holds no space, no sign and no parenthesis. -/
theorem ne_of_isLiteralChar {c : Char} (hc : isLiteralChar c = true) :
    c ≠ ' ' ∧ c ≠ '+' ∧ c ≠ '-' ∧ c ≠ '(' := by
  refine ⟨?_, ?_, ?_, ?_⟩ <;>
    · rintro rfl
      exact absurd hc (by decide)

theorem factor_literal {c : Char} (h : skipSpaces text = c :: rest) (hc : isLiteralChar c = true)
    (budget : Nat) : factor budget text = number (c :: rest) := by
  obtain ⟨-, hp, hm, hg⟩ := ne_of_isLiteralChar hc
  rw [factor.eq_def]
  simp only [h, hp, hm, hg, hc, if_true, if_false]

theorem factor_other {c : Char} (h : skipSpaces text = c :: rest) (hc : StartsNothing c)
    (budget : Nat) : factor budget text = .error ⟨.character c, c :: rest⟩ := by
  obtain ⟨-, hp, hm, hg, hl⟩ := hc
  rw [factor.eq_def]
  simp [h, hp, hm, hg, hl]

/-! ### Depth -/

theorem factor_sign_of_depth {c : Char} (h : skipSpaces text = c :: rest) (hc : c = '+' ∨ c = '-') :
    factor 0 text = .error ⟨.depth, rest⟩ := by
  rw [factor.eq_def]
  rcases hc with rfl | rfl
  · simp [h]
  · simp [h]

theorem factor_group_of_depth (h : skipSpaces text = '(' :: rest) {budget : Nat} (hb : budget < 3) :
    factor budget text = .error ⟨.depth, rest⟩ := by
  rw [factor.eq_def]
  simp only [h]
  obtain rfl | rfl | rfl : budget = 0 ∨ budget = 1 ∨ budget = 2 := by omega
  · rfl
  · rfl
  · rfl

end

/-! ### All texts -/

/-- How a text starts behind its spaces. -/
inductive Opening (text : List Char) : Prop where
  | nothing (h : skipSpaces text = [])
  | plus (rest : List Char) (h : skipSpaces text = '+' :: rest)
  | minus (rest : List Char) (h : skipSpaces text = '-' :: rest)
  | group (rest : List Char) (h : skipSpaces text = '(' :: rest)
  | literal (c : Char) (rest : List Char) (h : skipSpaces text = c :: rest)
      (hc : isLiteralChar c = true)
  | other (c : Char) (rest : List Char) (h : skipSpaces text = c :: rest) (hc : StartsNothing c)

/-- Every text starts in one of these ways. -/
theorem opening (text : List Char) : Opening text := by
  cases ht : skipSpaces text with
  | nil => exact .nothing ht
  | cons c rest =>
      by_cases hp : c = '+'
      · exact .plus rest (hp ▸ ht)
      by_cases hm : c = '-'
      · exact .minus rest (hm ▸ ht)
      by_cases hg : c = '('
      · exact .group rest (hg ▸ ht)
      cases hl : isLiteralChar c with
      | true => exact .literal c rest ht hl
      | false => exact .other c rest ht ⟨skipSpaces_ne_space ht, hp, hm, hg, hl⟩

end Calculator.Expression
