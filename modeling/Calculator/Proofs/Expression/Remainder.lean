/-
**What a reader leaves.**

A reader takes a beginning of the text and leaves the rest.  After operands joined by the operators
of one level, what is left starts neither with a space nor with one of those operators: the level
has read as far as it can.

Main definitions:

* `Calculator.Expression.LeavesSuffix` — a reader leaves an end of the text;
* `Calculator.Expression.Exhausted` — a text on which a level of operators cannot go on.

Main results:

* `Calculator.Expression.exhausted_of_leftAssociative` — a level of operators reads as far as it
  can;
* `Calculator.Expression.leavesSuffix_factor`, `Calculator.Expression.leavesSuffix_term`,
  `Calculator.Expression.leavesSuffix_expression` — every reader of the grammar leaves an end of
  the text.
-/

import Calculator.Proofs.Expression.Factor

set_option relaxedAutoImplicit false
set_option autoImplicit false

namespace Calculator.Expression

/-! ### Ends of the text -/

/-- What a reader leaves is an end of the text. -/
def LeavesSuffix (reader : Reader) : Prop :=
  ∀ {text rest : List Char} {value : Double}, reader text = .ok (value, rest) → rest <:+ text

/-! ### Levels of operators -/

/-- A level of operators cannot go on: neither a space nor one of its operators comes next. -/
structure Exhausted (operators : Operators) (text : List Char) : Prop where
  spaces : skipSpaces text = text
  head : ∀ c, text.head? = some c → operators c = none

theorem exhausted_nil (operators : Operators) : Exhausted operators [] := ⟨rfl, by simp⟩

/-- Where the level cannot go on nothing is joined. -/
theorem joinFurther_of_exhausted {operators : Operators} {text : List Char}
    (h : Exhausted operators (skipSpaces text)) (operand : Reader) (bound : Nat) (value : Double) :
    joinFurther operators operand bound value text = .ok (value, skipSpaces text) := by
  cases bound with
  | zero => rfl
  | succ bound =>
      rw [joinFurther]
      cases ht : skipSpaces text with
      | nil => rfl
      | cons c rest =>
          have hc : operators c = none := h.head c (by rw [ht]; rfl)
          simp only [hc]

/-- An operator joins the operand that follows it. -/
theorem joinFurther_of_operator {operators : Operators} {text rest : List Char} {c : Char}
    {operation : Double → Double → Double} (ht : skipSpaces text = c :: rest)
    (hc : operators c = some operation) (operand : Reader) (bound : Nat) (value : Double) :
    joinFurther operators operand (bound + 1) value text =
      match operand rest with
      | .error stop => .error stop
      | .ok (further, rest) =>
          joinFurther operators operand bound (operation value further) rest := by
  rw [joinFurther, ht]
  dsimp only
  generalize operators c = found at hc
  subst hc
  rfl

/-- A level of operators can go on or not. -/
theorem exhausted_or_operator (operators : Operators) (text : List Char) :
    Exhausted operators (skipSpaces text) ∨
      ∃ c rest operation, skipSpaces text = c :: rest ∧ operators c = some operation := by
  cases ht : skipSpaces text with
  | nil => exact .inl (exhausted_nil _)
  | cons c rest =>
      cases hc : operators c with
      | none => exact .inl ⟨skipSpaces_of_skipSpaces_eq ht, by simp [hc]⟩
      | some operation => exact .inr ⟨c, rest, operation, rfl, hc⟩

/-- Each further operand and its operator take characters, so the bound is never reached. -/
theorem joinFurther_ok {operators : Operators} {operand : Reader} (ho : LeavesSuffix operand)
    {bound : Nat} {text rest : List Char} {value result : Double} (hb : text.length ≤ bound)
    (h : joinFurther operators operand bound value text = .ok (result, rest)) :
    rest <:+ text ∧ Exhausted operators rest := by
  induction bound generalizing text value with
  | zero =>
      obtain rfl := List.eq_nil_of_length_eq_zero (Nat.le_zero.1 hb)
      cases h
      exact ⟨List.suffix_refl _, exhausted_nil _⟩
  | succ bound ih =>
      have hs := skipSpaces_suffix text
      rcases exhausted_or_operator operators text with he | ⟨c, more, operation, ht, hc⟩
      · rw [joinFurther_of_exhausted he] at h
        cases h
        exact ⟨hs, he⟩
      · rw [joinFurther_of_operator ht hc] at h
        rw [ht] at hs
        cases hm : operand more with
        | error stop => simp [hm] at h
        | ok outcome =>
            obtain ⟨further, middle⟩ := outcome
            simp only [hm] at h
            have hmiddle := ho hm
            have hlength : middle.length ≤ bound := by
              have := hs.length_le
              have := hmiddle.length_le
              simp only [List.length_cons] at *
              omega
            obtain ⟨hrest, he⟩ := ih hlength h
            exact ⟨hrest.trans (hmiddle.trans ((List.suffix_cons c more).trans hs)), he⟩

/-- What every operand leaves behind it is also left behind the last of them. -/
theorem joinFurther_keeps {operators : Operators} {operand : Reader} {P : List Char → Prop}
    (hs : ∀ text, P text → P (skipSpaces text))
    (ho : ∀ {text rest : List Char} {value : Double}, operand text = .ok (value, rest) → P rest)
    {bound : Nat} {text rest : List Char} {value result : Double} (ht : P text)
    (h : joinFurther operators operand bound value text = .ok (result, rest)) : P rest := by
  induction bound generalizing text value with
  | zero =>
      cases h
      exact hs text ht
  | succ bound ih =>
      rcases exhausted_or_operator operators text with he | ⟨c, more, operation, hc, ho'⟩
      · rw [joinFurther_of_exhausted he] at h
        cases h
        exact hs text ht
      · rw [joinFurther_of_operator hc ho'] at h
        cases hm : operand more with
        | error stop => simp [hm] at h
        | ok outcome =>
            simp only [hm] at h
            exact ih (ho hm) h

theorem leftAssociative_ok {operators : Operators} {operand : Reader} (ho : LeavesSuffix operand)
    {text rest : List Char} {result : Double}
    (h : leftAssociative operators operand text = .ok (result, rest)) :
    rest <:+ text ∧ Exhausted operators rest := by
  rw [leftAssociative] at h
  cases ht : operand text with
  | error stop => simp [ht] at h
  | ok outcome =>
      obtain ⟨value, middle⟩ := outcome
      simp only [ht] at h
      obtain ⟨hrest, he⟩ := joinFurther_ok ho (Nat.le_refl _) h
      exact ⟨hrest.trans (ho ht), he⟩

theorem leavesSuffix_leftAssociative {operators : Operators} {operand : Reader}
    (ho : LeavesSuffix operand) : LeavesSuffix (leftAssociative operators operand) :=
  fun h => (leftAssociative_ok ho h).1

/-- A level of operators reads as far as it can. -/
theorem exhausted_of_leftAssociative {operators : Operators} {operand : Reader}
    (ho : LeavesSuffix operand) {text rest : List Char} {result : Double}
    (h : leftAssociative operators operand text = .ok (result, rest)) : Exhausted operators rest :=
  (leftAssociative_ok ho h).2

/-! ### The readers of the grammar -/

theorem leavesSuffix_number : LeavesSuffix number := by
  intro text rest value h
  rw [number] at h
  cases hd : Decimal.ofLiteral? (text.takeWhile isLiteralChar) with
  | none => simp [hd] at h
  | some decimal =>
      simp only [hd, Except.ok.injEq, Prod.mk.injEq] at h
      obtain ⟨-, rfl⟩ := h
      exact List.dropWhile_suffix _

theorem negated_ok {outcome : Outcome} {rest : List Char} {value : Double}
    (h : outcome.negated = .ok (value, rest)) :
    ∃ result, outcome = .ok (result, rest) ∧ value = -result := by
  cases outcome with
  | error stop => simp [Outcome.negated] at h
  | ok found =>
      simp only [Outcome.negated, Except.ok.injEq, Prod.mk.injEq] at h
      obtain ⟨rfl, rfl⟩ := h
      exact ⟨found.1, rfl, rfl⟩

theorem closed_of_parenthesis {rest more : List Char} (h : skipSpaces rest = ')' :: more)
    (value : Double) : Outcome.closed (.ok (value, rest)) = .ok (value, more) := by
  simp only [Outcome.closed, h]

theorem closed_of_other {rest : List Char} (h : (skipSpaces rest).head? ≠ some ')')
    (value : Double) : Outcome.closed (.ok (value, rest)) = .ok (value, skipSpaces rest) := by
  unfold Outcome.closed
  dsimp only
  split
  · next more hm => exact absurd (by rw [hm]; rfl) h
  · rfl

/-- A closing parenthesis is passed over if it comes next, and nothing otherwise. -/
theorem closed_ok {outcome : Outcome} {rest : List Char} {value : Double}
    (h : outcome.closed = .ok (value, rest)) :
    ∃ middle, outcome = .ok (value, middle) ∧
      (skipSpaces middle = ')' :: rest ∨ skipSpaces middle = rest ∧ rest.head? ≠ some ')') := by
  cases outcome with
  | error stop => simp [Outcome.closed] at h
  | ok found =>
      obtain ⟨result, middle⟩ := found
      by_cases hm : (skipSpaces middle).head? = some ')'
      · obtain ⟨more, hmore⟩ := List.head?_eq_some_iff.1 hm
        rw [closed_of_parenthesis hmore] at h
        cases h
        exact ⟨middle, rfl, .inl hmore⟩
      · rw [closed_of_other hm] at h
        cases h
        exact ⟨middle, rfl, .inr ⟨rfl, hm⟩⟩

/-- Every factor leaves an end of the text. -/
theorem leavesSuffix_factor (budget : Nat) : LeavesSuffix (factor budget) := by
  induction budget using Nat.strongRecOn with
  | ind budget ih =>
      intro text rest value h
      have hs := skipSpaces_suffix text
      cases opening text with
      | nothing ht => simp [factor_nil ht] at h
      | plus more ht =>
          cases budget with
          | zero => simp [factor_sign_of_depth ht (.inl rfl)] at h
          | succ budget =>
              rw [factor_plus ht] at h
              exact (ih budget (by omega) h).trans ((List.suffix_cons _ _).trans (ht ▸ hs))
      | minus more ht =>
          cases budget with
          | zero => simp [factor_sign_of_depth ht (.inr rfl)] at h
          | succ budget =>
              rw [factor_minus ht] at h
              obtain ⟨result, hr, -⟩ := negated_ok h
              exact (ih budget (by omega) hr).trans ((List.suffix_cons _ _).trans (ht ▸ hs))
      | group more ht =>
          by_cases hb : budget < 3
          · simp [factor_group_of_depth ht hb] at h
          · obtain ⟨budget, rfl⟩ : ∃ b, budget = b + 3 := ⟨budget - 3, by omega⟩
            rw [factor_group ht] at h
            obtain ⟨middle, hm, hr⟩ := closed_ok h
            have hmiddle := leavesSuffix_leftAssociative
              (leavesSuffix_leftAssociative (ih budget (by omega))) hm
            have hrest : rest <:+ middle := by
              rcases hr with hr | ⟨hr, -⟩
              · exact (List.suffix_cons _ _).trans (hr ▸ skipSpaces_suffix middle)
              · exact hr ▸ skipSpaces_suffix middle
            exact hrest.trans (hmiddle.trans ((List.suffix_cons _ _).trans (ht ▸ hs)))
      | literal c more ht hc =>
          rw [factor_literal ht hc] at h
          exact (leavesSuffix_number h).trans (ht ▸ hs)
      | other c more ht hc => simp [factor_other ht hc] at h

theorem leavesSuffix_term (budget : Nat) : LeavesSuffix (term budget) :=
  leavesSuffix_leftAssociative (leavesSuffix_factor budget)

theorem leavesSuffix_expression (budget : Nat) : LeavesSuffix (expression budget) :=
  leavesSuffix_leftAssociative (leavesSuffix_term budget)

theorem exhausted_of_term {budget : Nat} {text rest : List Char} {value : Double}
    (h : term budget text = .ok (value, rest)) : Exhausted multiplicative rest :=
  exhausted_of_leftAssociative (leavesSuffix_factor budget) h

/-- An expression leaves no operator at all. -/
theorem exhausted_of_expression {budget : Nat} {text rest : List Char} {value : Double}
    (h : expression budget text = .ok (value, rest)) :
    Exhausted additive rest ∧ Exhausted multiplicative rest := by
  refine ⟨exhausted_of_leftAssociative (leavesSuffix_term budget) h, ?_⟩
  rw [expression, leftAssociative] at h
  cases ht : term budget text with
  | error stop => simp [ht] at h
  | ok outcome =>
      simp only [ht] at h
      exact joinFurther_keeps (fun text he => he.spaces.symm ▸ he) exhausted_of_term
        (exhausted_of_term ht) h

end Calculator.Expression
