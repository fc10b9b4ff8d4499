/-
**Typing plain text.**

A text that holds neither glyphs nor blanks and does not end in an operator stays as it is when
glyphs are replaced and a dangling operator is dropped, so that it is evaluated as it is typed.  A
numeral with a sign, possibly, is such a text and an expression, and its value is the double nearest
to what it denotes.

Main definitions:

* `Calculator.Expression.IsPrepared` — the texts that are evaluated as they are typed.

Main results:

* `Calculator.Expression.evaluateText_numeral` — **the value of a number**;
* `Calculator.calculate_of_isPrepared` — the display of a text that is evaluated as it is typed;
* `Calculator.calculate_numeral` — the display of a typed number is that of its value.
-/

import Calculator.Calculation
import Calculator.Proofs.Expression.Grammar
import Mathlib.Data.List.TakeWhile

set_option relaxedAutoImplicit false
set_option autoImplicit false

namespace Calculator

namespace Expression

variable {text : List Char} {d : Decimal}

/-! ### Evaluation -/

theorem number_numeral (h : Numeral text d) : number text = .ok (Double.ofDecimal false d, []) := by
  have hl := h.isLiteralChar
  have htake : text.takeWhile Calculator.isLiteralChar = text := List.takeWhile_eq_self_iff.2 hl
  have hdrop : text.dropWhile Calculator.isLiteralChar = [] := List.dropWhile_eq_nil_iff.2 hl
  unfold number
  dsimp only
  rw [htake, hdrop, ofLiteral?_eq_some_iff.2 h]

/-- A number is a factor. -/
theorem factor_numeral (h : Numeral text d) (budget : Nat) :
    factor budget text = .ok (Double.ofDecimal false d, []) := by
  cases ht : text with
  | nil => exact absurd ht h.ne_nil
  | cons c rest =>
      have hc : Calculator.isLiteralChar c = true := by
        refine h.isLiteralChar c ?_
        rw [ht]
        exact List.mem_cons_self
      have hs : skipSpaces (c :: rest) = c :: rest :=
        skipSpaces_cons (ne_of_isLiteralChar hc).1 rest
      rw [factor_literal hs hc, ← ht, number_numeral h]

/-- So is a number with a minus sign. -/
theorem factor_signed (h : Numeral text d) (negative : Bool) (budget : Nat) :
    factor (budget + 1) (signText negative ++ text) = .ok (Double.ofDecimal negative d, []) := by
  cases negative with
  | false => exact factor_numeral h (budget + 1)
  | true =>
      have hs : skipSpaces ('-' :: text) = '-' :: text := skipSpaces_cons (by decide) text
      change factor (budget + 1) ('-' :: text) = _
      rw [factor_minus hs, factor_numeral h, Outcome.negated, Double.ofDecimal, Double.neg_rounded]
      rfl

/-- A factor with nothing behind it is an expression. -/
theorem expression_of_factor {budget : Nat} {value : Double}
    (h : factor budget text = .ok (value, [])) :
    expression budget text = .ok (value, []) := by
  have ht : term budget text = .ok (value, []) := by
    unfold term leftAssociative
    rw [h]
    rfl
  unfold expression leftAssociative
  rw [ht]
  rfl

/-- **The value of a number** is the double nearest to what it denotes. -/
theorem evaluateText_numeral (h : Numeral text d) (negative : Bool) :
    evaluateText (signText negative ++ text) = .ok (Double.ofDecimal negative d) :=
  evaluateText_eq_ok_iff.2 (expression_of_factor (factor_signed h negative 999))

/-! ### Preparation -/

/-- The text is evaluated as it is typed: it holds neither glyphs nor blanks, and its last character
is no operator. -/
def IsPrepared (text : List Char) : Prop :=
  (∀ c ∈ text, plain c = [c]) ∧ ∃ front c, text = front ++ [c] ∧ isOperator c = false

theorem plainText_of_forall (h : ∀ c ∈ text, plain c = [c]) : plainText text = text := by
  induction text with
  | nil => rfl
  | cons c rest ih =>
      have hc := h c List.mem_cons_self
      have hrest := ih fun d hd => h d (List.mem_cons_of_mem _ hd)
      rw [plainText_cons, hc, hrest]
      rfl

theorem IsPrepared.plainText_eq (h : IsPrepared text) : plainText text = text :=
  plainText_of_forall h.1

theorem IsPrepared.dropPending_eq (h : IsPrepared text) : dropPending text = text := by
  obtain ⟨-, front, c, rfl, hc⟩ := h
  rw [dropPending_concat, hc]
  rfl

theorem IsPrepared.ne_nil (h : IsPrepared text) : text ≠ [] := by
  obtain ⟨-, front, c, rfl, -⟩ := h
  simp

/-- Only the end of a text can be an operator that waits for its operand. -/
theorem IsPrepared.append {other : List Char} (h : ∀ c ∈ text, plain c = [c])
    (ho : IsPrepared other) : IsPrepared (text ++ other) := by
  obtain ⟨hplain, front, c, rfl, hc⟩ := ho
  exact ⟨List.forall_mem_append.2 ⟨h, hplain⟩, text ++ front, c, (List.append_assoc ..).symm, hc⟩

theorem IsPrepared.cons {c : Char} (hc : plain c = [c]) (h : IsPrepared text) :
    IsPrepared (c :: text) := by
  have hsingle : ∀ d ∈ [c], plain d = [d] := fun d hd => by rwa [List.mem_singleton.1 hd]
  exact .append hsingle h

/-- The characters of numbers are neither glyphs nor blanks nor operators. -/
theorem plain_of_isLiteralChar {c : Char} (h : Calculator.isLiteralChar c = true) :
    plain c = [c] ∧ isOperator c = false := by
  have hne : ∀ d : Char, Calculator.isLiteralChar d = false → c ≠ d := by
    rintro d hd rfl
    rw [h] at hd
    exact absurd hd (by decide)
  constructor
  · unfold plain
    rw [if_neg, if_neg (hne '×' (by decide)), if_neg (hne '÷' (by decide)),
      if_neg (hne '−' (by decide))]
    rintro (hc | hc)
    · exact hne '\n' (by decide) hc
    · exact hne ' ' (by decide) hc
  · rw [Bool.eq_false_iff]
    intro ho
    simp only [isOperator, Bool.or_eq_true, beq_iff_eq] at ho
    rcases ho with ((rfl | rfl) | rfl) | rfl <;> exact absurd h (by decide)

theorem isPrepared_of_isLiteralChar (h : ∀ c ∈ text, Calculator.isLiteralChar c = true)
    (hne : text ≠ []) : IsPrepared text := by
  refine ⟨fun c hc => (plain_of_isLiteralChar (h c hc)).1, text.dropLast, text.getLast hne,
    (List.dropLast_concat_getLast hne).symm, ?_⟩
  exact (plain_of_isLiteralChar (h _ (List.getLast_mem hne))).2

/-- A number is evaluated as it is typed. -/
theorem isPrepared_numeral (h : Numeral text d) (negative : Bool) :
    IsPrepared (signText negative ++ text) := by
  have hn := isPrepared_of_isLiteralChar h.isLiteralChar h.ne_nil
  cases negative with
  | false => exact hn
  | true => exact hn.cons rfl

end Expression

open Expression

/-! ### Display -/

/-- The display of a text that is evaluated as it is typed. -/
theorem calculate_of_isPrepared {text : List Char} {v : Double} (h : IsPrepared text)
    (hv : evaluateText text = .ok v) : calculate (String.ofList text) = v.display := by
  refine calculate_of_ok ?_
  unfold outcome
  dsimp only
  rw [String.toList_ofList, h.plainText_eq, if_neg h.ne_nil, h.dropPending_eq, hv]

/-- The display of a typed number is that of its value. -/
theorem calculate_numeral {text : List Char} {d : Decimal} (h : Numeral text d) (negative : Bool) :
    calculate (String.ofList (signText negative ++ text)) =
      (Double.ofDecimal negative d).display :=
  calculate_of_isPrepared (isPrepared_numeral h negative) (evaluateText_numeral h negative)

end Calculator
