/-
**The dangling operator.**

One operator at the end of a typed expression is forgiven, whether it was typed as a glyph or as a
plain operator and with whatever layout around it.  The expression is then calculated as if the
operator had not been typed.  This works only once: behind an operator an operand is needed, at
every level and inside every group, and a scan that needs an operand at the end of the text has no
value.  So an expression that still ends in an operator when one has been dropped cannot be read,
and neither can one of which nothing is left.

Main results:

* `Calculator.Expression.not_endsInOperator_of_value` — no text with a value ends in an operator;
* `Calculator.outcome_congr` — what is shown depends on what the typed text stands for;
* `Calculator.calculate_forgives_operator` — **exactly one dangling operator is forgiven**.
-/

import Calculator.Proofs.Expression.Layout
import Calculator.Proofs.Expression.Spacing
import Calculator.Proofs.Service.Agreement

set_option relaxedAutoImplicit false
set_option autoImplicit false

namespace Calculator

namespace Expression

/-! ### An operator demands an operand -/

variable {text : List Char}

/-- No text with a value ends in an operator, layout apart. -/
theorem not_endsInOperator_of_value {value : Double} (h : evaluateText text = .ok value) :
    ¬ EndsInOperator (plainText text) := by
  obtain ⟨hplain, -, front, c, hlast, hc⟩ := isPrepared_unspaced h
  rw [hplain, hlast, EndsInOperator, List.getLast?_concat, Option.any_some, hc]
  decide

/-- A text that ends in an operator cannot be read. -/
theorem exists_fault_of_endsInOperator (h : EndsInOperator (plainText text)) :
    ∃ fault, evaluateText text = .error fault := by
  cases hv : evaluateText text with
  | error fault => exact ⟨fault, rfl⟩
  | ok value => exact absurd h (not_endsInOperator_of_value hv)

/-! ### Dropping it -/

theorem dropPending_of_not_endsInOperator (h : ¬ EndsInOperator text) : dropPending text = text :=
  if_neg h

/-- Behind a text one more operator is what is dropped. -/
theorem dropPending_concat_operator {d : Char} (hd : isOperator d = true) (text : List Char) :
    dropPending (text ++ [d]) = text := by
  rw [dropPending_concat, if_pos hd]

end Expression

open Expression

/-- What is shown depends on what the typed text stands for. -/
theorem outcome_congr {expression other : String}
    (h : plainText expression.toList = plainText other.toList) :
    outcome expression = outcome other := by
  unfold outcome
  dsimp only
  rw [h]

theorem calculate_congr {expression other : String} (h : outcome expression = outcome other) :
    calculate expression = calculate other := by
  rw [calculate, h, ← calculate]

/-- **Exactly one dangling operator is forgiven.**  Behind an expression that stands for something
and does not end in an operator, one operator with layout around it changes nothing.  Behind one
that stands for nothing, or ends in an operator already, it makes the expression an error.  And an
expression that is evaluated as it is written has no value if an operator is the last of its
characters that is no layout. -/
theorem calculate_forgives_operator :
    (∀ (expression : String) (before after : List Char) (o : Char), isTypedOperator o = true →
      (∀ c ∈ before, isLayout c = true) → (∀ c ∈ after, isLayout c = true) →
      let typed := expression ++ String.ofList (before ++ o :: after)
      let text := plainText expression.toList
      (text ≠ [] ∧ ¬ EndsInOperator text → calculate typed = calculate expression) ∧
        (text = [] ∨ EndsInOperator text → calculate typed = "Error")) ∧
    ∀ expression : String, (significant expression.toList).getLast?.any isTypedOperator = true →
      ∃ fault, evaluate expression = .error fault := by
  constructor
  · intro expression before after o ho hb ha typed text
    obtain ⟨d, hd, hoperator⟩ := exists_plainText_operator ho hb ha
    have htyped : plainText typed.toList = text ++ [d] := by
      rw [String.toList_append, String.toList_ofList, plainText_append, hoperator]
    have hne : plainText typed.toList ≠ [] := by simp [htyped]
    have hprepared : prepared typed.toList = text := by
      rw [prepared, htyped, dropPending_concat_operator hd]
    constructor
    · rintro ⟨hsome, hend⟩
      have hsame : prepared expression.toList = text := dropPending_of_not_endsInOperator hend
      refine calculate_congr ?_
      rw [outcome_of_ne_nil hne, outcome_of_ne_nil hsome, hprepared, hsame]
    · intro hwait
      refine (calculate_eq_errorDisplay_iff typed).2 ⟨hne, ?_⟩
      rw [hprepared, evaluate, String.toList_ofList]
      rcases hwait with hnil | hend
      · rw [hnil]
        exact ⟨_, rfl⟩
      · refine exists_fault_of_endsInOperator ?_
        rwa [plainText_idem]
  · intro expression h
    exact exists_fault_of_endsInOperator ((endsInOperator_significant_iff _).1 h)

/-- A glyph behind a sum on two lines, and a second one behind it. -/
theorem calculate_forgives_operator_once :
    (plainText "1\n+ 2".toList ≠ [] ∧ ¬ EndsInOperator (plainText "1\n+ 2".toList)) ∧
      calculate "1\n+ 2 ×\n" = calculate "1\n+ 2" ∧
      EndsInOperator (plainText "1\n+ 2 ×\n".toList) ∧ calculate "1\n+ 2 ×\n−" = "Error" ∧
      (significant "(1 −\n ".toList).getLast?.any isTypedOperator = true ∧
      ∃ fault, evaluate "(1 −\n " = .error fault := by
  obtain ⟨hforgiven, hwritten⟩ := calculate_forgives_operator
  have hsum : plainText "1\n+ 2".toList ≠ [] ∧ ¬ EndsInOperator (plainText "1\n+ 2".toList) := by
    decide
  have hend : EndsInOperator (plainText "1\n+ 2 ×\n".toList) := by decide
  have hlast : (significant "(1 −\n ".toList).getLast?.any isTypedOperator = true := by decide
  have honce := (hforgiven "1\n+ 2" [' '] ['\n'] '×' rfl (by simp [isLayout]) (by simp [isLayout])).1
  have htwice := (hforgiven "1\n+ 2 ×\n" [] [] '−' rfl (by simp) (by simp)).2
  exact ⟨hsum, honce hsum, hend, htwice (.inr hend), hlast, hwritten _ hlast⟩

end Calculator
