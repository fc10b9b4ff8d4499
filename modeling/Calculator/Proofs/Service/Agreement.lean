/-
**The two requests agree.**

The service evaluates and previews expressions.  Whether it refuses one depends on its length alone,
so that both requests are refused together and with the same refusal; otherwise both are answered.
An evaluation has failed exactly if its result is the word for an error: no result is displayed as
that word, and the word has neither digits nor points, so that separators do not change it and make
it of nothing else.  What is previewed is the result of the evaluation, or nothing, and an error is
never previewed.

Main results:

* `Calculator.outcome_eq_error_iff` — when a typed expression has no display;
* `Calculator.calculate_eq_errorDisplay_iff` — **an error is shown for nothing else**;
* `Calculator.exists_withSeparators_calculate` — every display has a form with separators;
* `Calculator.Service.evaluate_preview_agree` — **the two requests agree**.
-/

import Calculator.Proofs.Display.Separators
import Calculator.Service
import Mathlib.Tactic.TFAE

set_option relaxedAutoImplicit false
set_option autoImplicit false

namespace Calculator

open Expression Display

/-! ### Outcomes -/

/-- An expression in which something was typed has the outcome of its evaluation. -/
theorem outcome_of_ne_nil {expression : String} (h : plainText expression.toList ≠ []) :
    outcome expression =
      (evaluate (String.ofList (prepared expression.toList))).map Double.display := by
  unfold outcome evaluate
  dsimp only
  rw [if_neg h, String.toList_ofList, prepared]
  cases evaluateText (dropPending (plainText expression.toList)) with
  | error fault => rfl
  | ok value => rfl

theorem outcome_of_nil {expression : String} (h : plainText expression.toList = []) :
    outcome expression = .ok emptyDisplay := if_pos h

/-- A typed expression has no display if something was typed that cannot be evaluated. -/
theorem outcome_eq_error_iff {expression : String} {fault : Fault} :
    outcome expression = .error fault ↔ plainText expression.toList ≠ [] ∧
      evaluate (String.ofList (prepared expression.toList)) = .error fault := by
  by_cases h : plainText expression.toList = []
  · rw [outcome_of_nil h]
    exact iff_of_false (by simp) fun hne => hne.1 h
  · rw [outcome_of_ne_nil h]
    cases evaluate (String.ofList (prepared expression.toList)) with
    | error fault' => simp [Except.map, h]
    | ok value => simp [Except.map]

/-- Every display is that of a double. -/
theorem exists_display_of_outcome {expression display : String}
    (h : outcome expression = .ok display) : ∃ v : Double, display = v.display := by
  by_cases hnil : plainText expression.toList = []
  · rw [outcome_of_nil hnil] at h
    exact ⟨.zero false, by rw [Double.display_zero, ← Except.ok.inj h]; rfl⟩
  · rw [outcome_of_ne_nil hnil] at h
    cases hv : evaluate (String.ofList (prepared expression.toList)) with
    | error fault => rw [hv] at h; cases h
    | ok value => rw [hv] at h; exact ⟨value, (Except.ok.inj h).symm⟩

/-- What has a display is not shown as an error. -/
theorem calculate_ne_errorDisplay {expression display : String}
    (h : outcome expression = .ok display) : calculate expression ≠ errorDisplay := by
  obtain ⟨v, rfl⟩ := exists_display_of_outcome h
  rw [calculate_of_ok h]
  exact display_ne_errorDisplay v

/-- **An error is shown for nothing else**: no value is displayed as one. -/
theorem calculate_eq_errorDisplay_iff (expression : String) :
    calculate expression = errorDisplay ↔ plainText expression.toList ≠ [] ∧
      ∃ fault, evaluate (String.ofList (prepared expression.toList)) = .error fault := by
  rw [← exists_and_left]
  simp only [← outcome_eq_error_iff]
  cases h : outcome expression with
  | error fault => exact iff_of_true (calculate_of_error h) ⟨fault, rfl⟩
  | ok display => exact iff_of_false (calculate_ne_errorDisplay h) (by simp)

/-! ### Separators -/

/-- What is calculated has a form with separators, which is the word for an error exactly if the
display itself is. -/
theorem exists_withSeparators_calculate (expression : String) :
    ∃ formatted, withSeparators (calculate expression) = .ok formatted ∧
      (formatted = errorDisplay ↔ calculate expression = errorDisplay) := by
  cases h : outcome expression with
  | error fault =>
      rw [calculate_of_error h]
      exact ⟨errorDisplay, rfl, Iff.rfl⟩
  | ok display =>
      obtain ⟨v, rfl⟩ := exists_display_of_outcome h
      rw [calculate_of_ok h]
      obtain ⟨formatted, hf, hc⟩ :=
        exists_withSeparators (Nat.le_trans (length_display_le v) (by decide))
      refine ⟨formatted, hf, iff_of_false ?_ (display_ne_errorDisplay v)⟩
      rintro rfl
      rcases hc 'r' (by decide) with hr | hr | hr
      · exact absurd hr (by decide)
      · exact absurd hr (by decide)
      · exact r_not_mem_display v hr

/-! ### Previews -/

/-- An error is not previewed. -/
theorem preview_ne_errorDisplay (expression : String) : preview expression ≠ errorDisplay := by
  unfold preview
  split
  · split
    · decide
    · assumption
  · decide

theorem preview_of_errorDisplay {expression : String} (h : calculate expression = errorDisplay) :
    preview expression = "" := by
  unfold preview
  rw [if_pos h, ite_self]

namespace Service

/-- An evaluation and a preview of one expression fit together: both repeat the expression, the
evaluation has failed exactly if its result is an error, with and without separators, and if the
expression cannot be evaluated, and the preview is the result or nothing and never an error. -/
structure Agree (expression : String) (evaluation : Evaluation) (shown : Preview) : Prop where
  evaluation_expression : evaluation.expression = expression
  preview_expression : shown.expression = expression
  failed : List.TFAE [evaluation.isError = true, evaluation.result = "Error",
    evaluation.formatted = "Error", plainText expression.toList ≠ [] ∧
      ∃ fault, Calculator.evaluate (String.ofList (prepared expression.toList)) = .error fault]
  preview_eq : shown.preview = "" ∨ shown.preview = evaluation.result
  preview_ne_error : shown.preview ≠ "Error"
  preview_of_failed : evaluation.isError = true → shown.preview = ""

variable {service : Service} {expression : String}

/-- What an expression within the limit is answered with, and what the answer leaves. -/
theorem exists_evaluate_eq (h : ¬ service.Overlong expression) :
    ∃ formatted, withSeparators (calculate expression) = .ok formatted ∧
      service.evaluate expression =
        (.ok ⟨expression, calculate expression, formatted, calculate expression == errorDisplay⟩,
          calculationRecords expression ++
            if calculate expression == errorDisplay then [evaluationError expression] else []) := by
  obtain ⟨formatted, hf, -⟩ := exists_withSeparators_calculate expression
  refine ⟨formatted, hf, ?_⟩
  rw [evaluate, if_neg h]
  dsimp only
  rw [hf]

/-- An expression within the limit is evaluated and previewed. -/
theorem exists_answers (h : ¬ service.Overlong expression) :
    ∃ evaluation shown, (service.evaluate expression).1 = .ok evaluation ∧
      (service.preview expression).1 = .ok shown ∧ Agree expression evaluation shown := by
  obtain ⟨formatted, hf, hiff⟩ := exists_withSeparators_calculate expression
  have herror : ((calculate expression == errorDisplay) = true) ↔
      calculate expression = errorDisplay := beq_iff_eq
  refine ⟨⟨expression, calculate expression, formatted, calculate expression == errorDisplay⟩,
    ⟨expression, Calculator.preview expression⟩, ?_, ?_, rfl, rfl, ?_, preview_eq expression,
    preview_ne_errorDisplay expression, fun hb => preview_of_errorDisplay (herror.1 hb)⟩
  · rw [evaluate, if_neg h]
    dsimp only
    rw [hf]
  · rw [preview, if_neg h]
  · tfae_have 1 ↔ 2 := herror
    tfae_have 3 ↔ 2 := hiff
    tfae_have 2 ↔ 4 := calculate_eq_errorDisplay_iff expression
    tfae_finish

/-- **The two requests agree.**  Both are refused alike, as a failure of the calculator that tells
the length, exactly if the expression is longer than the limit, and otherwise both are answered. -/
theorem evaluate_preview_agree (service : Service) (expression : String) :
    (service.maxLength < expression.length →
      (service.evaluate expression).1 = .error (.overlong service.maxLength expression.length) ∧
      (service.preview expression).1 = .error (.overlong service.maxLength expression.length) ∧
      Failure.overlong service.maxLength expression.length =
        ⟨.calculation, "Expression exceeds " ++ toString service.maxLength ++ " characters.",
          [("length", .ofNat expression.length)]⟩) ∧
    (¬ service.maxLength < expression.length →
      ∃ evaluation shown, (service.evaluate expression).1 = .ok evaluation ∧
        (service.preview expression).1 = .ok shown ∧ Agree expression evaluation shown) := by
  refine ⟨fun h => ⟨?_, ?_, rfl⟩, exists_answers⟩
  · rw [evaluate_of_overlong h, overlong]
  · rw [preview_of_overlong h, overlong]

/-- At a limit of four characters one more is refused, and a fault is not. -/
theorem evaluate_preview_agree_at_limit :
    let service : Service := ⟨4⟩
    (service.maxLength < ("1+1+1".length : Int) ∧
      (service.evaluate "1+1+1").1 = .error (.overlong 4 5) ∧
      (service.preview "1+1+1").1 = .error (.overlong 4 5)) ∧
    ¬ service.maxLength < ("1×)÷".length : Int) ∧
      ∃ evaluation shown, (service.evaluate "1×)÷").1 = .ok evaluation ∧
        (service.preview "1×)÷").1 = .ok shown ∧ Agree "1×)÷" evaluation shown := by
  intro service
  have hlong : service.maxLength < ("1+1+1".length : Int) := by decide
  have hshort : ¬ service.maxLength < ("1×)÷".length : Int) := by decide
  obtain ⟨he, hp, -⟩ := (evaluate_preview_agree service "1+1+1").1 hlong
  exact ⟨⟨hlong, he, hp⟩, hshort, (evaluate_preview_agree service "1×)÷").2 hshort⟩

end Service

end Calculator
