/-
**Previews and layout.**

What is calculated depends on a typed expression only through what it stands for, so layout and the
choice between glyphs and plain operators make no difference to it.  A preview first looks at the
characters as they were typed: it counts the operators, and it looks at the first and at the last
character.  The count is that of the replaced text, but layout in front of the first or behind the
last character hides what the preview looks for there.  So an expression that waits for an operand
has no preview only if nothing was typed behind its operator, and a negative number has none only if
nothing was typed in front of its sign; with layout there the preview is what is calculated.  In all
other respects layout does not matter.

Main definitions:

* `Calculator.Expression.IsOnlyNegative` — a minus sign is the first character and the only operator.

Main results:

* `Calculator.hasPreview_iff` — **when an expression is calculated while it is typed**, in terms of
  what it stands for and of the layout at its ends;
* `Calculator.preview_of_layout` — what layout means for results and previews;
* `Calculator.preview_differs_in_layout` — layout at the ends of an expression can change its preview.
-/

import Calculator.Proofs.Expression.Dangling

set_option relaxedAutoImplicit false
set_option autoImplicit false

namespace Calculator

/-- A minus sign is the first character and the only operator. -/
def Expression.IsOnlyNegative (text : List Char) : Prop :=
  text.head? = some '-' ∧ text.countP isOperator = 1

open Expression

instance (text : List Char) : Decidable (IsOnlyNegative text) := inferInstanceAs (Decidable (_ ∧ _))

/-! ### When there is a preview -/

/-- **When an expression is calculated while it is typed.**  It stands for a text with an operator;
if that ends in an operator, layout was typed behind it, and if that has no operator but a minus sign
in front, layout was typed before it. -/
theorem hasPreview_iff (expression : String) :
    HasPreview expression ↔
      (plainText expression.toList).countP isOperator ≠ 0 ∧
        (EndsInOperator (plainText expression.toList) → EndsInLayout expression.toList) ∧
        (IsOnlyNegative (plainText expression.toList) → StartsInLayout expression.toList) := by
  have hlast := getLast?_typed_iff expression.toList
  have hfirst := head?_typed_iff expression.toList
  unfold HasPreview IsOnlyNegative
  dsimp only
  rw [hfirst, countP_isTypedOperator, ← Bool.not_eq_true, hlast, not_and_not_right, and_right_comm,
    not_and_not_right]

/-- What a preview shows if there is one. -/
theorem preview_of_hasPreview {expression : String} (h : HasPreview expression) :
    preview expression = if calculate expression = "Error" then "" else calculate expression :=
  if_pos h

theorem preview_of_not_hasPreview {expression : String} (h : ¬ HasPreview expression) :
    preview expression = "" :=
  if_neg h

/-- Expressions that show the same result have the same preview, if both have one or neither. -/
theorem preview_congr {expression other : String} (h : calculate expression = calculate other)
    (hiff : HasPreview expression ↔ HasPreview other) : preview expression = preview other := by
  by_cases hp : HasPreview expression
  · rw [preview_of_hasPreview hp, preview_of_hasPreview (hiff.1 hp), h]
  · rw [preview_of_not_hasPreview hp, preview_of_not_hasPreview fun ho => hp (hiff.2 ho)]

/-! ### What layout means -/

/-- **What layout means for results and previews.**  Expressions that stand for the same text show
the same result.  They have the same preview, too, if they agree in having layout behind an operator
at the end, and in front of a minus sign that is the only operator.  Without layout there the
preview is empty in these two cases; with layout there it is what the result is, if there is an
operator at all, and empty for an error. -/
theorem preview_of_layout (expression : String) :
    let text := substituted expression.toList
    (∀ other : String, substituted other.toList = text →
      calculate other = calculate expression ∧
        ((EndsInOperator text → (EndsInLayout other.toList ↔ EndsInLayout expression.toList)) →
          (IsOnlyNegative text →
            (StartsInLayout other.toList ↔ StartsInLayout expression.toList)) →
          preview other = preview expression)) ∧
      (EndsInOperator text → ¬ EndsInLayout expression.toList → preview expression = "") ∧
      (IsOnlyNegative text → ¬ StartsInLayout expression.toList → preview expression = "") ∧
      ((EndsInOperator text → EndsInLayout expression.toList) →
        (IsOnlyNegative text → StartsInLayout expression.toList) →
        preview expression =
          if text.countP isOperator = 0 ∨ calculate expression = "Error" then ""
          else calculate expression) := by
  intro text
  have htext : text = plainText expression.toList := substituted_eq_plainText _
  have hshown := hasPreview_iff expression
  rw [← htext] at hshown
  refine ⟨fun other hother => ?_, fun hend hlayout => ?_, fun hminus hlayout => ?_,
    fun hend hminus => ?_⟩
  · rw [substituted_eq_plainText] at hother
    have hcalculate : calculate other = calculate expression :=
      calculate_congr (outcome_congr (hother.trans htext))
    refine ⟨hcalculate, fun hlast hfirst => preview_congr hcalculate ?_⟩
    rw [hshown, hasPreview_iff, hother]
    exact and_congr_right' (and_congr (imp_congr_right hlast) (imp_congr_right hfirst))
  · exact preview_of_not_hasPreview fun h => hlayout ((hshown.1 h).2.1 hend)
  · exact preview_of_not_hasPreview fun h => hlayout ((hshown.1 h).2.2 hminus)
  · by_cases hcount : text.countP isOperator = 0
    · rw [if_pos (.inl hcount)]
      exact preview_of_not_hasPreview fun h => (hshown.1 h).1 hcount
    · rw [preview_of_hasPreview (hshown.2 ⟨hcount, hend, hminus⟩)]
      simp [hcount]

/-- Line feeds inside a sum, and a space behind the operator that it waits at. -/
theorem preview_of_layout_inside :
    substituted "1\n+ 2".toList = substituted "1+2".toList ∧ preview "1\n+ 2" = preview "1+2" ∧
      EndsInOperator (substituted "1 +\n2×".toList) ∧ preview "1 +\n2×" = "" ∧
      IsOnlyNegative (substituted "− 5 ".toList) ∧ preview "− 5 " = "" ∧
      preview "1+1+ " = "2" := by
  have hsame : substituted "1\n+ 2".toList = substituted "1+2".toList := by decide
  have hend : EndsInOperator (substituted "1 +\n2×".toList) := by decide
  have hminus : IsOnlyNegative (substituted "− 5 ".toList) := by decide
  have hno : ¬ EndsInOperator (substituted "1+2".toList) := by decide
  have hpositive : ¬ IsOnlyNegative (substituted "1+2".toList) := by decide
  have hbehind : ¬ IsOnlyNegative (substituted "1+1+ ".toList) := by decide
  obtain ⟨hcongr, -⟩ := preview_of_layout "1+2"
  obtain ⟨-, hwaits, -⟩ := preview_of_layout "1 +\n2×"
  obtain ⟨-, -, hnegative, -⟩ := preview_of_layout "− 5 "
  obtain ⟨-, -, -, hshown⟩ := preview_of_layout "1+1+ "
  have hresult : calculate "1+1+ " = "2" := by decide +kernel
  refine ⟨hsame, (hcongr _ hsame).2 (fun h => absurd h hno) (fun h => absurd h hpositive), hend,
    hwaits hend (by decide), hminus, hnegative hminus (by decide), ?_⟩
  rw [hshown (fun _ => by decide) (fun h => absurd h hbehind), hresult]
  decide

/-- **Layout at the ends of an expression can change its preview**: behind an operator that waits for
its operand, and in front of a negative number. -/
theorem preview_differs_in_layout :
    substituted "1+1+ ".toList = substituted "1+1+".toList ∧
      preview "1+1+ " = "2" ∧ preview "1+1+" = "" ∧
      substituted " -5".toList = substituted "-5".toList ∧
      preview " -5" = "-5" ∧ preview "-5" = "" := by
  decide +kernel

end Calculator
