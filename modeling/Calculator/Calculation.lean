/-
**Calculating a typed expression.**

A typed expression has a display: that of its value, or `0` if nothing but layout was typed.  An
expression that cannot be read is shown as an error.  While an expression is being typed a preview
shows its display as soon as there is something to calculate; nothing is shown for a single number,
for an expression that waits for an operand, or for one that cannot be read.

Main definitions:

* `Calculator.evaluate` — the value of an expression as it is written;
* `Calculator.outcome` — the display of a typed expression, or why it has none;
* `Calculator.calculate`, `Calculator.preview` — what is shown for it;
* `Calculator.HasPreview` — the expressions that are calculated while being typed.

Main results:

* `Calculator.calculate_of_ok`, `Calculator.calculate_of_error` — calculating follows the outcome;
* `Calculator.preview_eq` — a preview is empty or the display of the expression.
-/

import Calculator.Display
import Calculator.Expression.Parser
import Calculator.Expression.Typed

namespace Calculator

open Expression

/-! ### Values and displays -/

/-- The value of an expression as it is written. -/
def evaluate (expression : String) : Except Fault Double := evaluateText expression.toList

/-- What is shown for an expression that cannot be read. -/
def errorDisplay : String := "Error"

/-- What is shown if nothing but layout was typed. -/
def emptyDisplay : String := "0"

/-- The display of a typed expression, or why it has none. -/
def outcome (expression : String) : Except Fault String :=
  let text := plainText expression.toList
  if text = [] then .ok emptyDisplay
  else
    match evaluateText (dropPending text) with
    | .error fault => .error fault
    | .ok value => .ok value.display

/-- What is shown for a typed expression. -/
def calculate (expression : String) : String :=
  match outcome expression with
  | .error _ => errorDisplay
  | .ok display => display

theorem calculate_of_ok {expression display : String} (h : outcome expression = .ok display) :
    calculate expression = display := by
  simp [calculate, h]

theorem calculate_of_error {expression : String} {fault : Fault}
    (h : outcome expression = .error fault) : calculate expression = errorDisplay := by
  simp [calculate, h]

/-! ### Previews -/

/-- A plain operator or a key's sign for one. -/
def isTypedOperator (c : Char) : Bool := isOperator c || c == '×' || c == '÷' || c == '−'

/-- A minus sign of either kind. -/
def isTypedMinus (c : Char) : Bool := c == '-' || c == '−'

/-- The expression is calculated while it is being typed: it holds an operator, does not end in
one, and is more than a negative number. -/
def HasPreview (expression : String) : Prop :=
  let text := expression.toList
  text.countP isTypedOperator ≠ 0 ∧ text.getLast?.any isTypedOperator = false ∧
    ¬ (text.head?.any isTypedMinus = true ∧ text.countP isTypedOperator = 1)

instance (expression : String) : Decidable (HasPreview expression) :=
  inferInstanceAs (Decidable (_ ∧ _ ∧ _))

/-- What is shown for an expression while it is being typed. -/
def preview (expression : String) : String :=
  if HasPreview expression then
    if calculate expression = errorDisplay then "" else calculate expression
  else
    ""

/-- A preview is empty or the display of the expression. -/
theorem preview_eq (expression : String) :
    preview expression = "" ∨ preview expression = calculate expression := by
  unfold preview
  split
  · split
    · exact .inl rfl
    · exact .inr rfl
  · exact .inl rfl

end Calculator
