/-
**Faults in an expression.**

Reading an expression stops at its first fault.  A fault is a cause and the place where reading
stopped, counted in characters from the start of the text.

Main definitions:

* `Calculator.Expression.Cause` — the four causes;
* `Calculator.Expression.Fault` — a cause with its place;
* `Calculator.Expression.Fault.message` — what is said about it.
-/

import Calculator.Text.Quoted

namespace Calculator.Expression

/-- Why an expression cannot be read. -/
inductive Cause where
  /-- The text ends where an operand is needed. -/
  | endOfText
  /-- A character stands where none of its kind can. -/
  | character (c : Char)
  /-- A run of digits and points is no number. -/
  | number (literal : List Char)
  /-- Parentheses and signs are nested beyond the limit. -/
  | depth
  deriving DecidableEq

/-- A cause, and the number of characters before the place where reading stopped. -/
structure Fault where
  cause : Cause
  position : Nat
  deriving DecidableEq

/-- What is said about a fault. -/
def Fault.message (fault : Fault) : String :=
  match fault.cause with
  | .endOfText => "Unexpected end of expression."
  | .character c =>
      "Unexpected character " ++ quoted c ++ " at position " ++ toString fault.position ++ "."
  | .number literal => "Malformed number '" ++ String.ofList literal ++ "'."
  | .depth => "maximum recursion depth exceeded"

end Calculator.Expression
