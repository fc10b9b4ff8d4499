/-
**Reading and evaluating an expression.**

An expression is read from left to right and evaluated as it is read:

    expression := term (('+' | '-') term)*
    term       := factor (('*' | '/') factor)*
    factor     := '+' factor | '-' factor | '(' expression ')' | number

Spaces may stand before any token and at the end.  A number is a maximal run of digits and points.
A closing parenthesis may be missing; since an expression reads as far as it can, that is seen only
at the end of the text or before a character that is a fault anyway.

Each reader takes the text that remains and returns a value with the text that then remains, or
stops.  Nothing before the remaining text is ever looked at, so a reader cannot depend on where in
a text it stands; positions are recovered at the end from what remains.  Nesting is limited: every
open parenthesis and every sign that waits for its operand has a cost, and a text may spend a fixed
budget of it.  The readers are recursive on what is left of that budget.

Main definitions:

* `Calculator.Expression.number`, `Calculator.Expression.factor`, `Calculator.Expression.term`,
  `Calculator.Expression.expression` — the readers;
* `Calculator.Expression.leftAssociative` — operands joined by the operators of one level;
* `Calculator.Expression.evaluateText` — the value of a whole text.

Main results:

* `Calculator.Expression.factor_space` — spaces before an operand do not matter;
* `Calculator.Expression.evaluateText_eq_ok_iff` — a text has a value exactly if an expression is
  read from it and nothing remains.
-/

import Calculator.Expression.Fault
import Calculator.Double.Arithmetic
import Calculator.Double.Shortest

namespace Calculator.Expression

/-! ### Tokens -/

/-- Spaces stand before any token. -/
def skipSpaces (text : List Char) : List Char := text.dropWhile (· == ' ')

@[simp] theorem skipSpaces_nil : skipSpaces [] = [] := rfl

@[simp] theorem skipSpaces_space (text : List Char) : skipSpaces (' ' :: text) = skipSpaces text :=
  rfl

theorem skipSpaces_cons {c : Char} (h : c ≠ ' ') (text : List Char) :
    skipSpaces (c :: text) = c :: text := by
  simp [skipSpaces, h]

@[simp] theorem skipSpaces_skipSpaces (text : List Char) :
    skipSpaces (skipSpaces text) = skipSpaces text := by
  induction text with
  | nil => rfl
  | cons c text ih =>
      by_cases h : c = ' '
      · subst h; simpa using ih
      · rw [skipSpaces_cons h, skipSpaces_cons h]

/-! ### Outcomes -/

/-- Reading stopped for a cause, and this text remained. -/
structure Stop where
  cause : Cause
  rest : List Char
  deriving DecidableEq

/-- A value with the text that remains after it, or a stop. -/
abbrev Outcome := Except Stop (Double × List Char)

/-- What is read from the text that remains. -/
abbrev Reader := List Char → Outcome

/-- The same outcome with the opposite value. -/
def Outcome.negated : Outcome → Outcome
  | .error stop => .error stop
  | .ok (value, rest) => .ok (-value, rest)

/-- The same outcome with one closing parenthesis passed over, if one follows. -/
def Outcome.closed : Outcome → Outcome
  | .error stop => .error stop
  | .ok (value, rest) =>
      match skipSpaces rest with
      | ')' :: rest => .ok (value, rest)
      | rest => .ok (value, rest)

/-! ### Levels of operators -/

/-- Operators of one level and the operations that they stand for. -/
abbrev Operators := Char → Option (Double → Double → Double)

/-- Plus and minus. -/
def additive : Operators
  | '+' => some (· + ·)
  | '-' => some (· - ·)
  | _ => none

/-- Times and divide. -/
def multiplicative : Operators
  | '*' => some (· * ·)
  | '/' => some (· / ·)
  | _ => none

/-- Joins further operands to a value for as long as an operator follows.  The first argument
bounds the number of operators; the length of the text is always enough, because each operator
takes a character. -/
def joinFurther (operators : Operators) (operand : Reader) : Nat → Double → Reader
  | 0, value, text => .ok (value, skipSpaces text)
  | bound + 1, value, text =>
      match skipSpaces text with
      | [] => .ok (value, [])
      | c :: rest =>
          match operators c with
          | none => .ok (value, c :: rest)
          | some operation =>
              match operand rest with
              | .error stop => .error stop
              | .ok (further, rest) =>
                  joinFurther operators operand bound (operation value further) rest

/-- Operands joined from left to right. -/
def leftAssociative (operators : Operators) (operand : Reader) : Reader := fun text =>
  match operand text with
  | .error stop => .error stop
  | .ok (value, rest) => joinFurther operators operand rest.length value rest

/-! ### The grammar -/

/-- A maximal run of digits and points. -/
def number : Reader := fun text =>
  let literal := text.takeWhile isLiteralChar
  let rest := text.dropWhile isLiteralChar
  match Decimal.ofLiteral? literal with
  | some decimal => .ok (Double.ofDecimal false decimal, rest)
  | none => .error ⟨.number literal, rest⟩

/-- A signed, parenthesised or plain operand.  A sign costs one and a parenthesis three of the
budget; what remains after them may spend the rest. -/
def factor : Nat → Reader
  | budget, text =>
      match skipSpaces text with
      | [] => .error ⟨.endOfText, []⟩
      | c :: rest =>
          if c = '+' then
            match budget with
            | budget + 1 => factor budget rest
            | 0 => .error ⟨.depth, rest⟩
          else if c = '-' then
            match budget with
            | budget + 1 => Outcome.negated (factor budget rest)
            | 0 => .error ⟨.depth, rest⟩
          else if c = '(' then
            match budget with
            | budget + 3 =>
                Outcome.closed <|
                  leftAssociative additive (leftAssociative multiplicative (factor budget)) rest
            | _ => .error ⟨.depth, rest⟩
          else if isLiteralChar c then
            number (c :: rest)
          else
            .error ⟨.character c, c :: rest⟩

/-- Factors joined by times and divide. -/
def term (budget : Nat) : Reader := leftAssociative multiplicative (factor budget)

/-- Terms joined by plus and minus. -/
def expression (budget : Nat) : Reader := leftAssociative additive (term budget)

/-! ### Whole texts -/

/-- The budget of a text. -/
def nestingLimit : Nat := 1000

/-- The place in a text at which reading stopped. -/
def Stop.fault (text : List Char) (stop : Stop) : Fault :=
  ⟨stop.cause, text.length - stop.rest.length⟩

/-- The value of a whole text. -/
def evaluateText (text : List Char) : Except Fault Double :=
  match expression nestingLimit text with
  | .error stop => .error (stop.fault text)
  | .ok (value, []) => .ok value
  | .ok (_, c :: rest) => .error ⟨.character c, text.length - (c :: rest).length⟩

/-- A text has a value exactly if an expression is read from it and nothing remains. -/
theorem evaluateText_eq_ok_iff {text : List Char} {value : Double} :
    evaluateText text = .ok value ↔ expression nestingLimit text = .ok (value, []) := by
  unfold evaluateText
  split <;> simp_all

/-- Spaces before an operand do not matter. -/
theorem factor_space (budget : Nat) (text : List Char) :
    factor budget (' ' :: text) = factor budget text := by
  unfold factor
  rfl

end Calculator.Expression
