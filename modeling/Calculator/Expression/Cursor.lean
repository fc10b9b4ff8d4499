/-
**A cursor on an expression.**

An expression can also be read in steps.  A cursor stands on a character of a text; it starts before
the first one, may be moved beyond the last one, and has no current character in either place.  The
character is looked up when the cursor comes to a place, and only this one character decides what is
done next.  The steps move the cursor on, take a token if it is there, or read a part of the
expression from where it stands; only reading the whole expression starts again from the beginning.
A step that stops at a fault leaves the cursor at the fault, however deeply nested the fault is, and
the next step goes on from there.

Main definitions:

* `Calculator.Expression.Cursor` — a place in a text;
* `Calculator.Expression.Cursor.next`, `Calculator.Expression.Cursor.passWhile`,
  `Calculator.Expression.Cursor.take` — its movements;
* `Calculator.Expression.Cursor.number`, `Calculator.Expression.Cursor.factor`,
  `Calculator.Expression.Cursor.term`, `Calculator.Expression.Cursor.expression`,
  `Calculator.Expression.Cursor.whole` — reading parts of an expression, and all of it;
* `Calculator.Expression.Step`, `Calculator.Expression.Cursor.step`,
  `Calculator.Expression.Cursor.run` — single steps and runs of them.

Main results:

* `Calculator.Expression.Cursor.step_whole` — reading the whole expression forgets the place.
-/

import Calculator.Expression.Parser

namespace Calculator.Expression

/-- A place in a text, counted from the first character; it may lie outside the text. -/
structure Cursor where
  text : List Char
  position : Int
  /-- The character that was found when the cursor came to its place, if there was one. -/
  found : Option Char
  deriving DecidableEq

namespace Cursor

/-- The cursor before the first character. -/
def start (text : List Char) : Cursor := ⟨text, -1, none⟩

/-- The current character, as a text that is empty if there is none. -/
def current (cursor : Cursor) : List Char := cursor.found.toList

/-! ### Movements -/

/-- One character further, also outside the text. -/
def next (cursor : Cursor) : Cursor where
  text := cursor.text
  position := cursor.position + 1
  found := cursor.text[(cursor.position + 1).toNat]?

@[simp] theorem text_next (cursor : Cursor) : cursor.next.text = cursor.text := rfl

@[simp] theorem position_next (cursor : Cursor) :
    cursor.next.position = cursor.position + 1 := rfl

@[simp] theorem found_next (cursor : Cursor) :
    cursor.next.found = cursor.text[(cursor.position + 1).toNat]? := rfl

/-- Further for as long as there is a character of the given kind. -/
def passWhile (kind : Char → Bool) (cursor : Cursor) : Cursor :=
  if cursor.found.any kind then cursor.next.passWhile kind else cursor
termination_by (cursor.text.length - cursor.position).toNat + if cursor.found.isSome then 1 else 0
decreasing_by
  -- the last step leaves the text, and then no character is found any more
  next h =>
    have hsome : cursor.found.isSome := by
      cases hf : cursor.found <;> simp_all
    by_cases hin : (cursor.position + 1).toNat < cursor.text.length
    · simp [hsome, hin]
      omega
    · simp [hsome, hin]
      omega

/-- Passes over spaces, and then over the current character if it is the token. -/
def take (token : List Char) (cursor : Cursor) : Bool × Cursor :=
  let cursor := cursor.passWhile (· == ' ')
  if cursor.current = token then (true, cursor.next) else (false, cursor)

/-! ### Reading -/

/-- What is read, or why nothing is, and the cursor as it is left in either case. -/
abbrev Action := Cursor → Except Fault Double × Cursor

/-- Stops where the cursor stands. -/
def stop (cause : Cause) (cursor : Cursor) : Except Fault Double × Cursor :=
  (.error ⟨cause, cursor.position.toNat⟩, cursor)

/-- Stops at the current character, or at the end of the text. -/
def unexpected (cursor : Cursor) : Except Fault Double × Cursor :=
  match cursor.found with
  | none => cursor.stop .endOfText
  | some c => cursor.stop (.character c)

/-- The text from a place up to the cursor. -/
def textFrom (place : Int) (cursor : Cursor) : List Char :=
  (cursor.text.drop place.toNat).take (cursor.position - place).toNat

/-- A number that begins at the given place, which is where the cursor stands. -/
def number (place : Int) : Action := fun cursor =>
  let cursor := cursor.passWhile isLiteralChar
  match Decimal.ofLiteral? (cursor.textFrom place) with
  | some decimal => (.ok (Double.ofDecimal false decimal), cursor)
  | none => cursor.stop (.number (cursor.textFrom place))

/-- The operators of one level, in the order in which they are tried. -/
abbrev Level := List (Char × (Double → Double → Double))

/-- Plus and minus. -/
def sums : Level := [('+', (· + ·)), ('-', (· - ·))]

/-- Times and divide. -/
def products : Level := [('*', (· * ·)), ('/', (· / ·))]

/-- Takes the first of the operators that is there. -/
def takeOperator : Level → Cursor → Option (Double → Double → Double) × Cursor
  | [], cursor => (none, cursor)
  | (c, operation) :: others, cursor =>
      match cursor.take [c] with
      | (true, cursor) => (some operation, cursor)
      | (false, cursor) => takeOperator others cursor

/-- Joins further operands for as long as an operator can be taken.  The first number bounds how
many there are; more than the characters of the text there cannot be. -/
def joinFurther (level : Level) (operand : Action) : Nat → Double → Action
  | 0, value, cursor => (.ok value, cursor)
  | bound + 1, value, cursor =>
      match takeOperator level cursor with
      | (none, cursor) => (.ok value, cursor)
      | (some operation, cursor) =>
          match operand cursor with
          | (.error fault, cursor) => (.error fault, cursor)
          | (.ok further, cursor) =>
              joinFurther level operand bound (operation value further) cursor

/-- Operands joined from left to right. -/
def leftAssociative (level : Level) (operand : Action) : Action := fun cursor =>
  match operand cursor with
  | (.error fault, cursor) => (.error fault, cursor)
  | (.ok value, cursor) => joinFurther level operand (cursor.text.length + 1) value cursor

/-- The same with the opposite value. -/
def negated : Except Fault Double × Cursor → Except Fault Double × Cursor
  | (.error fault, cursor) => (.error fault, cursor)
  | (.ok value, cursor) => (.ok (-value), cursor)

/-- The same with one closing parenthesis taken, if it is there. -/
def closed : Except Fault Double × Cursor → Except Fault Double × Cursor
  | (.error fault, cursor) => (.error fault, cursor)
  | (.ok value, cursor) => (.ok value, (cursor.take [')']).2)

/-- A signed, parenthesised or plain operand, within a budget for nesting. -/
def factor : Nat → Action
  | budget, cursor =>
      match cursor.take ['+'] with
      | (true, cursor) =>
          match budget with
          | budget + 1 => factor budget cursor
          | 0 => cursor.stop .depth
      | (false, cursor) =>
          match cursor.take ['-'] with
          | (true, cursor) =>
              match budget with
              | budget + 1 => negated (factor budget cursor)
              | 0 => cursor.stop .depth
          | (false, cursor) =>
              let place := cursor.position
              match cursor.take ['('] with
              | (true, cursor) =>
                  match budget with
                  | budget + 3 =>
                      closed <|
                        leftAssociative sums (leftAssociative products (factor budget)) cursor
                  | _ => cursor.stop .depth
              | (false, cursor) =>
                  if cursor.found.any isLiteralChar then number place cursor
                  else cursor.unexpected

/-- Factors joined by times and divide. -/
def term (budget : Nat) : Action := leftAssociative products (factor budget)

/-- Terms joined by plus and minus. -/
def expression (budget : Nat) : Action := leftAssociative sums (term budget)

/-- The whole expression, from the beginning to the end of the text. -/
def whole : Action := fun cursor =>
  match expression nestingLimit { cursor with position := -1 }.next with
  | (.error fault, cursor) => (.error fault, cursor)
  | (.ok value, cursor) =>
      if cursor.position < cursor.text.length then cursor.unexpected else (.ok value, cursor)

end Cursor

/-! ### Steps -/

/-- What can be asked of a cursor. -/
inductive Step where
  | next
  | take (token : List Char)
  | whole
  | expression
  | term
  | factor
  deriving DecidableEq

/-- What a step answers. -/
inductive Answer where
  | moved
  | taken (found : Bool)
  | value (result : Except Fault Double)

namespace Cursor

/-- One step. -/
def step (cursor : Cursor) : Step → Answer × Cursor
  | .next => (.moved, cursor.next)
  | .take token => ((cursor.take token).map .taken id)
  | .whole => (cursor.whole.map .value id)
  | .expression => ((expression nestingLimit cursor).map .value id)
  | .term => ((term nestingLimit cursor).map .value id)
  | .factor => ((factor nestingLimit cursor).map .value id)

/-- Reading the whole expression forgets the place. -/
theorem step_whole (cursor other : Cursor) (h : cursor.text = other.text) :
    cursor.step .whole = other.step .whole := by
  unfold step whole next
  rw [h]

/-- Every answer of a run, with the cursor after it. -/
def run (cursor : Cursor) : List Step → List (Answer × Cursor)
  | [] => []
  | s :: steps => cursor.step s :: (cursor.step s).2.run steps

@[simp] theorem length_run (cursor : Cursor) (steps : List Step) :
    (cursor.run steps).length = steps.length := by
  induction steps generalizing cursor with
  | nil => rfl
  | cons s steps ih => simp [run, ih]

/-- The cursor after steps. -/
def after (cursor : Cursor) : List Step → Cursor
  | [] => cursor
  | s :: steps => (cursor.step s).2.after steps

end Cursor

end Calculator.Expression
