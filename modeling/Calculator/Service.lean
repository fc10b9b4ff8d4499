/-
**The calculator service.**

The service answers requests about typed expressions up to a given length.  Besides its answer a
request leaves log records: every failed calculation is recorded with its cause, and every failed
evaluation that was asked for is recorded once more.

Main definitions:

* `Calculator.Service` — the service, with its limit;
* `Calculator.Refusal` — why a request gets no answer;
* `Calculator.Service.evaluate`, `Calculator.Service.preview` — the two requests;
* `Calculator.Service.run` — a sequence of requests.

Main results:

* `Calculator.Service.evaluate_of_overlong`, `Calculator.Service.preview_of_overlong` — both refuse
  an expression that is too long, and record nothing.
-/

import Calculator.Calculation
import Calculator.Display.Grouping
import Calculator.Failure
import Calculator.Log.Record

namespace Calculator

/-! ### Answers -/

/-- An evaluated expression. -/
structure Evaluation where
  /-- The expression exactly as it was given. -/
  expression : String
  result : String
  /-- The result with thousands separators. -/
  formatted : String
  isError : Bool
  deriving DecidableEq

/-- A partially typed expression with its preview. -/
structure Preview where
  expression : String
  preview : String
  deriving DecidableEq

/-- Why a request gets no answer. -/
inductive Refusal where
  /-- The expression has more characters than the limit allows. -/
  | overlong (limit : Int) (length : Nat)
  /-- The result cannot be given thousands separators. -/
  | ungroupable (fault : Grouping.TooLong)
  deriving DecidableEq

/-- The failure that an expression beyond the limit is reported as. -/
def Failure.overlong (limit : Int) (length : Nat) : Failure where
  kind := .calculation
  message := "Expression exceeds " ++ toString limit ++ " characters."
  details := [("length", .ofNat length)]

/-! ### Log records -/

/-- How the cause of a failed calculation is recorded. -/
def Expression.Fault.trace (fault : Expression.Fault) : String :=
  match fault.cause with
  | .depth => "RecursionError: " ++ fault.message
  | _ => "calc_app.services.calculator_engine.ExpressionSyntaxError: " ++ fault.message

/-- A calculation has failed. -/
def evaluationFailed (expression : String) (fault : Expression.Fault) : Log.Record where
  level := .debug
  logger := "calc_app.calculator.engine"
  message := "calculator.evaluation_failed"
  extra := [("expression", .string expression), ("exc_info", .string fault.trace)]

/-- An evaluation that was asked for has failed. -/
def evaluationError (expression : String) : Log.Record where
  level := .info
  logger := "calc_app.calculator"
  message := "calculator.error"
  extra := [("expression_length", .ofNat expression.length)]

/-- The records of calculating an expression. -/
def calculationRecords (expression : String) : List Log.Record :=
  match outcome expression with
  | .ok _ => []
  | .error fault => [evaluationFailed expression fault]

/-! ### Requests -/

/-- The service.  Its limit may be anything; below zero it refuses every expression. -/
structure Service where
  maxLength : Int
  deriving DecidableEq

namespace Service

/-- An answer or a refusal, and the records that were left. -/
abbrev Reply (α : Type) := Except Refusal α × List Log.Record

/-- The expression is too long for the service. -/
def Overlong (service : Service) (expression : String) : Prop :=
  service.maxLength < expression.length

instance (service : Service) (expression : String) : Decidable (service.Overlong expression) :=
  inferInstanceAs (Decidable (_ < _))

/-- The refusal of an expression that is too long. -/
def overlong (service : Service) (expression : String) : Refusal :=
  .overlong service.maxLength expression.length

/-- The result of an expression, with and without thousands separators. -/
def evaluate (service : Service) (expression : String) : Reply Evaluation :=
  if service.Overlong expression then (.error (service.overlong expression), [])
  else
    let result := calculate expression
    let isError := result == errorDisplay
    let records :=
      calculationRecords expression ++ if isError then [evaluationError expression] else []
    match withSeparators result with
    | .error fault => (.error (.ungroupable fault), records)
    | .ok formatted => (.ok ⟨expression, result, formatted, isError⟩, records)

/-- The preview of an expression. -/
def preview (service : Service) (expression : String) : Reply Preview :=
  if service.Overlong expression then (.error (service.overlong expression), [])
  else
    let records := if HasPreview expression then calculationRecords expression else []
    (.ok ⟨expression, Calculator.preview expression⟩, records)

theorem evaluate_of_overlong {service : Service} {expression : String}
    (h : service.Overlong expression) :
    service.evaluate expression = (.error (service.overlong expression), []) := if_pos h

theorem preview_of_overlong {service : Service} {expression : String}
    (h : service.Overlong expression) :
    service.preview expression = (.error (service.overlong expression), []) := if_pos h

/-! ### Sequences of requests -/

/-- A request. -/
inductive Request where
  | evaluate (expression : String)
  | preview (expression : String)
  deriving DecidableEq

/-- What a request is answered with. -/
inductive Answer where
  | evaluation (result : Evaluation)
  | preview (result : Preview)
  deriving DecidableEq

/-- Answers one request. -/
def answer (service : Service) : Request → Reply Answer
  | .evaluate expression => (service.evaluate expression).map (·.map .evaluation) id
  | .preview expression => (service.preview expression).map (·.map .preview) id

/-- Answers requests in order, and collects their records. -/
def run (service : Service) (requests : List Request) :
    List (Except Refusal Answer) × List Log.Record :=
  let replies := requests.map service.answer
  (replies.map (·.1), replies.flatMap (·.2))

end Service

end Calculator
