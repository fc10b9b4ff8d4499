/-
**Failures that are reported to the caller.**

Main definitions:

* `Calculator.FailureKind` — the kinds of failure, with a status and a type each;
* `Calculator.Failure` — a kind, a message and details;
* `Calculator.Failure.payload` — what the caller is told.

Main results:

* `Calculator.Failure.find?_traceId` — the payload names the request exactly if there is an id.
-/

import Calculator.Json.Basic
import Calculator.RequestId

namespace Calculator

/-- The kinds of failure. -/
inductive FailureKind where
  /-- Any failure of the application. -/
  | application
  /-- A failure of the calculator. -/
  | calculation
  deriving DecidableEq

namespace FailureKind

/-- The status of an answer that reports the failure. -/
def status : FailureKind → Nat
  | .application => 500
  | .calculation => 400

/-- The type that is reported. -/
def type : FailureKind → String
  | .application => "APP_ERROR"
  | .calculation => "CALCULATOR_ERROR"

end FailureKind

/-- A failure that is reported to the caller. -/
structure Failure where
  kind : FailureKind
  message : String
  details : List (String × Json)

namespace Failure

/-- The fields that are reported: the details and the request id only if there are any. -/
def fields (failure : Failure) (id : Option RequestId) : List (String × Json) :=
  [("type", .string failure.kind.type), ("message", .string failure.message)] ++
    (if failure.details.isEmpty then [] else [("details", .object failure.details)]) ++
    (id.map fun id => ("traceId", Json.string id.text)).toList

/-- What the caller is told, under the current request id. -/
def payload (failure : Failure) (id : Option RequestId) : Json :=
  .object [("error", .object (failure.fields id))]

/-- The payload names the request exactly if there is an id. -/
theorem find?_traceId (failure : Failure) (id : Option RequestId) :
    (Json.object (failure.fields id)).find? "traceId" = id.map (Json.string ·.text) := by
  change lastValue? "traceId" (failure.fields id) = _
  unfold fields
  rw [lastValue?_append, lastValue?_append]
  cases id with
  | some id => rfl
  | none =>
      cases h : failure.details.isEmpty <;> rfl

end Failure

end Calculator
