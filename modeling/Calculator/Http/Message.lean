/-
**Requests and responses.**

A request is what the web framework hands to the application: the path is decoded, the query is not.
The framework is assumed to find the headers of a request by their names in any case, the first one
if there are several, and to keep the headers of a response in the order in which they are added.

Main definitions:

* `Calculator.Http.Request` — a method, a path, a query and headers;
* `Calculator.Http.Request.header?` — a header of a request, by its name in any case;
* `Calculator.Http.Response` — a status, headers and a body;
* `Calculator.Http.Response.withHeaders` — further headers.

Main results:

* `Calculator.Http.Response.body_withHeaders`, `Calculator.Http.Response.status_withHeaders` —
  headers change neither the body nor the status.
-/

import Calculator.Json.Basic

namespace Calculator.Http

/-! ### Requests -/

/-- A request. -/
structure Request where
  method : String
  /-- The path as it was sent, without percent signs for its bytes. -/
  path : String
  /-- The query as it was sent, without the question mark. -/
  query : String
  /-- Names and values in the order in which they were sent. -/
  headers : List (String × String)
  deriving DecidableEq

namespace Request

/-- The name of a header without regard to case; names are ASCII. -/
def foldedName (name : String) : List Char := name.toList.map Char.toLower

/-- The first header of a name, as the framework finds it. -/
def header? (name : String) (request : Request) : Option String :=
  (request.headers.find? fun h => foldedName h.1 = foldedName name).map (·.2)

end Request

/-! ### Responses -/

/-- The body of a response. -/
inductive Body where
  | json (value : Json)
  | text (content : String)

/-- A response. -/
structure Response where
  status : Nat
  /-- Names, in lower case, and values. -/
  headers : List (String × String)
  body : Body

namespace Response

/-- A structured answer. -/
def ofJson (status : Nat) (value : Json) : Response where
  status := status
  headers := [("content-type", "application/json")]
  body := .json value

/-- A plain text. -/
def ofText (status : Nat) (content : String) : Response where
  status := status
  headers := [("content-type", "text/plain; charset=utf-8")]
  body := .text content

/-- The same response with further headers. -/
def withHeaders (headers : List (String × String)) (response : Response) : Response :=
  { response with headers := response.headers ++ headers }

@[simp] theorem status_withHeaders (headers : List (String × String)) (response : Response) :
    (response.withHeaders headers).status = response.status := rfl

@[simp] theorem body_withHeaders (headers : List (String × String)) (response : Response) :
    (response.withHeaders headers).body = response.body := rfl

/-- A header of a response, the last one if there are several of its name. -/
def header? (name : String) (response : Response) : Option String :=
  lastValue? name response.headers

end Response

end Calculator.Http
