/-
**What is assumed of the web framework.**

The application is served by a web framework, which is no part of it.  Where the application depends
on something that the framework decides, that is a field of `Framework`, and nothing is assumed of
it.  The rest is assumed to be as the framework documents it:

* a path is found if it is, up to one line feed at its end, the one that was declared; a path with
  slashes at its end leads to the one without; what is found is answered for its methods only
  (`App.route`);
* besides what is declared the framework serves pages of its own (`OwnPage`), and it refuses to make
  an application without a title or without a version (`App.ofEnvironment`);
* the fields of a query are decoded as those of a form (`formFields`);
* a browser's questions about origins are answered by a layer around the routes (`Cors.handle`);
* the layer that gives a request its id stands around all others, so that it sees every response.
  What it calls runs in a copy of its context: the id is read there, and nothing that is set there
  comes back;
* a failure that a handler is registered for is answered by it, and one that leaves all layers is
  answered by the server itself, with nothing added (`Response.failed`).

An address is made for a request from the host that it names, its path and its query, and the path
is recorded as it is found in that address.  A host may be such that the address cannot be taken
apart again.

Main definitions:

* `Calculator.Http.OwnPage` — the pages that the framework serves;
* `Calculator.Http.Framework` — what the framework decides;
* `Calculator.Http.Framework.path?` — the path that is found in the address of a request;
* `Calculator.Http.Framework.plain` — a framework that takes hosts as they are.
-/

import Calculator.Http.Message
import Calculator.Settings.Basic

namespace Calculator.Http

/-! ### Pages -/

/-- The pages that the framework serves besides those of the application: a description of the
application for programs, and pages that show it to people. -/
inductive OwnPage where
  | schema
  | docs
  | docsRedirect
  | redoc
  deriving DecidableEq

/-- The content type of a page. -/
def OwnPage.contentType : OwnPage → String
  | .schema => "application/json"
  | .docs | .docsRedirect | .redoc => "text/html; charset=utf-8"

/-! ### What the framework decides -/

/-- What the framework decides. -/
structure Framework where
  /-- The address of a host, a path and a query; a request may name no host. -/
  address : Option String → String → String → String
  /-- The path in an address, unless the address cannot be taken apart. -/
  pathOf? : String → Option String
  /-- The content of a page for an application with given settings. -/
  content : OwnPage → Settings → String
  /-- The methods that are named where a page is asked for with another one. -/
  pageMethods : String

namespace Framework

/-- The path that is found in the address of a request. -/
def path? (framework : Framework) (request : Request) : Option String :=
  framework.pathOf? (framework.address (request.header? "host") request.path request.query)

/-- The page as it is sent. -/
def page (framework : Framework) (settings : Settings) (page : OwnPage) : Response where
  status := 200
  headers := [("content-type", page.contentType)]
  body := .text (framework.content page settings)

/-! ### Hosts as they are -/

/-- What stands for a character of a path in an address: the marks after which a path would end have
percent signs. -/
def addressChar (c : Char) : List Char :=
  if c = '?' then ['%', '3', 'F'] else if c = '#' then ['%', '2', '3'] else [c]

/-- The beginning of every address. -/
def scheme : String := "http://"

/-- The address of a host as it is named, a path and a query. -/
def plainAddress (host : Option String) (path query : String) : String :=
  scheme ++ host.getD "testserver" ++ String.ofList (path.toList.flatMap addressChar) ++
    if query = "" then "" else "?" ++ query

/-- The path in an address, from the end of the host to that of the path.  Tabs and line breaks are
left out.  The host may not have a bracket of one kind only. -/
def plainPath? (address : String) : Option String :=
  let chars := address.toList.filter fun c => c ≠ '\t' ∧ c ≠ '\n' ∧ c ≠ '\r'
  let rest := chars.drop scheme.length
  let host := rest.takeWhile fun c => c ≠ '/' ∧ c ≠ '?' ∧ c ≠ '#'
  if '[' ∈ host ↔ ']' ∈ host then
    some (String.ofList ((rest.drop host.length).takeWhile fun c => c ≠ '?' ∧ c ≠ '#'))
  else none

/-- A framework that takes hosts as they are.  What it would say about a host between brackets that
is no address of a machine is left out, and so is the content of its pages. -/
def plain : Framework where
  address := plainAddress
  pathOf? := plainPath?
  content _ _ := ""
  pageMethods := "GET, HEAD"

end Framework

/-- The answer to a request whose handling has failed. -/
def Response.failed : Response := .ofText 500 "Internal Server Error"

end Calculator.Http
