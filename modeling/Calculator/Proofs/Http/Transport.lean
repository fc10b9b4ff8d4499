/-
**Expressions on the way to the calculator and back.**

An expression is sent in a query, with percent signs for its bytes.  It arrives as it was sent,
whatever characters it is made of, so that the answer repeats it and is the one of the service.  The
limit of the service counts characters and not bytes; beyond it both addresses refuse the expression
alike.

Main results:

* `Calculator.Http.Request.expression?_asking` — an expression arrives as it was sent;
* `Calculator.Http.App.exists_app_of_limit` — every limit can be set;
* `Calculator.Http.App.serve_asking` — what is asked for is answered in every state of the
  application;
* `Calculator.Http.App.transports` — **expressions are transported faithfully**.
-/

import Calculator.Proofs.Http.Encoding
import Calculator.Proofs.Http.Isolation
import Calculator.Proofs.Settings.Limit

set_option relaxedAutoImplicit false
set_option autoImplicit false

namespace Calculator.Http

/-- A request for what is found at a path, with an encoded expression. -/
def Request.asking (keep : Char → Bool) (path expression : String)
    (headers : List (String × String)) : Request :=
  ⟨"GET", path, "query=" ++ percentEncode keep expression, headers⟩

/-- An expression arrives as it was sent. -/
theorem Request.expression?_asking {keep : Char → Bool}
    (hkeep : ∀ c, keep c = true → IsPlainChar c) (path expression : String)
    (headers : List (String × String)) :
    (Request.asking keep path expression headers).expression? = some expression := by
  have hplain : "query".toList.all (fun c => decide (IsPlainChar c ∧ c ≠ '=')) = true := by decide
  have hfields := formFields_percentEncode hkeep "query"
    (fun c hc => of_decide_eq_true (List.all_eq_true.1 hplain c hc)) expression
  change lastValue? "query" (formFields ("query" ++ "=" ++ percentEncode keep expression)) = _
  rw [hfields]
  rfl

/-- No request of this method is a preflight. -/
theorem not_isPreflight_asking (keep : Char → Bool) (path expression : String)
    (headers : List (String × String)) :
    ¬ Cors.IsPreflight (Request.asking keep path expression headers) := by
  rintro ⟨hmethod, -⟩
  have hne : "GET" ≠ "OPTIONS" := by decide
  exact hne hmethod

namespace App

/-- The limit that a variable sets, in whatever case its name is written, is the limit of the
service. -/
theorem readInteger_of_ofEnvironment {framework : Framework}
    {environment : Environment} {app : App} {text : String}
    (made : ofEnvironment framework environment = .ok app)
    (hset : environment.find? "CALC_MAX_EXPRESSION_LENGTH" = some text) :
    readInteger text = .ok app.service.maxLength := by
  have hname : Environment.folded "CALC_MAX_EXPRESSION_LENGTH" =
      Environment.folded Settings.limitSetting := by decide
  rw [Environment.find?, hname] at hset
  exact Settings.readInteger_of_build (ofEnvironment_eq_ok_iff.1 made).1 hset

/-- With every limit that can be set there is an application. -/
theorem exists_app_of_limit (framework : Framework) {limit : Nat} (hpos : 0 < limit)
    (h : (toString limit).length ≤ maxNumeralLength) :
    ∃ app, ofEnvironment framework ⟨[("CALC_MAX_EXPRESSION_LENGTH", toString limit)]⟩ = .ok app ∧
      app.service.maxLength = limit := by
  obtain ⟨settings, hbuild, hlimit, hlevel, htitle, hversion⟩ : ∃ settings,
      Settings.build ⟨[("CALC_MAX_EXPRESSION_LENGTH", toString limit)]⟩ [] = .ok settings ∧
        settings.maxExpressionLength = limit ∧ settings.logLevel = "INFO" ∧
        settings.apiTitle ≠ "" ∧ settings.apiVersion ≠ "" :=
    ⟨_, Settings.build_of_limit hpos h, rfl, rfl, by simp, by simp⟩
  obtain ⟨routing, hrouting⟩ : ∃ routing, Log.Routing.ofLevel "INFO" = .ok routing := ⟨_, rfl⟩
  exact ⟨⟨settings, routing, framework⟩,
    ofEnvironment_eq_ok_iff.2 ⟨hbuild, hlevel ▸ hrouting, htitle, hversion, rfl⟩, hlimit⟩

/-- What is asked for in any state of the application is answered as it is found, whatever its
origin, and under the id that the header tells. -/
theorem serve_asking (app : App) (number : Nat) (context : Context) (keep : Char → Bool)
    {path : String} {found : Route} (hpath : Route.ofPath? path = some found)
    (hget : "GET" ∈ found.methods) (expression : String) (headers : List (String × String))
    (htold : (app.framework.path? (Request.asking keep path expression headers)).isSome) :
    let request := Request.asking keep path expression headers
    let response := (app.serve number context request).1.1
    ∃ id : RequestId, response.header? "x-request-id" = some id.text ∧
      response.status = (app.answer (some id) request found).1.status ∧
      response.body = (app.answer (some id) request found).1.body := by
  intro request response
  let id := RequestId.choose (request.header? idHeader) number
  have hroute : app.route (some id) request = app.answer (some id) request found := by
    have hfound : Route.ofPath? request.path = some found := hpath
    unfold route
    rw [hfound]
    exact if_pos hget
  obtain ⟨hstatus, hbody, -⟩ := @Cors.status_handle _ app.settings.resolvedOrigins
    (app.route (some id)) request (not_isPreflight_asking keep path expression headers)
  obtain ⟨told, htold⟩ := Option.isSome_iff_exists.1 htold
  have hserve : response = (app.recorded id told request).1 := by
    change (app.serve number context request).1.1 = _
    rw [fst_serve, exchange_of_some htold]
  rw [hroute] at hstatus hbody
  exact ⟨id, hserve ▸ app.header_recorded id told request, hserve ▸ hstatus, hserve ▸ hbody⟩

/-- **Expressions are transported faithfully.**  Whatever characters an expression is made of, and
whichever of them were encoded, both addresses answer with the expression as it was sent and with
what the service makes of it, unless it has more characters than the limit that was set.  Then both
refuse it alike, and tell its length and the id of the request.  The headers may be any with which
the framework finds a path in the address. -/
theorem transports {framework : Framework} {environment : Environment} {app : App}
    (made : ofEnvironment framework environment = .ok app) {keep : Char → Bool}
    (hkeep : ∀ c, keep c = true → IsPlainChar c) (expression : String)
    (headers : List (String × String))
    (htold : ∀ path ∈ ["/calc", "/calc/preview"],
      (framework.path? (Request.asking keep path expression headers)).isSome)
    (number : Nat) (context : Context) :
    let limit := app.service.maxLength
    let response := fun path =>
      (app.serve number context (Request.asking keep path expression headers)).1.1
    (∀ text, environment.find? "CALC_MAX_EXPRESSION_LENGTH" = some text →
      readInteger text = .ok limit) ∧
    (expression.length ≤ limit →
      ∃ evaluation shown, (app.service.evaluate expression).1 = .ok evaluation ∧
        (app.service.preview expression).1 = .ok shown ∧
        (response "/calc").status = 200 ∧
        (response "/calc").body = .json (.object [("expression", .string expression),
          ("result", .string evaluation.result), ("formatted", .string evaluation.formatted),
          ("isError", .bool evaluation.isError)]) ∧
        (response "/calc/preview").status = 200 ∧
        (response "/calc/preview").body = .json (.object [("expression", .string expression),
          ("preview", .string shown.preview)])) ∧
    (limit < expression.length → ∀ path ∈ ["/calc", "/calc/preview"],
      (response path).status = 400 ∧
      ∃ id, (response path).header? "x-request-id" = some id ∧
        (response path).body = .json (.object [("error", .object [
          ("type", .string "CALCULATOR_ERROR"),
          ("message", .string ("Expression exceeds " ++ toString limit ++ " characters.")),
          ("details", .object [("length", .ofNat expression.length)]),
          ("traceId", .string id)])])) := by
  intro limit response
  obtain rfl : app.framework = framework := (ofEnvironment_eq_ok_iff.1 made).2.2.2.2
  simp only [List.forall_mem_cons, List.not_mem_nil, false_imp_iff, implies_true,
    and_true] at htold
  -- both addresses are asked for the same expression, and each answers under an id of its own
  have hexpression := fun path => Request.expression?_asking hkeep path expression headers
  obtain ⟨id, hid, hstatus, hbody⟩ := app.serve_asking number context keep
    (show Route.ofPath? "/calc" = some .evaluate by rfl) (by decide) expression headers htold.1
  obtain ⟨id', hid', hstatus', hbody'⟩ := app.serve_asking number context keep
    (show Route.ofPath? "/calc/preview" = some .preview by rfl) (by decide) expression headers
    htold.2
  dsimp only [answer] at hstatus hbody hstatus' hbody'
  rw [hexpression] at hstatus hbody hstatus' hbody'
  dsimp only at hstatus hbody hstatus' hbody'
  refine ⟨fun text hset => readInteger_of_ofEnvironment made hset, ?_, ?_⟩
  · intro hle
    have hshort : ¬ app.service.Overlong expression := Int.not_lt.2 hle
    obtain ⟨evaluation, shown, he, hp, hagree⟩ := Service.exists_answers hshort
    rw [replyResponse, he] at hstatus hbody
    rw [replyResponse, hp] at hstatus' hbody'
    have hevaluation : evaluationJson evaluation = .object [("expression", .string expression),
        ("result", .string evaluation.result), ("formatted", .string evaluation.formatted),
        ("isError", .bool evaluation.isError)] := by
      rw [evaluationJson, hagree.evaluation_expression]
    have hshown : previewJson shown = .object [("expression", .string expression),
        ("preview", .string shown.preview)] := by
      rw [previewJson, hagree.preview_expression]
    exact ⟨evaluation, shown, he, hp, hstatus, hbody.trans (congrArg Body.json hevaluation),
      hstatus', hbody'.trans (congrArg Body.json hshown)⟩
  · intro hlt
    rw [Service.evaluate_of_overlong hlt] at hstatus hbody
    rw [Service.preview_of_overlong hlt] at hstatus' hbody'
    simp only [List.forall_mem_cons, List.not_mem_nil, false_imp_iff, implies_true, and_true]
    exact ⟨⟨hstatus, id.text, hid, hbody⟩, ⟨hstatus', id'.text, hid', hbody'⟩⟩

/-- At a limit of five, five characters of seven bytes are answered and six are refused. -/
theorem transports_at_limit :
    let asked := fun path expression => Request.asking (fun _ => false) path expression []
    ∃ app, ofEnvironment .plain ⟨[("calc_max_expression_length", " +5 ")]⟩ = .ok app ∧
      app.service.maxLength = 5 ∧
      (app.serve 0 .empty (asked "/calc" "π×&%+")).1.1.status = 200 ∧
      (app.serve 1 .empty (asked "/calc/preview" "π×&%+=")).1.1.status = 400 := by
  intro asked
  refine ⟨_, rfl, ?_⟩
  generalize happ : App.mk _ _ _ = app
  have made : ofEnvironment .plain ⟨[("calc_max_expression_length", " +5 ")]⟩ = .ok app :=
    congrArg Except.ok happ
  have hkeep : ∀ c : Char, (fun _ => false) c = true → IsPlainChar c := by simp
  obtain ⟨hset, hwithin, -⟩ := transports made hkeep "π×&%+" [] (by decide) 0 .empty
  obtain ⟨-, -, hbeyond⟩ := transports made hkeep "π×&%+=" [] (by decide) 1 .empty
  have hlimit : app.service.maxLength = 5 := Except.ok.inj ((hset " +5 " rfl).symm.trans rfl)
  obtain ⟨_, _, -, -, hstatus, -⟩ := hwithin (by rw [hlimit]; decide)
  obtain ⟨hstatus', -⟩ := hbeyond (by rw [hlimit]; decide) "/calc/preview" (by simp)
  dsimp only [asked] at hstatus hstatus' ⊢
  exact ⟨hlimit, hstatus, hstatus'⟩

end App

end Calculator.Http
