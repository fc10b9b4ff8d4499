/-
**Origins of slashes only.**

An origin that is empty is not looked at.  An origin that consists of slashes is, and nothing is
left of it when it is cleaned: what is listed is the empty origin.  It is the only blank that can be
listed, and it would not be listed again if the list were the configuration.  With it the list is
not empty, and so origins are spoken of although none is allowed; only where every configured origin
is empty does the application not speak of them at all.

Main results:

* `Calculator.Origin.empty_mem_resolve_iff` — when the empty origin is listed;
* `Calculator.Origin.resolve_resolve` — what is listed of what is listed;
* `Calculator.Http.Cors.handle_eq_route_iff` — when the application does not speak of origins;
* `Calculator.Http.App.blank_origins` — **what becomes of blank origins**.
-/

import Calculator.Proofs.Http.Origins
import Calculator.Proofs.Settings.Resolution

set_option relaxedAutoImplicit false
set_option autoImplicit false

namespace Calculator

namespace Origin

/-! ### Blanks in the list -/

theorem yields_empty_iff {written : String} :
    Yields written "" ↔ ∃ n, written.toList = List.replicate (n + 1) '/' := by
  constructor
  · rintro ⟨hne, -, n, hn⟩
    cases n with
    | zero => exact absurd (String.toList_eq_nil_iff.1 hn) hne
    | succ n => exact ⟨n, hn⟩
  · rintro ⟨n, hn⟩
    refine ⟨?_, by decide, n + 1, hn⟩
    rintro rfl
    cases hn

/-- The empty origin is listed exactly if an origin of slashes is configured. -/
theorem empty_mem_resolve_iff {origins : List String} {frontend : Option String} :
    "" ∈ resolve origins frontend ↔ ∃ written ∈ configured origins frontend,
      ∃ n, written.toList = List.replicate (n + 1) '/' := by
  simp only [mem_resolve_iff, yields_empty_iff]

/-- Nothing is listed exactly if every configured origin is empty. -/
theorem resolve_eq_nil_iff {origins : List String} {frontend : Option String} :
    resolve origins frontend = [] ↔ ∀ written ∈ configured origins frontend, written = "" := by
  rw [List.eq_nil_iff_forall_not_mem]
  constructor
  · intro h written hmem
    by_contra hne
    exact h (cleaned written) (mem_resolve.2 ⟨written, hmem, hne, rfl⟩)
  · intro h origin hmem
    obtain ⟨written, hwritten, hne, -⟩ := mem_resolve.1 hmem
    exact hne (h written hwritten)

/-- Clean origins are listed as they are, unless they are empty. -/
theorem foldl_added_of_clean {listed more : List String} (hnodup : (listed ++ more).Nodup)
    (hclean : ∀ origin ∈ more, origin.toList.getLast? ≠ some '/') :
    more.foldl added listed = listed ++ more.filter (· ≠ "") := by
  induction more generalizing listed with
  | nil => exact (List.append_nil _).symm
  | cons origin more ih =>
      obtain ⟨horigin, hmore⟩ := List.forall_mem_cons.1 hclean
      rw [List.append_cons] at hnodup
      by_cases hempty : origin = ""
      · have hsub : (listed ++ more).Sublist (listed ++ [origin] ++ more) :=
          (List.sublist_append_left listed [origin]).append_right more
        rw [List.foldl_cons, added_of_listed (.inl hempty), ih (hnodup.sublist hsub) hmore,
          List.filter_cons_of_neg (by simp [hempty])]
      · have hself : cleaned origin = origin :=
          cleaned_eq_iff.2 ⟨horigin, 0, (List.append_nil _).symm⟩
        have hnew : cleaned origin ∉ listed := by
          rw [hself]
          intro hmem
          exact (List.nodup_append.1 (List.nodup_append.1 hnodup).1).2.2 origin hmem origin
            List.mem_cons_self rfl
        rw [List.foldl_cons, added_of_new hempty hnew, hself, ih hnodup hmore,
          List.filter_cons_of_pos (by simp [hempty]), ← List.append_cons]

/-- What is listed is listed again in the same order, except for the empty origin. -/
theorem resolve_resolve (origins : List String) (frontend : Option String) :
    resolve (resolve origins frontend) none = (resolve origins frontend).filter (· ≠ "") := by
  have hlists : Lists (configured origins frontend) (resolve origins frontend) := by
    rw [resolve_eq_foldl]
    exact lists_nil.foldl _
  rw [resolve_eq_foldl, configured, Option.toList_none, List.append_nil]
  exact foldl_added_of_clean hlists.nodup hlists.getLast?_ne

end Origin

namespace Http

/-! ### Speaking of origins -/

/-- A preflight for the state of the service. -/
def healthPreflight : Request :=
  ⟨"OPTIONS", "/health", "", [("Origin", "https://a.example"),
    ("Access-Control-Request-Method", "GET")]⟩

theorem Cors.status_preflight_eq (origins : List String) (origin : String) (request : Request) :
    (preflight origins origin request).status = 200 ∨
      (preflight origins origin request).status = 400 := by
  cases h : refusedParts origins origin request with
  | nil =>
      rw [preflight_of_nil h]
      exact .inl rfl
  | cons part parts =>
      rw [preflight_of_cons h]
      exact .inr rfl

theorem App.status_route_healthPreflight (app : App) (id : Option RequestId) :
    (app.route id healthPreflight).1.status = 405 := by
  have hroute : Route.ofPath? healthPreflight.path = some .health := by decide
  have hmethod : healthPreflight.method ∉ Route.health.methods := by decide
  simp only [route, hroute, if_neg hmethod]
  rfl

/-- Nothing is ever said about origins exactly if none is listed. -/
theorem Cors.handle_eq_route_iff (origins : List String) (app : App) (id : Option RequestId) :
    (∀ request, handle origins (app.route id) request = app.route id request) ↔
      origins = [] := by
  constructor
  · intro h
    by_contra hne
    have horigin : healthPreflight.header? "origin" = some "https://a.example" := rfl
    have hpreflight := handle_of_isPreflight hne horigin (by decide) (app.route id)
    have hstatus := congrArg (·.1.status) ((h healthPreflight).symm.trans hpreflight)
    rw [app.status_route_healthPreflight] at hstatus
    rcases status_preflight_eq origins _ healthPreflight with hok | hrefused
    · exact absurd (hstatus.trans hok) (by decide)
    · exact absurd (hstatus.trans hrefused) (by decide)
  · rintro rfl request
    exact handle_nil

namespace App

/-- **What becomes of blank origins.**  The empty origin is listed exactly if an origin of slashes
is configured; what is listed is listed again, if it were configured, except for the empty origin;
and the application answers every request without regard to its origin exactly if every configured
origin is empty. -/
theorem blank_origins (app : App) (id : Option RequestId) :
    let configured := Origin.configured app.settings.corsOrigins app.settings.frontendOrigin
    let resolved := app.settings.resolvedOrigins
    ("" ∈ resolved ↔ ∃ written ∈ configured, ∃ n, written.toList = List.replicate (n + 1) '/') ∧
      Origin.resolve resolved none = resolved.filter (· ≠ "") ∧
        ((∀ request, Cors.handle resolved (app.route id) request = app.route id request) ↔
          ∀ written ∈ configured, written = "") :=
  ⟨Origin.empty_mem_resolve_iff, Origin.resolve_resolve _ _,
    (Cors.handle_eq_route_iff _ _ _).trans Origin.resolve_eq_nil_iff⟩

/-- With an origin that is a slash the empty origin is listed, it is not listed of that list again,
and a preflight is refused for its origin; with an empty origin nothing is listed, and the preflight
is a request with the wrong method. -/
theorem blank_origins_slash :
    ∃ app other : App,
      ofEnvironment .plain ⟨[("CORS_ORIGINS", "[\"/\"]")]⟩ = .ok app ∧
      ofEnvironment .plain ⟨[("CORS_ORIGINS", "[\"\"]")]⟩ = .ok other ∧
      app.settings.resolvedOrigins = [""] ∧ Origin.resolve [""] none = [] ∧
      other.settings.resolvedOrigins = [] ∧
      (app.serve 0 .empty healthPreflight).1.1.status = 400 ∧
      (other.serve 0 .empty healthPreflight).1.1.status = 405 := by
  refine ⟨_, _, rfl, rfl, ?_, ?_, ?_, ?_, ?_⟩
  · decide
  · decide
  · decide
  · decide +kernel
  · decide +kernel

end App

end Http

end Calculator
