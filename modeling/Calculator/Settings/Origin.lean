/-
**Origins.**

The origins from which browsers may ask are configured as a list and as one more origin, that of the
calculator's own pages.  Slashes at the end of an origin do not count, and an origin is listed once,
at the place of its first spelling.

Main definitions:

* `Calculator.Origin.cleaned` — an origin without the slashes at its end;
* `Calculator.Origin.resolve` — the origins that a configuration allows.

Main results:

* `Calculator.Origin.mem_resolve` — an origin is allowed exactly if a configured origin that is not
  empty is cleaned to it.
-/

import Calculator.Text.Ends

namespace Calculator.Origin

/-- An origin without the slashes at its end. -/
def cleaned (origin : String) : String := String.ofList (trimRight '/' origin.toList)

/-- The origins that are configured: the list, and then the one of the pages. -/
def configured (origins : List String) (frontend : Option String) : List String :=
  origins ++ frontend.toList

/-- The origins that a configuration allows: each origin that is not empty, cleaned, and once. -/
def resolve (origins : List String) (frontend : Option String) : List String :=
  (((configured origins frontend).filter (· ≠ "")).map cleaned).eraseDups

/-- An origin is allowed exactly if a configured origin that is not empty is cleaned to it. -/
theorem mem_resolve {origins : List String} {frontend : Option String} {origin : String} :
    origin ∈ resolve origins frontend ↔
      ∃ o ∈ configured origins frontend, o ≠ "" ∧ cleaned o = origin := by
  simp [resolve, and_assoc]

end Calculator.Origin
