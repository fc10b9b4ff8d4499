/-
**The environment.**

An environment holds named texts in the order in which the names were first set.  Settings are
looked up in it without regard to case; if a name is there in several spellings, the last one
counts.

Main definitions:

* `Calculator.Environment` — names with their texts;
* `Calculator.Environment.set`, `Calculator.Environment.unset` — changing it, by exact name;
* `Calculator.Environment.find?` — looking up a name in any case.

Main results:

* `Calculator.Environment.find?_unset_of_ne` — removing a name does not touch the other names.
-/

namespace Calculator

/-- Names with their texts, in the order in which the names were first set. -/
structure Environment where
  entries : List (String × String)
  deriving DecidableEq

namespace Environment

/-- Nothing is set. -/
def empty : Environment := ⟨[]⟩

/-- Sets a name.  A name that is set already keeps its place. -/
def set (name value : String) (environment : Environment) : Environment :=
  if environment.entries.any (·.1 = name) then
    ⟨environment.entries.map fun v => if v.1 = name then (name, value) else v⟩
  else
    ⟨environment.entries ++ [(name, value)]⟩

/-- Sets names in order. -/
def setAll (pairs : List (String × String)) (environment : Environment) : Environment :=
  pairs.foldl (fun e v => e.set v.1 v.2) environment

/-- Removes a name, if it is set. -/
def unset (name : String) (environment : Environment) : Environment :=
  ⟨environment.entries.filter (·.1 ≠ name)⟩

/-- A name without regard to case.  The names that are looked up are ASCII, so that the case of
other letters does not matter. -/
def folded (name : String) : List Char := name.toList.map Char.toLower

/-- The text of a name in any case, the last one if there are several spellings. -/
def find? (name : String) (environment : Environment) : Option String :=
  (environment.entries.reverse.find? fun v => folded v.1 = folded name).map (·.2)

@[simp] theorem find?_empty (name : String) : empty.find? name = none := rfl

/-- Removing a name does not touch the other names. -/
theorem find?_unset_of_ne {name other : String} (h : folded other ≠ folded name)
    (environment : Environment) : (environment.unset other).find? name = environment.find? name := by
  unfold find? unset
  congr 1
  rw [← List.filter_reverse, List.find?_filter]
  congr 1
  funext v
  by_cases hv : folded v.1 = folded name
  · have : v.1 ≠ other := by
      rintro rfl; exact h hv
    simp [hv, this]
  · simp [hv]

end Environment

end Calculator
