/-
**Structured values.**

Settings, log records and answers are trees of names and values.  The members of an object keep the
order in which they were written; where a name is written twice the last value counts.

Main definitions:

* `Calculator.Json` — the trees;
* `Calculator.Json.find?` — a member of an object;
* `Calculator.lastValue?` — the last value of a name in a list of pairs.

Main results:

* `Calculator.lastValue?_append` — later pairs win.
-/

import Calculator.Double.Basic

namespace Calculator

/-! ### Trees -/

/-- A structured value.  A number is an integer of any size or a double. -/
inductive Json where
  | null
  | bool (value : Bool)
  | integer (value : Int)
  | real (value : Double)
  | string (value : String)
  | array (items : List Json)
  | object (members : List (String × Json))

/-- The tree of a natural number. -/
def Json.ofNat (n : Nat) : Json := .integer n

/-! ### Names -/

/-- The value of a name in a list of pairs, the last one if there are several. -/
def lastValue? {α : Type} (name : String) (pairs : List (String × α)) : Option α :=
  (pairs.reverse.find? (·.1 = name)).map (·.2)

@[simp] theorem lastValue?_nil {α : Type} (name : String) :
    lastValue? name ([] : List (String × α)) = none := rfl

/-- Later pairs win. -/
theorem lastValue?_append {α : Type} (name : String) (s t : List (String × α)) :
    lastValue? name (s ++ t) = (lastValue? name t).or (lastValue? name s) := by
  unfold lastValue?
  rw [List.reverse_append, List.find?_append]
  cases t.reverse.find? (·.1 = name) <;> rfl

/-- A member of an object. -/
def Json.find? (name : String) : Json → Option Json
  | .object members => lastValue? name members
  | _ => none

end Calculator
