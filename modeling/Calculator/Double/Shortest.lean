/-
**Doubles and decimals.**

A decimal is read as the double nearest to it.  Many decimals are read as the same double; the one
that stands for it in print has the fewest digits, and is the nearest of those.  It is found on
successively finer grids of powers of ten: if a grid holds any decimal that reads back, then one of
the two grid points around the exact value does.

Main definitions:

* `Calculator.Double.ofDecimal` — the double nearest to a decimal;
* `Calculator.Magnitude.exact` — the exact value as a decimal;
* `Calculator.Magnitude.ReadsBack` — a decimal is read as this magnitude;
* `Calculator.Magnitude.onGrid?` — the nearest decimal on a grid among the two neighbours that read
  back;
* `Calculator.Magnitude.shortest` — the decimal with the fewest digits that reads back.

Main results:

* `Calculator.Magnitude.readsBack_exact` — the exact value reads back;
* `Calculator.Magnitude.readsBack_shortest` — so does the shortest decimal;
* `Calculator.Magnitude.ReadsBack.ofDecimal_eq` — what reads back is read as the same double.
-/

import Calculator.Double.Rounding
import Calculator.Decimal.Basic

namespace Calculator

-- Powers are the ones of the numbers themselves, also where more general ones are at hand.
attribute [local instance (high)] instPowNat

/-! ### Reading -/

/-- The double nearest to a decimal; beyond the finite range that is an infinity. -/
def Double.ofDecimal (negative : Bool) (d : Decimal) : Double :=
  rounded negative (d.numerator * unitsPerOne) d.denominator

namespace Magnitude

/-! ### Exact values -/

/-- The exact value: `2 ^ (-n)` is `5 ^ n * 10 ^ (-n)`. -/
def exact (m : Magnitude) : Decimal := ⟨m.units * 5 ^ unitPlaces, -unitPlaces⟩

/-- The decimal is read as this magnitude. -/
def ReadsBack (m : Magnitude) (d : Decimal) : Prop :=
  nearestUnits (d.numerator * unitsPerOne) d.denominator = m.units

instance (m : Magnitude) (d : Decimal) : Decidable (m.ReadsBack d) :=
  inferInstanceAs (Decidable (_ = _))

/-- What reads back as a magnitude is read as the double that has it. -/
theorem ReadsBack.ofDecimal_eq {m : Magnitude} {d : Decimal} (h : m.ReadsBack d)
    (negative : Bool) : Double.ofDecimal negative d = .finite negative m := by
  have hm : nearestUnits (d.numerator * unitsPerOne) d.denominator < overflowUnits :=
    h ▸ m.bounded
  unfold Double.ofDecimal Double.rounded
  rw [dif_pos hm]
  exact congrArg _ (Magnitude.ext h)

/-- The exact value reads back. -/
theorem readsBack_exact (m : Magnitude) : m.ReadsBack m.exact := by
  have hp (n : Nat) : 5 ^ n * 2 ^ n = 10 ^ n := (Nat.mul_pow 5 2 n).symm
  have hn : m.exact.numerator * unitsPerOne = m.units * 10 ^ unitPlaces := by
    simp [exact, Decimal.numerator, unitsPerOne, Nat.mul_assoc, hp]
  have hd : m.exact.denominator = 10 ^ unitPlaces := by
    simp [exact, Decimal.denominator]
  rw [ReadsBack, hn, hd]
  exact nearestUnits_mul m.aligned (Nat.pow_pos (by decide))

/-! ### Shortest decimals -/

/-- On the grid that drops the last `drop` digits of the exact value, the nearer of the two
neighbours that reads back.  Of two equally near ones the even one is preferred. -/
def onGrid? (m : Magnitude) (drop : Nat) : Option Decimal :=
  let coefficient := m.exact.coefficient
  let below := coefficient / 10 ^ drop
  let near := roundEven coefficient (10 ^ drop)
  let far := if near = below then below + 1 else below
  [near, far].map (⟨·, m.exact.exponent + drop⟩) |>.find? (m.ReadsBack ·)

theorem readsBack_of_onGrid? {m : Magnitude} {drop : Nat} {d : Decimal}
    (h : m.onGrid? drop = some d) : m.ReadsBack d := by
  have hd : decide (m.ReadsBack d) = true := List.find?_some (p := fun x => decide _) h
  exact of_decide_eq_true hd

/-- The most digits that are needed to tell doubles apart. -/
def maxDigits : Nat := 17

/-- The decimal with the fewest digits that reads back, the nearest of those.  The grids run from
the power of ten above the value to seventeen digits, which always suffice. -/
def shortest (m : Magnitude) : Decimal :=
  let length := m.exact.digits.length
  ((List.range (maxDigits + 1)).findSome? fun kept => m.onGrid? (length - kept)).getD m.exact

/-- **The shortest decimal reads back.** -/
theorem readsBack_shortest (m : Magnitude) : m.ReadsBack m.shortest := by
  unfold shortest
  dsimp only
  cases h : (List.range (maxDigits + 1)).findSome?
      fun kept => m.onGrid? (m.exact.digits.length - kept) with
  | none => exact m.readsBack_exact
  | some d =>
      obtain ⟨_, _, hd⟩ := List.exists_of_findSome?_eq_some h
      exact readsBack_of_onGrid? hd

end Magnitude

end Calculator
