/-
**Arithmetic on doubles.**

Each operation on finite numbers is exact arithmetic followed by one rounding.  The remaining
cases are those of the format: infinities of unlike sign cancel to NaN, zero times infinity and
zero by zero are NaN, and a non-zero number divided by zero is an infinity whose sign is the
product of the two signs.

Main definitions:

* `Calculator.Double.add`, `Calculator.Double.sub`, `Calculator.Double.mul`,
  `Calculator.Double.div`, with their operator instances.
-/

import Calculator.Double.Rounding

namespace Calculator

namespace Double

/-! ### Sums -/

/-- The sum.  An exact sum of zero is `-0` only if both operands carry a minus sign. -/
def add : Double → Double → Double
  | .nan, _ => .nan
  | _, .nan => .nan
  | .infinite s, .infinite t => if s = t then .infinite s else .nan
  | .infinite s, .finite _ _ => .infinite s
  | .finite _ _, .infinite t => .infinite t
  | .finite s a, .finite t b =>
      let sum := signed s a.units + signed t b.units
      if sum = 0 then zero (s && t) else rounded (sum < 0) sum.natAbs 1

instance : Add Double := ⟨add⟩

/-- The difference is the sum with the opposite. -/
def sub (v w : Double) : Double := v + -w

instance : Sub Double := ⟨sub⟩

@[simp] theorem sub_eq_add_neg (v w : Double) : v - w = v + -w := rfl

/-! ### Products and quotients -/

/-- The product. -/
def mul : Double → Double → Double
  | .nan, _ => .nan
  | _, .nan => .nan
  | .infinite s, .infinite t => .infinite (s != t)
  | .infinite s, .finite t b => if b.units = 0 then .nan else .infinite (s != t)
  | .finite s a, .infinite t => if a.units = 0 then .nan else .infinite (s != t)
  | .finite s a, .finite t b => rounded (s != t) (a.units * b.units) unitsPerOne

instance : Mul Double := ⟨mul⟩

/-- The quotient. -/
def div : Double → Double → Double
  | .nan, _ => .nan
  | _, .nan => .nan
  | .infinite _, .infinite _ => .nan
  | .infinite s, .finite t _ => .infinite (s != t)
  | .finite s _, .infinite t => zero (s != t)
  | .finite s a, .finite t b =>
      if b.units = 0 then
        if a.units = 0 then .nan else .infinite (s != t)
      else
        rounded (s != t) (a.units * unitsPerOne) b.units

instance : Div Double := ⟨div⟩

/-! ### NaN spreads -/

@[simp] theorem nan_add (v : Double) : Double.nan + v = Double.nan := by cases v <;> rfl
@[simp] theorem add_nan (v : Double) : v + Double.nan = Double.nan := by cases v <;> rfl
@[simp] theorem nan_mul (v : Double) : Double.nan * v = Double.nan := by cases v <;> rfl
@[simp] theorem mul_nan (v : Double) : v * Double.nan = Double.nan := by cases v <;> rfl
@[simp] theorem nan_div (v : Double) : Double.nan / v = Double.nan := by cases v <;> rfl
@[simp] theorem div_nan (v : Double) : v / Double.nan = Double.nan := by cases v <;> rfl

/-! ### Division by zero -/

/-- Nothing divided by nothing is no number. -/
theorem zero_div_zero (s t : Bool) : zero s / zero t = .nan := rfl

/-- Anything else finite divided by zero is infinite, the signs multiplying. -/
theorem finite_div_zero (s t : Bool) {a : Magnitude} (h : a.units ≠ 0) :
    Double.finite s a / zero t = .infinite (s != t) := by
  show div (.finite s a) (.finite t .zero) = _
  simp [div, h]

end Double

end Calculator
