/-
**Decimal arithmetic of limited precision.**

Decimals are computed with in a context, which holds numbers of so many digits and of exponents in a
range.  A result with more digits is rounded; a result that is asked for with so many places is
refused if it would have more digits; and results out of the range are refused.  Very small results
are refused as well, where a context could also hold them with fewer digits: they do not arise here.

Main definitions:

* `Calculator.Decimal.Rounding` — how a quotient is rounded;
* `Calculator.Decimal.Context` — the limits, and `Calculator.Decimal.Context.Holds` — what they let
  through;
* `Calculator.Decimal.Context.shift` — a decimal times a power of ten;
* `Calculator.Decimal.Context.quantize` — a decimal with the given number of places;
* `Calculator.Decimal.fixedText` — a decimal written without an exponent.

Main results:

* `Calculator.Decimal.Context.shift_eq` — shifting is exact as long as the digits fit;
* `Calculator.Decimal.Context.quantize_eq` — nothing that fits is refused;
* `Calculator.Decimal.quotient_down`, `Calculator.Decimal.quotient_halfUp` — the roundings as
  floors.
-/

import Calculator.Proofs.Decimal.Value
import Calculator.Double.Rounding
import Calculator.Text.Ends

set_option relaxedAutoImplicit false
set_option autoImplicit false

namespace Calculator.Decimal

attribute [local instance (high)] instPowNat

/-! ### Roundings -/

/-- How a quotient is rounded: digits are cut off, or a half goes away from zero, or it goes to the
even neighbour. -/
inductive Rounding where
  | down
  | halfUp
  | halfEven
  deriving DecidableEq

/-- The rounded quotient. -/
def Rounding.quotient : Rounding → Nat → Nat → Nat
  | down, num, den => num / den
  | halfUp, num, den => (2 * num + den) / (2 * den)
  | halfEven, num, den => roundEven num den

/-! ### Contexts -/

/-- The limits of an arithmetic. -/
structure Context where
  /-- The most digits of a result. -/
  precision : Nat
  /-- The largest leading exponent, and with a minus sign the smallest. -/
  maxExponent : Nat
  deriving DecidableEq

namespace Context

/-- The decimal is within the limits. -/
def Holds (context : Context) (d : Decimal) : Prop :=
  d.digits.length ≤ context.precision ∧ d.leadingExponent.natAbs ≤ context.maxExponent

instance (context : Context) (d : Decimal) : Decidable (context.Holds d) :=
  inferInstanceAs (Decidable (_ ∧ _))

/-- A decimal rounded to the digits that there are; a carry into one more digit drops the last. -/
def rounded (context : Context) (d : Decimal) : Decimal :=
  if d.digits.length ≤ context.precision then d
  else
    let excess := d.digits.length - context.precision
    let kept := Rounding.halfEven.quotient d.coefficient (10 ^ excess)
    if kept < 10 ^ context.precision then ⟨kept, d.exponent + excess⟩
    else ⟨kept / 10, d.exponent + excess + 1⟩

/-- A decimal times a power of ten, which is rounded if it has too many digits and refused out of
the range. -/
def shift (context : Context) (places : Int) (d : Decimal) : Option Decimal :=
  let result := context.rounded ⟨d.coefficient, d.exponent + places⟩
  if places.natAbs ≤ 2 * (context.maxExponent + context.precision) ∧
      result.leadingExponent.natAbs ≤ context.maxExponent then some result
  else none

/-- A decimal with the given number of places, which is refused if it has too many digits. -/
def quantize (context : Context) (rounding : Rounding) (places : Nat) (d : Decimal) :
    Option Decimal :=
  let result : Decimal :=
    ⟨rounding.quotient (d.numerator * 10 ^ places) d.denominator, -places⟩
  if places < context.maxExponent + context.precision ∧ context.Holds result then some result
  else none

variable {context : Context} {d : Decimal}

/-- **Shifting is exact** as long as the digits fit. -/
theorem shift_eq {places : Int} (h : context.Holds ⟨d.coefficient, d.exponent + places⟩)
    (hplaces : places.natAbs ≤ 2 * (context.maxExponent + context.precision)) :
    context.shift places d = some ⟨d.coefficient, d.exponent + places⟩ := by
  have hexact : context.rounded ⟨d.coefficient, d.exponent + places⟩ =
      ⟨d.coefficient, d.exponent + places⟩ := if_pos h.1
  unfold shift
  dsimp only
  rw [hexact]
  exact if_pos ⟨hplaces, h.2⟩

/-- **Nothing that fits is refused.** -/
theorem quantize_eq {rounding : Rounding} {places count : Nat}
    (hcount : rounding.quotient (d.numerator * 10 ^ places) d.denominator = count)
    (h : context.Holds ⟨count, -places⟩) (hplaces : places < context.maxExponent) :
    context.quantize rounding places d = some ⟨count, -places⟩ := by
  unfold quantize
  rw [hcount]
  exact if_pos ⟨Nat.lt_add_right _ hplaces, h⟩

end Context

/-! ### Roundings of values -/

variable {d : Decimal}

theorem value_mul_pow (places : Nat) (d : Decimal) :
    d.value * 10 ^ places = ((d.numerator * 10 ^ places : Nat) : ℚ) / d.denominator := by
  rw [value_eq_div]
  push_cast
  ring

/-- Cutting digits off is the floor. -/
theorem quotient_down (places : Nat) (d : Decimal) :
    Rounding.down.quotient (d.numerator * 10 ^ places) d.denominator =
      ⌊d.value * 10 ^ places⌋₊ := by
  rw [value_mul_pow, Nat.floor_div_eq_div]
  rfl

/-- Rounding a half away from zero is that of displays. -/
theorem quotient_halfUp (places : Nat) (d : Decimal) :
    Rounding.halfUp.quotient (d.numerator * 10 ^ places) d.denominator =
      d.roundHalfUp places := by
  rw [Rounding.quotient, roundHalfUp, Nat.mul_assoc]

/-- One more place is a zero. -/
theorem quotient_halfEven_succ (n places : Nat) :
    Rounding.halfEven.quotient (numerator ⟨n, -places⟩ * 10 ^ (places + 1))
      (denominator ⟨n, -places⟩) = n * 10 := by
  have hsplit : n * 10 ^ (places + 1) = n * 10 * 10 ^ places := by
    rw [Nat.pow_succ]
    ring
  rw [numerator_mk_neg, denominator_mk_neg, hsplit]
  exact roundEven_mul _ (Nat.pow_pos (by omega))

/-! ### Decimals in text -/

/-- A decimal without an exponent: the whole part, and behind a point as many places as it has. -/
def fixedText (d : Decimal) : List Char :=
  let whole := Nat.toDigits 10 (d.numerator / d.denominator)
  let places := (-d.exponent).toNat
  if places = 0 then whole
  else whole ++ '.' :: padLeft places '0' (Nat.toDigits 10 (d.numerator % d.denominator))

theorem fixedText_eq (n : Nat) {places : Nat} (h : 0 < places) :
    fixedText ⟨n, -places⟩ = Nat.toDigits 10 (n / 10 ^ places) ++
      '.' :: padLeft places '0' (Nat.toDigits 10 (n % 10 ^ places)) := by
  unfold fixedText
  have hplaces : (- -(places : Int)).toNat = places := by omega
  dsimp only
  rw [numerator_mk_neg, denominator_mk_neg, hplaces, if_neg h.ne']

end Calculator.Decimal
