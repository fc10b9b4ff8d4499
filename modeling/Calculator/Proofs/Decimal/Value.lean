/-
**The value of a decimal.**

A decimal is a rational number.  Rounding to a number of places is the floor of the value shifted
to those places and increased by a half, so that it preserves order and leaves alone what has no
further places; the leading exponent is the exponent of the power of ten at or below the value.

Main definitions:

* `Calculator.Decimal.value` — the rational number;
* `Calculator.Decimal.HasPlaces` — it has no more than so many decimal places.

Main results:

* `Calculator.Decimal.value_eq_div` — it is the numerator over the denominator;
* `Calculator.Decimal.roundHalfUp_eq_floor` — rounding half up as a floor;
* `Calculator.Decimal.zpow_leadingExponent_le`, `Calculator.Decimal.lt_zpow_leadingExponent` —
  **the leading exponent is that of the value**, and `Calculator.Decimal.leadingExponent_eq` — no
  other is.
-/

import Calculator.Decimal.Basic
import Mathlib.Data.Rat.Floor
import Mathlib.Algebra.Order.Floor.Semifield
import Mathlib.Algebra.Order.Field.Power
import Mathlib.Tactic.Linarith
import Mathlib.Tactic.Ring
import Mathlib.Tactic.Positivity
import Mathlib.Tactic.FieldSimp

set_option relaxedAutoImplicit false
set_option autoImplicit false

namespace Calculator.Decimal

attribute [local instance (high)] instPowNat

/-! ### The value -/

/-- The rational number that a decimal stands for. -/
def value (d : Decimal) : ℚ := d.coefficient * (10 : ℚ) ^ d.exponent

theorem value_nonneg (d : Decimal) : 0 ≤ d.value := by
  unfold value
  positivity

theorem value_mk_zero (n : Nat) : value ⟨n, 0⟩ = n := by
  rw [value, zpow_zero, mul_one]

/-- The value of a number of places after the point. -/
theorem value_mk_neg (n places : Nat) : value ⟨n, -places⟩ = n / (10 : ℚ) ^ places := by
  rw [value, zpow_neg, zpow_natCast, div_eq_mul_inv]

theorem value_mk_pow (n : Nat) (k : Int) : value ⟨10 ^ n, k⟩ = (10 : ℚ) ^ (n + k) := by
  rw [value, zpow_add₀ (by norm_num), zpow_natCast, Nat.cast_pow, Nat.cast_ofNat]

theorem numerator_mk_neg (n places : Nat) : numerator ⟨n, -places⟩ = n := by
  simp [numerator]

theorem denominator_mk_neg (n places : Nat) : denominator ⟨n, -places⟩ = 10 ^ places := by
  simp [denominator]

/-- The value is the numerator over the denominator. -/
theorem value_eq_div (d : Decimal) : d.value = d.numerator / d.denominator := by
  rw [value, numerator, denominator]
  push_cast
  rcases Int.le_total 0 d.exponent with h | h
  · obtain ⟨n, hn⟩ := Int.eq_ofNat_of_zero_le h
    rw [hn]
    simp
  · obtain ⟨n, hn⟩ := Int.eq_ofNat_of_zero_le (Int.neg_nonneg_of_nonpos h)
    have he : d.exponent = -(n : Int) := by omega
    rw [he]
    simp [zpow_neg, div_eq_mul_inv]

/-! ### Places -/

/-- There are no more decimal places than these. -/
def HasPlaces (places : Nat) (d : Decimal) : Prop := ∃ c : Nat, d.value = c / 10 ^ places

/-- A whole number has as few places as one likes. -/
theorem hasPlaces_of_whole {d : Decimal} {n : Nat} (h : d.value = n) (places : Nat) :
    d.HasPlaces places := by
  refine ⟨n * 10 ^ places, ?_⟩
  rw [h]
  push_cast
  rw [mul_div_cancel_right₀ _ (by positivity)]

/-! ### Rounding half up -/

section

variable {d e : Decimal} {places : Nat}

/-- Rounding half up as a floor. -/
theorem roundHalfUp_eq_floor (places : Nat) (d : Decimal) :
    d.roundHalfUp places = ⌊d.value * 10 ^ places + 1 / 2⌋₊ := by
  have hd : (d.denominator : ℚ) ≠ 0 := by exact_mod_cast d.denominator_pos.ne'
  have hq : d.value * 10 ^ places + 1 / 2 =
      ((2 * d.numerator * 10 ^ places + d.denominator : Nat) : ℚ) /
        ((2 * d.denominator : Nat) : ℚ) := by
    rw [value_eq_div]
    push_cast
    field_simp
  rw [hq, Nat.floor_div_eq_div]
  rfl

theorem roundHalfUp_mono (h : d.value ≤ e.value) : d.roundHalfUp places ≤ e.roundHalfUp places := by
  rw [roundHalfUp_eq_floor, roundHalfUp_eq_floor]
  refine Nat.floor_le_floor ?_
  have hp : (0 : ℚ) < 10 ^ places := by positivity
  have hm := mul_le_mul_of_nonneg_right h hp.le
  linarith

/-- Rounding depends on the value only. -/
theorem roundHalfUp_congr (h : d.value = e.value) :
    d.roundHalfUp places = e.roundHalfUp places := by
  rw [roundHalfUp_eq_floor, roundHalfUp_eq_floor, h]

/-- What is a number of places already is not changed. -/
theorem roundHalfUp_of_value {n : Nat} (h : d.value = n / 10 ^ places) :
    d.roundHalfUp places = n := by
  have hp : (10 : ℚ) ^ places ≠ 0 := by positivity
  rw [roundHalfUp_eq_floor, h, div_mul_cancel₀ _ hp, Nat.floor_eq_iff (by positivity)]
  constructor
  · linarith
  · linarith

/-- Rounding to places that there are changes nothing. -/
theorem HasPlaces.value_eq (h : d.HasPlaces places) :
    d.value = d.roundHalfUp places / 10 ^ places := by
  obtain ⟨c, hc⟩ := h
  rw [roundHalfUp_of_value hc, hc]

/-- Whole numbers are left alone. -/
theorem roundHalfUp_whole (n places : Nat) : roundHalfUp places ⟨n, 0⟩ = n * 10 ^ places := by
  refine roundHalfUp_of_value ?_
  rw [value_mk_zero]
  push_cast
  rw [mul_div_cancel_right₀ _ (by positivity)]

/-- Rounding does not pass a whole number. -/
theorem roundHalfUp_le {n : Nat} (h : d.value ≤ n) : d.roundHalfUp places ≤ n * 10 ^ places := by
  rw [← roundHalfUp_whole]
  rw [← value_mk_zero] at h
  exact roundHalfUp_mono h

theorem le_roundHalfUp {n : Nat} (h : n ≤ d.value) : n * 10 ^ places ≤ d.roundHalfUp places := by
  rw [← roundHalfUp_whole]
  rw [← value_mk_zero] at h
  exact roundHalfUp_mono h

/-- Rounding moves the value by half of the last place at most. -/
theorem abs_roundHalfUp_sub_le (places : Nat) (d : Decimal) :
    |(d.roundHalfUp places : ℚ) / 10 ^ places - d.value| ≤ 1 / 2 / 10 ^ places := by
  have hp : (0 : ℚ) < 10 ^ places := by positivity
  have hv : 0 ≤ d.value * 10 ^ places + 1 / 2 := by
    have := mul_nonneg d.value_nonneg hp.le
    linarith
  have hle := Nat.floor_le hv
  have hlt := Nat.lt_floor_add_one (d.value * 10 ^ places + 1 / 2)
  rw [← roundHalfUp_eq_floor] at hle hlt
  have hq : (d.roundHalfUp places : ℚ) / 10 ^ places - d.value =
      (d.roundHalfUp places - d.value * 10 ^ places) / 10 ^ places := by field_simp
  rw [hq, abs_div, abs_of_pos hp, div_le_div_iff_of_pos_right hp, abs_le]
  constructor
  · linarith
  · linarith

end

/-! ### The leading exponent -/

section

variable {d : Decimal}

theorem length_digits_pos (d : Decimal) : 0 < d.digits.length := Nat.length_toDigits_pos

theorem coefficient_lt (d : Decimal) : d.coefficient < 10 ^ d.digits.length :=
  (Nat.length_toDigits_le_iff (by omega) d.length_digits_pos).1 (Nat.le_refl _)

theorem le_coefficient (h : d.coefficient ≠ 0) : 10 ^ (d.digits.length - 1) ≤ d.coefficient := by
  by_cases h1 : d.digits.length = 1
  · rw [h1]
    exact Nat.pos_of_ne_zero h
  · have hl := d.length_digits_pos
    refine Nat.not_lt.1 fun hlt => ?_
    have := (Nat.length_toDigits_le_iff (b := 10) (by omega) (by omega)).2 hlt
    rw [← digits] at this
    omega

/-- There is only one number of digits between whose powers of ten the coefficient is. -/
theorem length_digits_eq {length : Nat} (hpos : 0 < length)
    (hlow : 10 ^ (length - 1) ≤ d.coefficient)
    (hhigh : d.coefficient < 10 ^ length) : d.digits.length = length := by
  refine Nat.le_antisymm ((Nat.length_toDigits_le_iff (by omega) hpos).2 hhigh) ?_
  have hlt := (Nat.pow_lt_pow_iff_right (by omega)).1 (Nat.lt_of_le_of_lt hlow d.coefficient_lt)
  omega

/-- The power of ten that the first digit counts is not above the value. -/
theorem zpow_leadingExponent_le (h : d.coefficient ≠ 0) :
    (10 : ℚ) ^ d.leadingExponent ≤ d.value := by
  have hc : (10 : ℚ) ^ (d.digits.length - 1) ≤ d.coefficient := by
    exact_mod_cast le_coefficient h
  have he : d.leadingExponent = (d.digits.length - 1 : Nat) + d.exponent := by
    have := d.length_digits_pos
    unfold leadingExponent
    omega
  rw [he, zpow_add₀ (by norm_num), zpow_natCast, value]
  exact mul_le_mul_of_nonneg_right hc (by positivity)

/-- The next power of ten is. -/
theorem lt_zpow_leadingExponent (d : Decimal) : d.value < (10 : ℚ) ^ (d.leadingExponent + 1) := by
  have hc : (d.coefficient : ℚ) < 10 ^ d.digits.length := by exact_mod_cast d.coefficient_lt
  have he : d.leadingExponent + 1 = (d.digits.length : Int) + d.exponent := by
    unfold leadingExponent
    omega
  rw [he, zpow_add₀ (by norm_num), zpow_natCast, value]
  exact mul_lt_mul_of_pos_right hc (by positivity)

/-- The leading exponent is the only one with these two properties. -/
theorem leadingExponent_eq {k : Int} (hlow : (10 : ℚ) ^ k ≤ d.value)
    (hhigh : d.value < (10 : ℚ) ^ (k + 1)) : d.leadingExponent = k := by
  have hten : (1 : ℚ) < 10 := by norm_num
  have hne : d.coefficient ≠ 0 := by
    intro hzero
    rw [value, hzero, Nat.cast_zero, zero_mul] at hlow
    exact absurd hlow (not_le.2 (by positivity))
  have hle := (zpow_lt_zpow_iff_right₀ hten).1 (hlow.trans_lt d.lt_zpow_leadingExponent)
  have hge := (zpow_lt_zpow_iff_right₀ hten).1 ((zpow_leadingExponent_le hne).trans_lt hhigh)
  omega

/-- It depends on the value only. -/
theorem leadingExponent_congr {e : Decimal} (hne : d.coefficient ≠ 0) (h : e.value = d.value) :
    e.leadingExponent = d.leadingExponent := by
  refine leadingExponent_eq ?_ ?_
  · rw [h]
    exact zpow_leadingExponent_le hne
  · rw [h]
    exact d.lt_zpow_leadingExponent

end

end Calculator.Decimal
