/-
**The accuracy of displays.**

What a display says is known from the number and its shortest decimal.  Large and small numbers are
shown as the shortest decimal cut to ten significant digits; whole numbers are shown exactly; and
other numbers are shown as the multiple of `10 ^ (-10)` that is nearest to the shortest decimal, the
one farther from zero of two that are equally near.  The arithmetic in which displays are made has
twenty-eight digits, and no more than twenty-five are ever needed, so that it is as good as an exact
one.

Main definitions:

* `Calculator.Display.IsCut` — a number cut to so many significant digits;
* `Calculator.Display.IsNearestPlace` — a number rounded to so many places.

Main results:

* `Calculator.Display.isCut_leading`, `Calculator.Display.isNearestPlace_roundHalfUp` — the two ways
  of shortening;
* `Calculator.display_accuracy` — **the accuracy of displays**.
-/

import Calculator.Proofs.Display.Steps

set_option relaxedAutoImplicit false
set_option autoImplicit false

namespace Calculator

attribute [local instance (high)] instPowNat

namespace Display

variable {m : Magnitude} {d : Decimal} {x y : ℚ}

/-! ### Shortened numbers -/

/-- The first number is the second one with nothing but so many significant digits left of it. -/
def IsCut (digits : Nat) (x y : ℚ) : Prop :=
  ∃ (n : ℕ) (k : ℤ), 10 ^ (digits - 1) ≤ n ∧ n < 10 ^ digits ∧ x = n * 10 ^ k ∧ x ≤ y ∧
    y < (n + 1) * 10 ^ k

/-- The first number is the multiple of the last place that is nearest to the second one; any other
multiple is farther away, or as far and smaller. -/
def IsNearestPlace (places : Nat) (x y : ℚ) : Prop :=
  ∃ n : ℕ, x = n / 10 ^ places ∧
    ∀ k : ℕ, k ≠ n → |x - y| < |k / 10 ^ places - y| ∨ |x - y| = |k / 10 ^ places - y| ∧ k < n

/-- The first ten digits are what is left of a decimal. -/
theorem isCut_leading (hne : d.coefficient ≠ 0) : IsCut 10 (leading d * lastPlace d) d.value :=
  ⟨leading d, d.leadingExponent + 1 - significantDigits, le_leading hne, leading_lt d, rfl,
    leading_mul_le d, value_lt_leading d⟩

/-- **Rounding half up is a choice of the nearest.**  Any other number of places is farther from the
value, or as far and smaller. -/
theorem roundHalfUp_competitor {places n : Nat} (hn : n ≠ d.roundHalfUp places) :
    |(d.roundHalfUp places : ℚ) - d.value * 10 ^ places| < |(n : ℚ) - d.value * 10 ^ places| ∨
      |(d.roundHalfUp places : ℚ) - d.value * 10 ^ places| = |(n : ℚ) - d.value * 10 ^ places| ∧
        n < d.roundHalfUp places := by
  have hv : 0 ≤ d.value * 10 ^ places := mul_nonneg d.value_nonneg (by positivity)
  have hle := Nat.floor_le (show 0 ≤ d.value * 10 ^ places + 1 / 2 by linarith)
  have hlt := Nat.lt_floor_add_one (d.value * 10 ^ places + 1 / 2)
  rw [← Decimal.roundHalfUp_eq_floor] at hle hlt
  generalize d.roundHalfUp places = k at *
  generalize d.value * 10 ^ places = x at *
  have hhalf : |(k : ℚ) - x| ≤ 1 / 2 := by
    rw [abs_le]
    constructor
    · linarith
    · linarith
  refine (abs_sub_lt_or_eq_half hhalf hn).imp_right fun ⟨heq, hdist⟩ => ⟨heq, ?_⟩
  -- half a place away is the value below, so that the other neighbour is below it
  refine lt_of_le_of_ne (Nat.lt_succ_iff.1 ?_) hn
  rw [hdist] at heq
  have hother := (abs_le.1 heq.ge).2
  have hnext : (n : ℚ) < (k + 1 : Nat) := by
    push_cast
    linarith
  exact_mod_cast hnext

/-- Rounding half up is to the nearest place. -/
theorem isNearestPlace_roundHalfUp (places : Nat) (d : Decimal) :
    IsNearestPlace places (d.roundHalfUp places / 10 ^ places) d.value := by
  have hp : (0 : ℚ) < 10 ^ places := by positivity
  have hscale : ∀ n : ℕ, |(n : ℚ) / 10 ^ places - d.value| =
      |(n : ℚ) - d.value * 10 ^ places| / 10 ^ places := by
    intro n
    rw [← abs_of_pos hp, ← abs_div, abs_of_pos hp, sub_div, mul_div_cancel_right₀ _ hp.ne']
  refine ⟨d.roundHalfUp places, rfl, fun k hk => ?_⟩
  rw [hscale, hscale, div_lt_div_iff_of_pos_right hp, div_left_inj' hp.ne']
  exact roundHalfUp_competitor hk

/-! ### What is shown -/

/-- Beyond the bounds the shortest decimal is cut. -/
theorem shown_of_scientific (h0 : m.units ≠ 0) (hd : m.IsShortest d)
    (h : 10 ^ 15 ≤ m.value ∨ m.value < 1 / 10 ^ 10) : IsCut 10 (shown m) d.value := by
  have hvalue : m.value ≠ 0 := by
    rw [Magnitude.value, div_ne_zero_iff]
    exact ⟨Nat.cast_ne_zero.2 h0, unitsPerOne_pos'.ne'⟩
  have hs : IsScientific m := isScientific_iff.2 ⟨hvalue, h⟩
  rw [shown, if_pos hs, hd.value_eq (Magnitude.isShortest_shortest h0) h0]
  exact isCut_leading (m.readsBack_shortest.coefficient_ne_zero h0)

/-- Whole numbers are shown as they are. -/
theorem shown_of_whole (h : m.value < 10 ^ 15) (hw : m.isWhole = true) :
    shown m = m.value := by
  have hvalue := m.value_of_isWhole hw
  have hs : ¬ IsScientific m := by
    rw [isScientific_iff]
    rintro ⟨hne, hlarge | hsmall⟩
    · exact absurd h (not_lt.2 hlarge)
    · rw [hvalue] at hne hsmall
      have hone : (1 : ℚ) ≤ (m.units / unitsPerOne : Nat) := by
        exact_mod_cast Nat.pos_of_ne_zero (Nat.cast_ne_zero.1 hne)
      have hless : (1 : ℚ) / 10 ^ 10 < 1 := by norm_num
      linarith
  rw [shown, if_neg hs, places_of_isWhole hw, hvalue, Nat.cast_mul, Nat.cast_pow, Nat.cast_ofNat,
    mul_div_cancel_right₀ _ (by positivity)]

/-- Other numbers are shown as the nearest multiple of the last place. -/
theorem shown_of_fixed (h0 : m.units ≠ 0) (hd : m.IsShortest d) (hlow : 1 / 10 ^ 10 ≤ m.value)
    (hhigh : m.value < 10 ^ 15) (hw : ¬ m.isWhole = true) :
    IsNearestPlace 10 (shown m) d.value ∧ |shown m - d.value| ≤ 1 / 2 / 10 ^ 10 := by
  have hs : ¬ IsScientific m := by
    rw [isScientific_iff]
    rintro ⟨-, hlarge | hsmall⟩
    · exact absurd hhigh (not_lt.2 hlarge)
    · exact absurd hlow (not_le.2 hsmall)
  rw [shown, if_neg hs, places, written, if_neg hw,
    hd.value_eq (Magnitude.isShortest_shortest h0) h0]
  exact ⟨isNearestPlace_roundHalfUp _ _, Decimal.abs_roundHalfUp_sub_le _ _⟩

end Display

open Display

/-- **The accuracy of displays.**  The text of a number is its shortest decimal.  A display says
what is left of that if it is cut to ten digits, the whole number itself, or the nearest multiple
of `10 ^ (-10)`; and the arithmetic in which it is made neither rounds a second time nor refuses
anything. -/
theorem display_accuracy :
    (∀ (negative : Bool) (m : Magnitude) (d : Decimal), m.units ≠ 0 → m.IsShortest d →
      (∃ printed, printed.value = d.value ∧
        Decimal.ofText? (Double.finite negative m).text.toList = some (negative, printed)) ∧
      ∃ x : ℚ, number? (Double.finite negative m).display = some (.ofRat (withSign negative x)) ∧
        (10 ^ 15 ≤ m.value ∨ m.value < 1 / 10 ^ 10 → IsCut 10 x d.value) ∧
        (m.value < 10 ^ 15 → (∃ n : ℕ, m.value = n) → x = m.value) ∧
        (1 / 10 ^ 10 ≤ m.value → m.value < 10 ^ 15 → (¬ ∃ n : ℕ, m.value = n) →
          IsNearestPlace 10 x d.value ∧ |x - d.value| ≤ 1 / 2 / 10 ^ 10)) ∧
      ∀ v : Double, ∃ made : List Decimal, (∀ d ∈ made, d.digits.length ≤ 25) ∧
        ∀ context : Decimal.Context, context.Ample →
          v.displayIn context = some (made, v.display) := by
  refine ⟨?_, Double.exists_displayIn_eq⟩
  intro negative m d h0 hd
  obtain ⟨printed, htext, hprints⟩ := Double.exists_ofText?_text negative h0
  have hvalue := hd.value_eq (Magnitude.isShortest_shortest h0) h0
  refine ⟨⟨printed, hprints.value_eq.trans hvalue.symm, htext⟩, shown m,
    number?_display_finite negative m, ?_, ?_, ?_⟩
  · exact shown_of_scientific h0 hd
  · intro hlt hwhole
    exact shown_of_whole hlt (Magnitude.isWhole_iff.2 hwhole)
  · intro hlow hhigh hnot
    exact shown_of_fixed h0 hd hlow hhigh fun hw => hnot (Magnitude.isWhole_iff.1 hw)

/-- Two thirds are displayed within half of the last place, in an arithmetic of twenty-eight
digits. -/
theorem display_accuracy_two_thirds :
    let thirds : Magnitude := ⟨6004799503160661 * 2 ^ (unitPlaces - 53), by decide +kernel,
      by decide +kernel⟩
    (thirds.units ≠ 0 ∧ thirds.IsShortest thirds.shortest) ∧
      (∃ x : ℚ, number? (Double.finite true thirds).display = some (.ofRat (-x)) ∧
        |x - thirds.shortest.value| ≤ 1 / 2 / 10 ^ 10) ∧
      ∃ made, (Double.finite true thirds).displayIn .standard =
        some (made, (Double.finite true thirds).display) := by
  intro thirds
  have h0 : thirds.units ≠ 0 := by decide +kernel
  have hd : thirds.IsShortest thirds.shortest := Magnitude.isShortest_shortest h0
  have hlow : 1 / 10 ^ 10 ≤ thirds.value := by
    refine not_lt.1 fun hlt => ?_
    exact absurd (lt_lowerBound_iff.2 hlt) (by decide +kernel)
  have hhigh : thirds.value < 10 ^ 15 := by
    refine not_le.1 fun hle => ?_
    exact absurd (upperBound_le_iff.2 hle) (by decide +kernel)
  have hnot : ¬ ∃ n : ℕ, thirds.value = n := by
    refine fun hwhole => ?_
    exact absurd (Magnitude.isWhole_iff.2 hwhole) (by decide +kernel)
  obtain ⟨-, x, hx, -, -, hnear⟩ := display_accuracy.1 true thirds thirds.shortest h0 hd
  obtain ⟨made, -, hmade⟩ := display_accuracy.2 (.finite true thirds)
  exact ⟨⟨h0, hd⟩, ⟨x, hx, (hnear hlow hhigh hnot).2⟩, made,
    hmade _ Decimal.Context.ample_standard⟩

end Calculator
