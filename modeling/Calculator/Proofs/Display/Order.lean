/-
**The display preserves order.**

The notations round differently: whole numbers not at all, other plain numbers to ten decimal
places, very large and very small ones by cutting digits off.  Each of these preserves order by
itself, and what is rounded are decimals that are ordered as the doubles that they are read as.  It
remains to compare across the two bounds between the notations.  Plain numbers are shown at
`10 ^ 15` at most, where scientific notation starts; at the lower bound small numbers stay below
`10 ^ (-10)`, and plain ones are rounded to it at least.

Main results:

* `Calculator.Display.leading_mono` — cutting digits off preserves order;
* `Calculator.Display.shown_mono` — **so does the display of magnitudes**, across all notations;
* `Calculator.Display.shown_pos` — nothing but zero is shown as zero;
* `Calculator.display_preserves_order` — **both, for all doubles**.
-/

import Calculator.Proofs.Display.Reading

set_option relaxedAutoImplicit false
set_option autoImplicit false

namespace Calculator

attribute [local instance (high)] instPowNat

namespace Display

variable {m m' : Magnitude} {d e : Decimal}

/-! ### Cutting digits off -/

/-- **Cutting digits off preserves order.**  Either the same digits are cut off, or there is a power
of ten in between, which is left alone. -/
theorem leading_mono (hd : d.coefficient ≠ 0) (he : e.coefficient ≠ 0) (h : d.value ≤ e.value) :
    leading d * lastPlace d ≤ leading e * lastPlace e := by
  have hlow := Decimal.zpow_leadingExponent_le hd
  have hhigh := Decimal.lt_zpow_leadingExponent e
  have hexp : d.leadingExponent < e.leadingExponent + 1 :=
    (zpow_lt_zpow_iff_right₀ (by norm_num : (1 : ℚ) < 10)).1 (by linarith)
  rcases Int.lt_or_eq_of_le (Int.lt_add_one_iff.1 hexp) with hlt | heq
  · have hten : (10 : ℚ) ^ (significantDigits - 1) ≤ leading e := by exact_mod_cast le_leading he
    calc leading d * lastPlace d ≤ d.value := leading_mul_le d
      _ ≤ (10 : ℚ) ^ (d.leadingExponent + 1) := (Decimal.lt_zpow_leadingExponent d).le
      _ ≤ (10 : ℚ) ^ e.leadingExponent := zpow_le_zpow_right₀ (by norm_num) hlt
      _ = 10 ^ (significantDigits - 1) * lastPlace e := zpow_leadingExponent e
      _ ≤ leading e * lastPlace e := mul_le_mul_of_nonneg_right hten (lastPlace_pos e).le
  · have hplace : lastPlace d = lastPlace e := by rw [lastPlace, lastPlace, heq]
    have hlt : (leading d : ℚ) < leading e + 1 := by
      refine lt_of_mul_lt_mul_right ?_ (lastPlace_pos e).le
      calc leading d * lastPlace e = leading d * lastPlace d := by rw [hplace]
        _ ≤ d.value := leading_mul_le d
        _ ≤ e.value := h
        _ < (leading e + 1) * lastPlace e := value_lt_leading e
    have hle : leading d ≤ leading e := Nat.lt_succ_iff.1 (by exact_mod_cast hlt)
    rw [hplace]
    exact mul_le_mul_of_nonneg_right (by exact_mod_cast hle) (lastPlace_pos e).le

/-! ### The upper bound -/

theorem ten_pow_le : 10 ^ wholeDigits ≤ 2 ^ (fractionBits + 1) := by decide

theorem lt_upperBound (hs : ¬ IsScientific m) : m.units < upperBound := by
  have hpos : 0 < upperBound := Nat.mul_pos (Nat.pow_pos (by omega)) unitsPerOne_pos
  unfold IsScientific at hs
  omega

/-- Below the upper bound no more than the bound is shown in plain notation. -/
theorem places_le (h : m.units < upperBound) :
    places m ≤ 10 ^ wholeDigits * 10 ^ decimalPlaces := by
  have hv : m.value < ((10 ^ wholeDigits : Nat) : ℚ) := by
    rw [Magnitude.value_lt_natCast_iff]
    exact h
  exact Decimal.roundHalfUp_le ((readsBack_written m).lt_natCast ten_pow_le hv).le

/-- From the upper bound on the shortest decimal is not below it. -/
theorem le_value_shortest (h : upperBound ≤ m.units) :
    ((10 ^ wholeDigits : Nat) : ℚ) ≤ m.shortest.value := by
  rcases Nat.lt_or_eq_of_le h with hlt | heq
  · have hv : ((10 ^ wholeDigits : Nat) : ℚ) < m.value := by
      rw [Magnitude.natCast_lt_value_iff]
      exact hlt
    exact (m.readsBack_shortest.natCast_lt ten_pow_le hv).le
  · have hv : m.value = ((10 ^ wholeDigits : Nat) : ℚ) := by
      rw [Magnitude.value, ← heq, upperBound, Nat.cast_mul,
        mul_div_cancel_right₀ _ unitsPerOne_pos'.ne']
    have hw : m.isWhole = true := by simp [Magnitude.isWhole, ← heq, upperBound]
    have h0 : m.units ≠ 0 := by
      rw [← heq]
      exact (Nat.mul_pos (Nat.pow_pos (by omega)) unitsPerOne_pos).ne'
    have hlt : m.value < 2 ^ (fractionBits + 1) := by
      rw [hv]
      norm_num [wholeDigits, fractionBits]
    rw [Magnitude.value_shortest_of_isWhole hw h0 hlt, hv]

/-! ### The lower bound -/

/-- The lower bound is what `10 ^ (-10)` is read as. -/
theorem readUnits_one_place : Decimal.readUnits ⟨1, -decimalPlaces⟩ = lowerBound := by
  simp [Decimal.readUnits, Decimal.numerator, Decimal.denominator, lowerBound]

/-- Below the lower bound the shortest decimal is below `10 ^ (-10)`. -/
theorem value_shortest_lt (h : m.units < lowerBound) :
    m.shortest.value < 1 / 10 ^ decimalPlaces := by
  refine lt_of_not_ge fun hle => ?_
  have hb : Decimal.value ⟨1, -decimalPlaces⟩ = 1 / 10 ^ decimalPlaces := by
    rw [Decimal.value_mk_neg, Nat.cast_one]
  rw [← hb] at hle
  have hread := Decimal.readUnits_mono hle
  have hback := m.readsBack_shortest
  rw [readUnits_one_place] at hread
  rw [Magnitude.readsBack_iff] at hback
  omega

/-- Half of `10 ^ (-10)` is read as less than the lower bound. -/
theorem half_lt_lowerBound :
    Decimal.readUnits ⟨5, -(decimalPlaces + 1 : Nat)⟩ < lowerBound := by
  decide +kernel

/-- From the lower bound on something is left after rounding. -/
theorem places_pos (h : lowerBound ≤ m.units) : 0 < places m := by
  rw [places, Decimal.roundHalfUp_eq_floor, Nat.floor_pos]
  by_contra hlt
  have hle : (written m).value ≤ Decimal.value ⟨5, -(decimalPlaces + 1 : Nat)⟩ := by
    have hp : (0 : ℚ) < 10 ^ decimalPlaces := by positivity
    rw [Decimal.value_mk_neg, pow_succ, ← mul_le_mul_iff_left₀ hp]
    have hhalf : ((5 : Nat) : ℚ) / (10 ^ decimalPlaces * 10) * 10 ^ decimalPlaces = 1 / 2 := by
      field_simp
      norm_num
    rw [hhalf]
    linarith
  have hread := Decimal.readUnits_mono hle
  have hback := readsBack_written m
  have hhalf := half_lt_lowerBound
  rw [Magnitude.readsBack_iff] at hback
  omega

/-! ### All notations -/

theorem ten_pow_pos : (0 : ℚ) < 10 ^ decimalPlaces := by positivity

theorem shown_nonneg (m : Magnitude) : 0 ≤ shown m := by
  unfold shown
  split
  · exact mul_nonneg (Nat.cast_nonneg _) (lastPlace_pos _).le
  · exact div_nonneg (Nat.cast_nonneg _) ten_pow_pos.le

/-- **Nothing but zero is shown as zero.** -/
theorem shown_pos (h : m.units ≠ 0) : 0 < shown m := by
  unfold shown
  split
  · have hlead := le_leading (m.readsBack_shortest.coefficient_ne_zero h)
    have hpos : 0 < leading m.shortest := Nat.lt_of_lt_of_le (Nat.pow_pos (by omega)) hlead
    exact mul_pos (by exact_mod_cast hpos) (lastPlace_pos _)
  · next hs =>
      have hlow : lowerBound ≤ m.units := by
        by_contra hlt
        exact hs ⟨h, .inr (Nat.not_le.1 hlt)⟩
      exact div_pos (by exact_mod_cast places_pos hlow) ten_pow_pos

/-- Below the lower bound less is shown than from it on. -/
private theorem shown_le_of_small (hs : m.units < lowerBound) (hm : m.units ≠ 0)
    (hp : ¬ IsScientific m') (hm' : lowerBound ≤ m'.units) : shown m ≤ shown m' := by
  have hone : (1 : ℚ) ≤ places m' := by exact_mod_cast places_pos hm'
  rw [shown, if_pos ⟨hm, .inr hs⟩, shown, if_neg hp]
  calc leading m.shortest * lastPlace m.shortest ≤ m.shortest.value := leading_mul_le _
    _ ≤ 1 / 10 ^ decimalPlaces := (value_shortest_lt hs).le
    _ ≤ places m' / 10 ^ decimalPlaces := div_le_div_of_nonneg_right hone ten_pow_pos.le

/-- Below the upper bound no more is shown than from it on. -/
private theorem shown_le_of_large (hp : ¬ IsScientific m) (hm : m.units < upperBound)
    (hl : upperBound ≤ m'.units) : shown m ≤ shown m' := by
  have h0 : m'.units ≠ 0 := by omega
  have hle := le_value_shortest hl
  rw [← Decimal.value_mk_zero] at hle
  have hlead := leading_mono (d := ⟨10 ^ wholeDigits, 0⟩) (Nat.pow_pos (by omega)).ne'
    (m'.readsBack_shortest.coefficient_ne_zero h0) hle
  have hbound : (leading ⟨10 ^ wholeDigits, 0⟩ : ℚ) * lastPlace ⟨10 ^ wholeDigits, 0⟩ =
      10 ^ wholeDigits := by
    have h1 : leading ⟨10 ^ wholeDigits, 0⟩ = 10 ^ 9 := by decide +kernel
    have h2 : Decimal.leadingExponent ⟨10 ^ wholeDigits, 0⟩ = 15 := by decide +kernel
    rw [h1, lastPlace, h2]
    norm_num [significantDigits, wholeDigits]
  have hplaces : (places m : ℚ) ≤ 10 ^ wholeDigits * 10 ^ decimalPlaces := by
    exact_mod_cast places_le hm
  rw [hbound] at hlead
  rw [shown, if_neg hp, shown, if_pos ⟨h0, .inl hl⟩]
  calc (places m : ℚ) / 10 ^ decimalPlaces ≤ 10 ^ wholeDigits := by
        rwa [div_le_iff₀ ten_pow_pos]
    _ ≤ _ := hlead

/-- **The display of magnitudes preserves order**, across all notations. -/
theorem shown_mono (h : m.units ≤ m'.units) : shown m ≤ shown m' := by
  rcases Nat.lt_or_eq_of_le h with hlt | heq
  swap
  · rw [Magnitude.ext heq]
  by_cases h0 : m.units = 0
  · rw [shown_of_units_eq_zero h0]
    exact shown_nonneg m'
  have h0' : m'.units ≠ 0 := by omega
  by_cases hs : IsScientific m
  · by_cases hs' : IsScientific m'
    · rw [shown, if_pos hs, shown, if_pos hs']
      exact leading_mono (m.readsBack_shortest.coefficient_ne_zero h0)
        (m'.readsBack_shortest.coefficient_ne_zero h0')
        (m.readsBack_shortest.lt m'.readsBack_shortest hlt).le
    · -- A plain number is above a scientific one only at the lower bound.
      have hbounds : ¬ (upperBound ≤ m'.units ∨ m'.units < lowerBound) := fun hb => hs' ⟨h0', hb⟩
      have hsmall : m.units < lowerBound := by
        rcases hs.2 with hu | hl
        · omega
        · exact hl
      exact shown_le_of_small hsmall h0 hs' (by omega)
  · have hbounds : ¬ (upperBound ≤ m.units ∨ m.units < lowerBound) := fun hb => hs ⟨h0, hb⟩
    by_cases hs' : IsScientific m'
    · -- And below one only at the upper bound.
      have hlarge : upperBound ≤ m'.units := by
        rcases hs'.2 with hu | hl
        · exact hu
        · omega
      exact shown_le_of_large hs (by omega) hlarge
    · rw [shown, if_neg hs, shown, if_neg hs']
      have hd := (readsBack_written m).lt (readsBack_written m') hlt
      have hplaces : places m ≤ places m' := Decimal.roundHalfUp_mono hd.le
      exact div_le_div_of_nonneg_right (by exact_mod_cast hplaces) ten_pow_pos.le

/-! ### Signs and infinities -/

/-- What is read from displays is ordered as the signed magnitudes are. -/
theorem withSign_shown_mono {negative negative' : Bool}
    (h : withSign negative m.value ≤ withSign negative' m'.value) :
    withSign negative (shown m) ≤ withSign negative' (shown m') := by
  have hm := m.value_nonneg
  have hm' := m'.value_nonneg
  cases negative <;> cases negative'
  · exact shown_mono (Magnitude.value_le_value_iff.1 h)
  · -- Only zero is above or equal to a number and below or equal to its opposite.
    simp only [withSign, if_true, Bool.false_eq_true, if_false] at h ⊢
    have hz : ∀ n : Magnitude, n.value = 0 → shown n = 0 := by
      intro n hn
      refine shown_of_units_eq_zero ?_
      have hunits := n.value_mul_units
      rw [hn, zero_mul] at hunits
      exact_mod_cast hunits.symm
    rw [hz m (by linarith), hz m' (by linarith), neg_zero]
  · have h1 := shown_nonneg m
    have h2 := shown_nonneg m'
    simp only [withSign, if_true, Bool.false_eq_true, if_false]
    linarith
  · simp only [withSign, if_true, neg_le_neg_iff] at h ⊢
    exact shown_mono (Magnitude.value_le_value_iff.1 h)

end Display

open Display

/-- **The display preserves order, and shows nothing but zero as zero.** -/
theorem display_preserves_order :
    (∀ v w : Double, v ≤ w → ∃ x ∈ number? v.display, ∃ y ∈ number? w.display, x ≤ y) ∧
      ∀ v : Double, v.isZero = false → number? v.display ≠ some (.ofRat 0) := by
  constructor
  · rintro v w ⟨x, hx, y, hy, hle⟩
    cases v with
    | nan => cases hx
    | infinite s =>
        cases hx
        cases w with
        | nan => cases hy
        | infinite t =>
            cases hy
            exact ⟨_, number?_display_infinite s, _, number?_display_infinite t, hle⟩
        | finite t b =>
            cases hy
            rw [ofSign_top_le_ofRat_iff] at hle
            exact ⟨_, number?_display_infinite s, _, number?_display_finite t b,
              ofSign_top_le_ofRat_iff.2 hle⟩
    | finite s a =>
        cases hx
        cases w with
        | nan => cases hy
        | infinite t =>
            cases hy
            rw [ofRat_le_ofSign_top_iff] at hle
            exact ⟨_, number?_display_finite s a, _, number?_display_infinite t,
              ofRat_le_ofSign_top_iff.2 hle⟩
        | finite t b =>
            cases hy
            rw [ofRat_le_ofRat_iff] at hle
            exact ⟨_, number?_display_finite s a, _, number?_display_finite t b,
              ofRat_le_ofRat_iff.2 (withSign_shown_mono hle)⟩
  · intro v hv hz
    cases v with
    | nan => cases hz
    | infinite s =>
        rw [number?_display_infinite] at hz
        have hle := (Option.some.inj hz).le
        have hge := (Option.some.inj hz).ge
        rw [ofSign_top_le_ofRat_iff] at hle
        rw [ofRat_le_ofSign_top_iff, hle] at hge
        exact absurd hge (by decide)
    | finite s m =>
        have h0 : m.units ≠ 0 := by simpa [Double.isZero] using hv
        have hpos := shown_pos h0
        rw [number?_display_finite, Option.some.injEq, ofRat_inj] at hz
        cases s with
        | false => exact hpos.ne' hz
        | true => exact hpos.ne' (neg_eq_zero.1 hz)

/-- The double just below the upper bound is not displayed above it. -/
theorem display_preserves_order_at_upperBound :
    let below : Magnitude := ⟨(10 ^ wholeDigits * 8 - 1) * 2 ^ (unitPlaces - 3), by decide +kernel,
      by decide +kernel⟩
    let bound : Magnitude := ⟨upperBound, by decide +kernel, by decide +kernel⟩
    Double.finite false below ≤ .finite false bound ∧
      ∃ x ∈ number? (Double.finite false below).display,
        ∃ y ∈ number? (Double.finite false bound).display, x ≤ y := by
  intro below bound
  have h : Double.finite false below ≤ .finite false bound :=
    ⟨_, rfl, _, rfl, ofRat_le_ofRat_iff.2
      (Magnitude.value_le_value_iff.2 (show below.units ≤ bound.units by decide +kernel))⟩
  exact ⟨h, display_preserves_order.1 _ _ h⟩

end Calculator
