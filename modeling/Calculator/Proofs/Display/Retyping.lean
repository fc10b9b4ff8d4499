/-
**Typing a display again.**

A display in plain notation can be typed again, and then shows as it was.  The number that is typed
may be another one than that displayed, if digits have been rounded off; but it is so near to the
rounded number that it is displayed with the same digits.

From `2 ^ 19` on doubles are so sparse that one of the multiples of `10 ^ (-10)` around a double is
read as that double.  Then the shortest decimal is such a multiple, nothing is rounded off, and the
number that is typed is the one that was displayed.  Below `2 ^ 19` doubles are so dense that the
rounded number, the double it is read as and the shortest decimal of that double are all closer than
`10 ^ (-10)` to each other.  Both the first and the last of them are multiples of `10 ^ (-10)`, so
they are the same.

Main definitions:

* `Calculator.Display.rounded` — the decimal that a plain display shows;
* `Calculator.Display.IsPlain` — a display without a letter.

Main results:

* `Calculator.Display.hasPlaces_of_sparse` — the first of the two cases;
* `Calculator.Display.places_of_dense` — the second;
* `Calculator.Display.exists_retyped` — **the number that is typed is displayed in the same way**;
* `Calculator.calculate_plain_display` — plain displays do not drift.
-/

import Calculator.Proofs.Display.Order
import Calculator.Proofs.Expression.Typing

set_option relaxedAutoImplicit false
set_option autoImplicit false

namespace Calculator

attribute [local instance (high)] instPowNat

namespace Display

variable {m : Magnitude} {d : Decimal} {n : Nat}

/-! ### Sparse doubles -/

/-- The decimal with the shown number of last places. -/
def rounded (m : Magnitude) : Decimal := ⟨places m, -decimalPlaces⟩

theorem value_rounded (m : Magnitude) : (rounded m).value = places m / 10 ^ decimalPlaces :=
  Decimal.value_mk_neg _ _

/-- If nothing is rounded off, the display is read as the magnitude. -/
theorem readsBack_rounded (h : (written m).HasPlaces decimalPlaces) : m.ReadsBack (rounded m) := by
  refine (readsBack_written m).of_value_eq ?_
  rw [value_rounded, places, ← h.value_eq]

theorem hasPlaces_written_of_isWhole (h : m.isWhole = true) :
    (written m).HasPlaces decimalPlaces := by
  rw [written, if_pos h]
  exact Decimal.hasPlaces_of_whole (m.value_exact.trans (m.value_of_isWhole h)) _

/-- **From `2 ^ 19` on nothing is rounded off**: the nearest multiple of `10 ^ (-10)` is off by less
than `2 ^ (-34)`, which is half the spacing. -/
theorem hasPlaces_of_sparse (h : 2 ^ 19 ≤ m.value) : m.shortest.HasPlaces decimalPlaces := by
  have hone : (1 : ℚ) / 10 ^ decimalPlaces ≤ 1 := by
    rw [div_le_one ten_pow_pos]
    exact one_le_pow₀ (by norm_num)
  have hnear := m.exact.abs_roundHalfUp_sub_le decimalPlaces
  rw [m.value_exact] at hnear
  have hlow : 2 ^ 19 ≤ Decimal.value ⟨m.exact.roundHalfUp decimalPlaces, -decimalPlaces⟩ := by
    have hle : ((2 ^ 19 : Nat) : ℚ) ≤ m.exact.value := by
      rw [m.value_exact]
      exact_mod_cast h
    have hmono : 2 ^ 19 * 10 ^ decimalPlaces ≤ m.exact.roundHalfUp decimalPlaces :=
      Decimal.le_roundHalfUp hle
    have hround : (2 : ℚ) ^ 19 * 10 ^ decimalPlaces ≤ m.exact.roundHalfUp decimalPlaces := by
      exact_mod_cast hmono
    rw [Decimal.value_mk_neg, le_div_iff₀ ten_pow_pos]
    exact hround
  have hclose : |m.value - Decimal.value ⟨m.exact.roundHalfUp decimalPlaces, -decimalPlaces⟩| <
      2 ^ 19 / 2 ^ 53 := by
    rw [Decimal.value_mk_neg, abs_sub_comm]
    exact lt_of_le_of_lt hnear (by norm_num [decimalPlaces])
  exact m.hasPlaces_shortest (by decide) (by linarith)
    (Magnitude.readsBack_of_near h hlow hclose)

/-! ### Dense doubles -/

/-- The decimal that is written has ten places, if a decimal with ten places is read. -/
theorem hasPlaces_written_of_readsBack (h : 1 / 10 ^ decimalPlaces ≤ m.value)
    (hr : m.ReadsBack ⟨n, -decimalPlaces⟩) : (written m).HasPlaces decimalPlaces := by
  by_cases hw : m.isWhole = true
  · exact hasPlaces_written_of_isWhole hw
  · rw [written, if_neg hw]
    exact m.hasPlaces_shortest (by decide) h hr

/-- **Below `2 ^ 19` what is read from ten places is displayed with these places.** -/
theorem places_of_dense (h : 1 / 10 ^ decimalPlaces ≤ m.value)
    (hr : m.ReadsBack ⟨n, -decimalPlaces⟩) (hn : (n : ℚ) / 10 ^ decimalPlaces ≤ 2 ^ 19) :
    places m = n := by
  obtain ⟨c, hc⟩ := hasPlaces_written_of_readsBack h hr
  have hplaces : places m = c := Decimal.roundHalfUp_of_value hc
  have hread : |m.value - n / 10 ^ decimalPlaces| ≤ 2 ^ 19 / 2 ^ 54 := by
    have hnear := hr.near (k := 19) (by rw [Decimal.value_mk_neg]; exact hn)
    rwa [Decimal.value_mk_neg] at hnear
  have hwritten : |m.value - c / 10 ^ decimalPlaces| ≤ 2 ^ 20 / 2 ^ 54 := by
    have hlt : (written m).value < ((2 ^ 20 : Nat) : ℚ) := by
      refine (readsBack_written m).lt_natCast (by decide) ?_
      have hup := (abs_le.1 hread).2
      have hcast : ((2 ^ 20 : Nat) : ℚ) = 2 ^ 20 := by push_cast; rfl
      rw [hcast]
      linarith
    have hnear := (readsBack_written m).near (k := 20) (by exact_mod_cast hlt.le)
    rwa [hc] at hnear
  -- Two multiples that are closer than one step are the same.
  have hdist : |((n : ℚ) - c) / 10 ^ decimalPlaces| < 1 / 10 ^ decimalPlaces := by
    have hsum : (2 : ℚ) ^ 19 / 2 ^ 54 + 2 ^ 20 / 2 ^ 54 < 1 / 10 ^ decimalPlaces := by
      norm_num [decimalPlaces]
    obtain ⟨h1, h2⟩ := abs_le.1 hread
    obtain ⟨h3, h4⟩ := abs_le.1 hwritten
    rw [sub_div, abs_lt]
    constructor
    · linarith
    · linarith
  rw [abs_div, abs_of_pos ten_pow_pos, div_lt_div_iff_of_pos_right ten_pow_pos] at hdist
  rw [hplaces, eq_of_abs_sub_lt_one hdist]

/-! ### The number that is typed -/

theorem one_le_lowerBound : unitsPerOne ≤ lowerBound * 10 ^ decimalPlaces := by decide +kernel

/-- The lower bound is not below `10 ^ (-10)`. -/
theorem le_value_of_lowerBound_le (h : lowerBound ≤ m.units) :
    1 / 10 ^ decimalPlaces ≤ m.value := by
  have hbound := Nat.mul_le_mul_right (10 ^ decimalPlaces) h
  rw [Magnitude.value, div_le_div_iff₀ ten_pow_pos unitsPerOne_pos', one_mul]
  exact_mod_cast Nat.le_trans one_le_lowerBound hbound

theorem not_isScientific_iff (h : m.units ≠ 0) :
    ¬ IsScientific m ↔ lowerBound ≤ m.units ∧ m.units < upperBound := by
  unfold IsScientific
  omega

theorem value_rounded_le (h : m.value < 2 ^ 19) : (rounded m).value ≤ 2 ^ 19 := by
  have hd := (readsBack_written m).lt_natCast (n := 2 ^ 19) (by decide) (by exact_mod_cast h)
  have hplaces : places m ≤ 2 ^ 19 * 10 ^ decimalPlaces := Decimal.roundHalfUp_le hd.le
  rw [value_rounded, div_le_iff₀ ten_pow_pos]
  exact_mod_cast hplaces

/-- Below `2 ^ 19` no more than this number is typed again. -/
theorem readUnits_rounded_le (h : m.value < 2 ^ 19) :
    (rounded m).readUnits ≤ 2 ^ 19 * unitsPerOne := by
  have hle : (rounded m).value ≤ Decimal.value ⟨2 ^ 19, 0⟩ := by
    rw [Decimal.value_mk_zero]
    exact_mod_cast value_rounded_le h
  have hread := Decimal.readUnits_mono hle
  rwa [Magnitude.readUnits_whole (by decide)] at hread

/-- From the lower bound on no less than the bound is typed again. -/
theorem le_readUnits_rounded (h : lowerBound ≤ m.units) : lowerBound ≤ (rounded m).readUnits := by
  have hpos : (1 : ℚ) ≤ places m := by exact_mod_cast places_pos h
  rw [← readUnits_one_place]
  refine Decimal.readUnits_mono ?_
  rw [Decimal.value_mk_neg, value_rounded, Nat.cast_one]
  exact div_le_div_of_nonneg_right hpos ten_pow_pos.le

/-- What is rounded off below `2 ^ 19` leaves a double that is displayed in the same way. -/
private theorem exists_retyped_of_dense (hlow : lowerBound ≤ m.units) (hlt : m.value < 2 ^ 19) :
    ∃ t : Magnitude, t.ReadsBack (rounded m) ∧ t.units ≠ 0 ∧ ¬ IsScientific t ∧
      places t = places m := by
  have hhigh := readUnits_rounded_le hlt
  have hfloor := le_readUnits_rounded hlow
  have hover : 2 ^ 19 * unitsPerOne < overflowUnits := by decide +kernel
  have hupper : 2 ^ 19 * unitsPerOne < upperBound := by decide +kernel
  let t : Magnitude := ⟨(rounded m).readUnits, spacing_dvd_nearestUnits _ _, by omega⟩
  have ht : t.ReadsBack (rounded m) := rfl
  have ht0 : t.units ≠ 0 := by
    have hpos := half_lt_lowerBound
    change (rounded m).readUnits ≠ 0
    omega
  have hone : 1 / 10 ^ decimalPlaces ≤ t.value := le_value_of_lowerBound_le hfloor
  refine ⟨t, ht, ht0, (not_isScientific_iff ht0).2 ⟨hfloor, Nat.lt_of_le_of_lt hhigh hupper⟩, ?_⟩
  refine places_of_dense hone ht ?_
  rw [← value_rounded]
  exact value_rounded_le hlt

/-- **The number that is typed is displayed in the same way.** -/
theorem exists_retyped (hs : ¬ IsScientific m) :
    ∃ t : Magnitude, t.ReadsBack (rounded m) ∧ (t.units = 0 ↔ m.units = 0) ∧ ¬ IsScientific t ∧
      places t = places m := by
  by_cases hw : m.isWhole = true
  · exact ⟨m, readsBack_rounded (hasPlaces_written_of_isWhole hw), Iff.rfl, hs, rfl⟩
  · rcases lt_or_ge m.value (2 ^ 19) with hlt | hge
    · have h0 : m.units ≠ 0 := by
        intro h0
        exact hw (by simp [Magnitude.isWhole, h0])
      obtain ⟨t, ht, ht0, hts, hplaces⟩ :=
        exists_retyped_of_dense ((not_isScientific_iff h0).1 hs).1 hlt
      exact ⟨t, ht, iff_of_false ht0 h0, hts, hplaces⟩
    · have hwritten : written m = m.shortest := if_neg hw
      refine ⟨m, readsBack_rounded ?_, Iff.rfl, hs, rfl⟩
      rw [hwritten]
      exact hasPlaces_of_sparse hge

/-- What is typed without a point is whole, and what is typed with one is not. -/
theorem isWhole_iff_of_readsBack {t : Magnitude} (hm : m.units < upperBound)
    (ht : t.ReadsBack (rounded m)) (hplaces : places t = places m) :
    t.isWhole = true ↔ '.' ∉ plainNumeral (places m) := by
  rw [point_mem_plainNumeral_iff, not_not]
  constructor
  · intro hw
    rw [← hplaces, places_of_isWhole hw]
    exact Nat.mul_mod_left _ _
  · intro hmod
    obtain ⟨k, hk⟩ := Nat.dvd_of_mod_eq_zero hmod
    have hsmall : k ≤ 2 ^ (fractionBits + 1) := by
      have hle := places_le hm
      rw [hk, Nat.mul_comm] at hle
      exact Nat.le_trans (Nat.le_of_mul_le_mul_right hle (Nat.pow_pos (by omega))) ten_pow_le
    have hv : Decimal.value ⟨k, 0⟩ = (rounded m).value := by
      rw [Decimal.value_mk_zero, value_rounded, hk]
      push_cast
      rw [mul_div_cancel_left₀ _ (by positivity)]
    have hunits : t.units = k * unitsPerOne := by
      rw [← Magnitude.readUnits_whole hsmall]
      exact (ht.of_value_eq hv).symm
    simp [Magnitude.isWhole, hunits]

/-- A plain display is the display of what it is evaluated to. -/
theorem evaluate_display (negative : Bool) (hs : ¬ IsScientific m) :
    let display := (Double.finite negative m).display
    (∃ s t, evaluate display = .ok (.finite s t) ∧ ¬ IsScientific t ∧
      (t.isWhole = true ↔ '.' ∉ display.toList) ∧ (Double.finite s t).display = display) ∧
      calculate display = display := by
  obtain ⟨t, ht, h0, hts, hplaces⟩ := exists_retyped hs
  obtain ⟨d, hd, hv⟩ := exists_numeral_plain (places m)
  let s := shownSign negative m
  have hsign : shownSign s t = s := by
    by_cases hm : m.units = 0
    · have hs : s = false := shownSign_of_eq_zero _ hm
      rw [hs, shownSign_of_eq_zero _ (h0.2 hm)]
    · rw [shownSign_of_ne_zero _ fun ht0 => hm (h0.1 ht0)]
  have hread : Double.ofDecimal s d = .finite s t :=
    (ht.of_value_eq (by rw [hv, value_rounded])).ofDecimal_eq s
  have htext : (Double.finite negative m).display =
      String.ofList (signText s ++ plainNumeral (places m)) := by
    rw [Double.display_finite, unsigned, if_neg hs]
  have hsame : (Double.finite s t).display = (Double.finite negative m).display := by
    rw [htext, Double.display_finite, hsign, unsigned, if_neg hts, hplaces]
  have hwhole : t.isWhole = true ↔ '.' ∉ (Double.finite negative m).display.toList := by
    have hminus : '.' ∉ signText s := by
      cases s with
      | false => decide
      | true => decide
    rw [htext, String.toList_ofList, List.mem_append, or_iff_right hminus]
    exact isWhole_iff_of_readsBack (lt_upperBound hs) ht hplaces
  refine ⟨⟨s, t, ?_, hts, hwhole, hsame⟩, ?_⟩
  · rw [htext, evaluate, String.toList_ofList, Expression.evaluateText_numeral hd, hread]
  · rw [htext, calculate_numeral hd, hread, ← htext]
    exact hsame

/-! ### Plain displays -/

/-- A display without a letter: neither a word nor in scientific notation. -/
def IsPlain (display : String) : Prop := ∀ c ∈ display.toList, c.isAlpha = false

instance (display : String) : Decidable (IsPlain display) :=
  List.decidableBAll (fun c : Char => c.isAlpha = false) display.toList

/-- Plain displays are those of finite numbers in plain notation. -/
theorem finite_of_isPlain {v : Double} (h : IsPlain v.display) :
    ∃ negative m, v = .finite negative m ∧ ¬ IsScientific m := by
  cases v with
  | nan => exact absurd h (by decide)
  | infinite s =>
      cases s with
      | false => exact absurd h (by decide)
      | true => exact absurd h (by decide)
  | finite s m =>
      refine ⟨s, m, rfl, fun hs => ?_⟩
      obtain ⟨mantissa, _, htext, -, -⟩ := exists_numeral_scientific m.shortest
      have hE : 'E' ∈ (Double.finite s m).display.toList := by
        rw [Double.display_finite, String.toList_ofList, unsigned, if_pos hs, htext]
        simp
      exact absurd (h 'E' hE) (by decide)

end Display

open Display

/-- **Plain displays do not drift.**  Typed again they are read as a number that is in plain
notation too, as a whole one exactly if they have no point, and that shows as they do. -/
theorem calculate_plain_display :
    (∀ (negative : Bool) (m : Magnitude),
      m.units = 0 ∨ (lowerBound ≤ m.units ∧ m.units < upperBound) →
        let display := (Double.finite negative m).display
        (∃ s t, evaluate display = .ok (.finite s t) ∧ ¬ IsScientific t ∧
          (t.isWhole = true ↔ '.' ∉ display.toList) ∧ (Double.finite s t).display = display) ∧
          calculate display = display) ∧
      ∀ expression : String, IsPlain (calculate expression) →
        calculate (calculate expression) = calculate expression := by
  constructor
  · intro negative m hm
    refine evaluate_display negative ?_
    unfold IsScientific
    omega
  · intro expression hplain
    cases houtcome : outcome expression with
    | error fault =>
        rw [calculate_of_error houtcome] at hplain
        exact absurd hplain (by decide)
    | ok display =>
        rw [calculate_of_ok houtcome] at hplain ⊢
        unfold outcome at houtcome
        dsimp only at houtcome
        split at houtcome
        · cases houtcome
          exact (evaluate_display false isScientific_zero).2
        · split at houtcome
          · cases houtcome
          · cases houtcome
            obtain ⟨negative, m, rfl, hs⟩ := finite_of_isPlain hplain
            exact (evaluate_display negative hs).2

/-- A third is displayed with ten places, which are read as another double. -/
theorem calculate_plain_display_third :
    let third : Magnitude := ⟨6004799503160661 * 2 ^ (unitPlaces - 54), by decide +kernel,
      by decide +kernel⟩
    let display := (Double.finite false third).display
    (lowerBound ≤ third.units ∧ third.units < upperBound) ∧ calculate display = display ∧
      IsPlain (calculate "1/3") ∧ calculate (calculate "1/3") = calculate "1/3" := by
  intro third display
  have hbounds : lowerBound ≤ third.units ∧ third.units < upperBound := by decide +kernel
  have hplain : IsPlain (calculate "1/3") := by decide +kernel
  exact ⟨hbounds, (calculate_plain_display.1 false third (.inr hbounds)).2, hplain,
    calculate_plain_display.2 "1/3" hplain⟩

/-- A number that is not whole may be displayed as a whole one: all ten places are rounded up, and
what is read is in the notation of whole numbers. -/
theorem display_of_nearly_one :
    let near : Magnitude := ⟨9007199254650920 * 2 ^ (unitPlaces - 53), by decide +kernel,
      by decide +kernel⟩
    let display := (Double.finite false near).display
    (lowerBound ≤ near.units ∧ near.units < upperBound) ∧ near.isWhole = false ∧ display = "1" ∧
      ∃ s t, evaluate display = .ok (.finite s t) ∧ t.isWhole = true := by
  intro near display
  have hbounds : lowerBound ≤ near.units ∧ near.units < upperBound := by decide +kernel
  have hdisplay : display = "1" := by decide +kernel
  have hplain : ¬ IsScientific near := by
    unfold IsScientific
    omega
  obtain ⟨⟨s, t, hread, -, hwhole, -⟩, -⟩ := evaluate_display false hplain
  refine ⟨hbounds, by decide +kernel, hdisplay, s, t, hread, hwhole.2 ?_⟩
  change '.' ∉ display.toList
  rw [hdisplay]
  decide

end Calculator
