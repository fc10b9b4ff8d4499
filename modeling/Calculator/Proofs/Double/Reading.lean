/-
**Which decimals are read as a double.**

The decimals that are read as one magnitude form an interval around it: reading preserves order, and
what lies between two decimals that read back reads back as well.  The interval reaches half the
spacing of the doubles in either direction.

Main definitions:

* `Calculator.Decimal.readUnits` — how many units are read from a decimal;
* `Calculator.Magnitude.value` — the rational number behind a magnitude.

Main results:

* `Calculator.Decimal.readUnits_mono`, `Calculator.Magnitude.ReadsBack.lt` — **reading preserves
  order**;
* `Calculator.Magnitude.ReadsBack.of_between` — the decimals that read back are an interval;
* `Calculator.Magnitude.ReadsBack.near` — they are near the magnitude;
* `Calculator.Magnitude.readsBack_of_near`, `Calculator.Magnitude.readsBack_of_close` — **what is
  near enough reads back**.
-/

import Calculator.Double.Shortest
import Calculator.Proofs.Decimal.Value
import Calculator.Proofs.Double.Nearest
import Mathlib.Data.Nat.Cast.Field

set_option relaxedAutoImplicit false
set_option autoImplicit false

namespace Calculator

attribute [local instance (high)] instPowNat

theorem unitsPerOne_pos : 0 < unitsPerOne := Nat.two_pow_pos _

theorem unitsPerOne_pos' : (0 : ℚ) < unitsPerOne := by exact_mod_cast unitsPerOne_pos

/-! ### Values in units -/

namespace Decimal

variable {d e : Decimal}

/-- How many units are read from a decimal. -/
def readUnits (d : Decimal) : Nat := nearestUnits (d.numerator * unitsPerOne) d.denominator

/-- The fraction of units that is rounded when a decimal is read. -/
theorem value_mul_units (d : Decimal) :
    d.value * unitsPerOne = ((d.numerator * unitsPerOne : Nat) : ℚ) / d.denominator := by
  rw [value_eq_div]
  push_cast
  ring

/-- Its whole part. -/
theorem floor_value_mul_units (d : Decimal) :
    ⌊d.value * unitsPerOne⌋₊ = d.numerator * unitsPerOne / d.denominator := by
  rw [value_mul_units, Nat.floor_div_eq_div]

/-- **Reading preserves order.** -/
theorem readUnits_mono (h : d.value ≤ e.value) : d.readUnits ≤ e.readUnits := by
  have hd : (0 : ℚ) < d.denominator := by exact_mod_cast d.denominator_pos
  have he : (0 : ℚ) < e.denominator := by exact_mod_cast e.denominator_pos
  have hm := mul_le_mul_of_nonneg_right h unitsPerOne_pos'.le
  rw [value_mul_units, value_mul_units, div_le_div_iff₀ hd he] at hm
  exact nearestUnits_mono d.denominator_pos e.denominator_pos (by exact_mod_cast hm)

end Decimal

namespace Magnitude

/-! ### The value of a magnitude -/

variable {m m' : Magnitude} {d e f : Decimal} {n : Nat}

/-- The rational number behind a magnitude. -/
def value (m : Magnitude) : ℚ := m.units / unitsPerOne

theorem value_nonneg (m : Magnitude) : 0 ≤ m.value :=
  div_nonneg (Nat.cast_nonneg _) unitsPerOne_pos'.le

theorem value_mul_units (m : Magnitude) : m.value * unitsPerOne = m.units :=
  div_mul_cancel₀ _ unitsPerOne_pos'.ne'

theorem value_lt_value_iff : m.value < m'.value ↔ m.units < m'.units := by
  rw [value, value, div_lt_div_iff_of_pos_right unitsPerOne_pos', Nat.cast_lt]

theorem value_le_value_iff : m.value ≤ m'.value ↔ m.units ≤ m'.units := by
  rw [← not_lt, value_lt_value_iff, not_lt]

/-- The exact decimal has the value of the magnitude. -/
@[simp] theorem value_exact (m : Magnitude) : m.exact.value = m.value := by
  have h5 : (10 : ℚ) ^ unitPlaces = 5 ^ unitPlaces * 2 ^ unitPlaces := by
    rw [← mul_pow]
    norm_num
  have hp : (5 : ℚ) ^ unitPlaces ≠ 0 := by positivity
  rw [exact, Decimal.value_mk_neg, value, unitsPerOne, h5]
  push_cast
  rw [mul_comm ((5 : ℚ) ^ unitPlaces), mul_div_mul_right _ _ hp]

/-! ### The interval that reads back -/

theorem readsBack_iff : m.ReadsBack d ↔ d.readUnits = m.units := Iff.rfl

/-- **Reading preserves order.** -/
theorem ReadsBack.lt (h : m.ReadsBack d) (h' : m'.ReadsBack e) (hlt : m.units < m'.units) :
    d.value < e.value := by
  refine lt_of_not_ge fun hle => ?_
  have hn := Decimal.readUnits_mono hle
  rw [readsBack_iff] at h h'
  omega

/-- What lies between two decimals that read back reads back as well. -/
theorem ReadsBack.of_between (h : m.ReadsBack d) (h' : m.ReadsBack f) (hl : d.value ≤ e.value)
    (hr : e.value ≤ f.value) : m.ReadsBack e := by
  have hl' := Decimal.readUnits_mono hl
  have hr' := Decimal.readUnits_mono hr
  rw [readsBack_iff] at h h' ⊢
  omega

theorem ReadsBack.of_value_eq (h : m.ReadsBack d) (hv : e.value = d.value) : m.ReadsBack e :=
  h.of_between h hv.ge hv.le

/-- A decimal of the same value reads back. -/
theorem readsBack_of_value_eq (h : d.value = m.value) : m.ReadsBack d :=
  m.readsBack_exact.of_value_eq (h.trans m.value_exact.symm)

/-- Only one magnitude is read from a decimal. -/
theorem ReadsBack.unique (h : m.ReadsBack d) (h' : m'.ReadsBack d) : m = m' :=
  Magnitude.ext (Eq.trans (Eq.symm h) h')

/-- Zero is the only magnitude that is read from zero. -/
theorem ReadsBack.coefficient_ne_zero (h : m.ReadsBack d) (hm : m.units ≠ 0) :
    d.coefficient ≠ 0 := by
  intro h0
  refine hm (h.symm.trans ?_)
  simp [Decimal.numerator, h0, nearestUnits, roundEven, d.denominator_pos, spacing_pos]

/-! ### Whole numbers -/

/-- A whole magnitude is a whole number. -/
theorem value_of_isWhole (h : m.isWhole = true) : m.value = (m.units / unitsPerOne : Nat) := by
  have hdvd : unitsPerOne ∣ m.units := Nat.dvd_of_mod_eq_zero (by simpa [isWhole] using h)
  rw [value, Nat.cast_div hdvd unitsPerOne_pos'.ne']

/-- The whole magnitudes are the whole numbers. -/
theorem isWhole_iff : m.isWhole = true ↔ ∃ n : Nat, m.value = n := by
  constructor
  · exact fun h => ⟨_, value_of_isWhole h⟩
  · rintro ⟨n, hn⟩
    rw [value, div_eq_iff unitsPerOne_pos'.ne'] at hn
    have hunits : m.units = n * unitsPerOne := by exact_mod_cast hn
    simp [isWhole, hunits]

/-- Whole numbers of at most 53 bits are read exactly. -/
theorem readUnits_whole (hn : n ≤ 2 ^ (fractionBits + 1)) :
    Decimal.readUnits ⟨n, 0⟩ = n * unitsPerOne := by
  have h := nearestUnits_mul (spacing_dvd_mul_two_pow unitPlaces hn) (Nat.one_pos)
  simpa [Decimal.readUnits, Decimal.numerator, Decimal.denominator, unitsPerOne] using h

theorem value_lt_natCast_iff : m.value < n ↔ m.units < n * unitsPerOne := by
  rw [value, div_lt_iff₀ unitsPerOne_pos']
  exact_mod_cast Iff.rfl

theorem natCast_lt_value_iff : n < m.value ↔ n * unitsPerOne < m.units := by
  rw [value, lt_div_iff₀ unitsPerOne_pos']
  exact_mod_cast Iff.rfl

/-- A decimal stays on its side of a whole number. -/
theorem ReadsBack.lt_natCast (h : m.ReadsBack d) (hn : n ≤ 2 ^ (fractionBits + 1))
    (hlt : m.value < n) : d.value < n := by
  refine lt_of_not_ge fun hle => ?_
  rw [← Decimal.value_mk_zero] at hle
  have hread := Decimal.readUnits_mono hle
  rw [readUnits_whole hn] at hread
  rw [value_lt_natCast_iff] at hlt
  rw [readsBack_iff] at h
  omega

theorem ReadsBack.natCast_lt (h : m.ReadsBack d) (hn : n ≤ 2 ^ (fractionBits + 1))
    (hlt : n < m.value) : n < d.value := by
  refine lt_of_not_ge fun hle => ?_
  rw [← Decimal.value_mk_zero] at hle
  have hread := Decimal.readUnits_mono hle
  rw [readUnits_whole hn] at hread
  rw [natCast_lt_value_iff] at hlt
  rw [readsBack_iff] at h
  omega

/-! ### Near decimals -/

private theorem spacing_floor_le {k : Nat} (hd : d.value < 2 ^ k) :
    (spacing ⌊d.value * unitsPerOne⌋₊ : ℚ) * 2 ^ 53 ≤ 2 ^ k * unitsPerOne := by
  have hU := unitsPerOne_pos'
  have hfloor : ⌊d.value * unitsPerOne⌋₊ < 2 ^ (k + unitPlaces) := by
    rw [Nat.floor_lt (mul_nonneg d.value_nonneg hU.le)]
    calc d.value * unitsPerOne < 2 ^ k * unitsPerOne := mul_lt_mul_of_pos_right hd hU
      _ = ((2 ^ (k + unitPlaces) : Nat) : ℚ) := by
          rw [unitsPerOne]
          push_cast
          rw [pow_add]
  have hs : spacing ⌊d.value * unitsPerOne⌋₊ ≤ 2 ^ (k + unitPlaces - 1 - fractionBits) := by
    refine Nat.pow_le_pow_right (by omega) (Nat.sub_le_sub_right ?_ _)
    by_cases h0 : ⌊d.value * unitsPerOne⌋₊ = 0
    · rw [h0]
      exact Nat.zero_le _
    · have := (Nat.log2_lt h0).2 hfloor
      omega
  have he : k + unitPlaces - 1 - fractionBits + 53 = k + unitPlaces := by
    unfold unitPlaces fractionBits
    omega
  have hn := Nat.mul_le_mul_right (2 ^ 53) hs
  rw [← Nat.pow_add, he, Nat.pow_add] at hn
  rw [unitsPerOne]
  exact_mod_cast hn

/-- A decimal up to `2 ^ k` is read as a magnitude within `2 ^ (k - 54)`. -/
theorem ReadsBack.near (h : m.ReadsBack d) {k : Nat} (hd : d.value ≤ 2 ^ k) :
    |m.value - d.value| ≤ 2 ^ k / 2 ^ 54 := by
  have hU := unitsPerOne_pos'
  rcases lt_or_eq_of_le hd with hlt | heq
  · have hnear := nearestUnits_near (d.numerator * unitsPerOne) d.denominator_pos
    rw [← Decimal.value_mul_units, ← Decimal.floor_value_mul_units, h, ← m.value_mul_units,
      ← sub_mul, abs_mul, abs_of_pos hU] at hnear
    have hs := spacing_floor_le hlt
    refine le_of_mul_le_mul_right ?_ hU
    calc |m.value - d.value| * unitsPerOne ≤ spacing ⌊d.value * unitsPerOne⌋₊ / 2 := hnear
      _ = spacing ⌊d.value * unitsPerOne⌋₊ * 2 ^ 53 / 2 ^ 54 := by ring
      _ ≤ 2 ^ k * unitsPerOne / 2 ^ 54 := by linarith
      _ = 2 ^ k / 2 ^ 54 * unitsPerOne := by ring
  · -- The power of two itself is read exactly.
    have hread : m.units = 2 ^ k * unitsPerOne := by
      have ha : spacing (1 * 2 ^ (k + unitPlaces)) ∣ 1 * 2 ^ (k + unitPlaces) :=
        spacing_dvd_mul_two_pow _ (by decide)
      rw [Nat.one_mul] at ha
      have hpow : 2 ^ k * unitsPerOne = 2 ^ (k + unitPlaces) := by rw [unitsPerOne, ← Nat.pow_add]
      refine h.symm.trans ?_
      rw [hpow, ← nearestUnits_mul ha Nat.one_pos]
      refine nearestUnits_congr d.denominator_pos Nat.one_pos ?_
      have hq := d.value_mul_units
      rw [heq, eq_div_iff (by exact_mod_cast d.denominator_pos.ne')] at hq
      rw [Nat.mul_one, Nat.mul_one, ← hpow]
      exact_mod_cast hq.symm
    have hv : m.value = d.value := by
      rw [value, hread, heq, Nat.cast_mul, mul_div_cancel_right₀ _ hU.ne']
      push_cast
      rfl
    rw [hv, sub_self, abs_zero]
    positivity

/-- What is nearer than half the spacing at either number reads back. -/
theorem readsBack_of_lt_spacing {s : ℚ} (hm : s ≤ spacing m.units)
    (hd : s ≤ spacing ⌊d.value * unitsPerOne⌋₊)
    (h : |m.value - d.value| * unitsPerOne < s / 2) : m.ReadsBack d := by
  have hU := unitsPerOne_pos'
  rw [← abs_of_pos hU, ← abs_mul, sub_mul, m.value_mul_units, Decimal.value_mul_units] at h
  rw [Decimal.floor_value_mul_units] at hd
  unfold ReadsBack
  rcases le_total (((d.numerator * unitsPerOne : Nat) : ℚ) / d.denominator) m.units with hle | hle
  · rw [abs_of_nonneg (by linarith)] at h
    exact nearestUnits_eq_of_below d.denominator_pos m.aligned hle (by linarith)
  · rw [abs_sub_comm, abs_of_nonneg (by linarith)] at h
    exact nearestUnits_eq_of_above d.denominator_pos m.aligned hle (by linarith)

/-- **What is near enough reads back**, in terms of a power of two below both numbers. -/
theorem readsBack_of_near {k : Nat} (hm : 2 ^ k ≤ m.value) (hd : 2 ^ k ≤ d.value)
    (h : |m.value - d.value| < 2 ^ k / 2 ^ 53) : m.ReadsBack d := by
  have hU := unitsPerOne_pos'
  have hs : ∀ n : Nat, 2 ^ k * unitsPerOne ≤ n → 2 ^ k * unitsPerOne ≤ 2 ^ 52 * spacing n := by
    intro n hn
    have hlog : k + unitPlaces ≤ n.log2 := by
      rw [unitsPerOne, ← Nat.pow_add] at hn
      have hpos := Nat.two_pow_pos (k + unitPlaces)
      exact (Nat.le_log2 (by omega)).2 hn
    rw [unitsPerOne, ← Nat.pow_add, spacing, ← Nat.pow_add]
    refine Nat.pow_le_pow_right (by omega) ?_
    unfold unitPlaces fractionBits at *
    omega
  have hm' : 2 ^ k * unitsPerOne ≤ m.units := by
    have := mul_le_mul_of_nonneg_right hm hU.le
    rw [m.value_mul_units] at this
    exact_mod_cast this
  have hd' : 2 ^ k * unitsPerOne ≤ ⌊d.value * unitsPerOne⌋₊ := by
    refine Nat.le_floor ?_
    push_cast
    exact mul_le_mul_of_nonneg_right hd hU.le
  have hsm : (2 : ℚ) ^ k * unitsPerOne ≤ 2 ^ 52 * spacing m.units := by exact_mod_cast hs _ hm'
  have hsd : (2 : ℚ) ^ k * unitsPerOne ≤ 2 ^ 52 * spacing ⌊d.value * unitsPerOne⌋₊ := by
    exact_mod_cast hs _ hd'
  refine readsBack_of_lt_spacing (s := 2 ^ k * unitsPerOne / 2 ^ 52) ?_ ?_ ?_
  · linarith
  · linarith
  · calc |m.value - d.value| * unitsPerOne < 2 ^ k / 2 ^ 53 * unitsPerOne :=
          mul_lt_mul_of_pos_right h hU
      _ = 2 ^ k * unitsPerOne / 2 ^ 52 / 2 := by ring

/-- **What is near enough reads back**, in terms of a fraction of both numbers. -/
theorem readsBack_of_close {t : ℚ} (hm : 2 ^ 54 * t ≤ m.value) (hd : 2 ^ 54 * t ≤ d.value)
    (h : |m.value - d.value| ≤ t) : m.ReadsBack d := by
  have hU := unitsPerOne_pos'
  -- No double of 53 bits reaches `2 ^ 53` times its spacing.
  have hs : ∀ n : Nat, (n : ℚ) + 1 ≤ 2 ^ 53 * spacing n := by
    intro n
    exact_mod_cast lt_mul_spacing n
  have hsm := hs m.units
  have hsd := hs ⌊d.value * unitsPerOne⌋₊
  have hlt := Nat.lt_floor_add_one (d.value * unitsPerOne)
  have hm' := mul_le_mul_of_nonneg_right hm hU.le
  have hd' := mul_le_mul_of_nonneg_right hd hU.le
  have h' := mul_le_mul_of_nonneg_right h hU.le
  rw [m.value_mul_units] at hm'
  refine readsBack_of_lt_spacing (s := min (spacing m.units) (spacing ⌊d.value * unitsPerOne⌋₊))
    (min_le_left _ _) (min_le_right _ _) ?_
  rcases min_choice (spacing m.units : ℚ) (spacing ⌊d.value * unitsPerOne⌋₊) with hc | hc
  · rw [hc]
    linarith
  · rw [hc]
    linarith

end Magnitude

end Calculator
