/-
**Integers among the doubles.**

Every integer of at most 53 bits is a double.  Sums and products of such integers are exact as long
as they stay within 53 bits themselves: the exact result is on the grid already, so that nothing is
rounded.  Only zero is denoted by two doubles, and which of them arises from a sum or a product
depends on the signs; the display of an integer is its numeral in either case.

Main definitions:

* `Calculator.Double.Denotes` — a double is an integer exactly.

Main results:

* `Calculator.Double.Denotes.add`, `Calculator.Double.Denotes.sub`,
  `Calculator.Double.Denotes.mul` — **integer arithmetic is exact** within 53 bits;
* `Calculator.Double.denotes_ofDecimal` — integers are read exactly;
* `Calculator.Double.Denotes.display_eq` — **an integer is displayed as its numeral**.
-/

import Calculator.Display
import Calculator.Double.Arithmetic
import Calculator.Proofs.Double.Reading

set_option relaxedAutoImplicit false
set_option autoImplicit false

namespace Calculator

attribute [local instance (high)] instPowNat

/-! ### Signs -/

theorem signed_neg (negative : Bool) (k : Nat) : signed (!negative) k = -signed negative k := by
  cases negative with
  | false => rfl
  | true => exact (Int.neg_neg _).symm

theorem signed_mul (s t : Bool) (k l : Nat) :
    signed s k * signed t l = signed (s != t) (k * l) := by
  cases s <;> cases t <;> simp [signed]

theorem signed_mul_natCast (negative : Bool) (k units : Nat) :
    signed negative (k * units) = signed negative k * units := by
  cases negative with
  | false => exact Int.natCast_mul k units
  | true => rw [signed, signed, Int.natCast_mul, Int.neg_mul]

theorem signed_natAbs (n : Int) : signed (decide (n < 0)) n.natAbs = n := by
  by_cases h : n < 0
  · rw [decide_eq_true h, signed]
    omega
  · rw [decide_eq_false h, signed]
    omega

theorem mul_units_neg_iff {n units : Int} (h : 0 < units) : n * units < 0 ↔ n < 0 := by
  constructor
  · exact fun hn => neg_of_mul_neg_left hn h.le
  · exact fun hn => Int.mul_neg_of_neg_of_pos hn h

/-- What is signed and not zero has the sign. -/
theorem eq_decide_of_signed {negative : Bool} {n : Int} (h : signed negative n.natAbs = n)
    (hn : n ≠ 0) : negative = decide (n < 0) := by
  cases negative with
  | false =>
      rw [signed] at h
      exact (decide_eq_false (by omega)).symm
  | true =>
      rw [signed] at h
      exact (decide_eq_true (by omega)).symm

namespace Double

/-! ### The doubles of an integer -/

/-- The double is the integer exactly. -/
def Denotes (v : Double) (n : Int) : Prop := v.signedUnits? = some (n * unitsPerOne)

variable {v w : Double} {a b n : Int}

/-- A finite double is an integer if its magnitude is that of the integer and its sign fits. -/
theorem denotes_finite {s : Bool} {m : Magnitude} (hm : m.units = n.natAbs * unitsPerOne)
    (hs : signed s n.natAbs = n) : (finite s m).Denotes n := by
  rw [Denotes, signedUnits?, hm, signed_mul_natCast, hs]

/-- And no other double is. -/
theorem Denotes.exists_finite (h : v.Denotes n) :
    ∃ s m, v = .finite s m ∧ m.units = n.natAbs * unitsPerOne ∧ signed s n.natAbs = n := by
  cases v with
  | nan => cases h
  | infinite s => cases h
  | finite s m =>
      have hs : signed s m.units = n * unitsPerOne := Option.some.inj h
      have hm : m.units = n.natAbs * unitsPerOne := by
        rw [← natAbs_signed s m.units, hs, Int.natAbs_mul, Int.natAbs_natCast]
      have hU : (unitsPerOne : Int) ≠ 0 := by exact_mod_cast unitsPerOne_pos.ne'
      rw [hm, signed_mul_natCast] at hs
      exact ⟨s, m, rfl, hm, Int.eq_of_mul_eq_mul_right hU hs⟩

theorem denotes_zero (negative : Bool) : (zero negative).Denotes 0 := by
  refine denotes_finite (by rw [Int.natAbs_zero, Nat.zero_mul, Magnitude.units_zero]) ?_
  cases negative with
  | false => rfl
  | true => rfl

/-- A whole number of 53 bits is not rounded. -/
theorem denotes_rounded {negative : Bool} {num den : Nat} (hd : 0 < den)
    (hs : signed negative n.natAbs = n) (hn : n.natAbs ≤ 2 ^ (fractionBits + 1))
    (hnum : num = n.natAbs * unitsPerOne * den) : (rounded negative num den).Denotes n := by
  -- the number is on the grid of its binade already, and far from any overflow
  have hgrid : nearestUnits num den = n.natAbs * unitsPerOne := by
    rw [hnum]
    exact nearestUnits_mul (spacing_dvd_mul_two_pow unitPlaces hn) hd
  have hfinite : nearestUnits num den < overflowUnits := by
    have hpow : 2 ^ (fractionBits + 1) * unitsPerOne < overflowUnits := by decide +kernel
    rw [hgrid]
    exact Nat.lt_of_le_of_lt (Nat.mul_le_mul_right _ hn) hpow
  unfold rounded
  rw [dif_pos hfinite]
  exact denotes_finite hgrid hs

/-- Whole decimals of 53 bits are read exactly. -/
theorem denotes_ofDecimal {k : Nat} (hk : k ≤ 2 ^ (fractionBits + 1)) :
    (ofDecimal false ⟨k, 0⟩).Denotes k := by
  refine denotes_rounded (Decimal.denominator_pos _) rfl hk ?_
  simp [Decimal.numerator, Decimal.denominator]

/-! ### Arithmetic -/

theorem finite_add_finite (s t : Bool) (k l : Magnitude) :
    finite s k + finite t l =
      if signed s k.units + signed t l.units = 0 then zero (s && t)
      else rounded (signed s k.units + signed t l.units < 0)
        (signed s k.units + signed t l.units).natAbs 1 := by
  change add (finite s k) (finite t l) = _
  simp only [add]

theorem finite_mul_finite (s t : Bool) (k l : Magnitude) :
    finite s k * finite t l = rounded (s != t) (k.units * l.units) unitsPerOne := by
  change mul (finite s k) (finite t l) = _
  simp only [mul]

theorem Denotes.neg (h : v.Denotes n) : (-v).Denotes (-n) := by
  obtain ⟨s, m, rfl, hm, hs⟩ := h.exists_finite
  rw [neg_finite]
  refine denotes_finite (by rw [hm, Int.natAbs_neg]) ?_
  rw [signed_neg, Int.natAbs_neg, hs]

/-- **Sums are exact.** -/
theorem Denotes.add (hv : v.Denotes a) (hw : w.Denotes b)
    (h : (a + b).natAbs ≤ 2 ^ (fractionBits + 1)) : (v + w).Denotes (a + b) := by
  obtain ⟨s, k, rfl, hk, hs⟩ := hv.exists_finite
  obtain ⟨t, l, rfl, hl, ht⟩ := hw.exists_finite
  have hU : (0 : Int) < unitsPerOne := by exact_mod_cast unitsPerOne_pos
  have hsum : signed s k.units + signed t l.units = (a + b) * unitsPerOne := by
    rw [hk, hl, signed_mul_natCast, signed_mul_natCast, hs, ht, Int.add_mul]
  rw [finite_add_finite, hsum]
  by_cases h0 : a + b = 0
  · rw [h0, if_pos (Int.zero_mul _)]
    exact denotes_zero _
  · have hsign : decide ((a + b) * unitsPerOne < 0) = decide (a + b < 0) :=
      decide_eq_decide.2 (mul_units_neg_iff hU)
    rw [if_neg (mul_ne_zero h0 hU.ne'), hsign, Int.natAbs_mul, Int.natAbs_natCast]
    exact denotes_rounded Nat.one_pos (signed_natAbs _) h (Nat.mul_one _).symm

/-- **So are differences.** -/
theorem Denotes.sub (hv : v.Denotes a) (hw : w.Denotes b)
    (h : (a - b).natAbs ≤ 2 ^ (fractionBits + 1)) : (v - w).Denotes (a - b) := by
  rw [sub_eq_add_neg, Int.sub_eq_add_neg]
  rw [Int.sub_eq_add_neg] at h
  exact hv.add hw.neg h

/-- **And products.** -/
theorem Denotes.mul (hv : v.Denotes a) (hw : w.Denotes b)
    (h : (a * b).natAbs ≤ 2 ^ (fractionBits + 1)) : (v * w).Denotes (a * b) := by
  obtain ⟨s, k, rfl, hk, hs⟩ := hv.exists_finite
  obtain ⟨t, l, rfl, hl, ht⟩ := hw.exists_finite
  rw [finite_mul_finite]
  refine denotes_rounded unitsPerOne_pos ?_ h ?_
  · rw [Int.natAbs_mul, ← signed_mul, hs, ht]
  · rw [hk, hl, Int.natAbs_mul]
    ring

/-! ### Displays -/

/-- The numeral of an integer. -/
theorem ofList_intText (n : Int) : String.ofList (intText n) = toString n := by
  cases n with
  | ofNat k => rfl
  | negSucc k =>
      rw [intText, decide_eq_true (Int.negSucc_lt_zero k), String.ofList_append]
      rfl

/-- Nothing but zero and what is below one needs scientific notation. -/
theorem not_isScientific_of_whole {m : Magnitude} {k : Nat} (hm : m.units = k * unitsPerOne)
    (hk : k < 10 ^ Display.wholeDigits) : ¬ Display.IsScientific m := by
  have hlower : Display.lowerBound ≤ unitsPerOne := by decide +kernel
  rintro ⟨h0, hlarge | hsmall⟩
  · rw [hm, Display.upperBound] at hlarge
    exact absurd (Nat.le_of_mul_le_mul_right hlarge unitsPerOne_pos) (Nat.not_le.2 hk)
  · have hpos : 0 < k := Nat.pos_of_ne_zero fun hz => h0 (by rw [hm, hz, Nat.zero_mul])
    have hone := Nat.mul_le_mul_right unitsPerOne hpos
    rw [hm] at hsmall
    omega

/-- **An integer is displayed as its numeral.** -/
theorem Denotes.display_eq (h : v.Denotes n) (hn : n.natAbs < 10 ^ Display.wholeDigits) :
    v.display = toString n := by
  obtain ⟨s, m, rfl, hm, hs⟩ := h.exists_finite
  rw [← ofList_intText]
  unfold display
  dsimp only
  congr 1
  by_cases h0 : n = 0
  · -- either zero, and the sign of neither is shown
    subst h0
    rw [hm, Int.natAbs_zero, Nat.zero_mul, if_pos rfl]
    rfl
  · have hu : m.units ≠ 0 := by
      rw [hm]
      exact Nat.mul_ne_zero (Int.natAbs_ne_zero.2 h0) unitsPerOne_pos.ne'
    have hw : m.isWhole = true := by simp [Magnitude.isWhole, hm]
    rw [if_neg hu, if_neg (not_isScientific_of_whole hm hn), if_pos hw, intText,
      eq_decide_of_signed hs h0, Display.whole, hm, Nat.mul_div_cancel _ unitsPerOne_pos]

end Double

end Calculator
