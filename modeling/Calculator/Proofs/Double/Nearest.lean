/-
**Rounding as an order-preserving map.**

Rounding to the nearest double is a step function: it never reverses the order of two fractions,
it moves a fraction by half the spacing at most, and everything within half the spacing of a double
is rounded to it.  These three facts are all that is used of rounding elsewhere; they do not depend
on how ties are broken.

Main results:

* `Calculator.roundEven_mono`, `Calculator.nearestUnits_mono` — **rounding preserves order**;
* `Calculator.nearestUnits_near` — rounding moves a fraction by half the spacing at most;
* `Calculator.nearestUnits_eq_of_below`, `Calculator.nearestUnits_eq_of_above` — what is nearer to
  a double than half the spacing is rounded to it.
-/

import Calculator.Double.Rounding
import Mathlib.Tactic.Linarith
import Mathlib.Tactic.Ring
import Mathlib.Tactic.Positivity
import Mathlib.Tactic.FieldSimp
import Mathlib.Data.Rat.Floor
import Mathlib.Algebra.Order.Floor.Semifield

set_option relaxedAutoImplicit false
set_option autoImplicit false

namespace Calculator

attribute [local instance (high)] instPowNat

/-! ### Quotients -/

/-- **Rounding preserves order.** -/
theorem roundEven_mono {a b c d : Nat} (hb : 0 < b) (hd : 0 < d) (h : a * d ≤ c * b) :
    roundEven a b ≤ roundEven c d := by
  have hq : a / b ≤ c / d := by
    rw [Nat.le_div_iff_mul_le hd]
    refine Nat.le_of_mul_le_mul_right ?_ hb
    calc a / b * d * b = a / b * b * d := by ring
      _ ≤ a * d := Nat.mul_le_mul_right d (Nat.div_mul_le_self a b)
      _ ≤ c * b := h
  rcases Nat.lt_or_eq_of_le hq with hlt | heq
  · have ha := roundEven_le a b
    have hc := le_roundEven c d
    omega
  · -- With equal whole parts the fractional parts are in order, and so are the halves they pass.
    have hr : a % b * d ≤ c % d * b := by
      have ha : a = a / b * b + a % b := (Nat.div_add_mod' a b).symm
      have hc : c = a / b * d + c % d := by rw [heq]; exact (Nat.div_add_mod' c d).symm
      have hs : a / b * b * d + a % b * d ≤ a / b * b * d + c % d * b := by
        calc a / b * b * d + a % b * d = (a / b * b + a % b) * d := by ring
          _ = a * d := by rw [← ha]
          _ ≤ c * b := h
          _ = (a / b * d + c % d) * b := by rw [← hc]
          _ = a / b * b * d + c % d * b := by ring
      exact Nat.le_of_add_le_add_left hs
    have hdown : 2 * (c % d) < d → 2 * (a % b) < b := by
      intro hc
      by_contra ha
      have h1 : b * d ≤ 2 * (a % b) * d := Nat.mul_le_mul_right d (Nat.not_lt.1 ha)
      have h2 : 2 * (c % d) * b < d * b := Nat.mul_lt_mul_of_pos_right hc hb
      nlinarith
    have htie : 2 * (c % d) = d → 2 * (a % b) ≤ b := by
      intro hc
      refine Nat.le_of_mul_le_mul_right ?_ hd
      have h2 : 2 * (c % d) * b = d * b := by rw [hc]
      nlinarith
    unfold roundEven
    dsimp only
    rw [heq]
    split <;> split <;> omega

theorem roundEven_le_of_le {num den k : Nat} (hd : 0 < den) (h : num ≤ k * den) :
    roundEven num den ≤ k := by
  have hm := roundEven_mono hd hd (Nat.mul_le_mul_right den h)
  rwa [roundEven_mul k hd] at hm

theorem le_roundEven_of_le {num den k : Nat} (hd : 0 < den) (h : k * den ≤ num) :
    k ≤ roundEven num den := by
  have hm := roundEven_mono hd hd (Nat.mul_le_mul_right den h)
  rwa [roundEven_mul k hd] at hm

/-! ### The spacing -/

theorem log2_mono {u w : Nat} (h : u ≤ w) : u.log2 ≤ w.log2 := by
  by_cases h0 : u = 0
  · subst h0
    exact Nat.zero_le _
  · exact (Nat.le_log2 (by omega)).2 (Nat.le_trans (Nat.log2_self_le h0) h)

theorem spacing_dvd_spacing {u w : Nat} (h : u ≤ w) : spacing u ∣ spacing w :=
  Nat.pow_dvd_pow 2 (Nat.sub_le_sub_right (log2_mono h) _)

/-- A multiple of the spacing at a place is one of the spacing at any lower place. -/
theorem spacing_dvd_of_le {u w : Nat} (h : u ≤ w) (hw : spacing w ∣ w) : spacing u ∣ w :=
  Nat.dvd_trans (spacing_dvd_spacing h) hw

/-- Neighbours are closer than a fraction `2 ^ (-52)` of what they are neighbours of. -/
theorem lt_mul_spacing (units : Nat) : units < 2 ^ (fractionBits + 1) * spacing units := by
  have h := div_spacing_lt units
  rwa [Nat.div_lt_iff_lt_mul (spacing_pos units)] at h

/-- The spacing stays the same up to the next double. -/
theorem spacing_eq_of_lt {units n : Nat} (ha : spacing units ∣ units) (h : units ≤ n)
    (hn : n < units + spacing units) : spacing n = spacing units := by
  by_cases h0 : units = 0
  · subst h0
    have : n = 0 := by
      have hs : spacing 0 = 1 := rfl
      omega
    rw [this]
  · have hlog : n.log2 = units.log2 := by
      refine Nat.le_antisymm ?_ (log2_mono h)
      refine Nat.lt_succ_iff.1 ((Nat.log2_lt (by omega)).2 (Nat.lt_of_lt_of_le hn ?_))
      -- The next double is a multiple of the spacing, and so is the end of the binade.
      have hb : spacing units ∣ 2 ^ (units.log2 + 1) := Nat.pow_dvd_pow 2 (by omega)
      have hlt : units < 2 ^ (units.log2 + 1) := Nat.lt_log2_self
      obtain ⟨k, hk⟩ := ha
      obtain ⟨l, hl⟩ := hb
      rw [hl] at hlt ⊢
      generalize spacing units = s at hk hlt
      subst hk
      have hkl : k < l := Nat.lt_of_mul_lt_mul_left hlt
      calc s * k + s = s * (k + 1) := by ring
        _ ≤ s * l := Nat.mul_le_mul_left s hkl
    rw [spacing, spacing, hlog]

/-! ### Order -/

section

variable {num den units : Nat}

theorem nearestUnits_le_of_le (hd : 0 < den) (hu : spacing (num / den) ∣ units)
    (h : num ≤ units * den) : nearestUnits num den ≤ units := by
  obtain ⟨k, rfl⟩ := hu
  have hs : 0 < den * spacing (num / den) := Nat.mul_pos hd (spacing_pos _)
  have hk : roundEven num (den * spacing (num / den)) ≤ k := by
    refine roundEven_le_of_le hs (Nat.le_trans h (Nat.le_of_eq ?_))
    ring
  rw [Nat.mul_comm]
  exact Nat.mul_le_mul_right _ hk

theorem le_nearestUnits_of_le (hd : 0 < den) (hu : spacing (num / den) ∣ units)
    (h : units * den ≤ num) : units ≤ nearestUnits num den := by
  obtain ⟨k, rfl⟩ := hu
  have hs : 0 < den * spacing (num / den) := Nat.mul_pos hd (spacing_pos _)
  have hk : k ≤ roundEven num (den * spacing (num / den)) := by
    refine le_roundEven_of_le hs (Nat.le_trans (Nat.le_of_eq ?_) h)
    ring
  rw [Nat.mul_comm]
  exact Nat.mul_le_mul_right _ hk

end

/-- **Rounding to doubles preserves order.**  Two fractions in one binade are rounded to the same
grid; between two binades there is a power of two, which is on either grid. -/
theorem nearestUnits_mono {a b c d : Nat} (hb : 0 < b) (hd : 0 < d) (h : a * d ≤ c * b) :
    nearestUnits a b ≤ nearestUnits c d := by
  have hq : a / b ≤ c / d := by
    rw [Nat.le_div_iff_mul_le hd]
    refine Nat.le_of_mul_le_mul_right ?_ hb
    calc a / b * d * b = a / b * b * d := by ring
      _ ≤ a * d := Nat.mul_le_mul_right d (Nat.div_mul_le_self a b)
      _ ≤ c * b := h
  rcases Nat.lt_or_eq_of_le (log2_mono hq) with hlog | hlog
  · -- The binade of the upper fraction begins between the two.
    have hpos : c / d ≠ 0 := by
      intro h0
      rw [h0] at hlog
      exact absurd hlog (Nat.not_lt_zero _)
    have hlow : a < 2 ^ (c / d).log2 * b := by
      rw [← Nat.div_lt_iff_lt_mul hb]
      by_cases h0 : a / b = 0
      · rw [h0]
        exact Nat.two_pow_pos _
      · exact (Nat.log2_lt h0).1 hlog
    have hhigh : 2 ^ (c / d).log2 * d ≤ c := by
      rw [← Nat.le_div_iff_mul_le hd]
      exact Nat.log2_self_le hpos
    calc nearestUnits a b ≤ 2 ^ (c / d).log2 :=
          nearestUnits_le_of_le hb (Nat.pow_dvd_pow 2 (by omega)) (Nat.le_of_lt hlow)
      _ ≤ nearestUnits c d := le_nearestUnits_of_le hd (Nat.pow_dvd_pow 2 (by omega)) hhigh
  · have hs : spacing (a / b) = spacing (c / d) := by rw [spacing, spacing, hlog]
    unfold nearestUnits
    dsimp only
    rw [hs]
    refine Nat.mul_le_mul_right _ (roundEven_mono (Nat.mul_pos hb (spacing_pos _))
      (Nat.mul_pos hd (spacing_pos _)) ?_)
    calc a * (d * spacing (c / d)) = a * d * spacing (c / d) := by ring
      _ ≤ c * b * spacing (c / d) := Nat.mul_le_mul_right _ h
      _ = c * (b * spacing (c / d)) := by ring

/-- Rounding depends on the value of a fraction only. -/
theorem nearestUnits_congr {a b c d : Nat} (hb : 0 < b) (hd : 0 < d) (h : a * d = c * b) :
    nearestUnits a b = nearestUnits c d :=
  Nat.le_antisymm (nearestUnits_mono hb hd (Nat.le_of_eq h))
    (nearestUnits_mono hd hb (Nat.le_of_eq h.symm))

/-! ### Nearness -/

/-- Whole numbers that are closer than one are the same. -/
theorem eq_of_abs_sub_lt_one {k l : Nat} (h : |(k : ℚ) - l| < 1) : k = l := by
  have hint : |(k : Int) - l| < 1 := by exact_mod_cast h
  rw [Int.abs_lt_one_iff, sub_eq_zero] at hint
  exact Int.ofNat_inj.1 hint

/-- A whole number within a half is nearer than any other one, unless it is a half away. -/
theorem abs_sub_lt_or_eq_half {k n : Nat} {x : ℚ} (h : |(k : ℚ) - x| ≤ 1 / 2) (hn : n ≠ k) :
    |(k : ℚ) - x| < |(n : ℚ) - x| ∨
      |(k : ℚ) - x| = |(n : ℚ) - x| ∧ |(k : ℚ) - x| = 1 / 2 := by
  have hone : 1 ≤ |(n : ℚ) - k| := by
    by_contra hlt
    exact hn (eq_of_abs_sub_lt_one (not_le.1 hlt))
  have htriangle := abs_sub_le (n : ℚ) x k
  rw [abs_sub_comm x k] at htriangle
  rcases lt_or_ge |(k : ℚ) - x| |(n : ℚ) - x| with hlt | hge
  · exact .inl hlt
  · exact .inr ⟨le_antisymm (by linarith) hge, le_antisymm h (by linarith)⟩

section

variable {num den units : Nat}

/-- **Rounding moves a fraction by half the spacing at most.** -/
theorem nearestUnits_near (num : Nat) {den : Nat} (hd : 0 < den) :
    |(nearestUnits num den : ℚ) - num / den| ≤ spacing (num / den) / 2 := by
  have hd' : (0 : ℚ) < den := by exact_mod_cast hd
  obtain ⟨hup, hdown⟩ := roundEven_near num (Nat.mul_pos hd (spacing_pos (num / den)))
  have hn : (nearestUnits num den : ℚ) =
      roundEven num (den * spacing (num / den)) * spacing (num / den) := by
    rw [nearestUnits]
    push_cast
    rfl
  rw [hn]
  generalize roundEven num (den * spacing (num / den)) = k at *
  generalize spacing (num / den) = s at *
  have hup' : 2 * ((k : ℚ) * (den * s)) ≤ 2 * num + den * s := by exact_mod_cast hup
  have hdown' : 2 * (num : ℚ) ≤ 2 * (k * (den * s)) + den * s := by exact_mod_cast hdown
  have hq : (k : ℚ) * s - num / den = (k * (den * s) - num) / den := by field_simp
  rw [hq, abs_div, abs_of_pos hd', div_le_iff₀ hd', abs_le]
  constructor
  · linarith
  · linarith

/-- A number on the grid that is nearer than half the spacing is the nearest. -/
theorem nearestUnits_eq_of_near (hd : 0 < den) (hu : spacing (num / den) ∣ units)
    (h : |(num : ℚ) / den - units| < spacing (num / den) / 2) : nearestUnits num den = units := by
  have hnear := nearestUnits_near num hd
  have hgrid : spacing (num / den) ∣ nearestUnits num den := Nat.dvd_mul_left _ _
  have hs := spacing_pos (num / den)
  generalize nearestUnits num den = n at *
  generalize spacing (num / den) = s at *
  obtain ⟨k, rfl⟩ := hgrid
  obtain ⟨l, rfl⟩ := hu
  have hs' : (0 : ℚ) < s := by exact_mod_cast hs
  have hdist : |((k : ℚ) - l)| * s < 1 * s := by
    rw [← abs_of_pos hs', ← abs_mul, abs_of_pos hs', one_mul]
    push_cast at hnear h
    calc |((k : ℚ) - l) * s| = |((s : ℚ) * k - num / den) + ((num : ℚ) / den - s * l)| := by
          congr 1
          ring
      _ ≤ |(s : ℚ) * k - num / den| + |(num : ℚ) / den - s * l| := abs_add_le _ _
      _ < s := by linarith
  rw [eq_of_abs_sub_lt_one (lt_of_mul_lt_mul_right hdist hs'.le)]

/-- **From below.**  The spacing that counts is the one at the fraction. -/
theorem nearestUnits_eq_of_below (hd : 0 < den) (ha : spacing units ∣ units)
    (hle : (num : ℚ) / den ≤ units) (h : units - (num : ℚ) / den < spacing (num / den) / 2) :
    nearestUnits num den = units := by
  have hfloor : num / den ≤ units := by
    rw [← Nat.floor_div_eq_div (K := ℚ)]
    exact Nat.floor_le_of_le hle
  refine nearestUnits_eq_of_near hd (spacing_dvd_of_le hfloor ha) ?_
  rw [abs_sub_comm, abs_of_nonneg (by linarith)]
  exact h

/-- **From above.**  The spacing that counts is the one at the double. -/
theorem nearestUnits_eq_of_above (hd : 0 < den) (ha : spacing units ∣ units)
    (hle : (units : ℚ) ≤ num / den) (h : (num : ℚ) / den - units < spacing units / 2) :
    nearestUnits num den = units := by
  have hs : (0 : ℚ) < spacing units := by exact_mod_cast spacing_pos units
  have hfloor : units ≤ num / den := by
    rw [← Nat.floor_div_eq_div (K := ℚ)]
    exact Nat.le_floor hle
  -- The fraction is below the next double, and the spacing does not change before that.
  have hnext : num / den < units + spacing units := by
    rw [← Nat.floor_div_eq_div (K := ℚ), Nat.floor_lt (by positivity)]
    push_cast
    linarith
  have heq := spacing_eq_of_lt ha hfloor hnext
  refine nearestUnits_eq_of_near hd (by rwa [heq]) ?_
  rw [heq, abs_of_nonneg (by linarith)]
  exact h

end

end Calculator
