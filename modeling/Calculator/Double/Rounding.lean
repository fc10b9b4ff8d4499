/-
**Rounding to the nearest double.**

Every arithmetic result, every literal and every bit pattern is first an exact fraction of units
and then rounded once.  Rounding chooses the nearest multiple of the spacing, and of two equally
near ones the even multiple; what rounds to `2 ^ 1024` or above is an infinity.

Main definitions:

* `Calculator.roundEven` — a quotient rounded to the nearest natural number, ties to even;
* `Calculator.nearestUnits` — the same on the grid of doubles;
* `Calculator.Double.rounded` — the double nearest to a signed fraction of units;
* `Calculator.Double.ofBits` — the number behind a bit pattern.

Main results:

* `Calculator.roundEven_near`, `Calculator.even_roundEven` — to the nearest, and ties to even;
* `Calculator.spacing_dvd_nearestUnits` — rounding stays on the grid;
* `Calculator.nearestUnits_mul` — what is on the grid already is not changed.
-/

import Calculator.Double.Basic

namespace Calculator

-- Powers are the ones of the numbers themselves, also where more general ones are at hand.
attribute [local instance (high)] instPowNat

/-! ### Quotients -/

/-- `num / den` to the nearest natural number, a half going to the even neighbour. -/
def roundEven (num den : Nat) : Nat :=
  let q := num / den
  let r := num % den
  if 2 * r < den ∨ (2 * r = den ∧ q % 2 = 0) then q else q + 1

theorem roundEven_le (num den : Nat) : roundEven num den ≤ num / den + 1 := by
  unfold roundEven
  dsimp only
  split <;> omega

theorem le_roundEven (num den : Nat) : num / den ≤ roundEven num den := by
  unfold roundEven
  dsimp only
  split <;> omega

/-- **Nearest.**  Rounding moves a quotient by half a unit at most, in either direction. -/
theorem roundEven_near (num : Nat) {den : Nat} (hd : 0 < den) :
    2 * (roundEven num den * den) ≤ 2 * num + den ∧
      2 * num ≤ 2 * (roundEven num den * den) + den := by
  have hq := Nat.div_add_mod' num den
  have hr := Nat.mod_lt num hd
  unfold roundEven
  dsimp only
  split
  · omega
  · rw [Nat.add_mul]
    omega

/-- **Ties to even.**  Half way between two numbers the even one is taken. -/
theorem even_roundEven {num den : Nat} (h : 2 * (num % den) = den) :
    roundEven num den % 2 = 0 := by
  unfold roundEven
  dsimp only
  split <;> omega

/-- A whole quotient stays as it is. -/
@[simp] theorem roundEven_mul (n : Nat) {den : Nat} (hd : 0 < den) :
    roundEven (n * den) den = n := by
  simp [roundEven, Nat.mul_div_cancel n hd, hd]

/-- `num / den` units to the nearest multiple of the spacing that the format has there. -/
def nearestUnits (num den : Nat) : Nat :=
  let step := spacing (num / den)
  roundEven num (den * step) * step

/-- **Rounding stays on the grid.** -/
theorem spacing_dvd_nearestUnits (num den : Nat) :
    spacing (nearestUnits num den) ∣ nearestUnits num den := by
  have hq := div_spacing_lt (num / den)
  have hr := roundEven_le num (den * spacing (num / den))
  rw [Nat.div_div_eq_div_mul] at hq
  exact spacing_dvd_mul_two_pow _ (by omega)

/-- **Rounding is exact on the grid.** -/
theorem nearestUnits_mul {units den : Nat} (h : spacing units ∣ units) (hd : 0 < den) :
    nearestUnits (units * den) den = units := by
  obtain ⟨k, hk⟩ := h
  have hs : 0 < den * spacing units := Nat.mul_pos hd (spacing_pos units)
  have hm : units * den = k * (den * spacing units) := by
    rw [Nat.mul_left_comm, Nat.mul_comm den, Nat.mul_comm k, ← hk]
  unfold nearestUnits
  dsimp only
  rw [Nat.mul_div_cancel units hd, hm, roundEven_mul k hs, Nat.mul_comm, ← hk]

namespace Double

/-! ### Fractions of units -/

/-- The double nearest to `num / den` units with the given sign. -/
def rounded (negative : Bool) (num den : Nat) : Double :=
  if h : nearestUnits num den < overflowUnits then
    .finite negative ⟨nearestUnits num den, spacing_dvd_nearestUnits num den, h⟩
  else
    .infinite negative

@[simp] theorem neg_rounded (s : Bool) (num den : Nat) :
    -rounded s num den = rounded (!s) num den := by
  unfold rounded
  split <;> rfl

/-! ### Bit patterns -/

/-- The number of bits of an exponent. -/
def exponentBits : Nat := 11

/-- The number behind 64 bits: a sign, eleven bits of exponent and 52 of fraction.  Exponent zero
counts units; the highest exponent holds the infinities and the NaNs; in between the fraction is
completed by a leading one and shifted. -/
def ofBits (bits : UInt64) : Double :=
  let negative := bits.toNat / 2 ^ (exponentBits + fractionBits) = 1
  let exponent := bits.toNat / 2 ^ fractionBits % 2 ^ exponentBits
  let fraction := bits.toNat % 2 ^ fractionBits
  if exponent = 2 ^ exponentBits - 1 then
    if fraction = 0 then .infinite negative else .nan
  else if exponent = 0 then
    rounded negative fraction 1
  else
    rounded negative ((2 ^ fractionBits + fraction) * 2 ^ (exponent - 1)) 1

end Double

end Calculator
