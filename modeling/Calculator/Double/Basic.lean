/-
**Double-precision numbers.**

Every finite double is a whole number of *units*, the unit being the least positive double
`2 ^ (-1074)`.  A magnitude is therefore a natural number of units, and the format says which
naturals occur: those whose binary expansion has at most 53 significant digits, below `2 ^ 1024`.
Both conditions are fields of `Magnitude`, so that a value of type `Double` is a number of the
format by construction and arithmetic on it is arithmetic on natural numbers.

Main definitions:

* `Calculator.spacing` — the gap between neighbouring doubles about a magnitude;
* `Calculator.Magnitude` — the finite magnitudes of the format, in units;
* `Calculator.Double` — one NaN, two infinities, and the signed finite numbers, `-0` among them;
* `Calculator.Double.signedUnits?` — the exact value of a finite number.

Main results:

* `Calculator.spacing_dvd_mul_two_pow` — a number of at most 53 bits, shifted to the left, is a
  magnitude of the format.
-/

namespace Calculator

-- Powers are the ones of the numbers themselves, also where more general ones are at hand.
attribute [local instance (high)] instPowNat

/-! ### Units -/

/-- The number of places of a unit, which are as many in binary as in decimal. -/
def unitPlaces : Nat := 1074

/-- The number of units in one. -/
def unitsPerOne : Nat := 2 ^ unitPlaces

/-- The least power of two that is no finite double, `2 ^ 1024`, in units. -/
def overflowUnits : Nat := 2 ^ (1024 + unitPlaces)

theorem overflowUnits_pos : 0 < overflowUnits := Nat.two_pow_pos _

/-- The number of binary digits after the leading one. -/
def fractionBits : Nat := 52

/-- The gap between neighbouring doubles in the binade that holds `units`.  It is one unit in the
lowest binades, where the numbers are equally spaced. -/
def spacing (units : Nat) : Nat := 2 ^ (units.log2 - fractionBits)

theorem spacing_pos (units : Nat) : 0 < spacing units := Nat.two_pow_pos _

/-- **Fifty-three bits fit.**  Shifting a number of at most 53 bits to the left gives a multiple of
the spacing about the result; `2 ^ 53` itself fits as well, because it is a power of two. -/
theorem spacing_dvd_mul_two_pow {k : Nat} (s : Nat) (hk : k ≤ 2 ^ (fractionBits + 1)) :
    spacing (k * 2 ^ s) ∣ k * 2 ^ s := by
  rcases Nat.lt_or_eq_of_le hk with hlt | rfl
  · by_cases h0 : k * 2 ^ s = 0
    · rw [h0]; exact Nat.dvd_zero _
    · have hb : k * 2 ^ s < 2 ^ (fractionBits + 1 + s) := by
        rw [Nat.pow_add]
        exact Nat.mul_lt_mul_of_pos_right hlt (Nat.two_pow_pos s)
      have hl := (Nat.log2_lt h0).2 hb
      exact Nat.dvd_trans (Nat.pow_dvd_pow 2 (by omega)) (Nat.dvd_mul_left _ _)
  · rw [← Nat.pow_add, spacing, Nat.log2_two_pow]
    exact Nat.pow_dvd_pow 2 (by omega)

/-- A magnitude has at most 53 bits above its spacing. -/
theorem div_spacing_lt (units : Nat) : units / spacing units < 2 ^ (fractionBits + 1) := by
  rw [Nat.div_lt_iff_lt_mul (spacing_pos _), spacing, ← Nat.pow_add]
  exact Nat.lt_of_lt_of_le Nat.lt_log2_self (Nat.pow_le_pow_right (by decide) (by omega))

/-! ### Magnitudes -/

/-- A finite magnitude of the format. -/
structure Magnitude where
  /-- How many units it measures. -/
  units : Nat
  aligned : spacing units ∣ units
  bounded : units < overflowUnits
  deriving DecidableEq

namespace Magnitude

@[ext] theorem ext {a b : Magnitude} (h : a.units = b.units) : a = b := by
  cases a; cases b; cases h; rfl

/-- Nothing. -/
def zero : Magnitude := ⟨0, Nat.dvd_zero _, overflowUnits_pos⟩

@[simp] theorem units_zero : zero.units = 0 := rfl

theorem units_eq_zero_iff (m : Magnitude) : m.units = 0 ↔ m = zero :=
  ⟨fun h => ext h, fun h => h ▸ rfl⟩

/-- A magnitude is whole if it is a multiple of one. -/
def isWhole (m : Magnitude) : Bool := m.units % unitsPerOne = 0

end Magnitude

/-! ### Doubles -/

/-- A double-precision number.  Zero has a sign, and all NaNs are one. -/
inductive Double where
  | nan
  | infinite (negative : Bool)
  | finite (negative : Bool) (magnitude : Magnitude)
  deriving DecidableEq

/-- The integer with the given sign and absolute value. -/
def signed : Bool → Nat → Int
  | true, n => -n
  | false, n => n

@[simp] theorem natAbs_signed (s : Bool) (n : Nat) : (signed s n).natAbs = n := by
  cases s <;> simp [signed]

namespace Double

/-- The zero of either sign. -/
def zero (negative : Bool) : Double := .finite negative .zero

/-- The exact value in units; infinities and NaN have none. -/
def signedUnits? : Double → Option Int
  | .finite s m => some (signed s m.units)
  | _ => none

/-- Both zeros count as zero. -/
def isZero : Double → Bool
  | .finite _ m => m.units = 0
  | _ => false

@[simp] theorem isZero_zero (s : Bool) : (zero s).isZero = true := rfl

/-- Changing the sign is exact and also applies to zeros and infinities. -/
def neg : Double → Double
  | .nan => .nan
  | .infinite s => .infinite !s
  | .finite s m => .finite (!s) m

instance : Neg Double := ⟨neg⟩

@[simp] theorem neg_nan : -Double.nan = Double.nan := rfl
@[simp] theorem neg_infinite (s : Bool) : -Double.infinite s = Double.infinite !s := rfl
@[simp] theorem neg_finite (s : Bool) (m : Magnitude) :
    -Double.finite s m = Double.finite (!s) m := rfl

@[simp] theorem neg_neg (v : Double) : - -v = v := by cases v <;> simp

end Double

end Calculator
