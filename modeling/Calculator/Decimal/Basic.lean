/-
**Decimals.**

A decimal is a natural number times a power of ten.  It is what a literal denotes and what is
printed; the sign is kept apart, as in `Calculator.Double`.

Main definitions:

* `Calculator.isLiteralChar` — the characters of which numbers are typed;
* `Calculator.Decimal` — a coefficient and an exponent;
* `Calculator.Decimal.numerator`, `Calculator.Decimal.denominator` — its value as a fraction;
* `Calculator.Decimal.digits` — the decimal digits of the coefficient;
* `Calculator.Decimal.leadingExponent` — the power of ten that the first digit counts;
* `Calculator.Decimal.ofLiteral?` — the decimal that a typed literal denotes.

Main results:

* `Calculator.Decimal.roundHalfUp_near` — to the nearest, a half going away from zero;
* `Calculator.Decimal.ofLiteral?_toDigits` — the numeral of a natural number denotes it.
-/

namespace Calculator

-- Powers are the ones of the numbers themselves, also where more general ones are at hand.
attribute [local instance (high)] instPowNat

/-- The characters of which numbers are typed: the ten digits and the point. -/
def isLiteralChar (c : Char) : Bool := c.isDigit || c == '.'

/-- `coefficient * 10 ^ exponent`. -/
structure Decimal where
  coefficient : Nat
  exponent : Int
  deriving DecidableEq

namespace Decimal

/-! ### Value -/

/-- The numerator of the value, written over `denominator`. -/
def numerator (d : Decimal) : Nat := d.coefficient * 10 ^ d.exponent.toNat

/-- The denominator of the value: a power of ten, one unless the exponent is negative. -/
def denominator (d : Decimal) : Nat := 10 ^ (-d.exponent).toNat

theorem denominator_pos (d : Decimal) : 0 < d.denominator := Nat.pow_pos (by omega)

/-- To the nearest multiple of `10 ^ (-places)`, a half going away from zero.  The result counts
those multiples. -/
def roundHalfUp (places : Nat) (d : Decimal) : Nat :=
  (2 * d.numerator * 10 ^ places + d.denominator) / (2 * d.denominator)

/-- **Nearest.**  Rounding moves a value by half a multiple at most, and by exactly half only
away from zero. -/
theorem roundHalfUp_near (places : Nat) (d : Decimal) :
    2 * (d.roundHalfUp places * d.denominator) ≤ 2 * d.numerator * 10 ^ places + d.denominator ∧
      2 * d.numerator * 10 ^ places < 2 * (d.roundHalfUp places * d.denominator) + d.denominator := by
  have hd := d.denominator_pos
  have hq := Nat.div_add_mod' (2 * d.numerator * 10 ^ places + d.denominator) (2 * d.denominator)
  have hr := Nat.mod_lt (2 * d.numerator * 10 ^ places + d.denominator)
    (Nat.mul_pos (by decide : 0 < 2) hd)
  rw [← roundHalfUp, Nat.mul_left_comm] at hq
  omega

/-! ### Digits -/

/-- The digits of the coefficient, the highest first. -/
def digits (d : Decimal) : List Char := Nat.toDigits 10 d.coefficient

theorem isDigit_of_mem_digits {d : Decimal} {c : Char} (h : c ∈ d.digits) : c.isDigit = true :=
  Nat.isDigit_of_mem_toDigits (by omega) (by omega) h

/-- The exponent of the power of ten that the first digit counts. -/
def leadingExponent (d : Decimal) : Int := d.exponent + d.digits.length - 1

/-! ### Literals -/

/-- The decimal denoted by digits with at most one point among, before or after them.  At least one
digit is needed, and any number of leading and trailing zeros is allowed. -/
def ofLiteral? (literal : List Char) : Option Decimal :=
  let whole := literal.takeWhile (· ≠ '.')
  let fraction := (literal.dropWhile (· ≠ '.')).tail
  let digits := whole ++ fraction
  if digits ≠ [] ∧ digits.all Char.isDigit then
    some ⟨Nat.ofDigitChars 10 digits 0, -fraction.length⟩
  else
    none

private theorem ne_point_of_isDigit {c : Char} (h : c.isDigit = true) : c ≠ '.' := by
  rintro rfl; exact absurd h (by decide)

private theorem span_of_isDigit {l : List Char} (h : ∀ c ∈ l, c.isDigit = true) :
    l.takeWhile (· ≠ '.') = l ∧ l.dropWhile (· ≠ '.') = [] := by
  induction l with
  | nil => exact ⟨rfl, rfl⟩
  | cons c l ih =>
      have hc := ne_point_of_isDigit (h c (by simp))
      have hl := ih fun d hd => h d (by simp [hd])
      simpa [hc] using hl

/-- The numeral of a natural number denotes it. -/
theorem ofLiteral?_toDigits (n : Nat) : ofLiteral? (Nat.toDigits 10 n) = some ⟨n, 0⟩ := by
  have hd : ∀ c ∈ Nat.toDigits 10 n, c.isDigit = true :=
    fun c hc => Nat.isDigit_of_mem_toDigits (by omega) (by omega) hc
  obtain ⟨ht, hw⟩ := span_of_isDigit hd
  unfold ofLiteral?
  simp only [ht, hw, List.tail_nil, List.append_nil, List.length_nil]
  rw [if_pos ⟨Nat.toDigits_ne_nil, List.all_eq_true.2 hd⟩,
    Nat.ofDigitChars_toDigits (by omega) (by omega)]
  rfl

end Decimal

end Calculator
