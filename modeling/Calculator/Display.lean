/-
**The display.**

A result is shown in the shortest digits that stand for it.  Whole numbers are shown without a
point and others with at most ten decimal places, rounded half away from zero and without trailing
zeros.  Numbers from `10 ^ 15` on, and numbers closer to zero than `10 ^ (-10)` other than zero, are
shown in scientific notation: ten significant digits, cut off and not rounded, a zero, and the
exponent.

Main definitions:

* `Calculator.Display.IsScientific` — the magnitudes shown in scientific notation;
* `Calculator.Display.plainNumeral` — a number of last decimal places as a numeral;
* `Calculator.Display.scientific`, `Calculator.Display.fixed`, `Calculator.Display.whole` — the
  three notations of a magnitude;
* `Calculator.Double.display` — the display of any result.

Main results:

* `Calculator.Display.isScientific_zero` — zero is not shown in scientific notation;
* `Calculator.Double.display_zero` — both zeros are shown alike.
-/

import Calculator.Double.Text

namespace Calculator

-- Powers are the ones of the numbers themselves, also where more general ones are at hand.
attribute [local instance (high)] instPowNat

namespace Display

/-! ### The choice of notation -/

/-- The most digits before the point in plain notation. -/
def wholeDigits : Nat := 15

/-- The most decimal places in plain notation. -/
def decimalPlaces : Nat := 10

/-- The number of significant digits in scientific notation. -/
def significantDigits : Nat := 10

/-- The least magnitude that is too large for plain notation, in units. -/
def upperBound : Nat := 10 ^ wholeDigits * unitsPerOne

/-- The least magnitude that is large enough for plain notation, in units: the double nearest to
`10 ^ (-10)`. -/
def lowerBound : Nat := nearestUnits unitsPerOne (10 ^ decimalPlaces)

/-- The magnitude is shown in scientific notation. -/
def IsScientific (m : Magnitude) : Prop :=
  m.units ≠ 0 ∧ (upperBound ≤ m.units ∨ m.units < lowerBound)

instance (m : Magnitude) : Decidable (IsScientific m) :=
  inferInstanceAs (Decidable (_ ∧ _))

/-- Zero is not shown in scientific notation. -/
theorem isScientific_zero : ¬ IsScientific .zero := fun h => h.1 rfl

/-! ### Notations -/

/-- One digit before the point, the other significant digits and a zero after it, and the
exponent. -/
def scientific (d : Decimal) : List Char :=
  match padRight significantDigits '0' (d.digits.take significantDigits) with
  | [] => []
  | digit :: rest => digit :: '.' :: rest ++ '0' :: 'E' :: intText d.leadingExponent

/-- What counts the last decimal places as a numeral: the whole part, and the places up to the last
that is not zero. -/
def plainNumeral (count : Nat) : List Char :=
  let whole := Nat.toDigits 10 (count / 10 ^ decimalPlaces)
  let places := padLeft decimalPlaces '0' (Nat.toDigits 10 (count % 10 ^ decimalPlaces))
  match trimRight '0' places with
  | [] => whole
  | fraction => whole ++ '.' :: fraction

/-- The numeral of a decimal, rounded to the last decimal place. -/
def fixed (d : Decimal) : List Char := plainNumeral (d.roundHalfUp decimalPlaces)

/-- The numeral of a whole magnitude. -/
def whole (m : Magnitude) : List Char := Nat.toDigits 10 (m.units / unitsPerOne)

end Display

/-! ### Results -/

open Display in
/-- The display of a result. -/
def Double.display : Double → String
  | .nan => "NaN"
  | .infinite negative => String.ofList (signText negative ++ "Infinity".toList)
  | .finite negative m =>
      String.ofList <|
        if m.units = 0 then ['0']
        else if IsScientific m then signText negative ++ scientific m.shortest
        else if m.isWhole then signText negative ++ whole m
        else signText negative ++ fixed m.shortest

/-- Both zeros are shown alike. -/
@[simp] theorem Double.display_zero (negative : Bool) : (Double.zero negative).display = "0" := rfl

end Calculator
