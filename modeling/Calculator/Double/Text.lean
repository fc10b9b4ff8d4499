/-
**The text of a double.**

A double is written with the digits of its shortest decimal.  Numbers from `10 ^ (-4)` up to
`10 ^ 16` are written positionally, always with a digit after the point; the others have one digit
before the point and a signed exponent of at least two digits.

Main definitions:

* `Calculator.Decimal.positional` — digits around a point;
* `Calculator.Decimal.exponential` — one digit before the point, and an exponent;
* `Calculator.intText` — the numeral of an integer;
* `Calculator.Double.text` — the text of any double.
-/

import Calculator.Double.Shortest
import Calculator.Text.Ends

namespace Calculator

namespace Decimal

/-- The digits around a point, with at least one digit on either side. -/
def positional (d : Decimal) : List Char :=
  let before := (d.leadingExponent + 1).toNat
  let digits := List.replicate (-d.leadingExponent).toNat '0' ++ d.digits
  let whole := padRight before '0' (digits.take (max before 1))
  whole ++ '.' :: padRight 1 '0' (digits.drop (max before 1))

/-- One digit before the point if more than one digit is needed, and an exponent with a sign and at
least two digits. -/
def exponential (d : Decimal) : List Char :=
  let mark := if d.leadingExponent < 0 then ['e', '-'] else ['e', '+']
  let exponent := padLeft 2 '0' (Nat.toDigits 10 d.leadingExponent.natAbs)
  match d.digits with
  | [] => mark ++ exponent
  | [digit] => digit :: mark ++ exponent
  | digit :: rest => digit :: '.' :: rest ++ mark ++ exponent

end Decimal

/-- The sign in front of a number. -/
def signText (negative : Bool) : List Char := if negative then ['-'] else []

/-- The numeral of an integer. -/
def intText (n : Int) : List Char := signText (n < 0) ++ Nat.toDigits 10 n.natAbs

namespace Double

/-- The text of a double, which reads back as that double. -/
def text : Double → String
  | .nan => "nan"
  | .infinite s => String.ofList (signText s ++ ['i', 'n', 'f'])
  | .finite s m =>
      let d := m.shortest
      String.ofList <| signText s ++
        if m.units = 0 then ['0', '.', '0']
        else if -4 ≤ d.leadingExponent ∧ d.leadingExponent < 16 then d.positional
        else d.exponential

end Double

end Calculator
