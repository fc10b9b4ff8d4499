/-
**Quoted characters.**

A message shows a character in single quotes.  The single quote itself is shown in double quotes,
the backslash is doubled, tab, line feed and carriage return have their letters, and any other
character that is not written as itself is given by its number in two, four or eight hexadecimal
digits.

Main definitions:

* `Calculator.escaped` — what stands between the quotes;
* `Calculator.quoted` — the character with its quotes.

Main results:

* `Calculator.escaped_of_printable` — every other character stands for itself.
-/

import Calculator.Text.Ends
import Calculator.Text.Unprintable

namespace Calculator

/-- A backslash, a letter and the number in at least `width` hexadecimal digits. -/
def hexEscape (letter : Char) (width : Nat) (c : Char) : List Char :=
  '\\' :: letter :: padLeft width '0' (Nat.toDigits 16 c.toNat)

/-- What stands for the character between its quotes. -/
def escaped (c : Char) : List Char :=
  if c = '\\' then ['\\', '\\']
  else if c = '\t' then ['\\', 't']
  else if c = '\n' then ['\\', 'n']
  else if c = '\r' then ['\\', 'r']
  else if isUnprintable c then
    if c.toNat < 0x100 then hexEscape 'x' 2 c
    else if c.toNat < 0x10000 then hexEscape 'u' 4 c
    else hexEscape 'U' 8 c
  else [c]

/-- The character in single quotes, or in double quotes if it is the single quote. -/
def quoted (c : Char) : String :=
  let mark := if c = '\'' then '"' else '\''
  String.ofList (mark :: escaped c ++ [mark])

theorem escaped_of_printable {c : Char} (h : isUnprintable c = false) (hb : c ≠ '\\') :
    escaped c = [c] := by
  have ht : c ≠ '\t' := by
    rintro rfl; exact absurd h (by decide)
  have hn : c ≠ '\n' := by
    rintro rfl; exact absurd h (by decide)
  have hr : c ≠ '\r' := by
    rintro rfl; exact absurd h (by decide)
  simp [escaped, h, hb, ht, hn, hr]

end Calculator
