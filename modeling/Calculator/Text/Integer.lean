/-
**Integers in text.**

A numeral is an optional minus sign and digits, the first of which is zero only if it is the only
one.  A text that a person writes for an integer is cleaned to a numeral first: white space around
it, a plus sign, zeros in front of the other digits, a point with nothing but zeros after it and
single underscores are dropped, in this order.

Main definitions:

* `Calculator.isWhiteSpace` — white space of any script;
* `Calculator.IntegerFault` — why a text stands for no integer;
* `Calculator.dropPlus?`, `Calculator.dropZeros?`, `Calculator.dropPlaces`,
  `Calculator.dropUnderscores` — cleaning;
* `Calculator.readNumeral` — the integer of a numeral;
* `Calculator.readInteger` — the integer that a text stands for.

Main results:

* `Calculator.readNumeral_toDigits` — the numeral of a natural number is read as that number.
-/

import Calculator.Text.Ends

namespace Calculator

/-! ### White space -/

/-- The inclusive ranges of white space. -/
def whiteSpaceRanges : List (Nat × Nat) :=
  [(0x9, 0xd), (0x20, 0x20), (0x85, 0x85), (0xa0, 0xa0), (0x1680, 0x1680), (0x2000, 0x200a),
    (0x2028, 0x2029), (0x202f, 0x202f), (0x205f, 0x205f), (0x3000, 0x3000)]

/-- The character is white space. -/
def isWhiteSpace (c : Char) : Bool :=
  whiteSpaceRanges.any fun (first, last) => first ≤ c.toNat && c.toNat ≤ last

/-- A text without the white space at its ends. -/
def trimWhiteSpace (text : List Char) : List Char :=
  ((text.dropWhile isWhiteSpace).reverse.dropWhile isWhiteSpace).reverse

/-! ### Faults -/

/-- Why a text stands for no integer. -/
inductive IntegerFault where
  | unreadable
  /-- The number is longer than any that is read. -/
  | oversized
  deriving DecidableEq

/-! ### Cleaning -/

/-- A text without a plus sign in front, which a minus sign may not follow. -/
def dropPlus? : List Char → Option (List Char)
  | '+' :: '-' :: _ => none
  | '+' :: text => some text
  | text => some text

/-- What remains after a zero, of which `last` is the last character.  Further zeros and underscores
are passed over.  If nothing but a point follows them, the last of them is kept. -/
def afterZero? (last : Char) : List Char → Option (List Char)
  | [] => some [last]
  | c :: rest =>
      if c = '0' ∨ c = '_' then afterZero? c rest
      else if c = '.' then some (last :: c :: rest)
      else if c = '-' ∨ c.isDigit then some (c :: rest)
      else none

/-- A text that starts with a digit, without zeros in front, but for the last of them if the number
is zero. -/
def dropLeading? : List Char → Option (List Char)
  | [] => none
  | c :: rest =>
      if c = '0' then afterZero? c rest
      else if c.isDigit then some (c :: rest)
      else none

/-- A text without zeros in front, where a minus sign before them stays. -/
def dropZeros? : List Char → Option (List Char)
  | '-' :: text => (dropLeading? text).map ('-' :: ·)
  | text => dropLeading? text

/-- The text before the first point, if zeros and nothing else follow it. -/
def dropPlaces (text : List Char) : List Char :=
  let places := (text.dropWhile (· != '.')).tail
  if places ≠ [] ∧ places.all (· == '0') then text.takeWhile (· != '.') else text

/-- Two underscores follow each other. -/
def hasDoubleUnderscore : List Char → Bool
  | '_' :: '_' :: _ => true
  | _ :: rest => hasDoubleUnderscore rest
  | [] => false

/-- A text without underscores, if each stands alone and between other characters. -/
def dropUnderscores (text : List Char) : List Char :=
  if text.head? = some '_' ∨ text.getLast? = some '_' ∨ hasDoubleUnderscore text then text
  else text.filter (· != '_')

/-- A text as a numeral, if it can be cleaned. -/
def cleaned? (text : List Char) : Option (List Char) :=
  ((dropPlus? (trimWhiteSpace text)).bind dropZeros?).map fun rest =>
    dropUnderscores (dropPlaces rest)

/-! ### Numerals -/

/-- The most characters that the sign and digits of a numeral may have. -/
def maxNumeralLength : Nat := 4300

/-- The number of digits with a first digit that is zero only if it is the only one.  The first
argument counts the characters before them. -/
def readDigits (before : Nat) (text : List Char) : Except IntegerFault Nat :=
  let digits := text.takeWhile Char.isDigit
  let rest := text.dropWhile Char.isDigit
  match digits with
  | [] => .error .unreadable
  | '0' :: _ => if text = ['0'] then .ok 0 else .error .unreadable
  | _ =>
      if maxNumeralLength < before + digits.length then .error .oversized
      else if rest = [] then .ok (Nat.ofDigitChars 10 digits 0)
      else .error .unreadable

/-- The integer of a numeral. -/
def readNumeral : List Char → Except IntegerFault Int
  | '-' :: digits => (readDigits 1 digits).map fun n => -(n : Int)
  | digits => (readDigits 0 digits).map fun n => (n : Int)

/-- The integer that a text stands for. -/
def readInteger (text : String) : Except IntegerFault Int :=
  match cleaned? text.toList with
  | none => .error .unreadable
  | some numeral => readNumeral numeral

/-- The numeral of a positive number does not begin with zero. -/
theorem head_toDigits {n : Nat} (hn : 0 < n) :
    (Nat.toDigits 10 n).head? ≠ some '0' := by
  induction n using Nat.strongRecOn with
  | ind n ih =>
      by_cases h : n < 10
      · have hs : ∀ m < 10, 0 < m → [Nat.digitChar m].head? ≠ some '0' := by decide
        rw [Nat.toDigits_of_lt_base h]
        exact hs n h hn
      · have hi := ih (n / 10) (by omega) (by omega)
        rw [Nat.toDigits_of_base_le (by decide) (by omega), List.head?_append]
        cases hc : (Nat.toDigits 10 (n / 10)).head? with
        | none => exact absurd (List.head?_eq_none_iff.1 hc) Nat.toDigits_ne_nil
        | some c =>
            rw [hc] at hi
            exact hi

/-- **Numerals are read.**  The numeral of a natural number is read as that number, unless it is too
long. -/
theorem readNumeral_toDigits {n : Nat} (h : (Nat.toDigits 10 n).length ≤ maxNumeralLength) :
    readNumeral (Nat.toDigits 10 n) = .ok (n : Int) := by
  rcases Nat.eq_zero_or_pos n with rfl | hn
  · rfl
  · have hd : ∀ c ∈ Nat.toDigits 10 n, c.isDigit = true :=
      fun c hc => Nat.isDigit_of_mem_toDigits (by decide) (by decide) hc
    have ht : (Nat.toDigits 10 n).takeWhile Char.isDigit = Nat.toDigits 10 n := by
      simpa using (List.takeWhile_append_of_pos hd : (_ ++ []).takeWhile _ = _)
    have hr : (Nat.toDigits 10 n).dropWhile Char.isDigit = [] := by
      simpa using (List.dropWhile_append_of_pos hd : (_ ++ []).dropWhile _ = _)
    have hz := head_toDigits hn
    have hv := Nat.ofDigitChars_toDigits (n := n) (by decide : 1 < 10) (by decide)
    cases hc : Nat.toDigits 10 n with
    | nil => exact absurd hc Nat.toDigits_ne_nil
    | cons c rest =>
        rw [hc] at h hd ht hr hz hv
        have h0 : c ≠ '0' := by simpa using hz
        have hm : c ≠ '-' := by
          rintro rfl
          exact absurd (hd '-' (by simp)) (by decide)
        have hs : readDigits 0 (c :: rest) = .ok n := by
          unfold readDigits
          dsimp only
          rw [ht, hr]
          split
          · simp_all
          · simp_all
          · rw [if_neg (by omega), if_pos rfl, hv]
        unfold readNumeral
        split
        · simp_all
        · rw [hs]; rfl

end Calculator
