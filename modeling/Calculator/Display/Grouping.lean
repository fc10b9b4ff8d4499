/-
**Thousands separators.**

In every run of digits and points in a text, the digits before the first point are written as a
number: without leading zeros, and with a comma between groups of three digits counted from the
right.  Everything else stays as it is.  Digits of more than 4300 in one number are refused.

Main definitions:

* `Calculator.Grouping.separated` — digits with their separators;
* `Calculator.Grouping.wholePart`, `Calculator.Grouping.run` — the digits before a point, and a run;
* `Calculator.Grouping.text` — all runs of a text;
* `Calculator.withSeparators` — the same on strings.

Main results:

* `Calculator.Grouping.filter_separated` — deleting the separators gives the digits back;
* `Calculator.Grouping.text_of_no_number` — a text without digits and points stays as it is.
-/

import Calculator.Decimal.Basic

namespace Calculator

namespace Grouping

/-! ### Separators -/

/-- Puts a comma after every third character, unless nothing follows it. -/
def everyThird : List Char → List Char
  | a :: b :: c :: d :: rest => a :: b :: c :: ',' :: everyThird (d :: rest)
  | short => short

/-- Digits with a comma between groups of three, counted from the right. -/
def separated (digits : List Char) : List Char := (everyThird digits.reverse).reverse

private theorem filter_everyThird {digits : List Char} (h : ∀ c ∈ digits, c ≠ ',') :
    (everyThird digits).filter (· != ',') = digits := by
  fun_induction everyThird digits with
  | case1 a b c d rest ih =>
      have hd := ih fun e he => h e (by simp only [List.mem_cons] at he ⊢; exact .inr (.inr (.inr he)))
      simp_all
  | case2 short _ => exact List.filter_eq_self.2 fun c hc => by simpa using h c hc

/-- **Nothing is lost.**  Deleting the separators gives the digits back. -/
theorem filter_separated {digits : List Char} (h : ∀ c ∈ digits, c ≠ ',') :
    (separated digits).filter (· != ',') = digits := by
  rw [separated, List.filter_reverse, filter_everyThird fun c hc => h c (List.mem_reverse.1 hc),
    List.reverse_reverse]

/-- A numeral without leading zeros; a single zero stands for all zeros. -/
def canonical (digits : List Char) : List Char :=
  match digits.dropWhile (· == '0') with
  | [] => ['0']
  | significant => significant

/-! ### Numbers -/

/-- The most digits that a whole part may have. -/
def maxDigits : Nat := 4300

/-- A whole part has this many digits, which are too many. -/
structure TooLong where
  digits : Nat
  deriving DecidableEq

/-- What is said about it. -/
def TooLong.message (fault : TooLong) : String :=
  "Exceeds the limit (" ++ toString maxDigits ++
    " digits) for integer string conversion: value has " ++ toString fault.digits ++
    " digits; use sys.set_int_max_str_digits() to increase the limit"

/-- The digits before the first point; there may be none. -/
def wholePart (digits : List Char) : Except TooLong (List Char) :=
  if digits = [] then .ok []
  else if maxDigits < digits.length then .error ⟨digits.length⟩
  else .ok (separated (canonical digits))

/-- A run of digits and points: only what stands before the first point changes. -/
def run (number : List Char) : Except TooLong (List Char) :=
  match wholePart (number.takeWhile (· != '.')) with
  | .error fault => .error fault
  | .ok whole => .ok (whole ++ number.dropWhile (· != '.'))

/-! ### Texts -/

/-- A text that follows the run `number`, which is given in reverse and may be empty. -/
def following (number : List Char) : List Char → Except TooLong (List Char)
  | [] => run number.reverse
  | c :: rest =>
      if isLiteralChar c then following (c :: number) rest
      else
        match run number.reverse with
        | .error fault => .error fault
        | .ok done =>
            match following [] rest with
            | .error fault => .error fault
            | .ok more => .ok (done ++ c :: more)

/-- All runs of a text; the first that is too long counts. -/
def text (text : List Char) : Except TooLong (List Char) := following [] text

/-- A text without digits and points stays as it is. -/
theorem text_of_no_number {t : List Char} (h : ∀ c ∈ t, isLiteralChar c = false) :
    text t = .ok t := by
  unfold text
  induction t with
  | nil => rfl
  | cons c t ih =>
      have hc := h c (by simp)
      have ht := ih fun d hd => h d (by simp [hd])
      simp [following, hc, ht, run, wholePart]

end Grouping

/-- A displayed result, or any text, with thousands separators. -/
def withSeparators (text : String) : Except Grouping.TooLong String :=
  match Grouping.text text.toList with
  | .error fault => .error fault
  | .ok grouped => .ok (String.ofList grouped)

end Calculator
