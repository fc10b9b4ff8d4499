/-
**The ends of a text.**

Text is filled up to a width at either end, and freed of a character at its right end.

Main definitions:

* `Calculator.padLeft`, `Calculator.padRight` — filled up at the left end, and at the right;
* `Calculator.trimRight` — without a character at its right end.

Main results:

* `Calculator.length_padLeft`, `Calculator.length_padRight` — padding reaches the width and never
  cuts;
* `Calculator.trimRight_append_replicate` — what is trimmed is exactly the run at the end;
* `Calculator.getLast?_trimRight` — a trimmed text does not end in the character.
-/

namespace Calculator

/-! ### Padding -/

/-- Text of at least `width` characters, filled up at its left end. -/
def padLeft (width : Nat) (fill : Char) (text : List Char) : List Char :=
  List.replicate (width - text.length) fill ++ text

/-- Text of at least `width` characters, filled up at its right end. -/
def padRight (width : Nat) (fill : Char) (text : List Char) : List Char :=
  text ++ List.replicate (width - text.length) fill

@[simp] theorem length_padLeft (width : Nat) (fill : Char) (text : List Char) :
    (padLeft width fill text).length = max width text.length := by
  simp [padLeft]
  omega

@[simp] theorem length_padRight (width : Nat) (fill : Char) (text : List Char) :
    (padRight width fill text).length = max width text.length := by
  simp [padRight]
  omega

theorem padLeft_of_le {width : Nat} {text : List Char} (h : width ≤ text.length) (fill : Char) :
    padLeft width fill text = text := by
  simp [padLeft, Nat.sub_eq_zero_of_le h]

theorem padRight_of_le {width : Nat} {text : List Char} (h : width ≤ text.length) (fill : Char) :
    padRight width fill text = text := by
  simp [padRight, Nat.sub_eq_zero_of_le h]

/-! ### Trimming -/

/-- A text without the given character at its right end. -/
def trimRight (c : Char) (text : List Char) : List Char :=
  (text.reverse.dropWhile (· == c)).reverse

@[simp] theorem trimRight_nil (c : Char) : trimRight c [] = [] := rfl

@[simp] theorem trimRight_concat (c d : Char) (text : List Char) :
    trimRight c (text ++ [d]) = if d = c then trimRight c text else text ++ [d] := by
  by_cases h : d = c <;> simp [trimRight, h]

/-- What is trimmed is exactly the run at the end. -/
theorem trimRight_append_replicate (c : Char) (text : List Char) :
    ∃ n, trimRight c text ++ List.replicate n c = text := by
  refine ⟨(text.reverse.takeWhile (· == c)).length, ?_⟩
  have h : text.reverse.takeWhile (· == c) =
      List.replicate (text.reverse.takeWhile (· == c)).length c := by
    refine List.eq_replicate_iff.2 ⟨rfl, fun d hd => ?_⟩
    simpa using List.all_eq_true.1 List.all_takeWhile d hd
  conv => rhs; rw [← List.reverse_reverse text,
    ← List.takeWhile_append_dropWhile (p := (· == c)) (l := text.reverse)]
  rw [List.reverse_append, trimRight]
  congr 1
  rw [h]
  simp

/-- A trimmed text does not end in the character. -/
theorem getLast?_trimRight (c : Char) (text : List Char) :
    (trimRight c text).getLast? ≠ some c := by
  rw [trimRight, List.getLast?_reverse]
  intro h
  have := List.head?_dropWhile_not (· == c) text.reverse
  rw [h] at this
  simp at this

end Calculator
