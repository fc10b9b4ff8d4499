/-
**Reading a display.**

A display is read as what it says: a numeral as the rational number it denotes, an exponent as a
power of ten, a minus sign as the opposite and `Infinity` as a number above all others.  The reader
knows nothing of how displays are made, so that what it reads can be compared with the result that
was displayed.

Main definitions:

* `Calculator.Display.Extended` — a rational number or an infinity;
* `Calculator.Display.number?` — **the number that a display says**;
* `Calculator.Display.shown` — the number that is shown for a magnitude;
* `Calculator.Double.extended?` — the number behind a double.

Main results:

* `Calculator.Display.number?_display_finite`, `Calculator.Display.number?_display_infinite` — what
  is read from the display of a result.
-/

import Calculator.Proofs.Display.Notation
import Mathlib.Order.WithBot
import Mathlib.Data.List.TakeWhile

set_option relaxedAutoImplicit false
set_option autoImplicit false

namespace Calculator

attribute [local instance (high)] instPowNat

namespace Display

/-! ### Numbers -/

/-- A rational number or an infinity. -/
abbrev Extended := WithBot (WithTop ℚ)

/-- The number with the given sign and absolute value. -/
def Extended.ofSign : Bool → WithTop ℚ → Extended
  | false, x => x
  | true, none => ⊥
  | true, some x => ((-x : ℚ) : WithTop ℚ)

/-- A rational number as an extended one. -/
def Extended.ofRat (x : ℚ) : Extended := (x : WithTop ℚ)

/-- The rational number with the given sign and absolute value. -/
def withSign (negative : Bool) (x : ℚ) : ℚ := if negative then -x else x

theorem ofSign_coe (negative : Bool) (x : ℚ) :
    Extended.ofSign negative (x : WithTop ℚ) = .ofRat (withSign negative x) := by
  cases negative with
  | false => rfl
  | true => rfl

theorem ofRat_le_ofRat_iff {x y : ℚ} : Extended.ofRat x ≤ .ofRat y ↔ x ≤ y := by
  rw [Extended.ofRat, Extended.ofRat, WithBot.coe_le_coe, WithTop.coe_le_coe]

/-- Of the infinities exactly the negative one is below the rational numbers. -/
theorem ofSign_top_le_ofRat_iff {negative : Bool} {x : ℚ} :
    Extended.ofSign negative ⊤ ≤ .ofRat x ↔ negative = true := by
  cases negative with
  | false =>
      constructor
      · intro h
        exact absurd (WithBot.coe_le_coe.1 h) (not_le.2 (WithTop.coe_lt_top x))
      · intro h
        cases h
  | true => exact ⟨fun _ => rfl, fun _ => bot_le⟩

/-- And exactly the positive one is above them. -/
theorem ofRat_le_ofSign_top_iff {negative : Bool} {x : ℚ} :
    Extended.ofRat x ≤ .ofSign negative ⊤ ↔ negative = false := by
  cases negative with
  | false => exact ⟨fun _ => rfl, fun _ => WithBot.coe_le_coe.2 le_top⟩
  | true =>
      constructor
      · intro h
        exact absurd h (WithBot.not_coe_le_bot _)
      · intro h
        cases h

theorem ofRat_inj {x y : ℚ} : Extended.ofRat x = .ofRat y ↔ x = y := by
  rw [Extended.ofRat, Extended.ofRat, WithBot.coe_inj, WithTop.coe_inj]

/-! ### The reader -/

/-- The number of digits. -/
def natural? (text : List Char) : Option Nat :=
  if text ≠ [] ∧ text.all Char.isDigit then some (Nat.ofDigitChars 10 text 0) else none

/-- The integer of digits with a minus sign, possibly. -/
def integer? : List Char → Option Int
  | '-' :: text => (natural? text).map fun (n : Nat) => -(n : Int)
  | text => (natural? text).map fun (n : Nat) => (n : Int)

/-- The number of a text without a sign. -/
def absolute? (text : List Char) : Option (WithTop ℚ) :=
  if text = "Infinity".toList then some ⊤
  else
    match text.dropWhile (· ≠ 'E') with
    | [] => (Decimal.ofLiteral? text).map fun d => (d.value : WithTop ℚ)
    | _ :: exponent =>
        (Decimal.ofLiteral? (text.takeWhile (· ≠ 'E'))).bind fun d =>
          (integer? exponent).map fun e => ((d.value * (10 : ℚ) ^ e : ℚ) : WithTop ℚ)

/-- The number of a text with a sign, possibly. -/
def signed? : List Char → Option Extended
  | '-' :: text => (absolute? text).map (Extended.ofSign true)
  | text => (absolute? text).map (Extended.ofSign false)

/-- **The number that a display says**, if it says any. -/
def number? (display : String) : Option Extended := signed? display.toList

/-! ### Integers -/

theorem natural?_toDigits (n : Nat) : natural? (Nat.toDigits 10 n) = some n := by
  have hd : (Nat.toDigits 10 n).all Char.isDigit = true :=
    List.all_eq_true.2 fun c hc => isDigit_toDigits hc
  rw [natural?, if_pos ⟨Nat.toDigits_ne_nil, hd⟩, Nat.ofDigitChars_ten_toDigits]

theorem integer?_intText (n : Int) : integer? (intText n) = some n := by
  unfold intText signText
  by_cases h : n < 0
  · rw [decide_eq_true h, if_pos rfl, List.singleton_append, integer?, natural?_toDigits,
      Option.map_some]
    congr 1
    omega
  · rw [decide_eq_false h, if_neg (by decide), List.nil_append]
    have hn : natural? (Nat.toDigits 10 n.natAbs) = some n.natAbs := natural?_toDigits _
    cases hdig : Nat.toDigits 10 n.natAbs with
    | nil => exact absurd hdig Nat.toDigits_ne_nil
    | cons c rest =>
        have hc : c ≠ '-' := by
          rintro rfl
          have hm : '-' ∈ Nat.toDigits 10 n.natAbs := by rw [hdig]; exact List.mem_cons_self
          exact absurd (isDigit_toDigits hm) (by decide)
        rw [hdig] at hn
        unfold integer?
        split
        · next heq => exact absurd (List.cons.inj heq).1 hc
        · rw [hn, Option.map_some]
          congr 1
          omega

/-! ### The two notations -/

section

variable {text rest : List Char} {d : Decimal}

theorem ne_of_numeral (h : Expression.Numeral text d) {c : Char} (hc : c ∈ text) :
    c ≠ 'E' ∧ c ≠ 'I' ∧ c ≠ '-' := by
  have hl := h.isLiteralChar c hc
  refine ⟨?_, ?_, ?_⟩ <;>
    · rintro rfl
      exact absurd hl (by decide)

/-- A text that starts like a numeral does not start like an infinity or a negative number. -/
theorem head_of_numeral (h : Expression.Numeral text d) (rest : List Char) :
    ∃ c tail, text ++ rest = c :: tail ∧ c ≠ 'I' ∧ c ≠ '-' := by
  cases ht : text with
  | nil => exact absurd ht h.ne_nil
  | cons c tail =>
      have hc := ne_of_numeral h (c := c) (by rw [ht]; exact List.mem_cons_self)
      exact ⟨c, tail ++ rest, rfl, hc.2.1, hc.2.2⟩

theorem ne_infinity_of_numeral (h : Expression.Numeral text d) (rest : List Char) :
    text ++ rest ≠ "Infinity".toList := by
  obtain ⟨c, tail, ht, hI, -⟩ := head_of_numeral h rest
  rw [ht]
  intro heq
  exact hI (List.cons.inj heq).1

theorem absolute?_numeral (h : Expression.Numeral text d) :
    absolute? text = some (d.value : WithTop ℚ) := by
  have hE : ∀ c ∈ text, decide (c ≠ 'E') = true := fun c hc => decide_eq_true (ne_of_numeral h hc).1
  have hdrop : text.dropWhile (· ≠ 'E') = [] := List.dropWhile_eq_nil_iff.2 hE
  have hne := ne_infinity_of_numeral h []
  rw [List.append_nil] at hne
  unfold absolute?
  rw [if_neg hne, hdrop]
  dsimp only
  rw [Expression.ofLiteral?_eq_some_iff.2 h, Option.map_some]

theorem absolute?_exponent (h : Expression.Numeral text d) (e : Int) :
    absolute? (text ++ 'E' :: intText e) = some ((d.value * (10 : ℚ) ^ e : ℚ) : WithTop ℚ) := by
  have hE : ∀ c ∈ text, decide (c ≠ 'E') = true := fun c hc => decide_eq_true (ne_of_numeral h hc).1
  have hdrop : (text ++ 'E' :: intText e).dropWhile (· ≠ 'E') = 'E' :: intText e := by
    rw [List.dropWhile_append_of_pos hE]
    simp
  have htake : (text ++ 'E' :: intText e).takeWhile (· ≠ 'E') = text := by
    rw [List.takeWhile_append_of_pos hE]
    simp
  unfold absolute?
  rw [if_neg (ne_infinity_of_numeral h _), hdrop, htake]
  dsimp only
  rw [Expression.ofLiteral?_eq_some_iff.2 h, integer?_intText]
  rfl

theorem signed?_signText (h : Expression.Numeral text d) (negative : Bool) (rest : List Char) :
    signed? (signText negative ++ (text ++ rest)) =
      (absolute? (text ++ rest)).map (Extended.ofSign negative) := by
  obtain ⟨c, tail, ht, -, hm⟩ := head_of_numeral h rest
  rw [ht]
  cases negative with
  | true => rfl
  | false =>
      change signed? (c :: tail) = _
      unfold signed?
      split
      · next heq => exact absurd (List.cons.inj heq).1 hm
      · rfl

end

example : number? "-2.50E1" = some (.ofRat (-25)) := by decide +kernel

/-! ### Displays -/

/-- The number that is shown for a magnitude. -/
def shown (m : Magnitude) : ℚ :=
  if IsScientific m then leading m.shortest * lastPlace m.shortest
  else places m / 10 ^ decimalPlaces

/-- The display of a magnitude starts with a numeral and says the number that is shown. -/
theorem exists_numeral_unsigned (m : Magnitude) :
    ∃ text d rest, unsigned m = text ++ rest ∧ Expression.Numeral text d ∧
      absolute? (text ++ rest) = some (shown m : WithTop ℚ) := by
  unfold unsigned shown
  by_cases hs : IsScientific m
  · obtain ⟨text, d, htext, hn, hv⟩ := exists_numeral_scientific m.shortest
    refine ⟨text, d, _, by rw [if_pos hs, htext], hn, ?_⟩
    rw [absolute?_exponent hn, hv, if_pos hs]
  · obtain ⟨d, hn, hv⟩ := exists_numeral_plain (places m)
    refine ⟨_, d, [], by rw [if_neg hs, List.append_nil], hn, ?_⟩
    rw [List.append_nil, absolute?_numeral hn, hv, if_neg hs]

/-- Zero is shown as such. -/
theorem shown_of_units_eq_zero {m : Magnitude} (h : m.units = 0) : shown m = 0 := by
  have hs : ¬ IsScientific m := fun hs => hs.1 h
  have hw : m.isWhole = true := by simp [Magnitude.isWhole, h]
  rw [shown, if_neg hs, places_of_isWhole hw, h]
  simp

/-- What is read from the display of a finite number. -/
theorem number?_display_finite (negative : Bool) (m : Magnitude) :
    number? (Double.finite negative m).display = some (.ofRat (withSign negative (shown m))) := by
  obtain ⟨text, d, rest, htext, hn, hv⟩ := exists_numeral_unsigned m
  have hsign : withSign (shownSign negative m) (shown m) = withSign negative (shown m) := by
    by_cases h0 : m.units = 0
    · rw [shown_of_units_eq_zero h0, withSign, withSign, neg_zero, ite_self, ite_self]
    · rw [shownSign_of_ne_zero _ h0]
  rw [Double.display_finite, number?, String.toList_ofList, htext, signed?_signText hn, hv,
    Option.map_some, ofSign_coe, hsign]

/-- What is read from the display of an infinity. -/
theorem number?_display_infinite (negative : Bool) :
    number? (Double.infinite negative).display = some (.ofSign negative ⊤) := by
  cases negative with
  | false => rfl
  | true => rfl

end Display

/-! ### The number behind a double -/

open Display in
/-- The number behind a double; NaN has none. -/
def Double.extended? : Double → Option Extended
  | .nan => none
  | .infinite negative => some (.ofSign negative ⊤)
  | .finite negative m => some (.ofRat (withSign negative m.value))

/-- Doubles are ordered by the numbers behind them: both zeros are equal, and NaN is below and above
nothing. -/
instance : LE Double :=
  ⟨fun v w => ∃ x ∈ v.extended?, ∃ y ∈ w.extended?, x ≤ y⟩

end Calculator
