/-
**The decimal that is printed.**

A display is made from the text of the double, which is read as a decimal with a sign.  The text has
the digits of the shortest decimal, and positional notation adds a zero behind the point if there is
nothing else, and the zeros before it that are missing.  What is read is the same number again, and
has no more digits than are ever needed to tell doubles apart.

Main definitions:

* `Calculator.Magnitude.Prints` — the shortest decimal, possibly with more zeros at its end;
* `Calculator.Decimal.ofText?` — the sign and the decimal of a text.

Main results:

* `Calculator.Decimal.ofMagnitude?_exponential`, `Calculator.Decimal.exists_numeral_positional` —
  the two notations are read back;
* `Calculator.Double.exists_ofText?_text` — **the text of a double is read as a decimal that prints
  it**.
-/

import Calculator.Proofs.Double.Shortest
import Calculator.Proofs.Display.Reading

set_option relaxedAutoImplicit false
set_option autoImplicit false

namespace Calculator

attribute [local instance (high)] instPowNat

/-! ### Decimals that print a magnitude -/

namespace Magnitude

variable {m : Magnitude} {d : Decimal}

/-- The decimal is the shortest one of the magnitude, possibly with more zeros at its end. -/
structure Prints (m : Magnitude) (d : Decimal) : Prop where
  value_eq : d.value = m.shortest.value
  short : d.digits.length ≤ maxDigits

theorem Prints.readsBack (h : m.Prints d) : m.ReadsBack d :=
  m.readsBack_shortest.of_value_eq h.value_eq

end Magnitude

namespace Decimal

open Display (natural?)

/-! ### The reader -/

/-- The integer of digits behind a sign. -/
def exponent? : List Char → Option Int
  | '+' :: digits => (natural? digits).map fun (n : Nat) => (n : Int)
  | '-' :: digits => (natural? digits).map fun (n : Nat) => -(n : Int)
  | digits => (natural? digits).map fun (n : Nat) => (n : Int)

/-- The decimal of a text without a sign: digits around a point, and an exponent possibly. -/
def ofMagnitude? (text : List Char) : Option Decimal :=
  (ofLiteral? (text.takeWhile (· ≠ 'e'))).bind fun d =>
    match text.dropWhile (· ≠ 'e') with
    | [] => some d
    | _ :: rest => (exponent? rest).map fun e => ⟨d.coefficient, d.exponent + e⟩

/-- The sign and the decimal of a text. -/
def ofText? : List Char → Option (Bool × Decimal)
  | '-' :: text => (ofMagnitude? text).map fun d => (true, d)
  | text => (ofMagnitude? text).map fun d => (false, d)

example : ofText? "-1.50e-07".toList = some (true, ⟨150, -9⟩) := by decide

variable {d : Decimal} {text : List Char}

/-- A text without an exponent is a literal. -/
theorem ofMagnitude?_of_not_mem (h : 'e' ∉ text) : ofMagnitude? text = ofLiteral? text := by
  have hne : ∀ c ∈ text, decide (c ≠ 'e') = true := by
    intro c mem
    refine decide_eq_true ?_
    rintro rfl
    exact h mem
  unfold ofMagnitude?
  rw [List.takeWhile_eq_self_iff.2 hne, List.dropWhile_eq_nil_iff.2 hne]
  cases ofLiteral? text with
  | none => rfl
  | some d => rfl

/-- An exponent is added. -/
theorem ofMagnitude?_append (h : 'e' ∉ text) (exponent : List Char) :
    ofMagnitude? (text ++ 'e' :: exponent) =
      (ofLiteral? text).bind fun d =>
        (exponent? exponent).map fun e => ⟨d.coefficient, d.exponent + e⟩ := by
  have hne : ∀ c ∈ text, decide (c ≠ 'e') = true := by
    intro c mem
    refine decide_eq_true ?_
    rintro rfl
    exact h mem
  unfold ofMagnitude?
  rw [List.takeWhile_append_of_pos hne, List.dropWhile_append_of_pos hne]
  simp

/-- The text of an exponent: a sign and at least two digits. -/
def exponentText (e : Int) : List Char :=
  (if e < 0 then '-' else '+') :: padLeft 2 '0' (Nat.toDigits 10 e.natAbs)

theorem exponent?_exponentText (e : Int) : exponent? (exponentText e) = some e := by
  have hread : natural? (padLeft 2 '0' (Nat.toDigits 10 e.natAbs)) = some e.natAbs := by
    have hdigit : (padLeft 2 '0' (Nat.toDigits 10 e.natAbs)).all Char.isDigit = true :=
      List.all_eq_true.2 fun c mem => isDigit_padLeft (fun d hd => isDigit_toDigits hd) mem
    have hne : padLeft 2 '0' (Nat.toDigits 10 e.natAbs) ≠ [] := by
      intro hnil
      exact Nat.toDigits_ne_nil (List.append_eq_nil_iff.1 hnil).2
    rw [natural?, if_pos ⟨hne, hdigit⟩, padLeft, ofDigitChars_concat,
      Nat.ofDigitChars_replicate_zero, Nat.ofDigitChars_ten_toDigits, Nat.mul_zero, Nat.zero_mul,
      Nat.zero_add]
  unfold exponentText
  by_cases h : e < 0
  · rw [if_pos h, exponent?, hread, Option.map_some]
    congr 1
    omega
  · rw [if_neg h, exponent?, hread, Option.map_some]
    congr 1
    omega

theorem not_mem_numeral (h : Expression.Numeral text d) : 'e' ∉ text :=
  fun hmem => absurd (h.isLiteralChar 'e' hmem) (by decide)

/-! ### Exponential notation -/

theorem ofDigitChars_digits (d : Decimal) : Nat.ofDigitChars 10 d.digits 0 = d.coefficient :=
  Nat.ofDigitChars_ten_toDigits

theorem isDigit_digits (d : Decimal) : ∀ c ∈ d.digits, c.isDigit = true :=
  fun _ hc => isDigit_of_mem_digits hc

/-- In exponential notation all digits but the first are behind the point. -/
theorem exists_mantissa (d : Decimal) :
    ∃ mantissa, Expression.Numeral mantissa ⟨d.coefficient, -(d.digits.length - 1 : Nat)⟩ ∧
      d.exponential = mantissa ++ 'e' :: exponentText d.leadingExponent := by
  have hdigit := d.isDigit_digits
  have hvalue := d.ofDigitChars_digits
  have hmark : (if d.leadingExponent < 0 then ['e', '-'] else ['e', '+']) =
      ['e', if d.leadingExponent < 0 then '-' else '+'] := by
    split
    · rfl
    · rfl
  unfold exponential exponentText
  dsimp only
  rw [hmark]
  match hd : d.digits with
  | [] => exact absurd (congrArg List.length hd) d.length_digits_pos.ne'
  | [digit] =>
      rw [hd] at hdigit hvalue
      have hn := Expression.Numeral.whole hdigit (List.cons_ne_nil digit [])
      rw [hvalue] at hn
      exact ⟨[digit], hn, by simp⟩
  | digit :: c :: rest =>
      rw [hd] at hdigit hvalue
      have hfirst : ∀ a ∈ [digit], a.isDigit = true :=
        List.forall_mem_singleton.2 (hdigit digit List.mem_cons_self)
      have hrest : ∀ a ∈ c :: rest, a.isDigit = true :=
        fun a ha => hdigit a (List.mem_cons_of_mem _ ha)
      have hn := Expression.Numeral.pointed hfirst hrest (by simp)
      have hvalue' : Nat.ofDigitChars 10 ([digit] ++ c :: rest) 0 = d.coefficient := hvalue
      rw [hvalue'] at hn
      exact ⟨[digit] ++ '.' :: (c :: rest), hn, by simp⟩

/-- **What is written with an exponent is read as it was.** -/
theorem ofMagnitude?_exponential (d : Decimal) : ofMagnitude? d.exponential = some d := by
  obtain ⟨mantissa, hn, htext⟩ := d.exists_mantissa
  have hpos := d.length_digits_pos
  have hexp : -((d.digits.length - 1 : Nat) : Int) + d.leadingExponent = d.exponent := by
    unfold leadingExponent
    omega
  rw [htext, ofMagnitude?_append (not_mem_numeral hn), Expression.ofLiteral?_eq_some_iff.2 hn,
    Option.bind_some, exponent?_exponentText, Option.map_some, hexp]

/-! ### Positional notation -/

/-- Below one there are zeros before and behind the point. -/
theorem positional_of_neg (h : d.leadingExponent < 0) :
    d.positional = ['0'] ++
      '.' :: (List.replicate ((-d.leadingExponent).toNat - 1) '0' ++ d.digits) := by
  have hlength := d.length_digits_pos
  have hbefore : (d.leadingExponent + 1).toNat = 0 := by omega
  obtain ⟨k, hk⟩ : ∃ k, (-d.leadingExponent).toNat = k + 1 :=
    ⟨(-d.leadingExponent).toNat - 1, by omega⟩
  have hpad : padRight 1 '0' (List.replicate k '0' ++ d.digits) =
      List.replicate k '0' ++ d.digits := by
    refine padRight_of_le ?_ '0'
    rw [List.length_append]
    omega
  unfold positional
  rw [hbefore, hk, Nat.add_sub_cancel, List.replicate_succ]
  change padRight 0 '0' ['0'] ++ '.' :: padRight 1 '0' (List.replicate k '0' ++ d.digits) = _
  rw [hpad, padRight_of_le (Nat.zero_le _)]

/-- If the last digit is before the point, a zero stands behind it. -/
theorem positional_of_le (h : (d.digits.length : Int) ≤ d.leadingExponent + 1) :
    d.positional =
      (d.digits ++ List.replicate ((d.leadingExponent + 1).toNat - d.digits.length) '0') ++
        '.' :: ['0'] := by
  have hlength := d.length_digits_pos
  have hzeros : (-d.leadingExponent).toNat = 0 := by omega
  have hmax : max (d.leadingExponent + 1).toNat 1 = (d.leadingExponent + 1).toNat := by omega
  have hle : d.digits.length ≤ (d.leadingExponent + 1).toNat := by omega
  unfold positional
  dsimp only
  rw [hzeros, hmax, List.replicate_zero, List.nil_append, List.take_of_length_le hle,
    List.drop_of_length_le hle]
  rfl

/-- Otherwise the point is among the digits. -/
theorem positional_of_lt (h : 0 ≤ d.leadingExponent)
    (hlt : d.leadingExponent + 1 < d.digits.length) :
    d.positional = d.digits.take (d.leadingExponent + 1).toNat ++
      '.' :: d.digits.drop (d.leadingExponent + 1).toNat := by
  have hzeros : (-d.leadingExponent).toNat = 0 := by omega
  have hmax : max (d.leadingExponent + 1).toNat 1 = (d.leadingExponent + 1).toNat := by omega
  have hfull : (d.leadingExponent + 1).toNat ≤
      (d.digits.take (d.leadingExponent + 1).toNat).length := by
    rw [List.length_take]
    omega
  have hrest : 1 ≤ (d.digits.drop (d.leadingExponent + 1).toNat).length := by
    rw [List.length_drop]
    omega
  unfold positional
  dsimp only
  rw [hzeros, hmax, List.replicate_zero, List.nil_append, padRight_of_le hfull,
    padRight_of_le hrest]

theorem numeral_positional_of_neg (h : d.leadingExponent < 0) :
    Expression.Numeral d.positional d := by
  obtain ⟨n, hn⟩ : ∃ n, (-d.leadingExponent).toNat - 1 = n := ⟨_, rfl⟩
  have hnum := Expression.Numeral.pointed (isDigit_zeros 1)
    (isDigit_append (isDigit_zeros n) d.isDigit_digits) (by simp)
  have hcoef : Nat.ofDigitChars 10 (List.replicate 1 '0' ++ (List.replicate n '0' ++ d.digits)) 0 =
      d.coefficient := by
    rw [← List.append_assoc, List.replicate_append_replicate, ofDigitChars_concat,
      Nat.ofDigitChars_replicate_zero, Nat.mul_zero, Nat.zero_mul, Nat.zero_add,
      ofDigitChars_digits]
  have hplaces : -((List.replicate n '0' ++ d.digits).length : Int) = d.exponent := by
    rw [List.length_append, List.length_replicate]
    unfold leadingExponent at h hn
    omega
  rw [hcoef, hplaces] at hnum
  rw [positional_of_neg h, hn]
  exact hnum

theorem numeral_positional_of_lt (h : 0 ≤ d.leadingExponent)
    (hlt : d.leadingExponent + 1 < d.digits.length) : Expression.Numeral d.positional d := by
  have hsplit := List.take_append_drop (d.leadingExponent + 1).toNat d.digits
  have hnum := Expression.Numeral.pointed
    (fun c hc => d.isDigit_digits c (List.mem_of_mem_take hc))
    (fun c hc => d.isDigit_digits c (List.mem_of_mem_drop hc))
    (by rw [hsplit]; exact List.length_pos_iff.1 d.length_digits_pos)
  have hplaces : -((d.digits.drop (d.leadingExponent + 1).toNat).length : Int) = d.exponent := by
    rw [List.length_drop]
    unfold leadingExponent at *
    omega
  rw [hsplit, ofDigitChars_digits, hplaces] at hnum
  rw [positional_of_lt h hlt]
  exact hnum

/-- The zeros up to the point, and the one behind it, are digits of what is read. -/
theorem exists_numeral_positional_of_le (h : (d.digits.length : Int) ≤ d.leadingExponent + 1) :
    ∃ n : Nat, d.exponent = n ∧
      Expression.Numeral d.positional ⟨d.coefficient * 10 ^ (n + 1), -(1 : Nat)⟩ := by
  obtain ⟨n, hn⟩ : ∃ n, (d.leadingExponent + 1).toNat - d.digits.length = n := ⟨_, rfl⟩
  have hnum := Expression.Numeral.pointed (isDigit_append d.isDigit_digits (isDigit_zeros n))
    (isDigit_zeros 1) (by simp)
  have hcoef : Nat.ofDigitChars 10 (d.digits ++ List.replicate n '0' ++ List.replicate 1 '0') 0 =
      d.coefficient * 10 ^ (n + 1) := by
    rw [List.append_assoc, List.replicate_append_replicate, ofDigitChars_concat_zeros,
      ofDigitChars_digits]
  rw [hcoef, List.length_replicate] at hnum
  refine ⟨n, ?_, ?_⟩
  · unfold leadingExponent at h hn
    omega
  · rw [positional_of_le h, hn]
    exact hnum

/-- **What is written positionally is read as the same number**, with a zero more at most than are
before the point. -/
theorem exists_numeral_positional (hlt : d.leadingExponent < 16) (hshort : d.digits.length ≤ 17) :
    ∃ e, Expression.Numeral d.positional e ∧ e.value = d.value ∧ e.digits.length ≤ 17 := by
  rcases Int.lt_or_le d.leadingExponent 0 with hneg | hnonneg
  · exact ⟨d, numeral_positional_of_neg hneg, rfl, hshort⟩
  rcases Int.lt_or_le (d.leadingExponent + 1) d.digits.length with hamong | hbefore
  · exact ⟨d, numeral_positional_of_lt hnonneg hamong, rfl, hshort⟩
  obtain ⟨n, hexponent, hn⟩ := exists_numeral_positional_of_le hbefore
  refine ⟨_, hn, ?_, ?_⟩
  · rw [value_mk_neg, value, hexponent, zpow_natCast]
    push_cast
    field_simp
    ring
  · refine (Nat.length_toDigits_le_iff (by omega) (by omega)).2 ?_
    have hsum : 10 ^ d.digits.length * 10 ^ (n + 1) ≤ 10 ^ 17 := by
      rw [← Nat.pow_add]
      refine Nat.pow_le_pow_right (by omega) ?_
      unfold leadingExponent at hlt
      omega
    exact Nat.lt_of_lt_of_le
      (Nat.mul_lt_mul_of_pos_right d.coefficient_lt (Nat.pow_pos (by omega))) hsum

end Decimal

/-! ### The text of a double -/

namespace Decimal

/-- The sign is read apart from a text that has none. -/
theorem ofText?_signText {c : Char} {rest : List Char} {d : Decimal} (hc : c ≠ '-')
    (h : ofMagnitude? (c :: rest) = some d) (negative : Bool) :
    ofText? (signText negative ++ c :: rest) = some (negative, d) := by
  cases negative with
  | true =>
      change (ofMagnitude? (c :: rest)).map _ = _
      rw [h]
      rfl
  | false =>
      change ofText? (c :: rest) = _
      unfold ofText?
      split
      · next heq => exact absurd (List.cons.inj heq).1 hc
      · rw [h]
        rfl

end Decimal

/-- **The text of a double is read as a decimal that prints it.** -/
theorem Double.exists_ofText?_text (negative : Bool) {m : Magnitude} (h : m.units ≠ 0) :
    ∃ d, Decimal.ofText? (Double.finite negative m).text.toList = some (negative, d) ∧
      m.Prints d := by
  have hshort := Magnitude.length_digits_shortest_le h
  unfold text
  dsimp only
  rw [String.toList_ofList, if_neg h]
  by_cases hrange : -4 ≤ m.shortest.leadingExponent ∧ m.shortest.leadingExponent < 16
  · obtain ⟨d, hn, hvalue, hlength⟩ := Decimal.exists_numeral_positional hrange.2 hshort
    obtain ⟨c, rest, htext, -, hminus⟩ := Display.head_of_numeral hn []
    have hread := (Decimal.ofMagnitude?_of_not_mem (Decimal.not_mem_numeral hn)).trans
      (Expression.ofLiteral?_eq_some_iff.2 hn)
    rw [List.append_nil] at htext
    rw [if_pos hrange, htext]
    rw [htext] at hread
    exact ⟨d, Decimal.ofText?_signText hminus hread negative, hvalue, hlength⟩
  · obtain ⟨mantissa, hn, hexponential⟩ := m.shortest.exists_mantissa
    obtain ⟨c, rest, htext, -, hminus⟩ := Display.head_of_numeral hn
      ('e' :: Decimal.exponentText m.shortest.leadingExponent)
    have hread := m.shortest.ofMagnitude?_exponential
    rw [← hexponential] at htext
    rw [if_neg hrange, htext]
    rw [htext] at hread
    exact ⟨m.shortest, Decimal.ofText?_signText hminus hread negative, rfl, hshort⟩

end Calculator
