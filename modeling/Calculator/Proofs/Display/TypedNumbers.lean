/-
**Typed numbers.**

A number of at most fifteen significant digits and ten places shows as it is typed, but for the
zeros that are not needed.  Two facts make that so.  Fifteen digits are few enough for a double: of
the decimals with so many places that are read as the double, no other has so few digits, so that
the shortest decimal of the double is the number that was typed.  And a plain number is written in
one way only, so that what is shown for the number is what remains of the typed text without those
zeros.

Main definitions:

* `Calculator.Literal.whole`, `Calculator.Literal.places` — the digits before the point, and those
  behind it without the zeros at the end;
* `Calculator.Literal.significant` — all digits without the zeros at both ends;
* `Calculator.Literal.canonical` — **the text without the zeros that are not needed**.

Main results:

* `Calculator.Display.PlainForm.eq_of_value_eq` — **a plain number is written in one way only**;
* `Calculator.Literal.plainForm_canonical`, `Calculator.Literal.exists_numeral_canonical` — the
  canonical text is a plain number, and the same one;
* `Calculator.Magnitude.value_shortest_of_short` — **fifteen digits survive**;
* `Calculator.calculate_typed_number` — **a typed number shows as typed**.
-/

import Calculator.Display.Grouping
import Calculator.Proofs.Display.Language

set_option relaxedAutoImplicit false
set_option autoImplicit false

namespace Calculator

attribute [local instance (high)] instPowNat

/-! ### Zeros -/

/-- Zeros in front do not count. -/
theorem ofDigitChars_dropWhile_zero (digits : List Char) :
    Nat.ofDigitChars 10 (digits.dropWhile (· == '0')) 0 = Nat.ofDigitChars 10 digits 0 := by
  induction digits with
  | nil => rfl
  | cons c rest ih =>
      by_cases hc : c = '0'
      · subst hc
        have hzero : '0'.toNat - 48 = 0 := rfl
        rw [List.dropWhile_cons_of_pos (by decide), ih, ofDigitChars_cons_zero, hzero,
          Nat.zero_mul, Nat.zero_add]
      · rw [List.dropWhile_cons_of_neg (by simpa using hc)]

/-- If the last digit is not zero, then it is not dropped with zeros in front. -/
theorem getLast?_dropWhile_zero {digits : List Char} (hne : digits ≠ [])
    (h : digits.getLast? ≠ some '0') :
    digits.dropWhile (· == '0') ≠ [] ∧ (digits.dropWhile (· == '0')).getLast? ≠ some '0' := by
  have hsplit := List.takeWhile_append_dropWhile (p := (· == '0')) (l := digits)
  have hdrop : digits.dropWhile (· == '0') ≠ [] := by
    intro hnil
    have hall := List.dropWhile_eq_nil_iff.1 hnil
    refine h ?_
    rw [List.getLast?_eq_some_getLast hne]
    exact congrArg some (by simpa using hall _ (List.getLast_mem hne))
  refine ⟨hdrop, fun hlast => h ?_⟩
  rw [← hsplit, List.getLast?_append, hlast]
  rfl

/-! ### Plain numbers -/

namespace Display

variable {digits text text' : List Char} {d d' : Decimal}

/-- Digits without needless zeros are those of their number. -/
theorem IsNatural.toDigits_eq (h : IsNatural digits) :
    Nat.toDigits 10 (Nat.ofDigitChars 10 digits 0) = digits := by
  have hpad := padLeft_toDigits h.digit h.ne_nil
  cases digits with
  | nil => exact absurd rfl h.ne_nil
  | cons c rest =>
      by_cases hc : c = '0'
      · rw [h.head (congrArg some hc)]
        rfl
      · have hdigit := toNat_of_isDigit (h.digit c List.mem_cons_self)
        have hne : c.toNat ≠ 48 := fun heq => hc (Char.toNat_inj.1 heq)
        have hlow : 10 ^ rest.length ≤ Nat.ofDigitChars 10 (c :: rest) 0 := by
          rw [ofDigitChars_cons_zero]
          exact Nat.le_add_right_of_le (Nat.le_mul_of_pos_left _ (by omega))
        have hlength : (Nat.toDigits 10 (Nat.ofDigitChars 10 (c :: rest) 0)).length =
            (c :: rest).length :=
          Decimal.length_digits_eq (d := ⟨Nat.ofDigitChars 10 (c :: rest) 0, 0⟩)
            (Nat.succ_pos _) hlow (ofDigitChars_lt h.digit)
        rwa [padLeft_of_le hlength.ge] at hpad

/-- Every plain number counts last places. -/
theorem PlainForm.exists_count (h : PlainForm text) : ∃ count, text = plainNumeral count := by
  cases h with
  | whole natural short =>
      exact ⟨Nat.ofDigitChars 10 text 0 * 10 ^ decimalPlaces, by
        rw [plainNumeral_mul, natural.toDigits_eq]⟩
  | @pointed digits fraction natural short digit ne_nil places last =>
      have hzeros := isDigit_append digit (isDigit_zeros (decimalPlaces - fraction.length))
      have hlength : (fraction ++ List.replicate (decimalPlaces - fraction.length) '0').length =
          decimalPlaces := by
        rw [List.length_append, List.length_replicate]
        exact Nat.add_sub_cancel' places
      have hpad := padLeft_toDigits hzeros (by simp [ne_nil])
      have hlt := ofDigitChars_lt hzeros
      rw [hlength] at hpad hlt
      have hpos : 0 < 10 ^ decimalPlaces := Nat.pow_pos (by omega)
      refine ⟨10 ^ decimalPlaces * Nat.ofDigitChars 10 digits 0 + Nat.ofDigitChars 10
        (fraction ++ List.replicate (decimalPlaces - fraction.length) '0') 0, ?_⟩
      unfold plainNumeral
      dsimp only
      rw [Nat.mul_add_div hpos, Nat.mul_add_mod, Nat.div_eq_of_lt hlt, Nat.mod_eq_of_lt hlt,
        Nat.add_zero, natural.toDigits_eq, hpad, trimRight_append_zeros,
        trimRight_of_getLast? last]
      cases fraction with
      | nil => exact absurd rfl ne_nil
      | cons c rest => rfl

/-- A numeral denotes one decimal only. -/
theorem numeral_unique (h : Expression.Numeral text d) (h' : Expression.Numeral text d') :
    d = d' := by
  rw [← Expression.ofLiteral?_eq_some_iff] at h h'
  exact Option.some.inj (h.symm.trans h')

/-- **A plain number is written in one way only.** -/
theorem PlainForm.eq_of_value_eq (h : PlainForm text) (h' : PlainForm text')
    (hn : Expression.Numeral text d) (hn' : Expression.Numeral text' d')
    (hvalue : d.value = d'.value) : text = text' := by
  obtain ⟨count, rfl⟩ := h.exists_count
  obtain ⟨count', rfl⟩ := h'.exists_count
  obtain ⟨e, he, hev⟩ := exists_numeral_plain count
  obtain ⟨e', he', hev'⟩ := exists_numeral_plain count'
  rw [numeral_unique hn he, numeral_unique hn' he', hev, hev',
    div_left_inj' (by positivity : (10 : ℚ) ^ decimalPlaces ≠ 0)] at hvalue
  rw [show count = count' by exact_mod_cast hvalue]

end Display

/-! ### Literals -/

namespace Literal

open Display (IsNatural PlainForm)
open Expression (Numeral)

/-- The digits before the point. -/
def whole (literal : List Char) : List Char := literal.takeWhile (· ≠ '.')

/-- The digits behind the point, without the zeros at the end. -/
def places (literal : List Char) : List Char :=
  trimRight '0' (literal.dropWhile (· ≠ '.')).tail

/-- All digits, without the zeros at both ends. -/
def significant (literal : List Char) : List Char :=
  trimRight '0' ((literal.filter Char.isDigit).dropWhile (· == '0'))

/-- **The text without the zeros that are not needed**, and without a point if nothing follows
it. -/
def canonical (literal : List Char) : List Char :=
  match places literal with
  | [] => Grouping.canonical (whole literal)
  | fraction => Grouping.canonical (whole literal) ++ '.' :: fraction

example : canonical "007.50".toList = "7.5".toList := by decide

example : significant "0070.50".toList = "705".toList := by decide

variable {literal digits : List Char} {d : Decimal}

/-! ### The digits of a literal -/

/-- Digits without the needless ones in front. -/
theorem isNatural_canonical (h : ∀ c ∈ digits, c.isDigit = true) :
    IsNatural (Grouping.canonical digits) := by
  unfold Grouping.canonical
  cases hdrop : digits.dropWhile (· == '0') with
  | nil => exact ⟨isDigit_zeros 1, List.cons_ne_nil _ _, fun _ => rfl⟩
  | cons c rest =>
      have hmem : ∀ a ∈ c :: rest, a ∈ digits := by
        intro a ha
        rw [← hdrop] at ha
        exact (List.dropWhile_sublist _).mem ha
      refine ⟨fun a ha => h a (hmem a ha), List.cons_ne_nil _ _, fun hzero => ?_⟩
      have hhead := List.head?_dropWhile_not (· == '0') digits
      rw [hdrop, hzero] at hhead
      simp at hhead

theorem ofDigitChars_canonical (digits : List Char) :
    Nat.ofDigitChars 10 (Grouping.canonical digits) 0 = Nat.ofDigitChars 10 digits 0 := by
  rw [← ofDigitChars_dropWhile_zero digits]
  unfold Grouping.canonical
  cases digits.dropWhile (· == '0') with
  | nil => rfl
  | cons c rest => rfl

/-- What a literal consists of: its digits before and behind the point, and zeros at the end. -/
structure Parts (literal : List Char) (d : Decimal) : Prop where
  whole_digit : ∀ c ∈ whole literal, c.isDigit = true
  place_digit : ∀ c ∈ places literal, c.isDigit = true
  last : (places literal).getLast? ≠ some '0'
  zeros : ∃ n, literal.filter Char.isDigit = whole literal ++ places literal ++ List.replicate n '0'
  value_eq : d.value =
    Nat.ofDigitChars 10 (whole literal ++ places literal) 0 / 10 ^ (places literal).length

theorem parts_of_digits {front back : List Char} (hwhole : whole literal = front)
    (hback : (literal.dropWhile (· ≠ '.')).tail = back)
    (hfilter : literal.filter Char.isDigit = front ++ back)
    (hf : ∀ c ∈ front, c.isDigit = true) (hb : ∀ c ∈ back, c.isDigit = true)
    (hvalue : d.value = Nat.ofDigitChars 10 (front ++ back) 0 / 10 ^ back.length) :
    Parts literal d := by
  obtain ⟨n, hn⟩ := trimRight_append_replicate '0' back
  have hplaces : places literal = trimRight '0' back := by
    rw [places, hback]
  have hlength := congrArg List.length hn
  rw [List.length_append, List.length_replicate] at hlength
  refine ⟨by rwa [hwhole], ?_, ?_, ⟨n, ?_⟩, ?_⟩
  · intro c mem
    rw [hplaces] at mem
    refine hb c ?_
    rw [← hn]
    exact List.mem_append_left _ mem
  · rw [hplaces]
    exact getLast?_trimRight '0' back
  · rw [hfilter, hwhole, hplaces, List.append_assoc, hn]
  · rw [hvalue, hwhole, hplaces]
    conv => lhs; rw [← hn, ← List.append_assoc, ofDigitChars_concat_zeros, List.length_append,
      List.length_replicate, pow_add]
    push_cast
    exact mul_div_mul_right _ _ (by positivity)

/-- Every literal has these parts. -/
theorem parts (h : Numeral literal d) : Parts literal d := by
  cases h with
  | whole hdigit hne =>
      obtain ⟨htake, hdrop⟩ := Expression.span_of_digits hdigit [] (by simp)
      rw [List.append_nil] at htake hdrop
      have htail : (literal.dropWhile (· ≠ '.')).tail = [] := by
        rw [hdrop]
        rfl
      refine parts_of_digits htake htail ?_ hdigit (by simp) ?_
      · rw [List.append_nil]
        exact List.filter_eq_self.2 hdigit
      · rw [List.append_nil, List.length_nil, pow_zero, div_one, Decimal.value_mk_zero]
  | @pointed front back hfront hback hne =>
      obtain ⟨htake, hdrop⟩ := Expression.span_of_digits hfront ('.' :: back) (by simp)
      refine parts_of_digits htake (by rw [hdrop]; rfl) ?_ hfront hback ?_
      · rw [List.filter_append, List.filter_eq_self.2 hfront,
          List.filter_cons_of_neg (by decide), List.filter_eq_self.2 hback]
      · rw [Decimal.value_mk_neg]

/-! ### The canonical text -/

/-- The number of the digits that count. -/
def count (literal : List Char) : Nat :=
  Nat.ofDigitChars 10 (whole literal ++ places literal) 0

theorem canonical_of_places_eq_nil (h : places literal = []) :
    canonical literal = Grouping.canonical (whole literal) := by
  unfold canonical
  rw [h]

theorem canonical_of_places_ne_nil (h : places literal ≠ []) :
    canonical literal = Grouping.canonical (whole literal) ++ '.' :: places literal := by
  unfold canonical
  split
  · next hnil => exact absurd hnil h
  · rfl

/-- **The canonical text is the same number.** -/
theorem exists_numeral_canonical (h : Parts literal d) :
    ∃ e, Numeral (canonical literal) e ∧ e.value = d.value := by
  have hnat := isNatural_canonical h.whole_digit
  by_cases hp : places literal = []
  · rw [canonical_of_places_eq_nil hp]
    refine ⟨_, .whole hnat.digit hnat.ne_nil, ?_⟩
    rw [Decimal.value_mk_zero, h.value_eq, hp, List.append_nil, List.length_nil, pow_zero, div_one,
      ofDigitChars_canonical]
  · rw [canonical_of_places_ne_nil hp]
    refine ⟨_, .pointed hnat.digit h.place_digit (by simp [hp]), ?_⟩
    rw [Decimal.value_mk_neg, h.value_eq, ofDigitChars_concat, ofDigitChars_canonical,
      ← ofDigitChars_concat]

/-- **The canonical text is a plain number**, if it is below the bound and has so few places. -/
theorem plainForm_canonical (h : Parts literal d) (hvalue : d.value < 10 ^ 15)
    (hplaces : (places literal).length ≤ 10) : PlainForm (canonical literal) := by
  have hnat := isNatural_canonical h.whole_digit
  have hwhole : Nat.ofDigitChars 10 (whole literal) 0 < 10 ^ 15 := by
    have hle : (Nat.ofDigitChars 10 (whole literal) 0 : ℚ) ≤ d.value := by
      rw [h.value_eq, le_div_iff₀ (by positivity), ofDigitChars_concat]
      exact_mod_cast Nat.le_add_right _ _
    exact_mod_cast hle.trans_lt hvalue
  have hshort : (Grouping.canonical (whole literal)).length ≤ 15 := by
    have hlength := (Nat.length_toDigits_le_iff (b := 10) (k := 15) (by omega) (by omega)).2 hwhole
    rwa [← ofDigitChars_canonical, hnat.toDigits_eq] at hlength
  by_cases hp : places literal = []
  · rw [canonical_of_places_eq_nil hp]
    exact .whole hnat hshort
  · rw [canonical_of_places_ne_nil hp]
    exact .pointed hnat hshort h.place_digit hp hplaces h.last

/-- The digits that count are few. -/
theorem count_lt (h : Parts literal d) (hvalue : d.value < 10 ^ 15)
    (hsignificant : (significant literal).length ≤ 15) : count literal < 10 ^ 15 := by
  by_cases hp : places literal = []
  · rw [h.value_eq, hp, List.length_nil, pow_zero, div_one] at hvalue
    rw [count, hp]
    exact_mod_cast hvalue
  · have hne : whole literal ++ places literal ≠ [] := by simp [hp]
    have hlast : (whole literal ++ places literal).getLast? ≠ some '0' := by
      have hsome := List.getLast?_eq_some_getLast hp
      have hplace := h.last
      rw [hsome] at hplace
      rw [List.getLast?_append, hsome]
      exact hplace
    obtain ⟨hdrop, hkeep⟩ := getLast?_dropWhile_zero hne hlast
    obtain ⟨n, hn⟩ := h.zeros
    have hsame : significant literal = (whole literal ++ places literal).dropWhile (· == '0') := by
      rw [significant, hn, List.dropWhile_append, if_neg (by simpa using hdrop),
        trimRight_append_zeros, trimRight_of_getLast? hkeep]
    have hdigit : ∀ c ∈ significant literal, c.isDigit = true := by
      intro c mem
      rw [hsame] at mem
      rcases List.mem_append.1 ((List.dropWhile_sublist _).mem mem) with hw | hplace
      · exact h.whole_digit c hw
      · exact h.place_digit c hplace
    have hlt := ofDigitChars_lt hdigit
    rw [hsame, ofDigitChars_dropWhile_zero, ← hsame] at hlt
    exact Nat.lt_of_lt_of_le hlt (Nat.pow_le_pow_right (by omega) hsignificant)

end Literal

/-! ### Fifteen digits -/

namespace Magnitude

variable {m : Magnitude} {n places : Nat}

/-- A last place and its tenth are read as different doubles. -/
theorem readUnits_tenth_lt : ∀ places < 11,
    Decimal.readUnits ⟨1, -(places + 1 : Nat)⟩ < Decimal.readUnits ⟨1, -(places : Nat)⟩ := by
  decide +kernel

/-- Numbers of fifteen digits are below a power of two at which a double still tells the last places
apart. -/
theorem exists_pow_two : ∀ places < 11,
    ∃ k < 51, 10 ^ (15 - places) < 2 ^ k ∧ 2 ^ k * 10 ^ places < 2 ^ 53 := by
  decide

/-- What is read from last places is a tenth of one at least. -/
theorem ReadsBack.tenth_le (hr : m.ReadsBack ⟨n, -places⟩) (h0 : n ≠ 0) (hplaces : places ≤ 10) :
    1 / 10 ^ (places + 1) ≤ m.value := by
  refine not_lt.1 fun hlt => ?_
  have htenth : Decimal.value ⟨1, -(places + 1 : Nat)⟩ = 1 / 10 ^ (places + 1) := by
    rw [Decimal.value_mk_neg, Nat.cast_one]
  rw [← htenth, ← m.value_exact] at hlt
  have hbelow := Decimal.readUnits_mono hlt.le
  have hle : Decimal.value ⟨1, -places⟩ ≤ Decimal.value ⟨n, -places⟩ := by
    rw [Decimal.value_mk_neg, Decimal.value_mk_neg]
    refine div_le_div_of_nonneg_right ?_ (by positivity)
    exact_mod_cast Nat.pos_of_ne_zero h0
  have habove := Decimal.readUnits_mono hle
  rw [readsBack_iff.1 m.readsBack_exact] at hbelow
  rw [readsBack_iff.1 hr] at habove
  exact absurd (readUnits_tenth_lt places (by omega))
    (Nat.not_lt.2 (Nat.le_trans habove hbelow))

/-- Two multiples of the last place that are so near to one number are the same. -/
theorem eq_of_near {c k : Nat} {x : ℚ} (hpow : 2 ^ k * 10 ^ places < 2 ^ 53)
    (hn : |x - n / 10 ^ places| ≤ 2 ^ k / 2 ^ 54) (hc : |x - c / 10 ^ places| ≤ 2 ^ k / 2 ^ 54) :
    c = n := by
  have hp : (0 : ℚ) < 10 ^ places := by positivity
  have hstep : (2 : ℚ) ^ k / 2 ^ 54 + 2 ^ k / 2 ^ 54 < 1 / 10 ^ places := by
    have hpow' : (2 : ℚ) ^ k * 10 ^ places < 2 ^ 53 := by exact_mod_cast hpow
    rw [← add_div, div_lt_div_iff₀ (by positivity) hp]
    linarith
  have hdist : |((c : ℚ) - n) / 10 ^ places| < 1 / 10 ^ places := by
    obtain ⟨h1, h2⟩ := abs_le.1 hn
    obtain ⟨h3, h4⟩ := abs_le.1 hc
    rw [sub_div, abs_lt]
    constructor
    · linarith
    · linarith
  rw [abs_div, abs_of_pos hp, div_lt_div_iff_of_pos_right hp] at hdist
  exact eq_of_abs_sub_lt_one hdist

/-- **Fifteen digits survive.**  The shortest decimal of the double has no more places, and both
decimals are closer to the double than half of the last place. -/
theorem value_shortest_of_short (hn : n < 10 ^ 15) (h0 : n ≠ 0) (hplaces : places ≤ 10)
    (hr : m.ReadsBack ⟨n, -places⟩) : m.shortest.value = n / 10 ^ places := by
  have hp : (0 : ℚ) < 10 ^ places := by positivity
  obtain ⟨c, hc⟩ := hasPlaces_shortest_of_tenth (Nat.le_trans hplaces (by decide))
    (hr.tenth_le h0 hplaces) hr
  obtain ⟨k, hk, hlow, hhigh⟩ := exists_pow_two places (by omega)
  have hpow : 2 ^ k ≤ 2 ^ (fractionBits + 1) := Nat.pow_le_pow_right (by omega) (by
    unfold fractionBits
    omega)
  -- the typed number, the double and the shortest decimal are all below the power of two
  have htyped : Decimal.value ⟨n, -places⟩ < ((10 ^ (15 - places) : Nat) : ℚ) := by
    rw [Decimal.value_mk_neg, div_lt_iff₀ hp]
    have hsplit : 10 ^ (15 - places) * 10 ^ places = 10 ^ 15 := by
      rw [← Nat.pow_add]
      congr 1
      omega
    rw [← hsplit] at hn
    exact_mod_cast hn
  have hm : m.value < ((2 ^ k : Nat) : ℚ) := by
    refine lt_of_le_of_lt (not_lt.1 fun hlt => ?_) (Nat.cast_lt.2 hlow)
    have habove := hr.natCast_lt (Nat.le_trans (Nat.le_of_lt hlow) hpow) hlt
    exact absurd htyped habove.not_gt
  have hshort := m.readsBack_shortest.lt_natCast hpow hm
  have hnear := hr.near (k := k) (by exact_mod_cast (htyped.trans (Nat.cast_lt.2 hlow)).le)
  have hnear' := m.readsBack_shortest.near (k := k) (by exact_mod_cast hshort.le)
  rw [Decimal.value_mk_neg] at hnear
  rw [hc] at hnear'
  rw [hc, eq_of_near hhigh hnear hnear']

end Magnitude

/-! ### What is shown -/

open Display

section

variable {m : Magnitude} {d : Decimal} {n k : Nat}

/-- A decimal below the upper bound by one or more is read as a number below it. -/
theorem Decimal.readUnits_lt_upperBound (h : d.value ≤ (10 ^ 15 - 1 : Nat)) :
    d.readUnits < upperBound := by
  have hread := Decimal.readUnits_mono (h.trans_eq (value_mk_zero _).symm)
  have hupper : (10 ^ 15 - 1) * unitsPerOne < upperBound :=
    Nat.mul_lt_mul_of_pos_right (by decide) unitsPerOne_pos
  rw [Magnitude.readUnits_whole (by decide)] at hread
  exact Nat.lt_of_le_of_lt hread hupper

/-- Last places are read as a number that is not below the lower bound. -/
theorem Decimal.lowerBound_le_readUnits (h0 : n ≠ 0) (hk : k ≤ 10) (hd : d.value = n / 10 ^ k) :
    lowerBound ≤ d.readUnits := by
  rw [← readUnits_one_place]
  refine Decimal.readUnits_mono ?_
  have hone : (1 : ℚ) ≤ n := by exact_mod_cast Nat.pos_of_ne_zero h0
  rw [Decimal.value_mk_neg, hd, Nat.cast_one]
  exact div_le_div₀ (by linarith) hone (by positivity) (pow_le_pow_right₀ (by norm_num) hk)

/-- If the shortest decimal has no more places than are shown, then all of them are. -/
theorem Display.value_places_of_shortest (hs : ¬ IsScientific m) (h0 : m.units ≠ 0)
    (hk : k ≤ decimalPlaces) (hshort : m.shortest.value = n / 10 ^ k) :
    (places m : ℚ) / 10 ^ decimalPlaces = n / 10 ^ k := by
  have hwritten : (written m).value = n / 10 ^ k := by
    unfold written
    split
    · next hw =>
        have hsmall : m.value < ((10 ^ wholeDigits : Nat) : ℚ) :=
          Magnitude.value_lt_natCast_iff.2 (lt_upperBound hs)
        have hpow : ((10 ^ wholeDigits : Nat) : ℚ) ≤ 2 ^ (fractionBits + 1) := by
          exact_mod_cast ten_pow_le
        rw [m.value_exact, ← Magnitude.value_shortest_of_isWhole hw h0 (hsmall.trans_le hpow),
          hshort]
    · exact hshort
  have hplaces : (written m).HasPlaces decimalPlaces := by
    refine ⟨n * 10 ^ (decimalPlaces - k), ?_⟩
    have hsplit : (10 : ℚ) ^ decimalPlaces = 10 ^ k * 10 ^ (decimalPlaces - k) := by
      rw [← pow_add, Nat.add_sub_cancel' hk]
    rw [hwritten, hsplit]
    push_cast
    rw [mul_div_mul_right _ _ (by positivity)]
  rw [places, ← hplaces.value_eq, hwritten]

/-- Zero is read as zero. -/
theorem Decimal.readUnits_of_value_eq_zero (h : d.value = 0) : d.readUnits = 0 := by
  have hread := Decimal.readUnits_mono (d := d) (e := ⟨0, 0⟩)
    (by rw [h, Decimal.value_mk_zero, Nat.cast_zero])
  rw [Magnitude.readUnits_whole (Nat.zero_le _), Nat.zero_mul] at hread
  exact Nat.eq_zero_of_le_zero hread

/-- What is typed with so few digits is read as a number in plain notation that shows all of
them. -/
theorem exists_read_of_short (hn : n < 10 ^ 15) (hk : k ≤ 10) (hd : d.value = n / 10 ^ k) :
    ∃ m : Magnitude, m.ReadsBack d ∧ ¬ IsScientific m ∧ (m.units = 0 ↔ d.value = 0) ∧
      (places m : ℚ) / 10 ^ decimalPlaces = d.value := by
  have hp : (0 : ℚ) < 10 ^ k := by positivity
  have hle : d.value ≤ (10 ^ 15 - 1 : Nat) := by
    rw [hd, div_le_iff₀ hp]
    have hone : n * 1 ≤ (10 ^ 15 - 1) * 10 ^ k :=
      Nat.mul_le_mul (by omega) (Nat.pow_pos (by omega))
    rw [Nat.mul_one] at hone
    exact_mod_cast hone
  have hlt := Decimal.readUnits_lt_upperBound hle
  have hover : upperBound < overflowUnits := by decide +kernel
  let m : Magnitude := ⟨d.readUnits, spacing_dvd_nearestUnits _ _, by omega⟩
  have hback : m.ReadsBack d := rfl
  refine ⟨m, hback, ?_⟩
  by_cases h0 : n = 0
  · have hzero : d.value = 0 := by
      rw [hd, h0, Nat.cast_zero, zero_div]
    have hunits : m.units = 0 := Decimal.readUnits_of_value_eq_zero hzero
    have hw : m.isWhole = true := by simp [Magnitude.isWhole, hunits]
    refine ⟨fun hs => hs.1 hunits, iff_of_true hunits hzero, ?_⟩
    rw [places_of_isWhole hw, hunits, Nat.zero_div, Nat.zero_mul, Nat.cast_zero, zero_div, hzero]
  · have hlow : lowerBound ≤ m.units := Decimal.lowerBound_le_readUnits h0 hk hd
    have hunits : m.units ≠ 0 := by
      have hpos := half_lt_lowerBound
      omega
    have hne : d.value ≠ 0 := by
      rw [hd]
      exact div_ne_zero (Nat.cast_ne_zero.2 h0) hp.ne'
    have hs : ¬ IsScientific m := (not_isScientific_iff hunits).2 ⟨hlow, hlt⟩
    have hshort : m.shortest.value = n / 10 ^ k :=
      Magnitude.value_shortest_of_short hn h0 hk
        (hback.of_value_eq (by rw [Decimal.value_mk_neg, hd]))
    refine ⟨hs, iff_of_false hunits hne, ?_⟩
    rw [value_places_of_shortest hs hunits hk hshort, hd]

/-- What is shown for a number of so few digits: zero has no sign. -/
theorem display_of_short {text : List Char} (hn : n < 10 ^ 15)
    (hk : k ≤ 10) (hd : d.value = n / 10 ^ k) (hplain : PlainForm text) {e : Decimal}
    (he : Expression.Numeral text e) (hvalue : e.value = d.value) (negative : Bool) :
    (Double.ofDecimal negative d).display =
      String.ofList (signText (negative && decide (d.value ≠ 0)) ++ text) := by
  obtain ⟨m, hback, hs, hzero, hplaces⟩ := exists_read_of_short hn hk hd
  obtain ⟨e', he', hvalue'⟩ := exists_numeral_plain (places m)
  have htext : plainNumeral (places m) = text :=
    (plainForm_plainNumeral (places_lt hs)).eq_of_value_eq hplain he' he
      (by rw [hvalue', hplaces, hvalue])
  have hsign : shownSign negative m = (negative && decide (d.value ≠ 0)) := by
    by_cases h0 : d.value = 0
    · rw [shownSign_of_eq_zero _ (hzero.2 h0), decide_eq_false (not_not.2 h0), Bool.and_false]
    · rw [shownSign_of_ne_zero _ fun hu => h0 (hzero.1 hu), decide_eq_true h0, Bool.and_true]
  rw [hback.ofDecimal_eq, Double.display_finite, hsign, unsigned, if_neg hs, htext]

end

/-- Zero is written with one digit. -/
theorem eq_zero_of_value_eq {text : List Char} {d : Decimal} (h : PlainForm text)
    (hn : Expression.Numeral text d) (hvalue : d.value = 0) : text = ['0'] := by
  have hdigit : ∀ c ∈ ['0'], c.isDigit = true := isDigit_zeros 1
  have hzero : PlainForm ['0'] :=
    .whole ⟨hdigit, List.cons_ne_nil _ _, fun _ => rfl⟩ (by decide)
  refine h.eq_of_value_eq hzero hn (.whole hdigit (List.cons_ne_nil _ _)) ?_
  rw [hvalue, Decimal.value_mk_zero]
  rfl

/-- **A typed number shows as typed.**  If it is below `10 ^ 15` and has at most fifteen significant
digits and ten places, then what is shown is the only plain number that it can be: the text without
the zeros that are not needed.  A minus sign in front stays, unless the number is zero. -/
theorem calculate_typed_number {literal : List Char} {d : Decimal}
    (h : Expression.Numeral literal d) (hvalue : d.value < 10 ^ 15)
    (hsignificant : (Literal.significant literal).length ≤ 15)
    (hplaces : (Literal.places literal).length ≤ 10) :
    let text := Literal.canonical literal
    (PlainForm text ∧ ∃ e, Expression.Numeral text e ∧ e.value = d.value) ∧
      calculate (String.ofList literal) = String.ofList text ∧
      calculate (String.ofList ('-' :: literal)) =
        if d.value = 0 then "0" else String.ofList ('-' :: text) := by
  intro text
  have hparts := Literal.parts h
  have hcount := Literal.count_lt hparts hvalue hsignificant
  have hplain := Literal.plainForm_canonical hparts hvalue hplaces
  obtain ⟨e, he, hev⟩ := Literal.exists_numeral_canonical hparts
  have hshown := display_of_short hcount hplaces hparts.value_eq hplain he hev
  refine ⟨⟨hplain, e, he, hev⟩, (calculate_numeral h false).trans (hshown false), ?_⟩
  refine (calculate_numeral h true).trans ((hshown true).trans ?_)
  by_cases h0 : d.value = 0
  · have hzero := eq_zero_of_value_eq hplain he (hev.trans h0)
    rw [if_pos h0, decide_eq_false (not_not.2 h0), hzero]
    rfl
  · rw [if_neg h0, decide_eq_true h0]
    rfl

/-- Zeros on both sides of the digits, and none before the point. -/
theorem calculate_typed_number_padded :
    let literal := ".12500".toList
    let d : Decimal := ⟨12500, -5⟩
    (Expression.Numeral literal d ∧ d.value < 10 ^ 15 ∧ (Literal.significant literal).length ≤ 15 ∧
        (Literal.places literal).length ≤ 10) ∧
      calculate (String.ofList literal) = "0.125" ∧
      calculate (String.ofList ('-' :: literal)) = "-0.125" := by
  intro literal d
  have hn : Expression.Numeral literal d := Expression.ofLiteral?_eq_some_iff.1 (by decide)
  have hvalue : d.value = 1 / 8 := by norm_num [d, Decimal.value]
  have hlt : d.value < 10 ^ 15 := by
    rw [hvalue]
    norm_num
  have hne : d.value ≠ 0 := by
    rw [hvalue]
    norm_num
  have hsignificant : (Literal.significant literal).length ≤ 15 := by decide
  have hplaces : (Literal.places literal).length ≤ 10 := by decide
  obtain ⟨-, hshown, hnegative⟩ := calculate_typed_number hn hlt hsignificant hplaces
  rw [if_neg hne] at hnegative
  exact ⟨⟨hn, hlt, hsignificant, hplaces⟩, hshown, hnegative⟩

end Calculator
