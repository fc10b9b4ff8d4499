/-
**The two notations as numerals.**

Every display of a finite number is a sign, possibly, and a numeral.  In plain notation the numeral
is determined by how many of the last decimal places the number counts; whole numbers are written in
the same way, as a multiple of one.  In scientific notation it is determined by the first ten digits
and the exponent of the first.

Main definitions:

* `Calculator.Display.leading` — the first ten digits as a number;
* `Calculator.Display.lastPlace` — what the tenth of them counts;
* `Calculator.Display.written` — the decimal that is rounded in plain notation;
* `Calculator.Display.places` — how many of the last places remain after rounding;
* `Calculator.Display.unsigned` — the display of a magnitude without its sign.

Main results:

* `Calculator.eq_of_ofDigitChars_eq`, `Calculator.padLeft_toDigits` — digits and their number;
* `Calculator.Display.exists_numeral_plain` — **a plain numeral denotes the places it counts**;
* `Calculator.Display.leading_mul_le`, `Calculator.Display.value_lt_leading` — the first ten digits
  are what remains if the others are cut off;
* `Calculator.Display.exists_numeral_scientific` — **and the mantissa denotes them**;
* `Calculator.Double.display_finite` — every finite number is displayed in one of the two notations.
-/

import Calculator.Display
import Calculator.Proofs.Double.Coarsest
import Calculator.Proofs.Expression.Grammar

set_option relaxedAutoImplicit false
set_option autoImplicit false

namespace Calculator

attribute [local instance (high)] instPowNat

/-! ### Digits -/

theorem ofDigitChars_concat (front back : List Char) :
    Nat.ofDigitChars 10 (front ++ back) 0 =
      Nat.ofDigitChars 10 front 0 * 10 ^ back.length + Nat.ofDigitChars 10 back 0 := by
  rw [Nat.ofDigitChars_append, Nat.ofDigitChars_eq_ofDigitChars_zero, Nat.mul_comm]

theorem ofDigitChars_concat_zeros (front : List Char) (n : Nat) :
    Nat.ofDigitChars 10 (front ++ List.replicate n '0') 0 =
      Nat.ofDigitChars 10 front 0 * 10 ^ n := by
  rw [ofDigitChars_concat, Nat.ofDigitChars_replicate_zero, List.length_replicate, Nat.mul_zero,
    Nat.add_zero]

theorem toNat_of_isDigit {c : Char} (h : c.isDigit = true) : 48 ≤ c.toNat ∧ c.toNat ≤ 57 := by
  rw [Char.isDigit_iff_toNat] at h
  exact h

theorem ofDigitChars_cons_zero (c : Char) (rest : List Char) :
    Nat.ofDigitChars 10 (c :: rest) 0 =
      (c.toNat - 48) * 10 ^ rest.length + Nat.ofDigitChars 10 rest 0 := by
  have hone : Nat.ofDigitChars 10 [c] 0 = c.toNat - 48 := by
    simp [Nat.ofDigitChars_cons]
  rw [← List.singleton_append, ofDigitChars_concat, hone]

/-- Digits are a number below the power of ten that comes after them. -/
theorem ofDigitChars_lt {digits : List Char} (h : ∀ c ∈ digits, c.isDigit = true) :
    Nat.ofDigitChars 10 digits 0 < 10 ^ digits.length := by
  induction digits with
  | nil => decide
  | cons c rest ih =>
      have hc : c.toNat - 48 < 10 := by
        have hd := toNat_of_isDigit (h c (by simp))
        omega
      have hrest := ih fun d hd => h d (by simp [hd])
      rw [ofDigitChars_cons_zero, List.length_cons, Nat.pow_succ]
      calc (c.toNat - 48) * 10 ^ rest.length + Nat.ofDigitChars 10 rest 0
          < (c.toNat - 48) * 10 ^ rest.length + 10 ^ rest.length := Nat.add_lt_add_left hrest _
        _ = (c.toNat - 48 + 1) * 10 ^ rest.length := by ring
        _ ≤ 10 * 10 ^ rest.length := Nat.mul_le_mul_right _ hc
        _ = 10 ^ rest.length * 10 := Nat.mul_comm _ _

/-- Equally many digits of the same number are the same. -/
theorem eq_of_ofDigitChars_eq {front back : List Char} (hf : ∀ c ∈ front, c.isDigit = true)
    (hb : ∀ c ∈ back, c.isDigit = true) (hlength : front.length = back.length)
    (h : Nat.ofDigitChars 10 front 0 = Nat.ofDigitChars 10 back 0) : front = back := by
  induction front generalizing back with
  | nil => exact (List.eq_nil_of_length_eq_zero hlength.symm).symm
  | cons c rest ih =>
      cases back with
      | nil => cases hlength
      | cons c' rest' =>
          have hrest : ∀ d ∈ rest, d.isDigit = true := fun d hd => hf d (List.mem_cons_of_mem _ hd)
          have hrest' : ∀ d ∈ rest', d.isDigit = true :=
            fun d hd => hb d (List.mem_cons_of_mem _ hd)
          have hsame : rest.length = rest'.length := Nat.succ.inj hlength
          have hlt := ofDigitChars_lt hrest
          have hlt' := ofDigitChars_lt hrest'
          rw [ofDigitChars_cons_zero, ofDigitChars_cons_zero, ← hsame] at h
          rw [← hsame] at hlt'
          have hpos : 0 < 10 ^ rest.length := Nat.pow_pos (by omega)
          have hdiv := congrArg (· / 10 ^ rest.length) h
          have hmod := congrArg (· % 10 ^ rest.length) h
          simp only [Nat.mul_add_mod_self_right, Nat.mod_eq_of_lt hlt,
            Nat.mod_eq_of_lt hlt'] at hmod
          simp only [Nat.mul_comm _ (10 ^ rest.length), Nat.mul_add_div hpos,
            Nat.div_eq_of_lt hlt, Nat.div_eq_of_lt hlt', Nat.add_zero] at hdiv
          have hc := toNat_of_isDigit (hf c List.mem_cons_self)
          have hc' := toNat_of_isDigit (hb c' List.mem_cons_self)
          have hchar : c = c' := Char.toNat_inj.1 (by omega)
          rw [hchar, ih hrest hrest' hsame hmod]

theorem isDigit_toDigits {n : Nat} {c : Char} (h : c ∈ Nat.toDigits 10 n) : c.isDigit = true :=
  Nat.isDigit_of_mem_toDigits (by omega) (by omega) h

theorem isDigit_append {front back : List Char} (hf : ∀ c ∈ front, c.isDigit = true)
    (hb : ∀ c ∈ back, c.isDigit = true) : ∀ c ∈ front ++ back, c.isDigit = true :=
  List.forall_mem_append.2 ⟨hf, hb⟩

theorem isDigit_zeros (n : Nat) : ∀ c ∈ List.replicate n '0', c.isDigit = true := by
  intro c hc
  rw [List.eq_of_mem_replicate hc]
  decide

theorem isDigit_padLeft {width : Nat} {text : List Char} (h : ∀ c ∈ text, c.isDigit = true)
    {c : Char} (hc : c ∈ padLeft width '0' text) : c.isDigit = true :=
  isDigit_append (isDigit_zeros _) h c hc

/-- Digits are those of their number, filled up with zeros. -/
theorem padLeft_toDigits {digits : List Char} (h : ∀ c ∈ digits, c.isDigit = true)
    (hne : digits ≠ []) :
    padLeft digits.length '0' (Nat.toDigits 10 (Nat.ofDigitChars 10 digits 0)) = digits := by
  have hpos := List.length_pos_iff.2 hne
  have hlength : (Nat.toDigits 10 (Nat.ofDigitChars 10 digits 0)).length ≤ digits.length :=
    (Nat.length_toDigits_le_iff (by omega) hpos).2 (ofDigitChars_lt h)
  refine eq_of_ofDigitChars_eq (fun c hc => isDigit_padLeft (fun d hd => isDigit_toDigits hd) hc) h
    ?_ ?_
  · rw [length_padLeft]
    exact Nat.max_eq_left hlength
  · rw [padLeft, ofDigitChars_concat, Nat.ofDigitChars_replicate_zero,
      Nat.ofDigitChars_ten_toDigits, Nat.mul_zero, Nat.zero_mul, Nat.zero_add]

theorem toDigits_of_isDigit {c : Char} (h : c.isDigit = true) :
    Nat.toDigits 10 (c.toNat - 48) = [c] := by
  have hdigit : ∀ d ∈ [c], d.isDigit = true := by
    intro d hd
    rw [List.mem_singleton.1 hd]
    exact h
  have hone := padLeft_toDigits hdigit (List.cons_ne_nil c [])
  rw [List.length_singleton, padLeft_of_le Nat.length_toDigits_pos, ofDigitChars_cons_zero,
    List.length_nil, Nat.pow_zero, Nat.mul_one] at hone
  exact hone

/-! ### Trimming -/

/-- Nothing is trimmed if the text does not end in the character. -/
theorem trimRight_of_getLast? {c : Char} {text : List Char} (h : text.getLast? ≠ some c) :
    trimRight c text = text := by
  rcases List.eq_nil_or_concat' text with rfl | ⟨front, last, rfl⟩
  · rfl
  · rw [List.getLast?_concat] at h
    rw [trimRight_concat, if_neg fun heq => h (congrArg some heq)]

theorem trimRight_append_zeros (c : Char) (text : List Char) (n : Nat) :
    trimRight c (text ++ List.replicate n c) = trimRight c text := by
  induction n with
  | zero => rw [List.replicate_zero, List.append_nil]
  | succ n ih => rw [List.replicate_succ', ← List.append_assoc, trimRight_concat, if_pos rfl, ih]

namespace Display

/-! ### Plain notation -/

/-- A whole number is written without a point. -/
theorem plainNumeral_of_mod_eq_zero {count : Nat} (h : count % 10 ^ decimalPlaces = 0) :
    plainNumeral count = Nat.toDigits 10 (count / 10 ^ decimalPlaces) := by
  have hz : trimRight '0' (padLeft decimalPlaces '0' (Nat.toDigits 10 0)) = [] := by decide
  unfold plainNumeral
  dsimp only
  rw [h, hz]

theorem plainNumeral_mul (n : Nat) : plainNumeral (n * 10 ^ decimalPlaces) = Nat.toDigits 10 n := by
  rw [plainNumeral_of_mod_eq_zero (Nat.mul_mod_left _ _),
    Nat.mul_div_cancel n (Nat.pow_pos (by omega))]

/-- The decimal places of a number of last places. -/
theorem places_spec {r : Nat} (h : r < 10 ^ decimalPlaces) :
    let places := padLeft decimalPlaces '0' (Nat.toDigits 10 r)
    places.length = decimalPlaces ∧ Nat.ofDigitChars 10 places 0 = r ∧
      ∀ c ∈ places, c.isDigit = true := by
  refine ⟨?_, ?_, fun c hc => isDigit_padLeft (fun d hd => isDigit_toDigits hd) hc⟩
  · have hlen := (Nat.length_toDigits_le_iff (b := 10) (k := decimalPlaces) (by omega)
      (by decide)).2 h
    rw [length_padLeft]
    exact Nat.max_eq_left hlen
  · rw [padLeft, ofDigitChars_concat, Nat.ofDigitChars_replicate_zero,
      Nat.ofDigitChars_ten_toDigits, Nat.mul_zero, Nat.zero_mul, Nat.zero_add]

/-- **A plain numeral denotes the places it counts.** -/
theorem exists_numeral_plain (count : Nat) :
    ∃ d, Expression.Numeral (plainNumeral count) d ∧ d.value = count / 10 ^ decimalPlaces := by
  have hpos : 0 < 10 ^ decimalPlaces := Nat.pow_pos (by omega)
  obtain ⟨hlen, hval, hdig⟩ := places_spec (Nat.mod_lt count hpos)
  have hsplit := Nat.div_add_mod' count (10 ^ decimalPlaces)
  have hw : Nat.ofDigitChars 10 (Nat.toDigits 10 (count / 10 ^ decimalPlaces)) 0 =
      count / 10 ^ decimalPlaces := Nat.ofDigitChars_ten_toDigits
  have hwdig : ∀ c ∈ Nat.toDigits 10 (count / 10 ^ decimalPlaces), c.isDigit = true :=
    fun c hc => isDigit_toDigits hc
  have hwne : Nat.toDigits 10 (count / 10 ^ decimalPlaces) ≠ [] := Nat.toDigits_ne_nil
  unfold plainNumeral
  dsimp only
  generalize padLeft decimalPlaces '0' (Nat.toDigits 10 (count % 10 ^ decimalPlaces)) = places at *
  generalize Nat.toDigits 10 (count / 10 ^ decimalPlaces) = front at *
  obtain ⟨k, hk⟩ := trimRight_append_replicate '0' places
  generalize trimRight '0' places = fraction at *
  subst hk
  rw [List.length_append, List.length_replicate] at hlen
  rw [ofDigitChars_concat_zeros] at hval
  -- With the zeros that were trimmed the digits count the last places again.
  have htotal : Nat.ofDigitChars 10 (front ++ fraction) 0 * 10 ^ k = count := by
    rw [ofDigitChars_concat, hw, Nat.add_mul, Nat.mul_assoc, ← Nat.pow_add, hlen, hval, hsplit]
  have hq : (count : ℚ) = Nat.ofDigitChars 10 (front ++ fraction) 0 * 10 ^ k := by
    exact_mod_cast htotal.symm
  have hpow : (10 : ℚ) ^ decimalPlaces = 10 ^ fraction.length * 10 ^ k := by
    rw [← pow_add, hlen]
  have hvalue : (Nat.ofDigitChars 10 (front ++ fraction) 0 : ℚ) / 10 ^ fraction.length =
      count / 10 ^ decimalPlaces := by
    rw [hq, hpow, mul_div_mul_right _ _ (by positivity)]
  cases fraction with
  | nil =>
      refine ⟨_, .whole hwdig hwne, ?_⟩
      rw [List.append_nil, List.length_nil, pow_zero, div_one] at hvalue
      rw [Decimal.value_mk_zero, hvalue]
  | cons c rest =>
      refine ⟨_, .pointed hwdig (fun d hd => hdig d (List.mem_append_left _ hd)) (by simp), ?_⟩
      rw [Decimal.value_mk_neg, hvalue]

/-- A point is written exactly if the number is not whole. -/
theorem point_mem_plainNumeral_iff {count : Nat} :
    '.' ∈ plainNumeral count ↔ count % 10 ^ decimalPlaces ≠ 0 := by
  have hpos : 0 < 10 ^ decimalPlaces := Nat.pow_pos (by omega)
  constructor
  · intro hpoint h
    rw [plainNumeral_of_mod_eq_zero h] at hpoint
    exact absurd (isDigit_toDigits hpoint) (by decide)
  · intro h
    obtain ⟨-, hval, -⟩ := places_spec (Nat.mod_lt count hpos)
    obtain ⟨k, hk⟩ := trimRight_append_replicate '0'
      (padLeft decimalPlaces '0' (Nat.toDigits 10 (count % 10 ^ decimalPlaces)))
    unfold plainNumeral
    dsimp only
    generalize padLeft decimalPlaces '0' _ = places at *
    generalize trimRight '0' places = fraction at *
    cases fraction with
    | nil =>
        rw [← hk, List.nil_append, Nat.ofDigitChars_replicate_zero, Nat.mul_zero] at hval
        exact absurd hval.symm h
    | cons c rest => simp

/-! ### Scientific notation -/

/-- The first ten digits, with zeros for those that are missing. -/
def leadingDigits (d : Decimal) : List Char :=
  padRight significantDigits '0' (d.digits.take significantDigits)

/-- The first ten digits as a number. -/
def leading (d : Decimal) : Nat := Nat.ofDigitChars 10 (leadingDigits d) 0

/-- The power of ten that the tenth digit counts. -/
def lastPlace (d : Decimal) : ℚ := (10 : ℚ) ^ (d.leadingExponent + 1 - significantDigits)

theorem lastPlace_pos (d : Decimal) : 0 < lastPlace d := by
  unfold lastPlace
  positivity

theorem length_leadingDigits (d : Decimal) : (leadingDigits d).length = significantDigits := by
  rw [leadingDigits, length_padRight, List.length_take]
  omega

theorem isDigit_leadingDigits {d : Decimal} {c : Char} (h : c ∈ leadingDigits d) :
    c.isDigit = true :=
  isDigit_append (fun _ ht => Decimal.isDigit_of_mem_digits (List.mem_of_mem_take ht))
    (isDigit_zeros _) c h

/-- Digits are cut off, or zeros are added, but not both. -/
theorem leadingDigits_append (d : Decimal) :
    leadingDigits d ++ d.digits.drop significantDigits =
      d.digits ++ List.replicate (significantDigits - d.digits.length) '0' := by
  unfold leadingDigits padRight
  rcases Nat.le_total significantDigits d.digits.length with h | h
  · rw [List.length_take, Nat.min_eq_left h, Nat.sub_self, Nat.sub_eq_zero_of_le h]
    simp
  · rw [List.take_of_length_le h, List.drop_of_length_le h, List.append_nil]

/-- What is cut off is less than one of the last place. -/
private theorem leading_bounds (d : Decimal) :
    let more := significantDigits - d.digits.length
    let fewer := d.digits.length - significantDigits
    leading d * 10 ^ fewer ≤ d.coefficient * 10 ^ more ∧
      d.coefficient * 10 ^ more < (leading d + 1) * 10 ^ fewer := by
  have hval := congrArg (Nat.ofDigitChars 10 · 0) (leadingDigits_append d)
  have hcut : Nat.ofDigitChars 10 (d.digits.drop significantDigits) 0 <
      10 ^ (d.digits.length - significantDigits) := by
    have h := ofDigitChars_lt fun c (hc : c ∈ d.digits.drop significantDigits) =>
      Decimal.isDigit_of_mem_digits (List.mem_of_mem_drop hc)
    rwa [List.length_drop] at h
  have hcoef : Nat.ofDigitChars 10 d.digits 0 = d.coefficient := Nat.ofDigitChars_ten_toDigits
  simp only [ofDigitChars_concat_zeros, hcoef] at hval
  rw [ofDigitChars_concat, List.length_drop, ← leading] at hval
  dsimp only
  rw [Nat.add_mul]
  omega

private theorem lastPlace_mul (d : Decimal) (n : Nat) :
    n * lastPlace d * 10 ^ (significantDigits - d.digits.length) =
      n * 10 ^ (d.digits.length - significantDigits) * (10 : ℚ) ^ d.exponent := by
  have he : d.leadingExponent + 1 - significantDigits +
      (significantDigits - d.digits.length : Nat) =
        (d.digits.length - significantDigits : Nat) + d.exponent := by
    unfold Decimal.leadingExponent
    omega
  rw [lastPlace, mul_assoc, mul_assoc, ← zpow_natCast (10 : ℚ) (significantDigits - _),
    ← zpow_natCast (10 : ℚ) (_ - significantDigits), ← zpow_add₀ (by norm_num),
    ← zpow_add₀ (by norm_num), he]

/-- **The first ten digits do not exceed the value.** -/
theorem leading_mul_le (d : Decimal) : leading d * lastPlace d ≤ d.value := by
  have h : (leading d : ℚ) * 10 ^ (d.digits.length - significantDigits) ≤
      d.coefficient * 10 ^ (significantDigits - d.digits.length) := by
    exact_mod_cast (leading_bounds d).1
  have hp : (0 : ℚ) < 10 ^ (significantDigits - d.digits.length) := by positivity
  refine le_of_mul_le_mul_right ?_ hp
  rw [lastPlace_mul, Decimal.value, mul_right_comm (d.coefficient : ℚ)]
  exact mul_le_mul_of_nonneg_right h (by positivity)

/-- **The next number of ten digits does.** -/
theorem value_lt_leading (d : Decimal) : d.value < (leading d + 1) * lastPlace d := by
  have h : (d.coefficient : ℚ) * 10 ^ (significantDigits - d.digits.length) <
      (leading d + 1 : Nat) * 10 ^ (d.digits.length - significantDigits) := by
    exact_mod_cast (leading_bounds d).2
  have hp : (0 : ℚ) < 10 ^ (significantDigits - d.digits.length) := by positivity
  have hl := lastPlace_mul d (leading d + 1)
  push_cast at h hl
  refine lt_of_mul_lt_mul_right ?_ hp.le
  rw [hl, Decimal.value, mul_right_comm (d.coefficient : ℚ)]
  exact mul_lt_mul_of_pos_right h (by positivity)

/-- The mantissa denotes the first ten digits, with the point behind the first. -/
theorem exists_numeral_scientific (d : Decimal) :
    ∃ mantissa e, scientific d = mantissa ++ 'E' :: intText d.leadingExponent ∧
      Expression.Numeral mantissa e ∧
      e.value * (10 : ℚ) ^ d.leadingExponent = leading d * lastPlace d := by
  have hlen := length_leadingDigits d
  have hdig : ∀ c ∈ leadingDigits d, c.isDigit = true := fun c hc => isDigit_leadingDigits hc
  have hlead : leading d = Nat.ofDigitChars 10 (leadingDigits d) 0 := rfl
  unfold scientific
  rw [← leadingDigits]
  cases hl : leadingDigits d with
  | nil =>
      rw [hl] at hlen
      exact absurd hlen (by decide)
  | cons digit rest =>
      rw [hl] at hlen hdig hlead
      have hrest : rest.length = 9 := Nat.succ.inj hlen
      refine ⟨[digit] ++ '.' :: (rest ++ ['0']), _, by simp, .pointed ?_ ?_ (by simp), ?_⟩
      · intro c hc
        rw [List.mem_singleton.1 hc]
        exact hdig digit (by simp)
      · intro c hc
        rcases List.mem_append.1 hc with hr | hz
        · exact hdig c (List.mem_cons_of_mem _ hr)
        · rw [List.mem_singleton.1 hz]
          decide
      · have hten : Nat.ofDigitChars 10 ([digit] ++ (rest ++ ['0'])) 0 = leading d * 10 := by
          have h := ofDigitChars_concat_zeros (digit :: rest) 1
          rw [← hlead] at h
          simpa using h
        have hplaces : (rest ++ ['0']).length = 10 := by simp [hrest]
        rw [hten, hplaces, Decimal.value_mk_neg, lastPlace, significantDigits]
        push_cast
        rw [show d.leadingExponent + 1 - 10 = d.leadingExponent - 9 by omega,
          zpow_sub₀ (by norm_num)]
        norm_num
        ring

/-- The power of ten that the first digit counts, in terms of the tenth. -/
theorem zpow_leadingExponent (d : Decimal) :
    (10 : ℚ) ^ d.leadingExponent = 10 ^ (significantDigits - 1) * lastPlace d := by
  rw [lastPlace, ← zpow_natCast, ← zpow_add₀ (by norm_num)]
  congr 1
  unfold significantDigits
  omega

/-- The first of ten digits is not zero. -/
theorem le_leading {d : Decimal} (h : d.coefficient ≠ 0) :
    10 ^ (significantDigits - 1) ≤ leading d := by
  have hlow := Decimal.zpow_leadingExponent_le h
  have hhigh := value_lt_leading d
  have hp := lastPlace_pos d
  have hlt : (10 : ℚ) ^ (significantDigits - 1) < leading d + 1 := by
    refine lt_of_mul_lt_mul_right ?_ hp.le
    rw [← zpow_leadingExponent]
    exact lt_of_le_of_lt hlow hhigh
  exact Nat.lt_succ_iff.1 (by exact_mod_cast hlt)

/-- There are ten digits. -/
theorem leading_lt (d : Decimal) : leading d < 10 ^ significantDigits := by
  have h := ofDigitChars_lt fun c (hc : c ∈ leadingDigits d) => isDigit_leadingDigits hc
  rwa [length_leadingDigits] at h

/-! ### Displays -/

/-- The decimal that is rounded in plain notation.  Whole numbers are not shortened. -/
def written (m : Magnitude) : Decimal := if m.isWhole then m.exact else m.shortest

theorem readsBack_written (m : Magnitude) : m.ReadsBack (written m) := by
  unfold written
  split
  · exact m.readsBack_exact
  · exact m.readsBack_shortest

/-- The number of last places that are shown in plain notation. -/
def places (m : Magnitude) : Nat := (written m).roundHalfUp decimalPlaces

/-- A whole number counts itself. -/
theorem places_of_isWhole {m : Magnitude} (h : m.isWhole = true) :
    places m = m.units / unitsPerOne * 10 ^ decimalPlaces := by
  have hv : Decimal.value m.exact = Decimal.value ⟨m.units / unitsPerOne, 0⟩ := by
    rw [m.value_exact, m.value_of_isWhole h, Decimal.value_mk_zero]
  rw [places, written, if_pos h, Decimal.roundHalfUp_congr hv, Decimal.roundHalfUp_whole]

/-- The sign that is shown: zero has none. -/
def shownSign (negative : Bool) (m : Magnitude) : Bool := negative && m.units != 0

theorem shownSign_of_eq_zero (negative : Bool) {m : Magnitude} (h : m.units = 0) :
    shownSign negative m = false := by
  simp [shownSign, h]

theorem shownSign_of_ne_zero (negative : Bool) {m : Magnitude} (h : m.units ≠ 0) :
    shownSign negative m = negative := by
  simp [shownSign, h]

/-- The display of a magnitude without its sign. -/
def unsigned (m : Magnitude) : List Char :=
  if IsScientific m then scientific m.shortest else plainNumeral (places m)

end Display

open Display

/-- **Every finite number is displayed in one of the two notations**, and zero without its sign. -/
theorem Double.display_finite (negative : Bool) (m : Magnitude) :
    (Double.finite negative m).display =
      String.ofList (signText (shownSign negative m) ++ unsigned m) := by
  have hplain : (if m.isWhole then whole m else fixed m.shortest) = plainNumeral (places m) := by
    by_cases hw : m.isWhole = true
    · rw [if_pos hw, places_of_isWhole hw, plainNumeral_mul, whole]
    · rw [if_neg hw, places, written, if_neg hw, fixed]
  unfold Double.display unsigned
  dsimp only
  by_cases h0 : m.units = 0
  · have hz := (Magnitude.units_eq_zero_iff m).1 h0
    subst hz
    have hw : Magnitude.zero.isWhole = true := by simp [Magnitude.isWhole]
    rw [if_pos h0, shownSign_of_eq_zero _ h0, if_neg isScientific_zero, places_of_isWhole hw,
      plainNumeral_mul, Magnitude.units_zero, Nat.zero_div]
    rfl
  · rw [if_neg h0, shownSign_of_ne_zero _ h0, ← hplain]
    by_cases hs : IsScientific m
    · rw [if_pos hs, if_pos hs]
    · rw [if_neg hs, if_neg hs]
      by_cases hw : m.isWhole = true
      · rw [if_pos hw, if_pos hw]
      · rw [if_neg hw, if_neg hw]

end Calculator
