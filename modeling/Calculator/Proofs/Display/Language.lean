/-
**The language of displays.**

A display is a word, a number in scientific notation or a plain number, and which of these it is
depends on the magnitude alone.  Numbers are written in one way only: no zeros stand in front that
are not needed, plain ones have no zeros behind the point at their end and no point without digits
behind it, and the first digit in scientific notation is not zero.  The minus sign belongs to the
numbers below zero; zero has none, and changing the sign of a number changes nothing else.

The three kinds are told apart by their letters, and scientific notation by its mark.  That every
display is of the kind of its magnitude rests on the rounding: nothing is rounded up to `10 ^ 15` in
plain notation, nothing but zero is rounded to zero, and in scientific notation the exponent is that
of the decimal, which stays on the side of the bounds on which the number is.

Main definitions:

* `Calculator.Display.IsNatural`, `Calculator.Display.PlainForm`, `Calculator.Display.ExponentForm`,
  `Calculator.Display.ScientificForm` — how numbers are written;
* `Calculator.Display.Kind`, `Calculator.Display.Kind.Shows` — the kinds of display;
* `Calculator.Double.kind` — the kind that belongs to a number;
* `Calculator.Double.IsNegative` — a number is below zero.

Main results:

* `Calculator.Display.isScientific_iff` — the bounds as rational numbers;
* `Calculator.Display.places_lt` — plain numbers are below `10 ^ 15` after rounding, too;
* `Calculator.Display.plainForm_plainNumeral`, `Calculator.Display.scientificForm_scientific` —
  **the two notations are in the language**;
* `Calculator.Display.Kind.eq_of_shows` — no text is of two kinds;
* `Calculator.display_language` — **the language of displays**.
-/

import Calculator.Proofs.Display.Retyping
import Calculator.Text.Integer

set_option relaxedAutoImplicit false
set_option autoImplicit false

namespace Calculator

attribute [local instance (high)] instPowNat

namespace Display

/-! ### The forms of numbers -/

/-- Digits without zeros in front that are not needed. -/
structure IsNatural (text : List Char) : Prop where
  digit : ∀ c ∈ text, c.isDigit = true
  ne_nil : text ≠ []
  head : text.head? = some '0' → text = ['0']

/-- A plain number without its sign: at most fifteen digits, and up to ten decimal places, the last
of which is not zero. -/
inductive PlainForm : List Char → Prop where
  | whole {digits : List Char} (natural : IsNatural digits) (short : digits.length ≤ 15) :
      PlainForm digits
  | pointed {digits fraction : List Char} (natural : IsNatural digits)
      (short : digits.length ≤ 15) (digit : ∀ c ∈ fraction, c.isDigit = true)
      (ne_nil : fraction ≠ []) (places : fraction.length ≤ 10)
      (last : fraction.getLast? ≠ some '0') : PlainForm (digits ++ '.' :: fraction)

/-- An exponent that plain numbers do not have, without a plus sign. -/
inductive ExponentForm : List Char → Prop where
  | large {digits : List Char} (natural : IsNatural digits)
      (large : 15 ≤ Nat.ofDigitChars 10 digits 0) : ExponentForm digits
  | small {digits : List Char} (natural : IsNatural digits)
      (large : 11 ≤ Nat.ofDigitChars 10 digits 0) : ExponentForm ('-' :: digits)

/-- A number in scientific notation without its sign: a digit other than zero, nine digits and a
zero behind the point, and the exponent. -/
inductive ScientificForm : List Char → Prop where
  | mk {first : Char} {more exponent : List Char} (digit : first.isDigit = true)
      (ne_zero : first ≠ '0') (digits : ∀ c ∈ more, c.isDigit = true) (length : more.length = 9)
      (form : ExponentForm exponent) :
      ScientificForm (first :: '.' :: (more ++ '0' :: 'E' :: exponent))

theorem isNatural_toDigits (n : Nat) : IsNatural (Nat.toDigits 10 n) := by
  refine ⟨fun c mem => isDigit_toDigits mem, Nat.toDigits_ne_nil, fun hzero => ?_⟩
  rcases Nat.eq_zero_or_pos n with rfl | hpos
  · rfl
  · exact absurd hzero (head_toDigits hpos)

/-! ### Bounds -/

variable {m : Magnitude} {d : Decimal}

/-- The lower bound is the first double that is not below `10 ^ (-10)`. -/
theorem lt_lowerBound_iff : m.units < lowerBound ↔ m.value < 1 / 10 ^ 10 := by
  have hten : (10 : ℚ) ^ 10 = 10 ^ decimalPlaces := rfl
  have hone : Decimal.value ⟨1, -decimalPlaces⟩ = 1 / 10 ^ decimalPlaces := by
    rw [Decimal.value_mk_neg, Nat.cast_one]
  rw [hten]
  constructor
  · intro hlt
    by_contra hge
    rw [not_lt, ← hone, ← m.value_exact] at hge
    have hread := Decimal.readUnits_mono hge
    have hexact := m.readsBack_exact
    rw [Magnitude.readsBack_iff] at hexact
    rw [readUnits_one_place, hexact] at hread
    exact absurd hlt (Nat.not_lt.2 hread)
  · intro hlt
    by_contra hge
    exact absurd hlt (not_lt.2 (le_value_of_lowerBound_le (Nat.not_lt.1 hge)))

theorem upperBound_le_iff : upperBound ≤ m.units ↔ 10 ^ 15 ≤ m.value := by
  rw [← not_lt, ← not_lt, not_iff_not, upperBound, ← Magnitude.value_lt_natCast_iff]
  push_cast
  rfl

/-- **The bounds** between the notations as rational numbers. -/
theorem isScientific_iff :
    IsScientific m ↔ m.value ≠ 0 ∧ (10 ^ 15 ≤ m.value ∨ m.value < 1 / 10 ^ 10) := by
  have hzero : m.units ≠ 0 ↔ m.value ≠ 0 := by
    rw [Magnitude.value, div_ne_zero_iff, Nat.cast_ne_zero]
    exact (and_iff_left unitsPerOne_pos'.ne').symm
  rw [IsScientific, hzero, upperBound_le_iff, lt_lowerBound_iff]

/-- **Plain numbers stay below the upper bound.**  Rounding would reach it only if there were no
double between, but so near to the bound nothing is rounded off. -/
theorem places_lt (hs : ¬ IsScientific m) : places m < 10 ^ wholeDigits * 10 ^ decimalPlaces := by
  have hlt := lt_upperBound hs
  have hpos : 0 < 10 ^ decimalPlaces := Nat.pow_pos (by omega)
  by_cases hw : m.isWhole = true
  · rw [places_of_isWhole hw]
    exact Nat.mul_lt_mul_of_pos_right ((Nat.div_lt_iff_lt_mul unitsPerOne_pos).2 hlt) hpos
  · rcases lt_or_ge m.value (2 ^ 19) with hsmall | hlarge
    · have hle := value_rounded_le hsmall
      rw [value_rounded, div_le_iff₀ ten_pow_pos] at hle
      have hplaces : places m ≤ 2 ^ 19 * 10 ^ decimalPlaces := by exact_mod_cast hle
      exact Nat.lt_of_le_of_lt hplaces (Nat.mul_lt_mul_of_pos_right (by decide) hpos)
    · have hplaces := (hasPlaces_of_sparse hlarge).value_eq
      have hvalue : m.value < ((10 ^ wholeDigits : Nat) : ℚ) := by
        rwa [Magnitude.value_lt_natCast_iff]
      have hshort := m.readsBack_shortest.lt_natCast ten_pow_le hvalue
      rw [hplaces, div_lt_iff₀ ten_pow_pos] at hshort
      rw [places, written, if_neg hw]
      exact_mod_cast hshort

/-! ### Plain notation -/

/-- The digits behind the point in a plain numeral. -/
theorem fraction_spec (count : Nat) :
    let fraction := trimRight '0'
      (padLeft decimalPlaces '0' (Nat.toDigits 10 (count % 10 ^ decimalPlaces)))
    (∀ c ∈ fraction, c.isDigit = true) ∧ fraction.length ≤ 10 ∧ fraction.getLast? ≠ some '0' := by
  have hpos : 0 < 10 ^ decimalPlaces := Nat.pow_pos (by omega)
  obtain ⟨hlength, -, hdigit⟩ := places_spec (Nat.mod_lt count hpos)
  generalize padLeft decimalPlaces '0' _ = digits at *
  obtain ⟨n, hn⟩ := trimRight_append_replicate '0' digits
  refine ⟨?_, ?_, getLast?_trimRight '0' digits⟩
  · intro c mem
    refine hdigit c ?_
    rw [← hn]
    exact List.mem_append_left _ mem
  · have happend := congrArg List.length hn
    rw [List.length_append, hlength, decimalPlaces] at happend
    omega

/-- **Plain notation** is in the language. -/
theorem plainForm_plainNumeral {count : Nat}
    (h : count < 10 ^ wholeDigits * 10 ^ decimalPlaces) : PlainForm (plainNumeral count) := by
  have hpos : 0 < 10 ^ decimalPlaces := Nat.pow_pos (by omega)
  have hshort : (Nat.toDigits 10 (count / 10 ^ decimalPlaces)).length ≤ 15 :=
    (Nat.length_toDigits_le_iff (by omega) (by omega)).2 ((Nat.div_lt_iff_lt_mul hpos).2 h)
  obtain ⟨hdigit, hplaces, hlast⟩ := fraction_spec count
  unfold plainNumeral
  dsimp only
  generalize trimRight '0' _ = fraction at *
  cases fraction with
  | nil => exact .whole (isNatural_toDigits _) hshort
  | cons c rest =>
      exact .pointed (isNatural_toDigits _) hshort hdigit (List.cons_ne_nil c rest) hplaces hlast

/-- A numeral of zero counts no places. -/
theorem plainNumeral_ne_zero {count : Nat} (h : 0 < count) : plainNumeral count ≠ ['0'] := by
  intro hzero
  obtain ⟨e, hnumeral, hvalue⟩ := exists_numeral_plain count
  have hread : Decimal.ofLiteral? ['0'] = some ⟨0, 0⟩ := by decide
  rw [hzero] at hnumeral
  rw [Expression.ofLiteral?_eq_some_iff.2 hnumeral] at hread
  rw [Option.some.inj hread, Decimal.value_mk_zero, Nat.cast_zero, eq_comm,
    div_eq_zero_iff] at hvalue
  rcases hvalue with hcount | hpow
  · exact h.ne' (by exact_mod_cast hcount)
  · exact absurd hpow (by positivity)

/-! ### Scientific notation -/

theorem le_leadingExponent (h : 10 ^ 15 ≤ d.value) : 15 ≤ d.leadingExponent := by
  have hlt := h.trans_lt (Decimal.lt_zpow_leadingExponent d)
  have hexp : (15 : Int) < d.leadingExponent + 1 :=
    (zpow_lt_zpow_iff_right₀ (by norm_num : (1 : ℚ) < 10)).1 (by exact_mod_cast hlt)
  omega

theorem leadingExponent_le (hne : d.coefficient ≠ 0) (h : d.value < 1 / 10 ^ 10) :
    d.leadingExponent ≤ -11 := by
  have hlt := (Decimal.zpow_leadingExponent_le hne).trans_lt h
  have hten : (1 : ℚ) / 10 ^ 10 = (10 : ℚ) ^ (-10 : Int) := by norm_num
  rw [hten] at hlt
  have hexp : d.leadingExponent < -10 :=
    (zpow_lt_zpow_iff_right₀ (by norm_num : (1 : ℚ) < 10)).1 hlt
  omega

theorem exponentForm_intText {e : Int} (h : 15 ≤ e ∨ e ≤ -11) : ExponentForm (intText e) := by
  have hvalue : Nat.ofDigitChars 10 (Nat.toDigits 10 e.natAbs) 0 = e.natAbs :=
    Nat.ofDigitChars_ten_toDigits
  unfold intText signText
  rcases h with hlarge | hsmall
  · rw [decide_eq_false (by omega), if_neg (by decide), List.nil_append]
    exact .large (isNatural_toDigits _) (by omega)
  · rw [decide_eq_true (by omega), if_pos rfl, List.singleton_append]
    exact .small (isNatural_toDigits _) (by omega)

/-- The exponent of a number in scientific notation is beyond those of plain numbers. -/
theorem leadingExponent_of_isScientific (hs : IsScientific m) :
    15 ≤ m.shortest.leadingExponent ∨ m.shortest.leadingExponent ≤ -11 := by
  rcases hs.2 with hlarge | hsmall
  · refine .inl (le_leadingExponent ?_)
    exact_mod_cast le_value_shortest hlarge
  · exact .inr (leadingExponent_le (m.readsBack_shortest.coefficient_ne_zero hs.1)
      (value_shortest_lt hsmall))

/-- The first of ten digits is zero only if the number is below all numbers of ten digits. -/
theorem ne_zero_of_leadingDigits {first : Char} {more : List Char} (hne : d.coefficient ≠ 0)
    (h : leadingDigits d = first :: more) : first ≠ '0' := by
  rintro rfl
  have hle := le_leading hne
  have hlength : more.length = 9 := by
    have hten := length_leadingDigits d
    rw [h] at hten
    exact Nat.succ.inj hten
  have hlt : Nat.ofDigitChars 10 more 0 < 10 ^ more.length := by
    refine ofDigitChars_lt fun c mem => isDigit_leadingDigits (d := d) ?_
    rw [h]
    exact List.mem_cons_of_mem _ mem
  have hskip : leading d = Nat.ofDigitChars 10 more 0 := by
    rw [leading, h, Nat.ofDigitChars_cons]
    rfl
  rw [hskip] at hle
  rw [hlength] at hlt
  exact absurd hle (Nat.not_le.2 hlt)

/-- **Scientific notation** is in the language. -/
theorem scientificForm_scientific (hne : d.coefficient ≠ 0)
    (h : 15 ≤ d.leadingExponent ∨ d.leadingExponent ≤ -11) : ScientificForm (scientific d) := by
  have hlength := length_leadingDigits d
  have hdigit : ∀ c ∈ leadingDigits d, c.isDigit = true := fun c mem => isDigit_leadingDigits mem
  unfold scientific
  rw [← leadingDigits]
  cases hlead : leadingDigits d with
  | nil =>
      rw [hlead] at hlength
      exact absurd hlength (by decide)
  | cons first more =>
      rw [hlead] at hlength hdigit
      exact .mk (hdigit first List.mem_cons_self) (ne_zero_of_leadingDigits hne hlead)
        (fun c mem => hdigit c (List.mem_cons_of_mem _ mem)) (Nat.succ.inj hlength)
        (exponentForm_intText h)

/-! ### Characters -/

variable {text : List Char}

theorem PlainForm.char (h : PlainForm text) : ∀ c ∈ text, c.isDigit = true ∨ c = '.' := by
  intro c mem
  cases h with
  | whole natural short => exact .inl (natural.digit c mem)
  | pointed natural short digit ne_nil places last =>
      rcases List.mem_append.1 mem with hwhole | hrest
      · exact .inl (natural.digit c hwhole)
      · rcases List.mem_cons.1 hrest with hpoint | hfraction
        · exact .inr hpoint
        · exact .inl (digit c hfraction)

theorem ExponentForm.char (h : ExponentForm text) : ∀ c ∈ text, c.isDigit = true ∨ c = '-' := by
  intro c mem
  cases h with
  | large natural large => exact .inl (natural.digit c mem)
  | small natural large =>
      rcases List.mem_cons.1 mem with hminus | hdigit
      · exact .inr hminus
      · exact .inl (natural.digit c hdigit)

theorem ScientificForm.char (h : ScientificForm text) :
    ∀ c ∈ text, c.isDigit = true ∨ c = '.' ∨ c = 'E' ∨ c = '-' := by
  intro c mem
  obtain ⟨digit, -, digits, -, form⟩ := h
  rcases List.mem_cons.1 mem with rfl | mem
  · exact .inl digit
  rcases List.mem_cons.1 mem with rfl | mem
  · exact .inr (.inl rfl)
  rcases List.mem_append.1 mem with hmore | mem
  · exact .inl (digits c hmore)
  rcases List.mem_cons.1 mem with rfl | mem
  · exact .inl (by decide)
  rcases List.mem_cons.1 mem with rfl | hexponent
  · exact .inr (.inr (.inl rfl))
  rcases form.char c hexponent with hdigit | hminus
  · exact .inl hdigit
  · exact .inr (.inr (.inr hminus))

theorem ScientificForm.mark (h : ScientificForm text) : 'E' ∈ text := by
  obtain ⟨-, -, -, -, -⟩ := h
  simp

/-- A number starts with a digit. -/
theorem PlainForm.head (h : PlainForm text) : ∃ c rest, text = c :: rest ∧ c.isDigit = true := by
  have hnatural : ∀ digits : List Char, IsNatural digits → ∀ more : List Char,
      ∃ c rest, digits ++ more = c :: rest ∧ c.isDigit = true := by
    intro digits natural more
    cases digits with
    | nil => exact absurd rfl natural.ne_nil
    | cons c rest => exact ⟨c, rest ++ more, rfl, natural.digit c List.mem_cons_self⟩
  cases h with
  | whole natural short =>
      rw [← List.append_nil text]
      exact hnatural _ natural []
  | pointed natural short digit ne_nil places last => exact hnatural _ natural _

/-! ### Kinds -/

/-- The kinds of display. -/
inductive Kind where
  | nan
  | infinite
  | scientific
  | plain
  deriving DecidableEq

namespace Kind

/-- The texts of a kind, without a sign. -/
def Holds : Kind → List Char → Prop
  | nan, text => text = "NaN".toList
  | infinite, text => text = "Infinity".toList
  | scientific, text => ScientificForm text
  | plain, text => PlainForm text

/-- The display is a text of the kind behind a minus sign, possibly.  No sign stands before zero or
before what is no number. -/
def Shows (kind : Kind) (display : String) : Prop :=
  ∃ negative text, display = String.ofList (signText negative ++ text) ∧ kind.Holds text ∧
    (negative = true → kind ≠ nan ∧ text ≠ ['0'])

/-- The kind of a text by its letters. -/
def ofLetters (text : List Char) : Kind :=
  if 'N' ∈ text then nan
  else if 'I' ∈ text then infinite
  else if 'E' ∈ text then scientific
  else plain

variable {kind other : Kind}

/-- The letters tell of which kind a text is. -/
theorem ofLetters_of_holds (h : kind.Holds text) (negative : Bool) :
    ofLetters (signText negative ++ text) = kind := by
  have hsign : ∀ c ∈ signText negative, c = '-' := by
    intro c mem
    cases negative with
    | false => cases mem
    | true => exact List.mem_singleton.1 mem
  have hletter : ∀ letter : Char, letter ≠ '-' →
      (letter ∈ signText negative ++ text ↔ letter ∈ text) := by
    intro letter hne
    rw [List.mem_append]
    exact or_iff_right fun mem => hne (hsign letter mem)
  simp only [ofLetters, hletter 'N' (by decide), hletter 'I' (by decide), hletter 'E' (by decide)]
  cases kind with
  | nan =>
      cases h
      rfl
  | infinite =>
      cases h
      rfl
  | scientific =>
      have hN : 'N' ∉ text := fun mem => absurd (ScientificForm.char h _ mem) (by decide)
      have hI : 'I' ∉ text := fun mem => absurd (ScientificForm.char h _ mem) (by decide)
      rw [if_neg hN, if_neg hI, if_pos (ScientificForm.mark h)]
  | plain =>
      have hN : 'N' ∉ text := fun mem => absurd (PlainForm.char h _ mem) (by decide)
      have hI : 'I' ∉ text := fun mem => absurd (PlainForm.char h _ mem) (by decide)
      have hE : 'E' ∉ text := fun mem => absurd (PlainForm.char h _ mem) (by decide)
      rw [if_neg hN, if_neg hI, if_neg hE]

/-- **No text is of two kinds.** -/
theorem eq_of_shows {display : String} (h : kind.Shows display) (h' : other.Shows display) :
    kind = other := by
  obtain ⟨negative, text, heq, holds, -⟩ := h
  obtain ⟨negative', text', heq', holds', -⟩ := h'
  have hsame := String.ofList_injective (heq.symm.trans heq')
  rw [← ofLetters_of_holds holds negative, hsame, ofLetters_of_holds holds' negative']

/-- No text of a kind has a sign in front. -/
theorem head_ne_minus (h : kind.Holds text) : ∃ c rest, text = c :: rest ∧ c ≠ '-' := by
  have hdigit : ∀ c : Char, c.isDigit = true → c ≠ '-' := by
    rintro c hc rfl
    exact absurd hc (by decide)
  cases kind with
  | nan => exact ⟨_, _, h, by decide⟩
  | infinite => exact ⟨_, _, h, by decide⟩
  | scientific =>
      obtain ⟨digit, -, -, -, -⟩ := h
      exact ⟨_, _, rfl, hdigit _ digit⟩
  | plain =>
      obtain ⟨c, rest, htext, digit⟩ := PlainForm.head h
      exact ⟨c, rest, htext, hdigit c digit⟩

end Kind

end Display

/-! ### The display of a number -/

open Display

namespace Double

/-- The kind of display that belongs to a number.  In scientific notation are the numbers other than
zero that are not between the bounds. -/
def kind : Double → Kind
  | nan => .nan
  | infinite _ => .infinite
  | finite _ m =>
      if m.value ≠ 0 ∧ (10 ^ 15 ≤ m.value ∨ m.value < 1 / 10 ^ 10) then .scientific else .plain

/-- The number is below zero. -/
def IsNegative (v : Double) : Prop := ∃ x ∈ v.extended?, x < .ofRat 0

/-- The display of a number without its sign. -/
def bare : Double → List Char
  | nan => "NaN".toList
  | infinite _ => "Infinity".toList
  | finite _ m => unsigned m

/-- A minus sign is shown. -/
def hasMinus : Double → Bool
  | nan => false
  | infinite negative => negative
  | finite negative m => shownSign negative m

theorem display_eq (v : Double) : v.display = String.ofList (signText v.hasMinus ++ v.bare) := by
  cases v with
  | nan => rfl
  | infinite negative => rfl
  | finite negative m => exact display_finite negative m

section Finite

variable {negative : Bool} {m : Magnitude}

theorem kind_scientific (hs : IsScientific m) : (finite negative m).kind = .scientific :=
  if_pos (isScientific_iff.1 hs)

theorem kind_plain (hs : ¬ IsScientific m) : (finite negative m).kind = .plain :=
  if_neg fun h => hs (isScientific_iff.2 h)

theorem bare_scientific (hs : IsScientific m) :
    (finite negative m).bare = scientific m.shortest :=
  if_pos hs

theorem bare_plain (hs : ¬ IsScientific m) :
    (finite negative m).bare = plainNumeral (places m) :=
  if_neg hs

end Finite

/-- **Every display is of the kind of its number.** -/
theorem holds_bare (v : Double) : v.kind.Holds v.bare := by
  cases v with
  | nan => rfl
  | infinite negative => rfl
  | finite negative m =>
      by_cases hs : IsScientific m
      · rw [kind_scientific hs, bare_scientific hs]
        exact scientificForm_scientific (m.readsBack_shortest.coefficient_ne_zero hs.1)
          (leadingExponent_of_isScientific hs)
      · rw [kind_plain hs, bare_plain hs]
        exact plainForm_plainNumeral (places_lt hs)

/-- The minus sign belongs to the numbers below zero. -/
theorem hasMinus_iff {v : Double} : v.hasMinus = true ↔ v.IsNegative := by
  cases v with
  | nan => exact ⟨nofun, fun h => nomatch h⟩
  | infinite negative =>
      cases negative with
      | false =>
          refine ⟨nofun, ?_⟩
          rintro ⟨x, hx, hlt⟩
          cases hx
          exact absurd (ofSign_top_le_ofRat_iff.1 hlt.le) (by decide)
      | true => exact ⟨fun _ => ⟨_, rfl, WithBot.bot_lt_coe _⟩, fun _ => rfl⟩
  | finite negative m =>
      have hnonneg := m.value_nonneg
      have hzero : m.units = 0 ↔ m.value = 0 := by
        rw [Magnitude.value, div_eq_zero_iff, Nat.cast_eq_zero]
        exact (or_iff_left unitsPerOne_pos'.ne').symm
      have hbelow : (finite negative m).IsNegative ↔ withSign negative m.value < 0 := by
        rw [← not_le, ← ofRat_le_ofRat_iff, not_le]
        constructor
        · rintro ⟨x, hx, hlt⟩
          cases hx
          exact hlt
        · exact fun hlt => ⟨_, rfl, hlt⟩
      rw [hbelow, hasMinus, shownSign, Bool.and_eq_true, bne_iff_ne, ne_eq, hzero]
      cases negative with
      | false =>
          refine ⟨fun h => absurd h.1 (by decide), fun h => ?_⟩
          exact absurd h (not_lt.2 hnonneg)
      | true =>
          change true = true ∧ ¬ m.value = 0 ↔ -m.value < 0
          rw [neg_lt_zero, and_iff_right rfl]
          exact ⟨fun hne => lt_of_le_of_ne hnonneg (Ne.symm hne), fun hpos => hpos.ne'⟩

/-- What has a minus sign is shown as a number other than zero. -/
theorem bare_ne_zero {v : Double} (h : v.hasMinus = true) : v.kind ≠ .nan ∧ v.bare ≠ ['0'] := by
  cases v with
  | nan => cases h
  | infinite negative => exact ⟨Kind.noConfusion, fun hzero => by cases hzero⟩
  | finite negative m =>
      rw [hasMinus, shownSign, Bool.and_eq_true, bne_iff_ne] at h
      by_cases hs : IsScientific m
      · rw [kind_scientific hs, bare_scientific hs]
        refine ⟨Kind.noConfusion, fun hzero => ?_⟩
        have hE : 'E' ∈ scientific m.shortest := by
          obtain ⟨mantissa, -, htext, -⟩ := exists_numeral_scientific m.shortest
          rw [htext]
          simp
        rw [hzero] at hE
        exact absurd hE (by decide)
      · rw [kind_plain hs, bare_plain hs]
        refine ⟨Kind.noConfusion, plainNumeral_ne_zero (places_pos ?_)⟩
        exact ((not_isScientific_iff h.2).1 hs).1

theorem shows_display (v : Double) : v.kind.Shows v.display :=
  ⟨v.hasMinus, v.bare, v.display_eq, v.holds_bare, bare_ne_zero⟩

theorem kind_neg (v : Double) : (-v).kind = v.kind := by
  cases v with
  | nan => rfl
  | infinite negative => rfl
  | finite negative m => rfl

theorem bare_neg (v : Double) : (-v).bare = v.bare := by
  cases v with
  | nan => rfl
  | infinite negative => rfl
  | finite negative m => rfl

/-- A changed sign is shown. -/
theorem hasMinus_neg {v : Double} (hnan : v ≠ nan) (hzero : v.isZero = false) :
    (-v).hasMinus = !v.hasMinus := by
  cases v with
  | nan => exact absurd rfl hnan
  | infinite negative => rfl
  | finite negative m =>
      have hne : m.units ≠ 0 := of_decide_eq_false hzero
      rw [neg_finite, hasMinus, hasMinus, shownSign_of_ne_zero _ hne, shownSign_of_ne_zero _ hne]

end Double

/-- A text with the minus sign taken away, or else put in front. -/
def toggled (display : String) : String :=
  match display.toList with
  | '-' :: text => String.ofList text
  | text => String.ofList ('-' :: text)

theorem toggled_signText {kind : Kind} {text : List Char} (h : kind.Holds text) (negative : Bool) :
    toggled (String.ofList (signText negative ++ text)) =
      String.ofList (signText (!negative) ++ text) := by
  obtain ⟨c, rest, rfl, hc⟩ := Kind.head_ne_minus h
  unfold toggled
  rw [String.toList_ofList]
  cases negative with
  | true => rfl
  | false =>
      change (match c :: rest with
        | '-' :: text => String.ofList text
        | text => String.ofList ('-' :: text)) = _
      split
      · next heq => exact absurd (List.cons.inj heq).1 hc
      · rfl

theorem head_signText {kind : Kind} {text : List Char} (h : kind.Holds text) (negative : Bool) :
    (signText negative ++ text).head? = some '-' ↔ negative = true := by
  obtain ⟨c, rest, rfl, hc⟩ := Kind.head_ne_minus h
  cases negative with
  | true => exact ⟨fun _ => rfl, fun _ => rfl⟩
  | false => exact ⟨fun heq => absurd (Option.some.inj heq) hc, nofun⟩

/-- **The language of displays.**  Each display is of one kind, which is that of its number; it has
a minus sign exactly if the number is below zero, and the opposite number is displayed with the
other sign. -/
theorem display_language :
    (∀ (v : Double) (kind : Kind), kind.Shows v.display ↔ kind = v.kind) ∧
      (∀ v : Double, v.display.toList.head? = some '-' ↔ v.IsNegative) ∧
      ∀ v : Double, (-v).kind = v.kind ∧
        (v ≠ .nan → v.isZero = false → (-v).display = toggled v.display) := by
  refine ⟨?_, ?_, ?_⟩
  · intro v kind
    constructor
    · intro hshows
      exact Kind.eq_of_shows hshows v.shows_display
    · rintro rfl
      exact v.shows_display
  · intro v
    rw [v.display_eq, String.toList_ofList, head_signText v.holds_bare, Double.hasMinus_iff]
  · intro v
    refine ⟨v.kind_neg, fun hnan hzero => ?_⟩
    rw [v.display_eq, (-v).display_eq, v.bare_neg, Double.hasMinus_neg hnan hzero,
      toggled_signText v.holds_bare]

/-- Numbers on the two sides of zero, too small for plain notation. -/
theorem display_language_opposites :
    let small : Double := .finite false ⟨2 ^ (unitPlaces - 34), by decide +kernel,
      by decide +kernel⟩
    (small ≠ .nan ∧ small.isZero = false) ∧ Kind.scientific.Shows small.display ∧
      (-small).display = toggled small.display := by
  intro small
  have hkind : small.kind = .scientific := Double.kind_scientific (by decide +kernel)
  have hne : small ≠ .nan := Double.noConfusion
  have hzero : small.isZero = false := by decide +kernel
  exact ⟨⟨hne, hzero⟩, (display_language.1 small .scientific).2 hkind.symm,
    (display_language.2.2 small).2 hne hzero⟩

end Calculator
