/-
**Displays in decimal arithmetic of limited precision.**

A display is made in steps, from the shortest decimal as it is printed.  For scientific notation the
decimal is shifted so that its first digit stands before the point, cut to ten digits and filled up
with a zero; for plain notation it is rounded to ten places.  Each step is an operation of an
arithmetic of limited precision, which could round a second time or refuse the result.

It never does.  A decimal is printed with seventeen digits at most, and plain numbers stay below
`10 ^ 15` after rounding, so that no decimal along the way has more than twenty-five digits.
Therefore each arithmetic with so many digits makes the same decimals, and the displays are those
that are made without any limit.

Main definitions:

* `Calculator.Decimal.Context.Ample` — the arithmetic has twenty-five digits, or more, as
  `Calculator.Decimal.Context.standard` has;
* `Calculator.Display.scientificIn`, `Calculator.Display.fixedIn` — the steps of the two notations,
  with the decimals that are made;
* `Calculator.Double.displayIn` — **the display of a number in a context**.

Main results:

* `Calculator.Display.scientific_congr` — scientific notation depends on the value only;
* `Calculator.Display.scientificIn_eq`, `Calculator.Display.fixedIn_eq` — **the steps make the
  displays**;
* `Calculator.Double.exists_displayIn_eq` — **the precision suffices for all numbers**.
-/

import Calculator.Proofs.Decimal.Context
import Calculator.Proofs.Display.Language
import Calculator.Proofs.Display.Printed

set_option relaxedAutoImplicit false
set_option autoImplicit false

namespace Calculator

attribute [local instance (high)] instPowNat

/-! ### Exponents of doubles -/

namespace Magnitude

variable {m : Magnitude} {d : Decimal}

/-- The exponents of what is read as a magnitude other than zero are bounded. -/
theorem ReadsBack.natAbs_leadingExponent_le (hd : m.ReadsBack d) (h : m.units ≠ 0) :
    d.leadingExponent.natAbs ≤ unitPlaces := by
  have hten : (1 : ℚ) < 10 := by norm_num
  have hlow : (10 : ℚ) ^ (-(unitPlaces : Int)) < d.value := by
    refine lt_of_not_ge fun hle => h ?_
    have hvalue : Decimal.value ⟨1, -unitPlaces⟩ = (10 : ℚ) ^ (-(unitPlaces : Int)) := by
      rw [Decimal.value, Nat.cast_one, one_mul]
    rw [← hvalue] at hle
    have hread := Decimal.readUnits_mono hle
    have hzero : Decimal.readUnits ⟨1, -unitPlaces⟩ = 0 := by decide +kernel
    rw [hzero, readsBack_iff.1 hd] at hread
    exact Nat.eq_zero_of_le_zero hread
  have hhigh : d.value < (10 : ℚ) ^ (309 : Int) := by
    refine lt_of_not_ge fun hle => ?_
    have hvalue : Decimal.value ⟨1, 309⟩ = (10 : ℚ) ^ (309 : Int) := by
      rw [Decimal.value, Nat.cast_one, one_mul]
    rw [← hvalue] at hle
    have hread := Decimal.readUnits_mono hle
    have hlarge : overflowUnits ≤ Decimal.readUnits ⟨1, 309⟩ := by decide +kernel
    rw [readsBack_iff.1 hd] at hread
    exact absurd m.bounded (Nat.not_lt.2 (Nat.le_trans hlarge hread))
  have hup := (zpow_lt_zpow_iff_right₀ hten).1
    ((Decimal.zpow_leadingExponent_le (hd.coefficient_ne_zero h)).trans_lt hhigh)
  have hdown := (zpow_lt_zpow_iff_right₀ hten).1 (hlow.trans d.lt_zpow_leadingExponent)
  unfold unitPlaces at *
  omega

end Magnitude

/-! ### The context -/

/-- The arithmetic has twenty-five digits and the exponents of doubles. -/
structure Decimal.Context.Ample (context : Decimal.Context) : Prop where
  precision : 25 ≤ context.precision
  exponents : unitPlaces ≤ context.maxExponent

/-- The arithmetic that displays are made in: twenty-eight digits, and exponents of six. -/
def Decimal.Context.standard : Decimal.Context := ⟨28, 999999⟩

theorem Decimal.Context.ample_standard : Decimal.Context.standard.Ample := ⟨by decide, by decide⟩

namespace Display

variable {context : Decimal.Context} {d e : Decimal} {m : Magnitude}

/-- A decimal of few digits and few places is held. -/
theorem holds_places {count places : Nat} (hc : context.Ample)
    (hlength : (Decimal.digits ⟨count, -places⟩).length ≤ 25) (hplaces : places ≤ 10) :
    context.Holds ⟨count, -places⟩ := by
  have hexp := hc.exponents
  have hpos := Decimal.length_digits_pos ⟨count, -places⟩
  refine ⟨Nat.le_trans hlength hc.precision, ?_⟩
  unfold Decimal.leadingExponent
  unfold unitPlaces at hexp
  dsimp only
  omega

/-! ### Scientific notation -/

/-- The first ten digits as a floor. -/
theorem leading_eq_floor (d : Decimal) : leading d = ⌊d.value / lastPlace d⌋₊ := by
  have hp := lastPlace_pos d
  symm
  rw [Nat.floor_eq_iff (div_nonneg d.value_nonneg hp.le), le_div_iff₀ hp, div_lt_iff₀ hp]
  exact ⟨leading_mul_le d, value_lt_leading d⟩

/-- **Scientific notation** depends on the value only. -/
theorem scientific_congr (hne : d.coefficient ≠ 0) (h : e.value = d.value) :
    scientific e = scientific d := by
  have hexp := Decimal.leadingExponent_congr hne h
  have hlead : leading e = leading d := by
    rw [leading_eq_floor, leading_eq_floor, lastPlace, lastPlace, hexp, h]
  have hdigits : leadingDigits e = leadingDigits d :=
    eq_of_ofDigitChars_eq (fun c hc => isDigit_leadingDigits hc)
      (fun c hc => isDigit_leadingDigits hc)
      ((length_leadingDigits e).trans (length_leadingDigits d).symm) hlead
  unfold scientific
  rw [← leadingDigits, ← leadingDigits, hdigits, hexp]

/-- The steps of scientific notation, with the decimals that are made. -/
def scientificIn (context : Decimal.Context) (d : Decimal) : Option (List Decimal × List Char) :=
  (context.shift (-d.leadingExponent) d).bind fun scaled =>
    (context.quantize .down (significantDigits - 1) scaled).bind fun mantissa =>
      (context.quantize .halfEven significantDigits mantissa).map fun padded =>
        ([scaled, mantissa, padded], padded.fixedText ++ 'E' :: intText d.leadingExponent)

/-- The mantissa, and the mantissa with another zero. -/
def mantissa (d : Decimal) : Decimal := ⟨leading d, -(significantDigits - 1 : Nat)⟩

def padded (d : Decimal) : Decimal := ⟨leading d * 10, -significantDigits⟩

/-- The decimal with the first digit before the point. -/
def scaled (d : Decimal) : Decimal := ⟨d.coefficient, d.exponent + -d.leadingExponent⟩

theorem value_scaled_mul (d : Decimal) :
    (scaled d).value * 10 ^ (significantDigits - 1) = d.value / lastPlace d := by
  have hsplit : d.exponent = d.exponent + -d.leadingExponent + d.leadingExponent := by omega
  have hlast : lastPlace d ≠ 0 := (lastPlace_pos d).ne'
  rw [scaled, Decimal.value, Decimal.value, eq_div_iff hlast]
  conv => rhs; rw [hsplit, zpow_add₀ (by norm_num), zpow_leadingExponent]
  ring

theorem length_digits_mantissa (hne : d.coefficient ≠ 0) : (mantissa d).digits.length = 10 :=
  Decimal.length_digits_eq (by decide) (le_leading hne) (leading_lt d)

theorem length_digits_padded (hne : d.coefficient ≠ 0) : (padded d).digits.length = 11 := by
  have hlow := le_leading hne
  have hhigh := leading_lt d
  unfold significantDigits at hlow hhigh
  refine Decimal.length_digits_eq (by decide) ?_ ?_
  · change 10 ^ (11 - 1) ≤ leading d * 10
    omega
  · change leading d * 10 < 10 ^ 11
    omega

/-- The padded mantissa is written with the digits that are shown. -/
theorem fixedText_padded (d : Decimal) :
    (padded d).fixedText ++ 'E' :: intText d.leadingExponent = scientific d := by
  have hlength := length_leadingDigits d
  have hdigit : ∀ c ∈ leadingDigits d, c.isDigit = true := fun c hc => isDigit_leadingDigits hc
  have hlead : leading d = Nat.ofDigitChars 10 (leadingDigits d) 0 := rfl
  unfold scientific padded
  rw [← leadingDigits, Decimal.fixedText_eq _ (by decide)]
  cases hl : leadingDigits d with
  | nil =>
      rw [hl] at hlength
      exact absurd hlength (by decide)
  | cons first more =>
      rw [hl] at hlength hdigit hlead
      have hmore : ∀ c ∈ more ++ ['0'], c.isDigit = true := by
        intro c hc
        rcases List.mem_append.1 hc with hm | hz
        · exact hdigit c (List.mem_cons_of_mem _ hm)
        · rw [List.mem_singleton.1 hz]
          decide
      have hcount : (more ++ ['0']).length = significantDigits := by
        rw [List.length_append, List.length_singleton]
        exact hlength
      -- the number of the digits is the first one before the others and the zero
      have hten : leading d * 10 = (first.toNat - 48) * 10 ^ significantDigits +
          Nat.ofDigitChars 10 (more ++ ['0']) 0 := by
        have hzero := ofDigitChars_concat_zeros (first :: more) 1
        rw [← hlead, List.replicate_one, List.cons_append, ofDigitChars_cons_zero, hcount,
          Nat.pow_one] at hzero
        exact hzero.symm
      have hlt := ofDigitChars_lt hmore
      rw [hcount] at hlt
      have hpos : 0 < 10 ^ significantDigits := Nat.pow_pos (by omega)
      have hrest := padLeft_toDigits hmore (by simp)
      rw [hcount] at hrest
      rw [hten, Nat.mul_comm, Nat.mul_add_div hpos, Nat.mul_add_mod, Nat.div_eq_of_lt hlt,
        Nat.mod_eq_of_lt hlt, Nat.add_zero, hrest,
        toDigits_of_isDigit (hdigit first List.mem_cons_self)]
      simp

/-- **The steps make scientific notation.** -/
theorem scientificIn_eq (hc : context.Ample) (hne : d.coefficient ≠ 0)
    (hlength : d.digits.length ≤ 25) (hexp : d.leadingExponent.natAbs ≤ unitPlaces) :
    scientificIn context d = some ([scaled d, mantissa d, padded d], scientific d) := by
  have hrange := hc.exponents
  have hscaled : context.shift (-d.leadingExponent) d = some (scaled d) := by
    refine Decimal.Context.shift_eq ⟨Nat.le_trans hlength hc.precision, ?_⟩ (by omega)
    have hzero : Decimal.leadingExponent ⟨d.coefficient, d.exponent + -d.leadingExponent⟩ = 0 := by
      have hsame : Decimal.digits ⟨d.coefficient, d.exponent + -d.leadingExponent⟩ = d.digits := rfl
      rw [Decimal.leadingExponent, hsame]
      dsimp only
      unfold Decimal.leadingExponent
      omega
    rw [hzero]
    exact Nat.zero_le _
  have hmantissa : context.quantize .down (significantDigits - 1) (scaled d) =
      some (mantissa d) := by
    refine Decimal.Context.quantize_eq ?_ (holds_places hc ?_ (by decide)) ?_
    · rw [Decimal.quotient_down, value_scaled_mul, leading_eq_floor]
    · rw [← mantissa, length_digits_mantissa hne]
      decide
    · exact Nat.lt_of_lt_of_le (by decide) hrange
  have hpadded : context.quantize .halfEven significantDigits (mantissa d) = some (padded d) := by
    refine Decimal.Context.quantize_eq (Decimal.quotient_halfEven_succ _ _)
      (holds_places hc ?_ (by decide)) ?_
    · rw [← padded, length_digits_padded hne]
      decide
    · exact Nat.lt_of_lt_of_le (by decide) hrange
  unfold scientificIn
  rw [hscaled, Option.bind_some, hmantissa, Option.bind_some, hpadded, Option.map_some,
    fixedText_padded]

/-! ### Plain notation -/

/-- The steps of plain notation, with the decimal that is made. -/
def fixedIn (context : Decimal.Context) (d : Decimal) : Option (List Decimal × List Char) :=
  (context.quantize .halfUp decimalPlaces d).map fun rounded =>
    ([rounded], trimRight '.' (trimRight '0' rounded.fixedText))

/-- What is trimmed from ten places is what plain notation leaves out. -/
theorem trim_fixedText (count : Nat) :
    trimRight '.' (trimRight '0' (Decimal.fixedText ⟨count, -decimalPlaces⟩)) =
      plainNumeral count := by
  have hwhole : (Nat.toDigits 10 (count / 10 ^ decimalPlaces)).getLast? ≠ some '.' := by
    intro hlast
    exact absurd (isDigit_toDigits (List.mem_of_getLast? hlast)) (by decide)
  have hfraction := getLast?_trimRight '0'
    (padLeft decimalPlaces '0' (Nat.toDigits 10 (count % 10 ^ decimalPlaces)))
  obtain ⟨-, -, hdigit⟩ := places_spec (Nat.mod_lt count (Nat.pow_pos (n := decimalPlaces)
    (by omega : 0 < 10)))
  rw [Decimal.fixedText_eq _ (by decide)]
  unfold plainNumeral
  dsimp only
  generalize padLeft decimalPlaces '0' _ = places at *
  generalize Nat.toDigits 10 (count / 10 ^ decimalPlaces) = front at *
  obtain ⟨n, hn⟩ := trimRight_append_replicate '0' places
  generalize trimRight '0' places = fraction at *
  subst hn
  rw [← List.cons_append, ← List.append_assoc, trimRight_append_zeros]
  have hzero : (front ++ '.' :: fraction).getLast? ≠ some '0' := by
    rw [List.getLast?_append, List.getLast?_cons]
    cases hlast : fraction.getLast? with
    | none => simp
    | some last =>
        intro heq
        exact hfraction (hlast.trans heq)
  rw [trimRight_of_getLast? hzero]
  cases fraction with
  | nil =>
      rw [trimRight_concat, if_pos rfl, trimRight_of_getLast? hwhole]
  | cons c rest =>
      refine trimRight_of_getLast? ?_
      intro hlast
      rw [List.getLast?_append, List.getLast?_cons_cons] at hlast
      have hmem : '.' ∈ c :: rest := by
        refine List.mem_of_getLast? ?_
        simpa using hlast
      exact absurd (hdigit '.' (List.mem_append_left _ hmem)) (by decide)

/-- **The steps make plain notation.** -/
theorem fixedIn_eq (hc : context.Ample) {count : Nat} (hcount : d.roundHalfUp decimalPlaces = count)
    (hlt : count < 10 ^ wholeDigits * 10 ^ decimalPlaces) :
    fixedIn context d = some ([⟨count, -decimalPlaces⟩], plainNumeral count) := by
  have hlength : (Decimal.digits ⟨count, -decimalPlaces⟩).length ≤ 25 :=
    (Nat.length_toDigits_le_iff (by omega) (by omega)).2 hlt
  have hrounded : context.quantize .halfUp decimalPlaces d = some ⟨count, -decimalPlaces⟩ := by
    refine Decimal.Context.quantize_eq ?_ (holds_places hc hlength (by decide)) ?_
    · rw [Decimal.quotient_halfUp, hcount]
    · exact Nat.lt_of_lt_of_le (by decide) hc.exponents
  unfold fixedIn
  rw [hrounded, Option.map_some, trim_fixedText]

end Display

open Display

/-! ### Displays -/

namespace Double

/-- The display that steps make of the decimal that the text of a double is read as, and all
decimals on the way.  The sign is that of the decimal. -/
def displayBy (steps : Decimal → Option (List Decimal × List Char)) (v : Double) :
    Option (List Decimal × String) :=
  (Decimal.ofText? v.text.toList).bind fun printed =>
    (steps printed.2).map fun made =>
      (printed.2 :: made.1, String.ofList (signText printed.1 ++ made.2))

/-- **The display of a number in a context**, with the decimals that are made for it.  Words and
whole numbers need none. -/
def displayIn (context : Decimal.Context) (v : Double) : Option (List Decimal × String) :=
  match v with
  | nan => some ([], "NaN")
  | infinite negative => some ([], String.ofList (signText negative ++ "Infinity".toList))
  | finite negative m =>
      if IsScientific m then v.displayBy (scientificIn context)
      else if m.isWhole then
        some ([], if m.units = 0 then "0" else String.ofList (signText negative ++ whole m))
      else v.displayBy (fixedIn context)

variable {context : Decimal.Context} {negative : Bool} {m : Magnitude} {d : Decimal}

/-- Large and small numbers. -/
theorem displayIn_scientific (hc : context.Ample) (hs : IsScientific m)
    (htext : Decimal.ofText? (finite negative m).text.toList = some (negative, d))
    (hd : m.Prints d) :
    (finite negative m).displayIn context =
      some ([d, scaled d, mantissa d, padded d], (finite negative m).display) := by
  have hne := hd.readsBack.coefficient_ne_zero hs.1
  have hsame := scientific_congr (m.readsBack_shortest.coefficient_ne_zero hs.1) hd.value_eq
  have hsteps := scientificIn_eq hc hne (Nat.le_trans hd.short (by decide))
    (hd.readsBack.natAbs_leadingExponent_le hs.1)
  rw [displayIn, if_pos hs, displayBy, htext, Option.bind_some, hsteps, Option.map_some,
    display_finite, shownSign_of_ne_zero _ hs.1, unsigned, if_pos hs, hsame]

/-- Numbers with places. -/
theorem displayIn_fixed (hc : context.Ample) (hs : ¬ IsScientific m) (hw : ¬ m.isWhole = true)
    (h0 : m.units ≠ 0)
    (htext : Decimal.ofText? (finite negative m).text.toList = some (negative, d))
    (hd : m.Prints d) :
    (finite negative m).displayIn context =
      some ([d, ⟨places m, -decimalPlaces⟩], (finite negative m).display) := by
  have hplaces : d.roundHalfUp decimalPlaces = places m := by
    rw [places, written, if_neg hw]
    exact Decimal.roundHalfUp_congr hd.value_eq
  rw [displayIn, if_neg hs, if_neg hw, displayBy, htext, Option.bind_some,
    fixedIn_eq hc hplaces (places_lt hs), Option.map_some, display_finite,
    shownSign_of_ne_zero _ h0, unsigned, if_neg hs]

/-- Whole numbers are written without any decimal. -/
theorem displayIn_whole (context : Decimal.Context) (hs : ¬ IsScientific m)
    (hw : m.isWhole = true) :
    (finite negative m).displayIn context = some ([], (finite negative m).display) := by
  rw [displayIn, if_neg hs, if_pos hw]
  by_cases h0 : m.units = 0
  · have hzero := (Magnitude.units_eq_zero_iff m).1 h0
    rw [if_pos h0, hzero]
    rfl
  · rw [if_neg h0, display_finite, shownSign_of_ne_zero _ h0, unsigned, if_neg hs,
      places_of_isWhole hw, plainNumeral_mul, whole]

/-- **The precision suffices for all numbers.**  Whichever arithmetic is used, the decimals that are
made are the same and have twenty-five digits at most, and the display is the one that is made
without limits. -/
theorem exists_displayIn_eq (v : Double) :
    ∃ made : List Decimal, (∀ d ∈ made, d.digits.length ≤ 25) ∧
      ∀ context : Decimal.Context, context.Ample →
        v.displayIn context = some (made, v.display) := by
  cases v with
  | nan => exact ⟨[], by simp, fun _ _ => rfl⟩
  | infinite negative => exact ⟨[], by simp, fun _ _ => rfl⟩
  | finite negative m =>
      by_cases hs : IsScientific m
      · obtain ⟨d, htext, hd⟩ := exists_ofText?_text negative hs.1
        have hne := hd.readsBack.coefficient_ne_zero hs.1
        have hshort : d.digits.length ≤ 25 := Nat.le_trans hd.short (by decide)
        refine ⟨_, ?_, fun context hc => displayIn_scientific hc hs htext hd⟩
        have hmantissa := length_digits_mantissa hne
        have hpadded := length_digits_padded hne
        intro e he
        simp only [List.mem_cons, List.not_mem_nil, or_false] at he
        rcases he with rfl | rfl | rfl | rfl
        · exact hshort
        · exact hshort
        · omega
        · omega
      · by_cases hw : m.isWhole = true
        · exact ⟨[], by simp, fun context _ => displayIn_whole context hs hw⟩
        · have h0 : m.units ≠ 0 := by
            intro h0
            exact hw (by simp [Magnitude.isWhole, h0])
          obtain ⟨d, htext, hd⟩ := exists_ofText?_text negative h0
          refine ⟨_, ?_, fun context hc => displayIn_fixed hc hs hw h0 htext hd⟩
          intro e he
          simp only [List.mem_cons, List.not_mem_nil, or_false] at he
          rcases he with rfl | rfl
          · exact Nat.le_trans hd.short (by decide)
          · exact (Nat.length_toDigits_le_iff (by omega) (by omega)).2 (places_lt hs)

end Double

end Calculator
