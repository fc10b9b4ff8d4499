/-
**Thousands separators in a display.**

A text of no more than 4300 characters can always be given thousands separators, and nothing but
digits and commas is added to it.  A display is much shorter than that: in plain notation it has at
most 16 digits before the point and ten places after it, and in scientific notation an exponent of
at most three digits.  So every result has a form with separators, and the letters in it are those
of the result itself.

Main results:

* `Calculator.exists_withSeparators` — short texts can be given separators, and **no letter is
  added**;
* `Calculator.Display.natAbs_leadingExponent_lt` — exponents have three digits at most;
* `Calculator.Display.length_display_le` — **displays are short**;
* `Calculator.Display.display_ne_errorDisplay` — no result is displayed as an error.
-/

import Calculator.Calculation
import Calculator.Display.Grouping
import Calculator.Proofs.Display.Order

set_option relaxedAutoImplicit false
set_option autoImplicit false

namespace Calculator

attribute [local instance (high)] instPowNat

/-! ### Short texts -/

namespace Grouping

variable {c : Char} {digits rest : List Char}

theorem mem_everyThird (h : c ∈ everyThird digits) : c = ',' ∨ c ∈ digits := by
  fun_induction everyThird digits with
  | case1 x y z w rest ih =>
      simp only [List.mem_cons] at h ih ⊢
      rcases h with h | h | h | h | h
      · exact .inr (.inl h)
      · exact .inr (.inr (.inl h))
      · exact .inr (.inr (.inr (.inl h)))
      · exact .inl h
      · rcases ih h with h | h
        · exact .inl h
        · exact .inr (.inr (.inr (.inr h)))
  | case2 short _ => exact .inr h

theorem mem_separated (h : c ∈ separated digits) : c = ',' ∨ c ∈ digits := by
  rcases mem_everyThird (List.mem_reverse.1 h) with hc | hd
  · exact .inl hc
  · exact .inr (List.mem_reverse.1 hd)

theorem mem_canonical (h : c ∈ canonical digits) : c = '0' ∨ c ∈ digits := by
  unfold canonical at h
  split at h
  · exact .inl (List.mem_singleton.1 h)
  · exact .inr ((List.dropWhile_suffix _).subset h)

/-- A run that is not too long has a form with separators, which consists of digits, points and
commas. -/
theorem exists_run (number : List Char) (hlen : number.length ≤ maxDigits)
    (hl : ∀ c ∈ number, isLiteralChar c = true) :
    ∃ grouped, run number = .ok grouped ∧ ∀ c ∈ grouped, isLiteralChar c = true ∨ c = ',' := by
  have hwhole : (number.takeWhile (· != '.')).length ≤ maxDigits :=
    Nat.le_trans (List.takeWhile_prefix _).length_le hlen
  have hrest : ∀ c ∈ number.dropWhile (· != '.'), isLiteralChar c = true ∨ c = ',' :=
    fun c hc => .inl (hl c ((List.dropWhile_suffix _).subset hc))
  unfold run wholePart
  by_cases hnil : number.takeWhile (· != '.') = []
  · rw [if_pos hnil]
    exact ⟨_, rfl, hrest⟩
  · rw [if_neg hnil, if_neg (Nat.not_lt.2 hwhole)]
    refine ⟨_, rfl, List.forall_mem_append.2 ⟨fun c hc => ?_, hrest⟩⟩
    rcases mem_separated hc with hcomma | hcan
    · exact .inr hcomma
    · rcases mem_canonical hcan with rfl | hmem
      · exact .inl (by decide)
      · exact .inl (hl c ((List.takeWhile_prefix _).subset hmem))

/-- What follows a run is grouped in the same way, and everything else in it stays as it is. -/
theorem exists_following (number : List Char) (hlen : number.length + rest.length ≤ maxDigits)
    (hl : ∀ c ∈ number, isLiteralChar c = true) :
    ∃ grouped, following number rest = .ok grouped ∧
      ∀ c ∈ grouped, isLiteralChar c = true ∨ c = ',' ∨ c ∈ rest := by
  -- the run that has been read grows until a character ends it, and the next one begins empty
  induction rest generalizing number with
  | nil =>
      obtain ⟨grouped, hg, hc⟩ := exists_run number.reverse (by simpa using hlen)
        (fun c hc => hl c (List.mem_reverse.1 hc))
      exact ⟨grouped, hg, fun c hm => (hc c hm).imp_right .inl⟩
  | cons c rest ih =>
      rw [List.length_cons] at hlen
      unfold following
      by_cases hc : isLiteralChar c = true
      · rw [if_pos hc]
        obtain ⟨grouped, hg, hm⟩ := ih (c :: number)
          (by rw [List.length_cons]; omega) (List.forall_mem_cons.2 ⟨hc, hl⟩)
        exact ⟨grouped, hg, fun d hd => (hm d hd).imp_right (.imp_right (List.mem_cons_of_mem c))⟩
      · rw [if_neg hc]
        obtain ⟨done, hd, hdm⟩ := exists_run number.reverse
          (by rw [List.length_reverse]; omega) (fun c hc => hl c (List.mem_reverse.1 hc))
        obtain ⟨more, hm, hmm⟩ := ih [] (by rw [List.length_nil]; omega) (by simp)
        rw [hd, hm]
        refine ⟨_, rfl, List.forall_mem_append.2 ⟨fun d h => (hdm d h).imp_right .inl, ?_⟩⟩
        refine List.forall_mem_cons.2 ⟨.inr (.inr List.mem_cons_self), fun d h => ?_⟩
        exact (hmm d h).imp_right (.imp_right (List.mem_cons_of_mem c))

end Grouping

/-- **Short texts can be given separators.**  Nothing but digits, points and commas is added. -/
theorem exists_withSeparators {text : String} (h : text.length ≤ Grouping.maxDigits) :
    ∃ grouped, withSeparators text = .ok grouped ∧
      ∀ c ∈ grouped.toList, isLiteralChar c = true ∨ c = ',' ∨ c ∈ text.toList := by
  have hlen : ([] : List Char).length + text.toList.length ≤ Grouping.maxDigits := by
    rwa [List.length_nil, Nat.zero_add, String.length_toList]
  obtain ⟨grouped, hg, hm⟩ := Grouping.exists_following [] hlen (by simp)
  refine ⟨String.ofList grouped, ?_, by rwa [String.toList_ofList]⟩
  rw [withSeparators, Grouping.text, hg]

/-! ### Displays -/

namespace Display

variable {m : Magnitude}

/-- Numbers that are read as a double that is not zero have exponents of three digits. -/
theorem natAbs_leadingExponent_lt (h : m.units ≠ 0) :
    m.shortest.leadingExponent.natAbs < 10 ^ 3 := by
  have hread := m.readsBack_shortest
  have hc := hread.coefficient_ne_zero h
  have hlow := Decimal.zpow_leadingExponent_le hc
  have hhigh := Decimal.lt_zpow_leadingExponent m.shortest
  -- `10 ^ 400` is read as infinite and `10 ^ -400` as zero, so that the number lies between them
  have hlarge : ¬ Decimal.value ⟨1, 400⟩ ≤ m.shortest.value := by
    intro hle
    have hover : overflowUnits ≤ Decimal.readUnits ⟨1, 400⟩ := by decide +kernel
    have hmono := Decimal.readUnits_mono hle
    have hb := m.bounded
    rw [Magnitude.readsBack_iff] at hread
    omega
  have hsmall : ¬ m.shortest.value ≤ Decimal.value ⟨1, -400⟩ := by
    intro hle
    have hzero : Decimal.readUnits ⟨1, -400⟩ = 0 := by decide +kernel
    have hmono := Decimal.readUnits_mono hle
    rw [Magnitude.readsBack_iff] at hread
    omega
  have hone : ∀ e : Int, Decimal.value ⟨1, e⟩ = (10 : ℚ) ^ e := fun e => by
    rw [Decimal.value, Nat.cast_one, one_mul]
  rw [hone, not_le] at hlarge hsmall
  have hup : m.shortest.leadingExponent < 400 :=
    (zpow_lt_zpow_iff_right₀ (by norm_num : (1 : ℚ) < 10)).1 (hlow.trans_lt hlarge)
  have hdown : -400 < m.shortest.leadingExponent + 1 :=
    (zpow_lt_zpow_iff_right₀ (by norm_num : (1 : ℚ) < 10)).1 (hsmall.trans hhigh)
  omega

theorem length_signText_le (negative : Bool) : (signText negative).length ≤ 1 := by
  cases negative with
  | false => decide
  | true => decide

theorem length_plainNumeral_le {count : Nat} (h : count < 10 ^ 16 * 10 ^ decimalPlaces) :
    (plainNumeral count).length ≤ 27 := by
  have hpos : 0 < 10 ^ decimalPlaces := Nat.pow_pos (by omega)
  have hwhole : (Nat.toDigits 10 (count / 10 ^ decimalPlaces)).length ≤ 16 :=
    (Nat.length_toDigits_le_iff (by omega) (by omega)).2 ((Nat.div_lt_iff_lt_mul hpos).2 h)
  have hplaces : (Nat.toDigits 10 (count % 10 ^ decimalPlaces)).length ≤ decimalPlaces :=
    (Nat.length_toDigits_le_iff (by omega) (by decide)).2 (Nat.mod_lt _ hpos)
  have hpad := length_padLeft decimalPlaces '0' (Nat.toDigits 10 (count % 10 ^ decimalPlaces))
  obtain ⟨k, hk⟩ := trimRight_append_replicate '0'
    (padLeft decimalPlaces '0' (Nat.toDigits 10 (count % 10 ^ decimalPlaces)))
  have hlen := congrArg List.length hk
  rw [List.length_append, hpad, Nat.max_eq_left hplaces] at hlen
  have hten : decimalPlaces = 10 := rfl
  unfold plainNumeral
  dsimp only
  cases hf : trimRight '0'
      (padLeft decimalPlaces '0' (Nat.toDigits 10 (count % 10 ^ decimalPlaces))) with
  | nil => exact Nat.le_trans hwhole (by omega)
  | cons digit rest =>
      rw [hf, List.length_cons] at hlen
      rw [List.length_append, List.length_cons, List.length_cons]
      omega

theorem length_scientific_le {d : Decimal} (h : d.leadingExponent.natAbs < 10 ^ 3) :
    (scientific d).length ≤ 17 := by
  have hdigits : (Nat.toDigits 10 d.leadingExponent.natAbs).length ≤ 3 :=
    (Nat.length_toDigits_le_iff (by omega) (by omega)).2 h
  have hsign := length_signText_le (decide (d.leadingExponent < 0))
  have hexponent : (intText d.leadingExponent).length ≤ 4 := by
    rw [intText, List.length_append]
    omega
  have hlen := length_leadingDigits d
  unfold scientific
  rw [← leadingDigits]
  cases hl : leadingDigits d with
  | nil => simp
  | cons digit rest =>
      rw [hl, List.length_cons, significantDigits] at hlen
      simp only [List.cons_append, List.length_cons, List.length_append]
      omega

/-- **Displays are short.** -/
theorem length_display_le (v : Double) : v.display.length ≤ 28 := by
  cases v with
  | nan => decide
  | infinite negative =>
      cases negative with
      | false => decide
      | true => decide
  | finite negative m =>
      have hsign := length_signText_le (shownSign negative m)
      have hunsigned : (unsigned m).length ≤ 27 := by
        unfold unsigned
        by_cases hs : IsScientific m
        · rw [if_pos hs]
          have := length_scientific_le (natAbs_leadingExponent_lt hs.1)
          omega
        · rw [if_neg hs]
          exact length_plainNumeral_le
            (Nat.lt_of_le_of_lt (places_le (lt_upperBound hs)) (by decide))
      rw [Double.display_finite, String.length_ofList, List.length_append]
      omega

/-- Finite numbers are displayed with digits and points, a minus sign and the mark of an
exponent. -/
theorem char_display_finite {negative : Bool} {c : Char}
    (h : c ∈ (Double.finite negative m).display.toList) :
    isLiteralChar c = true ∨ c = '-' ∨ c = 'E' := by
  have hsign : ∀ s, c ∈ signText s → c = '-' := by
    intro s hc
    cases s with
    | false => cases hc
    | true => exact List.mem_singleton.1 hc
  rw [Double.display_finite, String.toList_ofList, List.mem_append, unsigned] at h
  rcases h with h | h
  · exact .inr (.inl (hsign _ h))
  · split at h
    · obtain ⟨mantissa, d, htext, hn, -⟩ := exists_numeral_scientific m.shortest
      rw [htext, List.mem_append, List.mem_cons, intText, List.mem_append] at h
      rcases h with h | h | h | h
      · exact .inl (hn.isLiteralChar c h)
      · exact .inr (.inr h)
      · exact .inr (.inl (hsign _ h))
      · exact .inl (by simp [isLiteralChar, isDigit_toDigits h])
    · obtain ⟨d, hn, -⟩ := exists_numeral_plain (places m)
      exact .inl (hn.isLiteralChar c h)

/-- The letter of an error that is in no result. -/
theorem r_not_mem_display (v : Double) : 'r' ∉ v.display.toList := by
  cases v with
  | nan => decide
  | infinite negative =>
      cases negative with
      | false => decide
      | true => decide
  | finite negative m =>
      intro h
      exact absurd (char_display_finite h) (by decide)

/-- **No result is displayed as an error.** -/
theorem display_ne_errorDisplay (v : Double) : v.display ≠ errorDisplay := by
  intro h
  have hr := r_not_mem_display v
  rw [h] at hr
  exact hr (by decide)

end Display

end Calculator
