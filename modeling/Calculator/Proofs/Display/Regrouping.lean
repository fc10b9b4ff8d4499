/-
**Regrouping the numbers of a text.**

The scan for separators collects digits and points until another character or the end of the text
ends the run, and then writes the run and goes on.  What it makes of a whole text is said here
without the scan: the text is cut into its maximal runs of digits and points and the characters
between them, the digits in front of the first point of a run are replaced by the same number
without leading zeros in groups of three, and everything else stays where it is.  The first run with
too many digits in front of its point makes the text as a whole fail.

Main definitions:

* `Calculator.Grouping.InThrees` — digits in groups of three, counted from the right;
* `Calculator.Grouping.Rewritten` — what becomes of the digits in front of a point;
* `Calculator.Grouping.Regrouped` — **a text and what it is with separators**;
* `Calculator.withShortcuts` — the same function, but nothing and an error are not looked at.

Main results:

* `Calculator.Grouping.inThrees_iff` — the groups that separators make;
* `Calculator.Grouping.canonical_eq` — digits without leading zeros are those of their number;
* `Calculator.Grouping.text_append` — one run, and then the rest of the text;
* `Calculator.Grouping.text_of_regrouped`, `Calculator.Grouping.text_of_long` — a text without a run
  that is too long, and one with such a run;
* `Calculator.Grouping.text_eq_ok_iff`, `Calculator.Grouping.text_eq_error_iff` — the same as
  equivalences;
* `Calculator.withSeparators_regroups` — **separators in any text**.
-/

import Calculator.Proofs.Display.TypedNumbers
import Calculator.Proofs.Expression.Spacing

set_option relaxedAutoImplicit false
set_option autoImplicit false

namespace Calculator

namespace Grouping

open Expression (numberRuns EndsNumber numberRuns_nil numberRuns_cons numberRuns_append
  induction_on_runs)
open Literal (whole)

variable {digits grouped group number rest t result : List Char}

/-! ### Groups of three -/

/-- Digits, and the same digits in groups of three counted from the right, with one comma between
neighbouring groups. -/
inductive InThrees : List Char → List Char → Prop where
  | first {group : List Char} : group ≠ [] → group.length ≤ 3 → InThrees group group
  | further {digits grouped group : List Char} : InThrees digits grouped → group.length = 3 →
      InThrees (digits ++ group) (grouped ++ ',' :: group)

theorem InThrees.ne_nil (h : InThrees digits grouped) : digits ≠ [] := by
  cases h with
  | first hne _ => exact hne
  | further _ hlength =>
      intro hnil
      rw [(List.append_eq_nil_iff.1 hnil).2] at hlength
      exact absurd hlength (by decide)

theorem everyThird_of_length_le (h : digits.length ≤ 3) : everyThird digits = digits := by
  unfold everyThird
  split
  · simp only [List.length_cons] at h
    omega
  · rfl

/-- Three digits are one group. -/
theorem separated_of_length_le (h : digits.length ≤ 3) : separated digits = digits := by
  rw [separated, everyThird_of_length_le (by rwa [List.length_reverse]), List.reverse_reverse]

/-- The last three digits are a group behind a comma. -/
theorem separated_append (hne : digits ≠ []) (h : group.length = 3) :
    separated (digits ++ group) = separated digits ++ ',' :: group := by
  obtain ⟨a, b, c, rfl⟩ := List.length_eq_three.1 h
  obtain ⟨d, more, hrev⟩ := List.exists_cons_of_ne_nil (mt List.reverse_eq_nil_iff.1 hne)
  rw [separated, separated, List.reverse_append, hrev]
  simp [everyThird]

theorem inThrees_separated (h : digits ≠ []) : InThrees digits (separated digits) := by
  induction hn : digits.length using Nat.strongRecOn generalizing digits with
  | ind n ih =>
      rcases Nat.lt_or_ge 3 digits.length with hlong | hshort
      · have hsplit := List.take_append_drop (digits.length - 3) digits
        have hfront : (digits.take (digits.length - 3)).length < n := by
          rw [List.length_take]
          omega
        have hne : digits.take (digits.length - 3) ≠ [] := by
          rw [ne_eq, ← List.length_eq_zero_iff, List.length_take]
          omega
        have hgroup : (digits.drop (digits.length - 3)).length = 3 := by
          rw [List.length_drop]
          omega
        have hfurther := InThrees.further (ih _ hfront hne rfl) hgroup
        rwa [← separated_append hne hgroup, hsplit] at hfurther
      · rw [separated_of_length_le hshort]
        exact .first h hshort

/-- **The groups that separators make** are the only ones. -/
theorem inThrees_iff : InThrees digits grouped ↔ digits ≠ [] ∧ grouped = separated digits := by
  constructor
  · intro h
    refine ⟨h.ne_nil, ?_⟩
    induction h with
    | first _ hlength => exact (separated_of_length_le hlength).symm
    | further hdigits hlength ih => rw [separated_append hdigits.ne_nil hlength, ih]
  · rintro ⟨hne, rfl⟩
    exact inThrees_separated hne

/-! ### Numbers -/

/-- What becomes of the digits in front of a point: the same number without leading zeros, in groups
of three.  If there are none, nothing is written for them. -/
inductive Rewritten : List Char → List Char → Prop where
  | none : Rewritten [] []
  | number {digits grouped : List Char} : digits ≠ [] →
      InThrees (Nat.toDigits 10 (Nat.ofDigitChars 10 digits 0)) grouped → Rewritten digits grouped

/-- Digits without leading zeros are those of their number. -/
theorem canonical_eq (h : ∀ c ∈ digits, c.isDigit = true) :
    canonical digits = Nat.toDigits 10 (Nat.ofDigitChars 10 digits 0) := by
  rw [← Literal.ofDigitChars_canonical, (Literal.isNatural_canonical h).toDigits_eq]

/-- The digits in front of a point are rewritten, unless they are too many. -/
theorem wholePart_of_length_le (h : ∀ c ∈ digits, c.isDigit = true)
    (hlength : digits.length ≤ maxDigits) :
    wholePart digits = .ok grouped ↔ Rewritten digits grouped := by
  unfold wholePart
  by_cases hnil : digits = []
  · subst hnil
    rw [if_pos rfl, Except.ok.injEq]
    constructor
    · rintro rfl
      exact .none
    · intro hw
      cases hw with
      | none => rfl
      | number hne _ => exact absurd rfl hne
  · rw [if_neg hnil, if_neg (Nat.not_lt.2 hlength), Except.ok.injEq, canonical_eq h]
    constructor
    · rintro rfl
      exact .number hnil (inThrees_separated Nat.toDigits_ne_nil)
    · intro hw
      cases hw with
      | none => exact absurd rfl hnil
      | number _ hthree => exact (inThrees_iff.1 hthree).2.symm

theorem wholePart_of_lt_length (h : maxDigits < digits.length) :
    wholePart digits = .error ⟨digits.length⟩ := by
  have hne : digits ≠ [] := by
    rintro rfl
    exact absurd h (by decide)
  rw [wholePart, if_neg hne, if_pos h]

/-! ### Runs -/

/-- A run of digits and points consists of digits and of what begins with the first point. -/
theorem exists_parts (h : ∀ c ∈ number, isLiteralChar c = true) :
    ∃ fraction, number = whole number ++ fraction ∧ (∀ c ∈ whole number, c.isDigit = true) ∧
      (∀ c, fraction.head? = some c → c = '.') ∧ ∀ c ∈ fraction, isLiteralChar c = true := by
  refine ⟨number.dropWhile (· ≠ '.'), List.takeWhile_append_dropWhile.symm, fun c hc => ?_,
    fun c hc => ?_, fun c hc => h c ((List.dropWhile_suffix _).subset hc)⟩
  · have hpoint : c ≠ '.' := by simpa using List.all_eq_true.1 List.all_takeWhile c hc
    have hliteral := h c ((List.takeWhile_prefix _).subset hc)
    simpa [isLiteralChar, hpoint] using hliteral
  · have hnot := List.head?_dropWhile_not (· ≠ '.') number
    rw [hc] at hnot
    simpa using hnot

/-- A run is written with its digits rewritten and the rest behind them. -/
theorem run_append {fraction : List Char} (h : ∀ c ∈ digits, c.isDigit = true)
    (hf : ∀ c, fraction.head? = some c → c = '.') :
    run (digits ++ fraction) = (wholePart digits).map (· ++ fraction) := by
  have hpoint : (fun c : Char => c != '.') = fun c => decide (c ≠ '.') := by
    funext c
    rw [decide_not]
    rfl
  obtain ⟨htake, hdrop⟩ := Expression.span_of_digits h fraction hf
  unfold run
  rw [hpoint, htake, hdrop]
  cases wholePart digits with
  | error fault => rfl
  | ok done => rfl

/-! ### Texts -/

theorem following_append (h : ∀ c ∈ number, isLiteralChar c = true) (done rest : List Char) :
    following done (number ++ rest) = following (number.reverse ++ done) rest := by
  induction number generalizing done with
  | nil => rfl
  | cons c number ih =>
      obtain ⟨hc, hnumber⟩ := List.forall_mem_cons.1 h
      rw [List.cons_append, following, if_pos hc, ih hnumber]
      simp

/-- Another character ends the run that has been read. -/
theorem following_cons {c : Char} (hc : isLiteralChar c = false) (number rest : List Char) :
    following number (c :: rest) =
      (run number.reverse).bind fun done => (text rest).map fun more => done ++ c :: more := by
  rw [following, hc, text]
  cases run number.reverse with
  | error fault => rfl
  | ok done =>
      cases following [] rest with
      | error fault => rfl
      | ok more => rfl

/-- A character that belongs to no number stays. -/
theorem text_cons {c : Char} (hc : isLiteralChar c = false) (rest : List Char) :
    text (c :: rest) = (text rest).map (c :: ·) := by
  rw [text, following_cons hc]
  rfl

/-- **One run, and then the rest of the text.** -/
theorem text_append (h : ∀ c ∈ number, isLiteralChar c = true) (hrest : EndsNumber rest) :
    text (number ++ rest) = (run number).bind fun done => (text rest).map (done ++ ·) := by
  have hstart : text (number ++ rest) = following number.reverse rest := by
    rw [text, following_append h, List.append_nil]
  rw [hstart]
  cases rest with
  | nil =>
      have hnil : text [] = .ok [] := rfl
      rw [following, List.reverse_reverse, hnil]
      cases run number with
      | error fault => rfl
      | ok done => simp [Except.bind, Except.map]
  | cons c rest =>
      have hc : isLiteralChar c = false := hrest c rfl
      rw [following_cons hc, List.reverse_reverse, text_cons hc]
      cases run number with
      | error fault => rfl
      | ok done =>
          cases text rest with
          | error fault => rfl
          | ok more => rfl

/-- **A text and what it is with separators**: characters that belong to no number stay, and in a
maximal run of digits and points the digits in front of the first point are rewritten. -/
inductive Regrouped : List Char → List Char → Prop where
  | nil : Regrouped [] []
  | mark {c : Char} {rest result : List Char} : isLiteralChar c = false → Regrouped rest result →
      Regrouped (c :: rest) (c :: result)
  | run {digits grouped fraction rest result : List Char} : digits ++ fraction ≠ [] →
      (∀ c ∈ digits, c.isDigit = true) → Rewritten digits grouped →
      (∀ c, fraction.head? = some c → c = '.') → (∀ c ∈ fraction, isLiteralChar c = true) →
      EndsNumber rest → Regrouped rest result →
      Regrouped (digits ++ fraction ++ rest) (grouped ++ fraction ++ result)

theorem exists_rewritten (digits : List Char) : ∃ grouped, Rewritten digits grouped := by
  by_cases h : digits = []
  · exact ⟨[], h ▸ .none⟩
  · exact ⟨_, .number h (inThrees_separated Nat.toDigits_ne_nil)⟩

/-- Every text can be regrouped. -/
theorem exists_regrouped (t : List Char) : ∃ result, Regrouped t result := by
  induction t using induction_on_runs with
  | nil => exact ⟨[], .nil⟩
  | mark c rest hc ih =>
      obtain ⟨result, hr⟩ := ih
      exact ⟨c :: result, .mark hc hr⟩
  | number number rest hne hl hrest ih =>
      obtain ⟨result, hr⟩ := ih
      obtain ⟨fraction, hsplit, hdigit, hpoint, hfraction⟩ := exists_parts hl
      obtain ⟨grouped, hg⟩ := exists_rewritten (whole number)
      rw [hsplit] at hne ⊢
      exact ⟨_, .run hne hdigit hg hpoint hfraction hrest hr⟩

theorem isLiteralChar_of_parts {fraction : List Char} (hd : ∀ c ∈ digits, c.isDigit = true)
    (hf : ∀ c ∈ fraction, isLiteralChar c = true) :
    ∀ c ∈ digits ++ fraction, isLiteralChar c = true :=
  List.forall_mem_append.2 ⟨fun c hc => by simp [isLiteralChar, hd c hc], hf⟩

theorem whole_append {fraction : List Char} (hd : ∀ c ∈ digits, c.isDigit = true)
    (hf : ∀ c, fraction.head? = some c → c = '.') : whole (digits ++ fraction) = digits :=
  (Expression.span_of_digits hd fraction hf).1

/-- **A text without a run that is too long** is regrouped. -/
theorem text_of_regrouped (h : Regrouped t result)
    (hs : ∀ number ∈ numberRuns t, (whole number).length ≤ maxDigits) : text t = .ok result := by
  induction h with
  | nil => rfl
  | mark hc _ ih =>
      rw [numberRuns_cons hc] at hs
      rw [text_cons hc, ih hs]
      rfl
  | run hne hd hw hpoint hf hrest _ ih =>
      have hl := isLiteralChar_of_parts hd hf
      rw [numberRuns_append hne hl hrest] at hs
      obtain ⟨hshort, hs⟩ := List.forall_mem_cons.1 hs
      rw [whole_append hd hpoint] at hshort
      rw [text_append hl hrest, run_append hd hpoint, (wholePart_of_length_le hd hshort).2 hw, ih hs]
      rfl

/-- **The first run that is too long** makes a text fail. -/
theorem text_of_long {before after : List (List Char)}
    (h : numberRuns t = before ++ number :: after)
    (hb : ∀ run ∈ before, (whole run).length ≤ maxDigits)
    (hl : maxDigits < (whole number).length) : text t = .error ⟨(whole number).length⟩ := by
  induction t using induction_on_runs generalizing before with
  | nil =>
      rw [numberRuns_nil] at h
      simp at h
  | mark c rest hc ih =>
      rw [numberRuns_cons hc] at h
      rw [text_cons hc, ih h hb]
      rfl
  | number run rest hne hrun hrest ih =>
      obtain ⟨fraction, hsplit, hdigit, hpoint, -⟩ := exists_parts hrun
      have hwritten := run_append hdigit hpoint
      rw [← hsplit] at hwritten
      rw [numberRuns_append hne hrun hrest] at h
      rw [text_append hrun hrest, hwritten]
      cases before with
      | nil =>
          obtain ⟨rfl, -⟩ := List.cons.inj h
          rw [wholePart_of_lt_length hl]
          rfl
      | cons first before =>
          obtain ⟨rfl, hmore⟩ := List.cons.inj h
          obtain ⟨hshort, hb⟩ := List.forall_mem_cons.1 hb
          obtain ⟨grouped, hg⟩ := exists_rewritten (whole run)
          rw [(wholePart_of_length_le hdigit hshort).2 hg, ih hmore hb]
          rfl

/-- No run is too long, or one of them is the first. -/
theorem short_or_first_long (runs : List (List Char)) :
    (∀ run ∈ runs, (whole run).length ≤ maxDigits) ∨
      ∃ before number after, runs = before ++ number :: after ∧
        (∀ run ∈ before, (whole run).length ≤ maxDigits) ∧ maxDigits < (whole number).length := by
  cases h : runs.find? fun run => maxDigits < (whole run).length with
  | none => exact .inl fun run hr => by simpa using List.find?_eq_none.1 h run hr
  | some number =>
      obtain ⟨hlong, before, after, hsplit, hb⟩ := List.find?_eq_some_iff_append.1 h
      exact .inr ⟨before, number, after, hsplit, fun run hr => by simpa using hb run hr,
        by simpa using hlong⟩

theorem text_eq_ok_iff :
    text t = .ok result ↔
      Regrouped t result ∧ ∀ run ∈ numberRuns t, (whole run).length ≤ maxDigits := by
  constructor
  · intro h
    obtain hs | ⟨before, number, after, hsplit, hb, hl⟩ := short_or_first_long (numberRuns t)
    · obtain ⟨regrouped, hr⟩ := exists_regrouped t
      rw [text_of_regrouped hr hs, Except.ok.injEq] at h
      exact ⟨h ▸ hr, hs⟩
    · rw [text_of_long hsplit hb hl] at h
      cases h
  · rintro ⟨hr, hs⟩
    exact text_of_regrouped hr hs

theorem text_eq_error_iff {fault : TooLong} :
    text t = .error fault ↔
      ∃ before number after, numberRuns t = before ++ number :: after ∧
        (∀ run ∈ before, (whole run).length ≤ maxDigits) ∧ maxDigits < (whole number).length ∧
        fault.digits = (whole number).length := by
  constructor
  · intro h
    obtain hs | ⟨before, number, after, hsplit, hb, hl⟩ := short_or_first_long (numberRuns t)
    · obtain ⟨regrouped, hr⟩ := exists_regrouped t
      rw [text_of_regrouped hr hs] at h
      cases h
    · rw [text_of_long hsplit hb hl] at h
      cases h
      exact ⟨before, number, after, hsplit, hb, hl, rfl⟩
  · rintro ⟨before, number, after, hsplit, hb, hl, hd⟩
    rw [text_of_long hsplit hb hl, ← hd]

end Grouping

open Grouping
open Expression (numberRuns)
open Literal (whole)

/-- With separators, but nothing and the word for an error are returned without looking at them. -/
def withShortcuts (text : String) : Except TooLong String :=
  if text = "" ∨ text = errorDisplay then .ok text else withSeparators text

theorem withSeparators_eq_ok_iff {text result : String} :
    withSeparators text = .ok result ↔ Grouping.text text.toList = .ok result.toList := by
  unfold withSeparators
  cases Grouping.text text.toList with
  | error fault => simp
  | ok grouped => simp [← String.toList_inj]

theorem withSeparators_eq_error_iff {text : String} {fault : TooLong} :
    withSeparators text = .error fault ↔ Grouping.text text.toList = .error fault := by
  unfold withSeparators
  cases Grouping.text text.toList with
  | error fault => simp
  | ok grouped => simp

/-- What is said about a run that is too long. -/
theorem Grouping.TooLong.message_eq (fault : TooLong) :
    fault.message = "Exceeds the limit (4300 digits) for integer string conversion: value has " ++
      toString fault.digits ++
      " digits; use sys.set_int_max_str_digits() to increase the limit" := by
  have hlimit : "Exceeds the limit (" ++ toString maxDigits ++
      " digits) for integer string conversion: value has " =
        "Exceeds the limit (4300 digits) for integer string conversion: value has " := by
    decide +kernel
  exact congrArg (· ++ toString fault.digits ++
    " digits; use sys.set_int_max_str_digits() to increase the limit") hlimit

/-- **Separators in any text.**  A text fails exactly if one of its maximal runs of digits and points
has more than 4300 digits in front of its first point, and the number of these digits is reported for
the first such run.  Any other text has the one result that its runs and the characters between
them make; the shortcuts make no difference. -/
theorem withSeparators_regroups (text : String) :
    (∀ fault, (withSeparators text = .error fault ↔
        ∃ before number after, numberRuns text.toList = before ++ number :: after ∧
          (∀ run ∈ before, (whole run).length ≤ 4300) ∧ 4300 < (whole number).length ∧
          fault.digits = (whole number).length) ∧
      fault.message = "Exceeds the limit (4300 digits) for integer string conversion: value has " ++
        toString fault.digits ++
        " digits; use sys.set_int_max_str_digits() to increase the limit") ∧
    (∀ result, withSeparators text = .ok result ↔
      Regrouped text.toList result.toList ∧
        ∀ run ∈ numberRuns text.toList, (whole run).length ≤ 4300) ∧
    withShortcuts text = withSeparators text := by
  refine ⟨fun fault => ⟨withSeparators_eq_error_iff.trans text_eq_error_iff, fault.message_eq⟩,
    fun result => withSeparators_eq_ok_iff.trans text_eq_ok_iff, ?_⟩
  unfold withShortcuts
  split
  · next h =>
      rcases h with rfl | rfl
      · rfl
      · rfl
  · rfl

/-- Zeros in front of an amount, digits behind its point, and an exponent with zeros in front; and an
amount of zeros that are too many. -/
theorem withSeparators_regroups_zeros :
    let long := List.replicate 4301 '0'
    (Regrouped "-0012345.6789E0015".toList "-12,345.6789E15".toList ∧
      (∀ run ∈ numberRuns "-0012345.6789E0015".toList, (whole run).length ≤ 4300) ∧
      withSeparators "-0012345.6789E0015" = .ok "-12,345.6789E15") ∧
    numberRuns ('+' :: long) = [] ++ long :: [] ∧ (∀ run ∈ [], (whole run).length ≤ 4300) ∧
      4300 < (whole long).length ∧
      withSeparators (String.ofList ('+' :: long)) = .error ⟨4301⟩ := by
  intro long
  have hgrouped : withSeparators "-0012345.6789E0015" = .ok "-12,345.6789E15" := by decide
  obtain ⟨hregrouped, hshort⟩ :=
    ((withSeparators_regroups "-0012345.6789E0015").2.1 "-12,345.6789E15").1 hgrouped
  have hdigit : ∀ c ∈ long, c.isDigit = true := isDigit_zeros 4301
  have hwhole : (whole long).length = 4301 := by
    have hlong : whole (long ++ []) = long := whole_append hdigit (by simp)
    rw [List.append_nil] at hlong
    rw [hlong, List.length_replicate]
  have hruns : numberRuns ('+' :: long) = [] ++ long :: [] := by
    have hne : long ≠ [] := List.cons_ne_nil '0' (List.replicate 4300 '0')
    have hrun : numberRuns (long ++ []) = long :: numberRuns [] :=
      Expression.numberRuns_append hne (fun c hc => by simp [isLiteralChar, hdigit c hc])
        (by simp [Expression.EndsNumber])
    rw [List.append_nil, Expression.numberRuns_nil] at hrun
    rw [Expression.numberRuns_cons (by decide), hrun]
    rfl
  have hlimit : 4300 < (whole long).length := by omega
  refine ⟨⟨hregrouped, hshort, hgrouped⟩, hruns, by simp, hlimit, ?_⟩
  refine ((withSeparators_regroups (String.ofList ('+' :: long))).1 ⟨4301⟩).1.2 ?_
  rw [String.toList_ofList]
  exact ⟨[], long, [], hruns, by simp, hlimit, hwhole.symm⟩

end Calculator
