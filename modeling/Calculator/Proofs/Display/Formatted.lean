/-
**Formatted results.**

Separators are put into every run of digits and points, whatever it is part of, and zeros in front
of a run are dropped.  That nothing but separators is added to a display, and only where they belong,
is due to the form of displays: the runs of a plain number are the number itself, without needless
zeros; in scientific notation one digit stands in front of the point and the exponent has three
digits at most; and words have neither digits nor points.  So the commas can be deleted again, and
what is left is the display.

Main definitions:

* `Calculator.unseparated` — a text without its commas;
* `Calculator.Display.Separated` — **where the separators of a display stand**.

Main results:

* `Calculator.Grouping.Regrouped.natural` — a number without needless zeros in front of a text;
* `Calculator.Display.regrouped_scientific` — scientific notation stays as it is;
* `Calculator.Display.exists_separated_display` — the separators of every display;
* `Calculator.formatted_determines_result` — **formatting only adds separators**.
-/

import Calculator.Proofs.Display.Regrouping
import Calculator.Proofs.Service.Agreement

set_option relaxedAutoImplicit false
set_option autoImplicit false

namespace Calculator

open Expression (numberRuns EndsNumber)

/-- A text without its commas. -/
def unseparated (text : String) : String := String.ofList (text.toList.filter (· != ','))

/-! ### Regrouping short texts -/

namespace Grouping

open Expression (numberRuns_nil numberRuns_cons numberRuns_append induction_on_runs)
open Display (IsNatural)

variable {digits grouped number rest result t : List Char}

theorem length_le_of_mem_numberRuns (h : number ∈ numberRuns t) : number.length ≤ t.length := by
  induction t using induction_on_runs with
  | nil =>
      rw [numberRuns_nil] at h
      exact absurd h List.not_mem_nil
  | mark c rest hc ih =>
      rw [numberRuns_cons hc] at h
      exact Nat.le_succ_of_le (ih h)
  | number run rest hne hrun hrest ih =>
      rw [numberRuns_append hne hrun hrest] at h
      rw [List.length_append]
      rcases List.mem_cons.1 h with rfl | hmore
      · exact Nat.le_add_right _ _
      · exact Nat.le_add_left_of_le (ih hmore)

/-- No run of a short text is too long. -/
theorem withSeparators_of_regrouped {text formatted : String}
    (h : Regrouped text.toList formatted.toList) (hlength : text.length ≤ maxDigits) :
    withSeparators text = .ok formatted := by
  refine withSeparators_eq_ok_iff.2 (text_of_regrouped h fun number hn => ?_)
  have hrun := length_le_of_mem_numberRuns hn
  rw [String.length_toList] at hrun
  exact Nat.le_trans (List.takeWhile_prefix _).length_le (Nat.le_trans hrun hlength)

/-- A number without needless zeros in front of a text gets its separators, and nothing else of it
changes. -/
theorem Regrouped.natural {fraction : List Char} (h : IsNatural digits)
    (hthree : InThrees digits grouped) (hpoint : ∀ c, fraction.head? = some c → c = '.')
    (hf : ∀ c ∈ fraction, isLiteralChar c = true) (hrest : EndsNumber rest)
    (hr : Regrouped rest result) :
    Regrouped (digits ++ fraction ++ rest) (grouped ++ fraction ++ result) := by
  have hw : Rewritten digits grouped := .number h.ne_nil (by rwa [h.toDigits_eq])
  exact .run (by simp [h.ne_nil]) h.digit hw hpoint hf hrest hr

/-- The number may be the whole text. -/
theorem Regrouped.numeral {fraction : List Char} (h : IsNatural digits)
    (hthree : InThrees digits grouped) (hpoint : ∀ c, fraction.head? = some c → c = '.')
    (hf : ∀ c ∈ fraction, isLiteralChar c = true) :
    Regrouped (digits ++ fraction) (grouped ++ fraction) := by
  have hend : EndsNumber [] := fun c hc => by simp at hc
  have hwhole := Regrouped.natural h hthree hpoint hf hend .nil
  rwa [List.append_nil, List.append_nil] at hwhole

/-- It may have no point. -/
theorem Regrouped.integer (h : IsNatural digits) (hthree : InThrees digits grouped) :
    Regrouped digits grouped := by
  have hnumber : Regrouped (digits ++ []) (grouped ++ []) :=
    .numeral h hthree (by simp) (by simp)
  rwa [List.append_nil, List.append_nil] at hnumber

/-- A sign in front is no part of a number. -/
theorem Regrouped.signed (h : Regrouped t result) (negative : Bool) :
    Regrouped (signText negative ++ t) (signText negative ++ result) := by
  cases negative with
  | false => exact h
  | true => exact .mark rfl h

/-- What has neither digits nor points stays as it is. -/
theorem regrouped_of_no_number (h : t.any isLiteralChar = false) : Regrouped t t := by
  induction t with
  | nil => exact .nil
  | cons c rest ih =>
      rw [List.any_cons, Bool.or_eq_false_iff] at h
      exact .mark h.1 (ih h.2)

end Grouping

open Grouping

/-! ### The separators of a display -/

namespace Display

variable {display formatted : List Char} {kind : Kind}

/-- **Where the separators of a display stand**: between the groups of three digits in front of the
point of a plain number, counted from the right.  Nothing else has any. -/
inductive Separated : Kind → List Char → List Char → Prop where
  | plain {negative : Bool} {whole grouped fraction : List Char} : IsNatural whole →
      InThrees whole grouped →
      (fraction = [] ∨ ∃ places, fraction = '.' :: places ∧ ∀ c ∈ places, c.isDigit = true) →
      Separated .plain (signText negative ++ (whole ++ fraction))
        (signText negative ++ (grouped ++ fraction))
  | unchanged {kind : Kind} {display : List Char} : kind ≠ .plain → ',' ∉ display →
      Separated kind display display

theorem filter_of_comma_not_mem {t : List Char} (h : ',' ∉ t) : t.filter (· != ',') = t := by
  refine List.filter_eq_self.2 fun c hc => ?_
  rw [bne_iff_ne]
  rintro rfl
  exact h hc

theorem comma_not_mem_of_isDigit {digits : List Char} (h : ∀ c ∈ digits, c.isDigit = true) :
    ',' ∉ digits :=
  fun hc => absurd (h _ hc) (by decide)

theorem comma_not_mem_signText (negative : Bool) : ',' ∉ signText negative := by
  cases negative with
  | false => decide
  | true => decide

/-- The commas can be deleted again. -/
theorem Separated.filter (h : Separated kind display formatted) :
    formatted.filter (· != ',') = display := by
  cases h with
  | @plain negative whole grouped fraction natural three behind =>
      have hwhole := comma_not_mem_of_isDigit natural.digit
      have hgrouped : grouped.filter (· != ',') = whole := by
        rw [(inThrees_iff.1 three).2]
        refine filter_separated fun c hc => ?_
        rintro rfl
        exact hwhole hc
      have hfraction : ',' ∉ fraction := by
        rcases behind with rfl | ⟨places, rfl, digit⟩
        · exact List.not_mem_nil
        · simpa using comma_not_mem_of_isDigit digit
      rw [List.filter_append, List.filter_append, hgrouped,
        filter_of_comma_not_mem (comma_not_mem_signText negative),
        filter_of_comma_not_mem hfraction]
  | unchanged _ hcomma => exact filter_of_comma_not_mem hcomma

/-! ### Plain numbers -/

/-- A plain number gets its separators in front of the point. -/
theorem exists_separated_plain {text : List Char} (h : PlainForm text) (negative : Bool) :
    ∃ formatted, Regrouped (signText negative ++ text) formatted ∧
      Separated .plain (signText negative ++ text) formatted := by
  cases h with
  | whole natural short =>
      have hthree := inThrees_separated natural.ne_nil
      have hplain : Separated .plain (signText negative ++ (text ++ []))
          (signText negative ++ (separated text ++ [])) := .plain natural hthree (.inl rfl)
      rw [List.append_nil, List.append_nil] at hplain
      exact ⟨_, (Regrouped.integer natural hthree).signed negative, hplain⟩
  | @pointed digits fraction natural short digit ne_nil places last =>
      have hthree := inThrees_separated natural.ne_nil
      have hliteral : ∀ c ∈ '.' :: fraction, isLiteralChar c = true :=
        List.forall_mem_cons.2 ⟨rfl, fun c hc => by simp [isLiteralChar, digit c hc]⟩
      have hnumber := Regrouped.numeral natural hthree (by simp) hliteral
      exact ⟨_, hnumber.signed negative, .plain natural hthree (.inr ⟨fraction, rfl, digit⟩)⟩

/-! ### Scientific notation -/

/-- **Scientific notation stays as it is**: one digit stands in front of the point, and the exponent
is short. -/
theorem regrouped_scientific {d : Decimal} (h : d.leadingExponent.natAbs < 10 ^ 3) :
    Regrouped (scientific d) (scientific d) := by
  have hexponent : (Nat.toDigits 10 d.leadingExponent.natAbs).length ≤ 3 :=
    (Nat.length_toDigits_le_iff (by omega) (by omega)).2 h
  have htail : Regrouped ('E' :: intText d.leadingExponent) ('E' :: intText d.leadingExponent) :=
    .mark rfl ((Regrouped.integer (isNatural_toDigits _)
      (.first Nat.toDigits_ne_nil hexponent)).signed _)
  have hlength := length_leadingDigits d
  have hdigit : ∀ c ∈ leadingDigits d, c.isDigit = true := fun c mem => isDigit_leadingDigits mem
  unfold scientific
  rw [← leadingDigits]
  cases hlead : leadingDigits d with
  | nil =>
      rw [hlead] at hlength
      exact absurd hlength (by decide)
  | cons first more =>
      rw [hlead] at hdigit
      obtain ⟨hfirst, hmore⟩ := List.forall_mem_cons.1 hdigit
      have hnatural : IsNatural [first] :=
        ⟨by simpa using hfirst, List.cons_ne_nil _ _, fun hzero => by simpa using hzero⟩
      have hplaces : ∀ c ∈ '.' :: (more ++ ['0']), isLiteralChar c = true := by
        intro c hc
        simp only [List.mem_cons, List.mem_append, List.not_mem_nil, or_false] at hc
        rcases hc with rfl | hc | rfl
        · rfl
        · simp [isLiteralChar, hmore c hc]
        · rfl
      have hall := Regrouped.natural hnatural (.first (List.cons_ne_nil _ _) (by simp)) (by simp)
        hplaces (fun c hc => by cases hc; rfl) htail
      simpa using hall

/-! ### All displays -/

theorem comma_not_mem_display {v : Double} (h : v.kind ≠ .plain) : ',' ∉ v.display.toList := by
  rw [v.display_eq, String.toList_ofList, List.mem_append, not_or]
  refine ⟨comma_not_mem_signText _, ?_⟩
  have hholds := v.holds_bare
  cases hk : v.kind with
  | nan =>
      rw [hk] at hholds
      rw [show v.bare = "NaN".toList from hholds]
      decide
  | infinite =>
      rw [hk] at hholds
      rw [show v.bare = "Infinity".toList from hholds]
      decide
  | scientific =>
      rw [hk] at hholds
      exact fun hcomma => absurd (ScientificForm.char hholds _ hcomma) (by decide)
  | plain => exact absurd hk h

/-- Nothing but plain numbers is changed. -/
theorem regrouped_display {v : Double} (h : v.kind ≠ .plain) :
    Regrouped v.display.toList v.display.toList := by
  rw [v.display_eq, String.toList_ofList]
  cases v with
  | nan => exact regrouped_of_no_number rfl
  | infinite negative => exact Regrouped.signed (regrouped_of_no_number rfl) negative
  | finite negative m =>
      by_cases hs : IsScientific m
      · rw [Double.bare_scientific hs]
        exact (regrouped_scientific (natAbs_leadingExponent_lt hs.1)).signed _
      · exact absurd (Double.kind_plain hs) h

/-- **Every display can be given separators.** -/
theorem exists_separated_display (v : Double) :
    ∃ formatted, withSeparators v.display = .ok formatted ∧
      Separated v.kind v.display.toList formatted.toList := by
  have hlength : v.display.length ≤ maxDigits := Nat.le_trans (length_display_le v) (by decide)
  by_cases h : v.kind = .plain
  · have hholds := v.holds_bare
    rw [h] at hholds
    obtain ⟨formatted, hr, hs⟩ := exists_separated_plain hholds v.hasMinus
    have htext : v.display.toList = signText v.hasMinus ++ v.bare := by
      rw [v.display_eq, String.toList_ofList]
    rw [← htext, ← String.toList_ofList (l := formatted)] at hr hs
    exact ⟨String.ofList formatted, withSeparators_of_regrouped hr hlength, h ▸ hs⟩
  · exact ⟨v.display, withSeparators_of_regrouped (regrouped_display h) hlength,
      .unchanged h (comma_not_mem_display h)⟩

end Display

open Display

/-! ### Formatted results -/

theorem unseparated_of_separated {kind : Kind} {display formatted : String}
    (h : Separated kind display.toList formatted.toList) : unseparated formatted = display := by
  rw [unseparated, h.filter, String.ofList_toList]

/-- What is calculated can be given separators, which can be deleted again. -/
theorem unseparated_of_calculate {expression formatted : String}
    (h : withSeparators (calculate expression) = .ok formatted) :
    unseparated formatted = calculate expression := by
  cases ho : outcome expression with
  | error fault =>
      rw [calculate_of_error ho] at h ⊢
      cases h
      rfl
  | ok display =>
      obtain ⟨v, rfl⟩ := exists_display_of_outcome ho
      rw [calculate_of_ok ho] at h ⊢
      obtain ⟨separated, hs, hseparated⟩ := exists_separated_display v
      obtain rfl : formatted = separated := Except.ok.inj (h.symm.trans hs)
      exact unseparated_of_separated hseparated

/-- An evaluation is answered with what is calculated, and with the same with separators. -/
theorem Service.exists_formatted {service : Service} {expression : String}
    (h : ¬ service.Overlong expression) :
    ∃ evaluation, (service.evaluate expression).1 = .ok evaluation ∧
      evaluation.result = calculate expression ∧
      unseparated evaluation.formatted = evaluation.result := by
  obtain ⟨formatted, hf, he⟩ := exists_evaluate_eq h
  exact ⟨_, congrArg Prod.fst he, rfl, unseparated_of_calculate hf⟩

/-- The result of an evaluation is its formatted result without the commas. -/
theorem Service.unseparated_formatted {service : Service} {expression : String}
    {evaluation : Evaluation} (h : (service.evaluate expression).1 = .ok evaluation) :
    unseparated evaluation.formatted = evaluation.result := by
  by_cases hlong : service.Overlong expression
  · rw [evaluate_of_overlong hlong] at h
    cases h
  · obtain ⟨answered, he, -, hu⟩ := Service.exists_formatted hlong
    obtain rfl : evaluation = answered := Except.ok.inj (h.symm.trans he)
    exact hu

/-- **Formatting only adds separators.**  Every display can be given separators, which stand between
the groups of three digits in front of the point of a plain number and nowhere else, so that the
display is what is left without them; an error has none.  So the formatted result of an evaluation
determines its result. -/
theorem formatted_determines_result :
    (∀ v : Double, ∃ formatted, withSeparators v.display = .ok formatted ∧
      unseparated formatted = v.display ∧
      Separated v.kind v.display.toList formatted.toList) ∧
    (withSeparators "Error" = .ok "Error" ∧ ',' ∉ "Error".toList) ∧
    (∀ (service : Service) (expression : String), ¬ service.Overlong expression →
      ∃ evaluation, (service.evaluate expression).1 = .ok evaluation ∧
        evaluation.result = calculate expression ∧
        unseparated evaluation.formatted = evaluation.result) ∧
    ∀ (service service' : Service) (expression expression' : String)
      (evaluation evaluation' : Evaluation),
      (service.evaluate expression).1 = .ok evaluation →
      (service'.evaluate expression').1 = .ok evaluation' →
      evaluation.formatted = evaluation'.formatted → evaluation.result = evaluation'.result := by
  refine ⟨fun v => ?_, ⟨rfl, by decide⟩, fun _ _ => Service.exists_formatted, ?_⟩
  · obtain ⟨formatted, hf, hs⟩ := exists_separated_display v
    exact ⟨formatted, hf, unseparated_of_separated hs, hs⟩
  · intro service service' expression expression' evaluation evaluation' h h' hsame
    rw [← Service.unseparated_formatted h, ← Service.unseparated_formatted h', hsame]

/-- The same sum written in two ways: seven digits in front of the point. -/
theorem formatted_determines_result_sum :
    let service : Service := ⟨20⟩
    let evaluation : Evaluation := ⟨"1234567+0.5", "1234567.5", "1,234,567.5", false⟩
    let evaluation' : Evaluation := ⟨"0.5 + 1234567", "1234567.5", "1,234,567.5", false⟩
    ¬ service.Overlong "1234567+0.5" ∧
      (service.evaluate "1234567+0.5").1 = .ok evaluation ∧
      (service.evaluate "0.5 + 1234567").1 = .ok evaluation' ∧
      evaluation.formatted = evaluation'.formatted ∧ evaluation.result = evaluation'.result ∧
      ∃ answered, (service.evaluate "1234567+0.5").1 = .ok answered ∧
        unseparated answered.formatted = answered.result := by
  intro service evaluation evaluation'
  have hshort : ¬ service.Overlong "1234567+0.5" := by decide
  have he : (service.evaluate "1234567+0.5").1 = .ok evaluation := by decide +kernel
  have he' : (service.evaluate "0.5 + 1234567").1 = .ok evaluation' := by decide +kernel
  obtain ⟨-, -, hanswered, hdetermines⟩ := formatted_determines_result
  obtain ⟨answered, ha, -, hu⟩ := hanswered service _ hshort
  exact ⟨hshort, he, he', rfl, hdetermines _ _ _ _ _ _ he he' rfl, answered, ha, hu⟩

end Calculator
