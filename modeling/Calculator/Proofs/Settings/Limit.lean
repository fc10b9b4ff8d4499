/-
**The limit that is set.**

The limit of the calculator is a setting.  In the environment it is a text that stands for an
integer; every limit can be set by its numeral, as long as the numeral is not too long to be read.

Main results:

* `Calculator.cleaned?_of_digits`, `Calculator.readInteger_toString` — a numeral needs no cleaning
  and is read as its number;
* `Calculator.Settings.readInteger_of_build` — a text that sets the limit stands for it;
* `Calculator.Settings.build_of_limit` — **every limit can be set**.
-/

import Calculator.Settings.Basic
import Mathlib.Data.List.TakeWhile

set_option relaxedAutoImplicit false
set_option autoImplicit false

namespace Calculator

/-! ### Numerals -/

/-- No digit is white space. -/
theorem isWhiteSpace_of_isDigit {c : Char} (h : c.isDigit = true) : isWhiteSpace c = false := by
  have hc : 48 ≤ c.toNat ∧ c.toNat ≤ 57 := by
    simpa [Char.isDigit, UInt32.le_iff_toNat_le, Char.le_def] using h
  simp [isWhiteSpace, whiteSpaceRanges]
  omega

/-- Digits that do not begin with zero need no cleaning. -/
theorem cleaned?_of_digits {c : Char} {rest : List Char}
    (h : ∀ d ∈ c :: rest, d.isDigit = true) (hc : c ≠ '0') :
    cleaned? (c :: rest) = some (c :: rest) := by
  have hdigit : c.isDigit = true := h c List.mem_cons_self
  -- every step of the cleaning looks for a mark, and a digit is none
  have hne : ∀ {mark : Char}, mark.isDigit = false → ∀ d ∈ c :: rest, d ≠ mark := by
    rintro mark hmark d hd rfl
    rw [h d hd] at hmark
    cases hmark
  have hspace : ∀ d ∈ c :: rest, isWhiteSpace d = false :=
    fun d hd => isWhiteSpace_of_isDigit (h d hd)
  have htrim : trimWhiteSpace (c :: rest) = c :: rest := by
    have hkept : ∀ text : List Char, (∀ d ∈ text, isWhiteSpace d = false) →
        text.dropWhile isWhiteSpace = text := fun text ht =>
      List.dropWhile_eq_self_iff.2 fun hl => by simp [ht _ (List.getElem_mem hl)]
    rw [trimWhiteSpace, hkept _ hspace, hkept _ fun d hd => hspace d (List.mem_reverse.1 hd),
      List.reverse_reverse]
  have hplus : dropPlus? (c :: rest) = some (c :: rest) := by
    unfold dropPlus?
    split
    · next heq => exact absurd (List.cons.inj heq).1 (hne (by decide) c List.mem_cons_self)
    · next heq => exact absurd (List.cons.inj heq).1 (hne (by decide) c List.mem_cons_self)
    · rfl
  have hzeros : dropZeros? (c :: rest) = some (c :: rest) := by
    unfold dropZeros?
    split
    · next heq => exact absurd (List.cons.inj heq).1 (hne (by decide) c List.mem_cons_self)
    · rw [dropLeading?, if_neg hc, if_pos hdigit]
  have hplaces : dropPlaces (c :: rest) = c :: rest := by
    have hdrop : (c :: rest).dropWhile (· != '.') = [] :=
      List.dropWhile_eq_nil_iff.2 fun d hd => bne_iff_ne.2 (hne (by decide) d hd)
    rw [dropPlaces, hdrop]
    exact if_neg fun hp => hp.1 rfl
  have hscores : dropUnderscores (c :: rest) = c :: rest := by
    unfold dropUnderscores
    split
    · rfl
    · exact List.filter_eq_self.2 fun d hd => bne_iff_ne.2 (hne (by decide) d hd)
  rw [cleaned?, htrim, hplus, Option.bind_some, hzeros, Option.map_some, hplaces, hscores]

/-- **Numerals are read** as texts of the environment.  The numeral of a positive number is read as
that number, unless it is too long. -/
theorem readInteger_toString {n : Nat} (hn : 0 < n)
    (h : (toString n).length ≤ maxNumeralLength) : readInteger (toString n) = .ok (n : Int) := by
  have hdigits : (toString n).toList = Nat.toDigits 10 n := String.toList_ofList
  have hlength : (Nat.toDigits 10 n).length ≤ maxNumeralLength := by
    rwa [← hdigits, String.length_toList]
  have hd : ∀ c ∈ Nat.toDigits 10 n, c.isDigit = true :=
    fun c hc => Nat.isDigit_of_mem_toDigits (by decide) (by decide) hc
  have hclean : cleaned? (Nat.toDigits 10 n) = some (Nat.toDigits 10 n) := by
    have hhead := head_toDigits hn
    cases hc : Nat.toDigits 10 n with
    | nil => exact absurd hc Nat.toDigits_ne_nil
    | cons c rest =>
        rw [hc] at hd hhead
        exact cleaned?_of_digits hd fun h0 => hhead (congrArg some h0)
  rw [readInteger, hdigits, hclean]
  exact readNumeral_toDigits hlength

namespace Settings

/-! ### The limit -/

/-- The name of the setting that limits expressions. -/
def limitSetting : String := "calc_max_expression_length"

/-- A text is checked as the integer that it stands for. -/
theorem checkPositive_string (setting text : String) :
    checkPositive setting (.string text) =
      match readInteger text with
      | .error fault => .error [⟨setting, none, .ofIntegerFault fault⟩]
      | .ok n => if h : 1 ≤ n then .ok ⟨n, h⟩ else .error [⟨setting, none, .tooSmall⟩] := by
  unfold checkPositive integer
  dsimp only
  cases readInteger text with
  | error fault => rfl
  | ok n => rfl

/-- The limit of settings that are built is the one that was checked. -/
theorem length_of_build {environment : Environment} {arguments : List (String × Json)}
    {settings : Settings} (h : build environment arguments = .ok settings) :
    orDefault defaultLength (checkPositive limitSetting)
        (given environment arguments limitSetting) =
      .ok ⟨settings.maxExpressionLength, settings.one_le_maxExpressionLength⟩ := by
  unfold build at h
  split at h
  · cases h
  · dsimp only at h
    split at h
    · next hlength _ _ =>
        cases h
        exact hlength
    · cases h

/-- The text of the environment is what is given for the limit. -/
theorem given_of_find? {environment : Environment} {text : String}
    (h : environment.find? limitSetting = some text) :
    given environment [] limitSetting = some (.string text) := by
  have hfrom : fromEnvironment environment limitSetting = .ok (some (.string text)) := by
    rw [fromEnvironment, h]
    exact if_neg (by decide)
  rw [given, hfrom]
  rfl

/-- A text that sets the limit stands for the limit of the settings. -/
theorem readInteger_of_build {environment : Environment} {settings : Settings} {text : String}
    (hbuild : build environment [] = .ok settings)
    (hset : environment.find? limitSetting = some text) :
    readInteger text = .ok settings.maxExpressionLength := by
  have hcheck := length_of_build hbuild
  rw [given_of_find? hset, orDefault, checkPositive_string] at hcheck
  cases hread : readInteger text with
  | error fault => rw [hread] at hcheck; cases hcheck
  | ok n =>
      rw [hread] at hcheck
      dsimp only at hcheck
      split at hcheck
      · cases hcheck
        rfl
      · cases hcheck

/-- **Every limit can be set**, and nothing else is set with it. -/
theorem build_of_limit {limit : Nat} (hpos : 0 < limit)
    (h : (toString limit).length ≤ maxNumeralLength) :
    build ⟨[("CALC_MAX_EXPRESSION_LENGTH", toString limit)]⟩ [] = .ok ⟨"Calculator API", "0.1.0",
      "INFO", limit, by omega, defaultOrigins, none⟩ := by
  have hread := readInteger_toString hpos h
  generalize toString limit = text at hread
  let environment : Environment := ⟨[("CALC_MAX_EXPRESSION_LENGTH", text)]⟩
  have hset : environment.find? limitSetting = some text := by
    have hname : Environment.folded "CALC_MAX_EXPRESSION_LENGTH" =
        Environment.folded limitSetting := by decide
    simp [environment, Environment.find?, hname]
  have hunset : ∀ setting, Environment.folded "CALC_MAX_EXPRESSION_LENGTH" ≠
      Environment.folded setting → environment.find? setting = none := by
    intro setting hne
    simp [environment, Environment.find?, hne]
  have hother : ∀ setting, Environment.folded "CALC_MAX_EXPRESSION_LENGTH" ≠
      Environment.folded setting → given environment [] setting = none := by
    intro setting hne
    rw [given, fromEnvironment, hunset setting hne]
    rfl
  have hlength : orDefault defaultLength (checkPositive "calc_max_expression_length")
      (given environment [] "calc_max_expression_length") = .ok ⟨(limit : Int), by omega⟩ := by
    change orDefault defaultLength (checkPositive limitSetting)
      (given environment [] limitSetting) = _
    rw [given_of_find? hset, orDefault, checkPositive_string, hread]
    exact dif_pos (by omega)
  change build environment [] = _
  unfold build
  rw [fromEnvironment, hunset originsSetting (by decide)]
  dsimp only
  rw [hlength, hother "api_title" (by decide), hother "api_version" (by decide),
    hother "log_level" (by decide), hother originsSetting (by decide),
    hother "frontend_origin" (by decide)]
  rfl

end Settings

end Calculator
