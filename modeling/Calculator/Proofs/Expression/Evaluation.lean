/-
**Evaluating a text is deriving it.**

The readers accept exactly the sentences of the grammar whose nesting cost stays within the limit,
and compute the values that the grammar gives them.

In one direction a successful reader builds a derivation.  A factor alone does not always have one:
a group may also end in front of a character that is a fault anyway, and only what follows shows
it.  So the readers are followed only on texts that go on in a way that may still be accepted.  In
the other direction a derivation moves a scan forward, from a state that needs an operand to the
state in which the operand is filled in; a scan has one outcome, so the value is unique.

Main definitions:

* `Calculator.Expression.Continues` — a text that may stand behind an operand;
* `Calculator.Expression.Moves` — what a derivation does to a scan.

Main results:

* `Calculator.Expression.derives_of_factor`, `Calculator.Expression.derives_of_expression` — what is
  read is derived;
* `Calculator.Expression.Derives.moves` — what is derived is scanned;
* `Calculator.Expression.Sentence.unique` — a text has one value at most;
* `Calculator.Expression.evaluateText_eq_ok_iff_sentence` — **evaluating a text is deriving it**.
-/

import Mathlib.Order.Filter.AtTopBot.Basic
import Calculator.Proofs.Expression.Grammar
import Calculator.Proofs.Expression.Nesting
import Calculator.Calculation

set_option relaxedAutoImplicit false
set_option autoImplicit false

namespace Calculator.Expression

open Filter

/-! ### From readers to derivations -/

/-- The text ends behind its spaces, or goes on with an operator or a closing parenthesis. -/
def Continues (text : List Char) : Prop :=
  ∀ c, (skipSpaces text).head? = some c →
    multiplicative c ≠ none ∨ additive c ≠ none ∨ c = ')'

theorem continues_of_skipSpaces {text : List Char} (h : Continues (skipSpaces text)) :
    Continues text := by
  rwa [Continues, skipSpaces_skipSpaces] at h

/-- What is not a continuation stays behind the whole level. -/
theorem continues_of_joinFurther {operators : Operators} {operand : Reader}
    (ho : ∀ c operation, operators c = some operation → multiplicative c ≠ none ∨ additive c ≠ none)
    {bound : Nat} {text rest : List Char} {value result : Double}
    (h : joinFurther operators operand bound value text = .ok (result, rest))
    (hr : Continues rest) : Continues text := by
  rcases exhausted_or_operator operators text with he | ⟨c, more, operation, ht, hc⟩
  · rw [joinFurther_of_exhausted he] at h
    cases h
    exact continues_of_skipSpaces hr
  · intro d hd
    rw [ht] at hd
    obtain rfl : c = d := by simpa using hd
    exact (ho c operation hc).elim .inl fun ha => .inr (.inl ha)

/-- The factors that this budget reads are derived, if the text may go on behind them. -/
def DerivesFactors (budget : Nat) : Prop :=
  ∀ {text rest : List Char} {value : Double}, factor budget text = .ok (value, rest) →
    Continues rest → Derives .factor text value rest

/-- Further operands go on with a derivation, if each of them does with its operator. -/
theorem derives_of_joinFurther {operators : Operators} {operand : Reader}
    (ho : ∀ c operation, operators c = some operation → multiplicative c ≠ none ∨ additive c ≠ none)
    {D : Double → List Char → Prop}
    (hstep : ∀ {value further : Double} {spaces more middle : List Char} {c : Char}
      {operation : Double → Double → Double}, D value (spaces ++ c :: more) → Blank spaces →
      operators c = some operation → operand more = .ok (further, middle) → Continues middle →
      ∃ left, D (operation value further) left ∧ skipSpaces left = skipSpaces middle)
    {bound : Nat} {text left rest : List Char} {value result : Double} (hd : D value left)
    (hl : skipSpaces left = skipSpaces text)
    (h : joinFurther operators operand bound value text = .ok (result, rest))
    (hr : Continues rest) : ∃ left, D result left ∧ skipSpaces left = rest := by
  -- The derivation has left spaces behind that the reader has passed over.
  induction bound generalizing text left value with
  | zero =>
      cases h
      exact ⟨left, hd, hl⟩
  | succ bound ih =>
      rcases exhausted_or_operator operators text with he | ⟨c, more, operation, ht, hc⟩
      · rw [joinFurther_of_exhausted he] at h
        cases h
        exact ⟨left, hd, hl⟩
      · rw [joinFurther_of_operator ht hc] at h
        cases hm : operand more with
        | error stop => simp [hm] at h
        | ok outcome =>
            obtain ⟨further, middle⟩ := outcome
            simp only [hm] at h
            obtain ⟨spaces, hs, hleft⟩ := exists_blank_append_skipSpaces left
            rw [hl, ht] at hleft
            obtain ⟨next, hnext, hmiddle⟩ :=
              hstep (hleft ▸ hd) hs hc hm (continues_of_joinFurther ho h hr)
            exact ih hnext hmiddle h

theorem derives_of_term {budget : Nat} (hf : DerivesFactors budget) {text rest : List Char}
    {value : Double} (h : term budget text = .ok (value, rest)) (hr : Continues rest) :
    ∃ left, Derives .term text value left ∧ skipSpaces left = rest := by
  have ho : ∀ c operation, multiplicative c = some operation →
      multiplicative c ≠ none ∨ additive c ≠ none := fun c operation hc => .inl (by simp [hc])
  rw [term, leftAssociative] at h
  cases hm : factor budget text with
  | error stop => simp [hm] at h
  | ok outcome =>
      simp only [hm] at h
      refine derives_of_joinFurther ho ?_
        (.single (hf hm (continues_of_joinFurther ho h hr))) rfl h hr
      intro value further spaces more middle c operation hd hs hc hmore hmiddle
      have hfactor := hf hmore hmiddle
      rcases multiplicative_cases hc with ⟨rfl, rfl⟩ | ⟨rfl, rfl⟩
      · exact ⟨middle, .times hd hs hfactor, rfl⟩
      · exact ⟨middle, .divide hd hs hfactor, rfl⟩

theorem derives_of_expression {budget : Nat} (hf : DerivesFactors budget) {text rest : List Char}
    {value : Double} (h : expression budget text = .ok (value, rest)) (hr : Continues rest) :
    ∃ left, Derives .expression text value left ∧ skipSpaces left = rest := by
  have ho : ∀ c operation, additive c = some operation →
      multiplicative c ≠ none ∨ additive c ≠ none := fun c operation hc => .inr (by simp [hc])
  rw [expression, leftAssociative] at h
  cases hm : term budget text with
  | error stop => simp [hm] at h
  | ok outcome =>
      simp only [hm] at h
      obtain ⟨left, hleft, hl⟩ := derives_of_term hf hm (continues_of_joinFurther ho h hr)
      refine derives_of_joinFurther ho ?_ (.alone hleft)
        (hl.trans (skipSpaces_of_skipSpaces_eq hl).symm) h hr
      intro value further spaces more middle c operation hd hs hc hmore hmiddle
      obtain ⟨next, hterm, hnext⟩ := derives_of_term hf hmore hmiddle
      have hskip : skipSpaces next = skipSpaces middle := by
        rw [hnext, skipSpaces_of_skipSpaces_eq hnext]
      rcases additive_cases hc with ⟨rfl, rfl⟩ | ⟨rfl, rfl⟩
      · exact ⟨next, .add hd hs hterm, hskip⟩
      · exact ⟨next, .subtract hd hs hterm, hskip⟩

/-- What is read as a factor is derived, if the text may go on behind it. -/
theorem derives_of_factor (budget : Nat) : DerivesFactors budget := by
  induction budget using Nat.strongRecOn with
  | ind budget ih =>
      intro text rest value h hr
      cases opening text with
      | nothing ht => simp [factor_nil ht] at h
      | plus more ht =>
          cases budget with
          | zero => simp [factor_sign_of_depth ht (.inl rfl)] at h
          | succ budget =>
              rw [factor_plus ht] at h
              exact .of_skipSpaces (ht ▸ .plus (ih budget (by omega) h hr))
      | minus more ht =>
          cases budget with
          | zero => simp [factor_sign_of_depth ht (.inr rfl)] at h
          | succ budget =>
              rw [factor_minus ht] at h
              obtain ⟨result, hm, rfl⟩ := negated_ok h
              exact .of_skipSpaces (ht ▸ .minus (ih budget (by omega) hm hr))
      | group more ht =>
          by_cases hb : budget < 3
          · simp [factor_group_of_depth ht hb] at h
          · obtain ⟨budget, rfl⟩ : ∃ b, budget = b + 3 := ⟨budget - 3, by omega⟩
            rw [factor_group ht] at h
            obtain ⟨middle, hm, hclose⟩ := closed_ok h
            obtain ⟨ha, hx⟩ := exhausted_of_expression hm
            rw [ha.spaces] at hclose
            refine .of_skipSpaces (ht ▸ ?_)
            rcases hclose with rfl | ⟨rfl, hother⟩
            · obtain ⟨left, hleft, hl⟩ :=
                derives_of_expression (ih budget (by omega)) hm (fun c hc => by
                  rw [ha.spaces] at hc
                  exact .inr (.inr (by simpa using hc.symm)))
              obtain ⟨spaces, hs, hsl⟩ := exists_blank_append_skipSpaces left
              rw [hl] at hsl
              exact .group (hsl ▸ hleft) hs
            · -- Nothing but a closing parenthesis could follow, so the text ends here.
              obtain rfl : middle = [] := by
                cases middle with
                | nil => rfl
                | cons c middle =>
                    rcases hr c (by rw [ha.spaces]; rfl) with hc | hc | rfl
                    · exact absurd (hx.head c rfl) hc
                    · exact absurd (ha.head c rfl) hc
                    · exact absurd rfl hother
              obtain ⟨left, hleft, hl⟩ := derives_of_expression (ih budget (by omega)) hm hr
              obtain ⟨spaces, hs, hsl⟩ := exists_blank_append_skipSpaces left
              rw [hl, List.append_nil] at hsl
              exact .openGroup hleft (hsl ▸ hs)
      | literal c more ht hc =>
          rw [factor_literal ht hc, number] at h
          cases hd : Decimal.ofLiteral? ((c :: more).takeWhile isLiteralChar) with
          | none => simp [hd] at h
          | some decimal =>
              simp only [hd, Except.ok.injEq, Prod.mk.injEq] at h
              obtain ⟨rfl, rfl⟩ := h
              have hrest : ∀ d, ((c :: more).dropWhile isLiteralChar).head? = some d →
                  isLiteralChar d = false := by
                intro d hd
                have := List.head?_dropWhile_not isLiteralChar (c :: more)
                rw [hd] at this
                simpa using this
              have hnumber := Derives.number (numeral_of_ofLiteral? hd) hrest
              rw [List.takeWhile_append_dropWhile] at hnumber
              exact .of_skipSpaces (by rwa [ht])
      | other c more ht hc => simp [factor_other ht hc] at h

/-- A text from which an expression is read to its end is a sentence. -/
theorem sentence_of_expression {budget : Nat} {text : List Char} {value : Double}
    (h : expression budget text = .ok (value, [])) : Sentence text value := by
  obtain ⟨rest, hd, hr⟩ :=
    derives_of_expression (derives_of_factor budget) h fun c hc => by simp at hc
  obtain ⟨spaces, hs, hsr⟩ := exists_blank_append_skipSpaces rest
  rw [hr, List.append_nil] at hsr
  exact ⟨rest, hd, hsr ▸ hs⟩

/-! ### From derivations to scans -/

/-- Spaces in front of a step. -/
theorem eventually_scan_blank_cons {s next : State} (hs : s.step ' ' = .ok s) {spaces : List Char}
    (hb : Blank spaces) {c : Char} (h : s.step c = .ok next) (rest : List Char) :
    ∀ᶠ limit in atTop, scan limit s (spaces ++ c :: rest) = scan limit next rest := by
  filter_upwards [eventually_ge_atTop s.cost, eventually_ge_atTop next.cost] with limit hl hn
  rw [← scan_skipSpaces hs hl, skipSpaces_blank_append hb, scan_skipSpaces hs hl,
    scan_cons_of_step h hn]

/-- What a derivation does to a scan, for every limit that is high enough: a factor fills in the
operand that is needed, a term the term, and an expression leaves a sum whose value it has. -/
def Moves : Level → List Char → Double → List Char → Prop
  | .factor, text, value, rest => ∀ (p : Pending) (groups : List Pending),
      ∀ᶠ limit in atTop,
        scan limit ⟨.operand p, groups⟩ text = scan limit ⟨p.fill value, groups⟩ rest
  | .term, text, value, rest => ∀ (sum : Double → Double) (groups : List Pending),
      ∀ᶠ limit in atTop,
        scan limit ⟨.operand ⟨sum, id, 0⟩, groups⟩ text = scan limit ⟨.term sum value, groups⟩ rest
  | .expression, text, value, rest => ∀ groups : List Pending, ∃ sum last, sum last = value ∧
      ∀ᶠ limit in atTop,
        scan limit ⟨.operand .nothing, groups⟩ text = scan limit ⟨.term sum last, groups⟩ rest

/-- A numeral fills in the operand that is needed. -/
theorem moves_number {literal rest : List Char} {decimal : Decimal} (hn : Numeral literal decimal)
    (hr : ∀ c, rest.head? = some c → isLiteralChar c = false) :
    Moves .factor (literal ++ rest) (Double.ofDecimal false decimal) rest := by
  intro p groups
  filter_upwards [eventually_ge_atTop (p.signs + groupsCost groups)] with limit hl
  rw [scan_number p groups hl hn.ne_nil hn.isLiteralChar hr, literalValue,
    ofLiteral?_eq_some_iff.2 hn]

/-- A further factor fills in the factor that an operator of the term needs. -/
theorem moves_factor_after {text spaces middle rest : List Char} {value further : Double} {c : Char}
    {operation : Double → Double → Double} (hc : multiplicative c = some operation)
    (hb : Blank spaces) (ht : Moves .term text value (spaces ++ c :: middle))
    (hf : Moves .factor middle further rest) : Moves .term text (operation value further) rest := by
  intro sum groups
  filter_upwards [ht sum groups, hf ⟨sum, operation value, 0⟩ groups,
    eventually_scan_blank_cons rfl hb (step_of_multiplicative hc sum value groups) middle]
    with limit h₁ h₂ h₃
  rw [h₁, h₃, h₂]
  rfl

/-- A further term fills in the term that an operator of the expression needs. -/
theorem moves_term_after {text spaces middle rest : List Char} {value further : Double} {c : Char}
    {operation : Double → Double → Double} (hm : multiplicative c = none)
    (hc : additive c = some operation) (hb : Blank spaces)
    (ht : Moves .expression text value (spaces ++ c :: middle))
    (hf : Moves .term middle further rest) :
    Moves .expression text (operation value further) rest := by
  intro groups
  obtain ⟨sum, last, rfl, h⟩ := ht groups
  refine ⟨operation (sum last), further, rfl, ?_⟩
  filter_upwards [h, hf (operation (sum last)) groups,
    eventually_scan_blank_cons rfl hb (step_of_additive hm hc sum last groups) middle]
    with limit h₁ h₂ h₃
  rw [h₁, h₃, h₂]

/-- What is derived is scanned. -/
theorem Derives.moves {level : Level} {text rest : List Char} {value : Double}
    (h : Derives level text value rest) : Moves level text value rest := by
  induction h with
  | space _ ih =>
      intro p groups
      filter_upwards [ih p groups, eventually_scan_blank_cons rfl blank_nil
        (rfl : (State.mk (.operand p) groups).step ' ' = _) _] with limit h₁ h₂
      exact h₂.trans h₁
  | plus _ ih =>
      intro p groups
      filter_upwards [ih (p.signed false) groups, eventually_scan_blank_cons rfl blank_nil
        (rfl : (State.mk (.operand p) groups).step '+' = _) _] with limit h₁ h₂
      exact h₂.trans h₁
  | minus _ ih =>
      intro p groups
      filter_upwards [ih (p.signed true) groups, eventually_scan_blank_cons rfl blank_nil
        (rfl : (State.mk (.operand p) groups).step '-' = _) _] with limit h₁ h₂
      exact h₂.trans h₁
  | group _ hb ih =>
      intro p groups
      obtain ⟨sum, last, rfl, h⟩ := ih (p :: groups)
      filter_upwards [h, eventually_scan_blank_cons rfl blank_nil
        (rfl : (State.mk (.operand p) groups).step '(' = _) _, eventually_scan_blank_cons rfl hb
        (step_of_parenthesis sum last (p :: groups)) _] with limit h₁ h₂ h₃
      exact h₂.trans (h₁.trans h₃)
  | @openGroup text spaces value _ hb ih =>
      intro p groups
      obtain ⟨sum, last, rfl, h⟩ := ih (p :: groups)
      filter_upwards [h, eventually_scan_blank_cons rfl blank_nil
        (rfl : (State.mk (.operand p) groups).step '(' = _) text,
        eventually_ge_atTop (State.mk (.term sum last) (p :: groups)).cost] with limit h₁ h₂ hl
      have hend : scan limit ⟨.term sum last, p :: groups⟩ spaces =
          scan limit ⟨.term sum last, p :: groups⟩ [] := by
        rw [← scan_skipSpaces rfl hl spaces, ← List.append_nil spaces, skipSpaces_blank_append hb]
        rfl
      exact h₂.trans (h₁.trans hend)
  | number hn hr => exact moves_number hn hr
  | single _ ih => exact fun sum groups => ih ⟨sum, id, 0⟩ groups
  | times _ hb _ iht ihf => exact moves_factor_after rfl hb iht ihf
  | divide _ hb _ iht ihf => exact moves_factor_after rfl hb iht ihf
  | alone _ ih => exact fun groups => ⟨id, _, rfl, ih id groups⟩
  | add _ hb _ ihe iht => exact moves_term_after rfl rfl hb ihe iht
  | subtract _ hb _ ihe iht => exact moves_term_after rfl rfl hb ihe iht

/-- A sentence is scanned to its end. -/
theorem Sentence.eventually_scan {text : List Char} {value : Double} (h : Sentence text value) :
    ∀ᶠ limit in atTop, scan limit .start text = .ok value := by
  obtain ⟨rest, hd, hb⟩ := h
  obtain ⟨sum, last, rfl, hm⟩ := hd.moves []
  filter_upwards [hm] with limit h
  have hend : scan limit ⟨.term sum last, []⟩ rest = scan limit ⟨.term sum last, []⟩ [] := by
    rw [← scan_skipSpaces rfl (Nat.zero_le _) rest, ← List.append_nil rest,
      skipSpaces_blank_append hb]
    rfl
  exact h.trans hend

/-- A text has one value at most. -/
theorem Sentence.unique {text : List Char} {v w : Double} (hv : Sentence text v)
    (hw : Sentence text w) : v = w := by
  obtain ⟨limit, h₁, h₂⟩ := (hv.eventually_scan.and hw.eventually_scan).exists
  rw [h₁] at h₂
  simpa using h₂

/-! ### Evaluation -/

/-- **Evaluating a text is deriving it**, within the limit on its nesting. -/
theorem evaluateText_eq_ok_iff_sentence (text : List Char) (value : Double) :
    evaluateText text = .ok value ↔ nestingCost text ≤ nestingLimit ∧ Sentence text value := by
  constructor
  · intro h
    exact ⟨peak_le_of_scan_ok (Nat.zero_le _) (evaluateText_eq_ok_iff_scan.1 h),
      sentence_of_expression (evaluateText_eq_ok_iff.1 h)⟩
  · -- Some higher limit lets the sentence through, and the lower one makes no difference.
    rintro ⟨hl, h⟩
    obtain ⟨limit, hs, hn⟩ :=
      (h.eventually_scan.and (eventually_ge_atTop (nestingCost text))).exists
    rw [evaluateText_eq_ok_iff_scan, scan_eq_of_peak_le hl hn, hs]

end Calculator.Expression

namespace Calculator

open Expression

/-- **The evaluator accepts exactly the grammar and computes its meaning.**  An expression has a
value if it is a sentence nested within the limit, and then the value is that of the sentence, of
which there is only one. -/
theorem evaluate_eq_ok_iff_sentence (expression : String) :
    (∀ value, evaluate expression = .ok value ↔
      nestingCost expression.toList ≤ nestingLimit ∧ Sentence expression.toList value) ∧
    ∀ v w, Sentence expression.toList v → Sentence expression.toList w → v = w :=
  ⟨evaluateText_eq_ok_iff_sentence expression.toList, fun _ _ => Sentence.unique⟩

end Calculator
