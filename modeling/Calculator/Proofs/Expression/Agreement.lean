/-
**Scanning and reading agree.**

A scanned operand is a factor that is read, a scanned term a term, and a scanned group an
expression.  The budget of a reader is what the limit of the scan leaves after the cost of its
state, so the two also stop for depth at the same place.

Main definitions:

* `Calculator.Expression.continued` — what is read, and then the scan of what is left.

Main results:

* `Calculator.Expression.scan_operand` — **a scanned operand is a factor that is read**;
* `Calculator.Expression.scan_start` — the scan of a text reads an expression from it;
* `Calculator.Expression.evaluateText_eq_scan`, `Calculator.Expression.evaluateText_eq_ok_iff_scan` —
  **the scan of a text evaluates it**.
-/

import Calculator.Proofs.Expression.Scan
import Calculator.Proofs.Expression.Remainder

set_option relaxedAutoImplicit false
set_option autoImplicit false

namespace Calculator.Expression

/-! ### Steps at a level of operators -/

/-- Times and divide. -/
theorem multiplicative_cases {c : Char} {operation : Double → Double → Double}
    (h : multiplicative c = some operation) :
    (c = '*' ∧ operation = (· * ·)) ∨ (c = '/' ∧ operation = (· / ·)) := by
  unfold multiplicative at h
  split at h
  · exact .inl ⟨rfl, by cases h; rfl⟩
  · exact .inr ⟨rfl, by cases h; rfl⟩
  · simp at h

/-- Plus and minus. -/
theorem additive_cases {c : Char} {operation : Double → Double → Double}
    (h : additive c = some operation) :
    (c = '+' ∧ operation = (· + ·)) ∨ (c = '-' ∧ operation = (· - ·)) := by
  unfold additive at h
  split at h
  · exact .inl ⟨rfl, by cases h; rfl⟩
  · exact .inr ⟨rfl, by cases h; rfl⟩
  · simp at h

theorem ne_space_of_multiplicative {c : Char} {operation : Double → Double → Double}
    (h : multiplicative c = some operation) : c ≠ ' ' := by
  rcases multiplicative_cases h with ⟨rfl, -⟩ | ⟨rfl, -⟩
  · decide
  · decide

theorem ne_space_of_additive {c : Char} {operation : Double → Double → Double}
    (h : additive c = some operation) : c ≠ ' ' := by
  rcases additive_cases h with ⟨rfl, -⟩ | ⟨rfl, -⟩
  · decide
  · decide

theorem step_of_multiplicative {c : Char} {operation : Double → Double → Double}
    (h : multiplicative c = some operation) (sum : Double → Double) (value : Double)
    (groups : List Pending) :
    (State.mk (.term sum value) groups).step c =
      .ok ⟨.operand ⟨sum, operation value, 0⟩, groups⟩ := by
  change State.afterTerm sum value groups c = _
  rw [State.afterTerm, if_neg (ne_space_of_multiplicative h), h]

theorem step_of_additive {c : Char} {operation : Double → Double → Double}
    (hm : multiplicative c = none) (h : additive c = some operation) (sum : Double → Double)
    (value : Double) (groups : List Pending) :
    (State.mk (.term sum value) groups).step c =
      .ok ⟨.operand ⟨operation (sum value), id, 0⟩, groups⟩ := by
  change State.afterTerm sum value groups c = _
  rw [State.afterTerm, if_neg (ne_space_of_additive h), hm, h]

/-- A closing parenthesis closes the innermost group. -/
theorem step_of_parenthesis (sum : Double → Double) (value : Double) (groups : List Pending) :
    (State.mk (.term sum value) groups).step ')' = State.close (sum value) groups := rfl

/-- After an expression every character but a closing parenthesis is a fault. -/
theorem step_of_exhausted {c : Char} {rest : List Char} (ha : Exhausted additive (c :: rest))
    (hm : Exhausted multiplicative (c :: rest)) (hc : c ≠ ')') (sum : Double → Double)
    (value : Double) (groups : List Pending) :
    (State.mk (.term sum value) groups).step c = .error (.character c) := by
  change State.afterTerm sum value groups c = _
  rw [State.afterTerm, if_neg (skipSpaces_ne_space ha.spaces), hm.head c rfl, ha.head c rfl]
  exact if_neg hc

/-- Before a character that does not go on with the term only the value of the group counts. -/
theorem afterTerm_congr {c : Char} (hc : c ≠ ' ') (hm : multiplicative c = none)
    {sum sum' : Double → Double} {value value' : Double} (h : sum value = sum' value')
    (groups : List Pending) :
    State.afterTerm sum value groups c = State.afterTerm sum' value' groups c := by
  rw [State.afterTerm, State.afterTerm, if_neg hc, if_neg hc, hm, h]

/-- Where the term cannot go on only the value of the group counts. -/
theorem scan_term_congr {limit : Nat} {text : List Char} (he : Exhausted multiplicative text)
    {sum sum' : Double → Double} {value value' : Double} (h : sum value = sum' value')
    (groups : List Pending) :
    scan limit ⟨.term sum value, groups⟩ text = scan limit ⟨.term sum' value', groups⟩ text := by
  refine scan_congr ?_ ?_
  · intro c hc
    obtain ⟨rest, rfl⟩ := List.head?_eq_some_iff.1 hc
    exact afterTerm_congr (skipSpaces_ne_space he.spaces) (he.head c rfl) h groups
  · intro _
    simp [State.finish, h]

/-! ### Numbers -/

/-- The characters of a number, and then the scan behind it. -/
theorem scan_literal {limit : Nat} (p : Pending) (groups : List Pending)
    (hl : p.signs + groupsCost groups ≤ limit) (read text : List Char) :
    scan limit ⟨.literal p read, groups⟩ text =
      match literalValue (read ++ text.takeWhile isLiteralChar) with
      | .error cause => .error ⟨cause, text.dropWhile isLiteralChar⟩
      | .ok value => scan limit ⟨p.fill value, groups⟩ (text.dropWhile isLiteralChar) := by
  induction text generalizing read with
  | nil =>
      simp only [List.takeWhile_nil, List.dropWhile_nil, List.append_nil, scan, State.finish]
      cases literalValue read <;> rfl
  | cons c text ih =>
      by_cases hc : isLiteralChar c = true
      · have hstep : (State.mk (.literal p read) groups).step c =
            .ok ⟨.literal p (read ++ [c]), groups⟩ := by
          simp [State.step, hc]
        rw [scan_cons_of_step hstep hl, ih]
        simp [hc]
      · simp only [List.takeWhile_cons_of_neg hc, List.dropWhile_cons_of_neg hc, List.append_nil]
        cases hv : literalValue read with
        | error cause => exact scan_cons_of_error (by simp [State.step, hc, hv]) text
        | ok value =>
            refine scan_congr (fun d hd => ?_) (by simp)
            obtain rfl : c = d := by simpa using hd
            simp [State.step, Pending.fill, hc, hv]

/-- A whole number where an operand is needed, and then the scan behind it. -/
theorem scan_number {limit : Nat} (p : Pending) (groups : List Pending)
    (hl : p.signs + groupsCost groups ≤ limit) {run rest : List Char} (hne : run ≠ [])
    (hrun : ∀ c ∈ run, isLiteralChar c = true)
    (hrest : ∀ c, rest.head? = some c → isLiteralChar c = false) :
    scan limit ⟨.operand p, groups⟩ (run ++ rest) =
      match literalValue run with
      | .error cause => .error ⟨cause, rest⟩
      | .ok value => scan limit ⟨p.fill value, groups⟩ rest := by
  obtain ⟨c, more, rfl⟩ := List.exists_cons_of_ne_nil hne
  have hc : isLiteralChar c = true := hrun c (by simp)
  have hmore : ∀ d ∈ more, isLiteralChar d = true := fun d hd => hrun d (by simp [hd])
  have hspan : (more ++ rest).takeWhile isLiteralChar = more ∧
      (more ++ rest).dropWhile isLiteralChar = rest := by
    rw [List.takeWhile_append_of_pos hmore, List.dropWhile_append_of_pos hmore]
    cases rest with
    | nil => simp
    | cons d rest => simp [hrest d rfl]
  have hstep : (State.mk (.operand p) groups).step c = .ok ⟨.literal p [c], groups⟩ := by
    obtain ⟨hs, hp, hm, hg⟩ := ne_of_isLiteralChar hc
    simp [State.step, State.beforeOperand, hs, hp, hm, hg, hc]
  rw [List.cons_append, scan_cons_of_step hstep hl, scan_literal p groups hl, hspan.1, hspan.2,
    List.singleton_append]

/-! ### What is read, and what is scanned after it -/

/-- The scan of what an outcome leaves, from the state that its value leads to. -/
def continued (limit : Nat) (outcome : Outcome) (next : Double → State) : Except Stop Double :=
  match outcome with
  | .error stop => .error stop
  | .ok (value, rest) => scan limit (next value) rest

@[simp] theorem continued_error (limit : Nat) (stop : Stop) (next : Double → State) :
    continued limit (.error stop) next = .error stop := rfl

@[simp] theorem continued_ok (limit : Nat) (value : Double) (rest : List Char)
    (next : Double → State) :
    continued limit (.ok (value, rest)) next = scan limit (next value) rest := rfl

theorem continued_negated (limit : Nat) (outcome : Outcome) (next : Double → State) :
    continued limit outcome.negated next = continued limit outcome fun value => next (-value) := by
  cases outcome <;> rfl

/-- Operands inside the given groups are scanned as factors of this budget. -/
def ScansFactors (limit budget : Nat) (groups : List Pending) : Prop :=
  ∀ (p : Pending) (text : List Char), p.signs = 0 →
    scan limit ⟨.operand p, groups⟩ text =
      continued limit (factor budget text) fun value => ⟨p.fill value, groups⟩

/-- Further factors of a term. -/
theorem scan_joinFurther_multiplicative {limit budget : Nat} {groups : List Pending}
    (hl : groupsCost groups ≤ limit) (hf : ScansFactors limit budget groups)
    (sum : Double → Double) {bound : Nat} {value : Double} {text : List Char}
    (hb : text.length ≤ bound) :
    scan limit ⟨.term sum value, groups⟩ text =
      continued limit (joinFurther multiplicative (factor budget) bound value text)
        fun value => ⟨.term sum value, groups⟩ := by
  induction bound generalizing value text with
  | zero =>
      obtain rfl := List.eq_nil_of_length_eq_zero (Nat.le_zero.1 hb)
      rfl
  | succ bound ih =>
      have hspace : (State.mk (.term sum value) groups).step ' ' =
          .ok ⟨.term sum value, groups⟩ := rfl
      rw [← scan_skipSpaces hspace (by simpa using hl) text]
      rcases exhausted_or_operator multiplicative text with he | ⟨c, rest, operation, ht, hc⟩
      · rw [joinFurther_of_exhausted he]
        rfl
      · have hstep : (State.mk (.term sum value) groups).step c =
            .ok ⟨.operand ⟨sum, operation value, 0⟩, groups⟩ :=
          step_of_multiplicative hc sum value groups
        rw [joinFurther_of_operator ht hc, ht, scan_cons_of_step hstep (by simpa using hl),
          hf _ rest rfl]
        cases hr : factor budget rest with
        | error stop => rfl
        | ok outcome =>
            refine ih ?_
            have := (ht ▸ skipSpaces_suffix text).length_le
            have := (leavesSuffix_factor budget hr).length_le
            simp only [List.length_cons] at *
            omega

/-- A term. -/
theorem scan_term {limit budget : Nat} {groups : List Pending} (hl : groupsCost groups ≤ limit)
    (hf : ScansFactors limit budget groups) (sum : Double → Double) (text : List Char) :
    scan limit ⟨.operand ⟨sum, id, 0⟩, groups⟩ text =
      continued limit (term budget text) fun value => ⟨.term sum value, groups⟩ := by
  rw [hf _ text rfl, term, leftAssociative]
  cases factor budget text with
  | error stop => rfl
  | ok outcome => exact scan_joinFurther_multiplicative hl hf sum (Nat.le_refl _)

/-- Further terms of an expression. -/
theorem scan_joinFurther_additive {limit budget : Nat} {groups : List Pending}
    (hl : groupsCost groups ≤ limit) (hf : ScansFactors limit budget groups)
    {sum : Double → Double} {bound : Nat} {value result : Double} {text : List Char}
    (hb : text.length ≤ bound) (he : Exhausted multiplicative text) (hv : sum value = result) :
    scan limit ⟨.term sum value, groups⟩ text =
      continued limit (joinFurther additive (term budget) bound result text)
        fun value => ⟨.term id value, groups⟩ := by
  -- Further terms change the sum that waits, but not the result of sum and term together.
  induction bound generalizing sum value result text with
  | zero =>
      obtain rfl := List.eq_nil_of_length_eq_zero (Nat.le_zero.1 hb)
      exact scan_term_congr he hv groups
  | succ bound ih =>
      rcases exhausted_or_operator additive text with ha | ⟨c, rest, operation, ht, hc⟩
      · rw [joinFurther_of_exhausted ha, he.spaces]
        exact scan_term_congr he hv groups
      · obtain rfl : text = c :: rest := he.spaces.symm.trans ht
        have hm : multiplicative c = none := he.head c rfl
        have hstep : (State.mk (.term sum value) groups).step c =
            .ok ⟨.operand ⟨operation result, id, 0⟩, groups⟩ :=
          hv ▸ step_of_additive hm hc sum value groups
        rw [joinFurther_of_operator ht hc, scan_cons_of_step hstep (by simpa using hl),
          scan_term hl hf]
        cases hr : term budget rest with
        | error stop => rfl
        | ok outcome =>
            refine ih ?_ (exhausted_of_term hr) rfl
            have := (leavesSuffix_term budget hr).length_le
            simp only [List.length_cons] at *
            omega

/-- An expression inside the given groups. -/
theorem scan_expression {limit budget : Nat} {groups : List Pending}
    (hl : groupsCost groups ≤ limit) (hf : ScansFactors limit budget groups) (text : List Char) :
    scan limit ⟨.operand .nothing, groups⟩ text =
      continued limit (expression budget text) fun value => ⟨.term id value, groups⟩ := by
  rw [Pending.nothing, scan_term hl hf, expression, leftAssociative]
  cases ht : term budget text with
  | error stop => rfl
  | ok outcome => exact scan_joinFurther_additive hl hf (Nat.le_refl _) (exhausted_of_term ht) rfl

/-! ### Factors -/

/-- A group, and then the scan behind its closing parenthesis or where it is missing. -/
theorem continued_closed {limit budget : Nat} (p : Pending) {groups : List Pending}
    (hl : groupsCost groups ≤ limit) (text : List Char) :
    continued limit (expression budget text) (fun value => ⟨.term id value, p :: groups⟩) =
      continued limit (expression budget text).closed fun value => ⟨p.fill value, groups⟩ := by
  cases hr : expression budget text with
  | error stop => rfl
  | ok outcome =>
      obtain ⟨value, rest⟩ := outcome
      obtain ⟨ha, hm⟩ := exhausted_of_expression hr
      cases rest with
      | nil => rfl
      | cons c rest =>
          by_cases hc : c = ')'
          · subst hc
            have hstep : (State.mk (.term id value) (p :: groups)).step ')' =
                .ok ⟨p.fill value, groups⟩ := step_of_parenthesis id value (p :: groups)
            rw [closed_of_parenthesis ha.spaces, continued_ok,
              scan_cons_of_step hstep (by simpa using hl)]
            rfl
          · have hclosed : (skipSpaces (c :: rest)).head? ≠ some ')' := by
              simpa [ha.spaces] using hc
            rw [closed_of_other hclosed, ha.spaces, continued_ok, continued_ok,
              scan_cons_of_error (step_of_exhausted ha hm hc id value (p :: groups))]
            exact (scan_cons_of_error (step_of_exhausted ha hm hc p.sum _ groups) rest).symm

/-- **A scanned operand is a factor that is read**, with the budget that the state leaves. -/
theorem scan_operand {limit budget : Nat} {groups : List Pending} {p : Pending}
    (hl : p.signs + groupsCost groups + budget = limit) (text : List Char) :
    scan limit ⟨.operand p, groups⟩ text =
      continued limit (factor budget text) fun value => ⟨p.fill value, groups⟩ := by
  -- A sign or a parenthesis moves its price from the budget to the cost of the state, so that both
  -- sides run out at the same character.
  induction budget using Nat.strongRecOn generalizing p groups text with
  | ind budget ih =>
      have hspace : (State.mk (.operand p) groups).step ' ' = .ok ⟨.operand p, groups⟩ := rfl
      rw [← scan_skipSpaces hspace (by simp; omega) text]
      cases opening text with
      | nothing ht => rw [factor_nil ht, ht]; rfl
      | plus rest ht =>
          have hstep : (State.mk (.operand p) groups).step '+' =
              .ok ⟨.operand (p.signed false), groups⟩ := rfl
          rw [ht]
          cases budget with
          | zero =>
              rw [factor_sign_of_depth ht (.inl rfl), scan_cons_of_depth hstep (by simp; omega)]
              rfl
          | succ budget =>
              rw [factor_plus ht, scan_cons_of_step hstep (by simp; omega)]
              exact ih budget (by omega) (by simp; omega) rest
      | minus rest ht =>
          have hstep : (State.mk (.operand p) groups).step '-' =
              .ok ⟨.operand (p.signed true), groups⟩ := rfl
          rw [ht]
          cases budget with
          | zero =>
              rw [factor_sign_of_depth ht (.inr rfl), scan_cons_of_depth hstep (by simp; omega)]
              rfl
          | succ budget =>
              rw [factor_minus ht, scan_cons_of_step hstep (by simp; omega), continued_negated]
              exact ih budget (by omega) (by simp; omega) rest
      | group rest ht =>
          have hstep : (State.mk (.operand p) groups).step '(' =
              .ok ⟨.operand .nothing, p :: groups⟩ := rfl
          have hcost : (State.mk (.operand .nothing) (p :: groups)).cost =
              3 + p.signs + groupsCost groups := Nat.zero_add _
          rw [ht]
          by_cases hb : budget < 3
          · rw [factor_group_of_depth ht hb, scan_cons_of_depth hstep (by omega)]
            rfl
          · obtain ⟨budget, rfl⟩ : ∃ b, budget = b + 3 := ⟨budget - 3, by omega⟩
            have hf : ScansFactors limit budget (p :: groups) := fun q text hq =>
              ih budget (by omega) (by simp only [groupsCost]; omega) text
            rw [factor_group ht, scan_cons_of_step hstep (by omega),
              scan_expression (by simp only [groupsCost]; omega) hf]
            exact continued_closed p (by omega) rest
      | literal c rest ht hc =>
          obtain ⟨hs, hp, hm, hg⟩ := ne_of_isLiteralChar hc
          have hstep : (State.mk (.operand p) groups).step c = .ok ⟨.literal p [c], groups⟩ := by
            simp [State.step, State.beforeOperand, hs, hp, hm, hg, hc]
          rw [factor_literal ht hc, ht, scan_cons_of_step hstep (by simp; omega),
            scan_literal p groups (by omega), number, List.takeWhile_cons_of_pos hc,
            List.dropWhile_cons_of_pos hc, literalValue, List.singleton_append]
          cases Decimal.ofLiteral? (c :: rest.takeWhile isLiteralChar) with
          | none => rfl
          | some decimal => rfl
      | other c rest ht hc =>
          obtain ⟨hs, hp, hm, hg, hl⟩ := hc
          rw [factor_other ht ⟨hs, hp, hm, hg, hl⟩, ht]
          refine scan_cons_of_error ?_ rest
          simp [State.step, State.beforeOperand, hs, hp, hm, hg, hl]

/-! ### Whole texts -/

/-- The scan of a text reads an expression from it, after which nothing may remain. -/
theorem scan_start (limit : Nat) (text : List Char) :
    scan limit .start text =
      match expression limit text with
      | .error stop => .error stop
      | .ok (value, []) => .ok value
      | .ok (_, c :: rest) => .error ⟨.character c, c :: rest⟩ := by
  have hf : ScansFactors limit limit [] := by
    intro p text hp
    exact scan_operand (by simp [hp, groupsCost]) text
  rw [State.start, scan_expression (Nat.zero_le _) hf]
  cases hr : expression limit text with
  | error stop => rfl
  | ok outcome =>
      obtain ⟨value, rest⟩ := outcome
      obtain ⟨ha, hm⟩ := exhausted_of_expression hr
      cases rest with
      | nil => rfl
      | cons c rest =>
          refine scan_cons_of_error ?_ rest
          by_cases hc : c = ')'
          · subst hc
            exact step_of_parenthesis id value []
          · exact step_of_exhausted ha hm hc id value []

/-- **The scan of a text evaluates it.** -/
theorem evaluateText_eq_scan (text : List Char) :
    evaluateText text = (scan nestingLimit .start text).mapError (Stop.fault text) := by
  rw [evaluateText, scan_start]
  cases expression nestingLimit text with
  | error stop => rfl
  | ok outcome =>
      obtain ⟨value, rest⟩ := outcome
      cases rest with
      | nil => rfl
      | cons c rest => rfl

/-- The fault of a text whose scan stops. -/
theorem evaluateText_of_scan {text : List Char} {stop : Stop}
    (h : scan nestingLimit .start text = .error stop) :
    evaluateText text = .error (stop.fault text) := by
  rw [evaluateText_eq_scan, h]
  rfl

theorem evaluateText_of_scan_ok {text : List Char} {value : Double}
    (h : scan nestingLimit .start text = .ok value) : evaluateText text = .ok value := by
  rw [evaluateText_eq_scan, h]
  rfl

/-- A text has a value exactly if its scan has. -/
theorem evaluateText_eq_ok_iff_scan {text : List Char} {value : Double} :
    evaluateText text = .ok value ↔ scan nestingLimit .start text = .ok value := by
  refine ⟨fun h => ?_, evaluateText_of_scan_ok⟩
  cases hs : scan nestingLimit .start text with
  | ok result =>
      rw [evaluateText_of_scan_ok hs] at h
      exact congrArg Except.ok (Except.ok.inj h)
  | error stop =>
      rw [evaluateText_of_scan hs] at h
      simp at h

/-- The place of a fault is behind what has been passed. -/
theorem fault_append (cause : Cause) (before rest : List Char) :
    Stop.fault (before ++ rest) ⟨cause, rest⟩ = ⟨cause, before.length⟩ := by
  simp [Stop.fault]

end Calculator.Expression
