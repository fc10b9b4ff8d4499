/-
**Expressions in parentheses.**

An expression in parentheses is an operand with the value of the expression, wherever it stands.  A
path along the expression is also a path inside further groups, which it neither reads nor changes;
only the cost is higher, by what the groups around it cost.  The closing parenthesis then closes
the group around the expression, provided that the expression has closed its own; otherwise it
closes one of those, which makes no difference where the text ends behind it.

Main definitions:

* `Calculator.Expression.State.under` — a state with further groups open around it;
* `Calculator.Expression.grouped` — an expression in parentheses;
* `Calculator.Expression.Fills` — a text that fills in the operand that is needed;
* `Calculator.Double.sign` — the sign of a double, zeros and infinities included.

Main results:

* `Calculator.Expression.Path.under`, `Calculator.Expression.peak_under` — **a path inside further
  groups**, and its cost;
* `Calculator.Expression.exists_fills_grouped` — an expression in parentheses fills in an operand;
* `Calculator.evaluate_grouped` — **grouping is compositional**.
-/

import Calculator.Proofs.Expression.Closing

set_option relaxedAutoImplicit false
set_option autoImplicit false

namespace Calculator

namespace Expression

/-! ### Further groups around a state -/

/-- The same state with further groups open around it. -/
def State.under (s : State) (outer : List Pending) : State := ⟨s.reading, s.groups ++ outer⟩

theorem groupsCost_append (groups outer : List Pending) :
    groupsCost (groups ++ outer) = groupsCost groups + groupsCost outer := by
  induction groups with
  | nil => exact (Nat.zero_add _).symm
  | cons p groups ih =>
      simp only [List.cons_append, groupsCost, ih]
      omega

@[simp] theorem cost_under (s : State) (outer : List Pending) :
    (s.under outer).cost = s.cost + groupsCost outer := by
  simp only [State.under, State.cost, groupsCost_append]
  omega

theorem closeAll_append (value : Double) (groups outer : List Pending) :
    State.closeAll value (groups ++ outer) =
      State.closeAll (State.closeAll value groups) outer := by
  induction groups generalizing value with
  | nil => rfl
  | cons p groups ih => exact ih _

/-- At the end of the text the further groups are closed after those of the state. -/
theorem finish_under {s : State} {value : Double} (h : s.finish = .ok value)
    (outer : List Pending) : (s.under outer).finish = .ok (State.closeAll value outer) := by
  obtain ⟨reading, groups⟩ := s
  cases reading with
  | operand p => simp [State.finish] at h
  | literal p read =>
      cases hv : literalValue read with
      | error cause => simp [State.finish, hv] at h
      | ok number =>
          simp only [State.finish, hv, Except.ok.injEq] at h
          simp only [State.under, State.finish, hv, closeAll_append, h]
  | term sum last =>
      simp only [State.finish, Except.ok.injEq] at h
      simp only [State.under, State.finish, closeAll_append, h]

/-- A transition neither reads nor changes the groups around its state. -/
theorem Transition.under {s next : State} {c : Char} (h : Transition s c next)
    (outer : List Pending) : Transition (s.under outer) c (next.under outer) := by
  induction h with
  | space => exact .space
  | plus => exact .plus
  | minus => exact .minus
  | opened => exact .opened
  | digit hc => exact .digit hc
  | further hc => exact .further hc
  | ended hc hv _ ih => exact .ended hc hv ih
  | spaceBehind => exact .spaceBehind
  | multiplied hc => exact .multiplied hc
  | added hc => exact .added hc
  | closed => exact .closed

/-- A path inside further groups. -/
theorem Path.under {s last : State} {text : List Char} (h : Path s text last)
    (outer : List Pending) : Path (s.under outer) text (last.under outer) := by
  induction h with
  | nil => exact .nil
  | cons hc _ ih => exact .cons (hc.under outer) ih

/-- Inside further groups a path costs what they cost in addition. -/
theorem peak_under {s last : State} {text : List Char} (h : Path s text last)
    (outer : List Pending) : (s.under outer).peak text = s.peak text + groupsCost outer := by
  induction h with
  | nil => exact cost_under _ outer
  | cons hc _ ih =>
      rw [peak_cons_of_step (hc.under outer).step, peak_cons_of_step hc.step, ih, cost_under,
        Nat.add_max_add_right]

/-! ### Operands -/

/-- An expression in parentheses. -/
def grouped (text : List Char) : List Char := '(' :: (text ++ [')'])

/-- From a state that needs an operand the text leads to a state in which the operand is filled in,
as far as the end of a text can tell. -/
structure Fills (text : List Char) (value : Double) (cost : Nat) (p : Pending)
    (groups : List Pending) (next : State) : Prop where
  path : Path ⟨.operand p, groups⟩ text next
  finish : next.finish = (State.mk (p.fill value) groups).finish
  /-- The operand costs this much in addition to what waits for it. -/
  peak : (State.mk (.operand p) groups).peak text = p.signs + groupsCost groups + cost

section

variable {text : List Char} {value : Double} {cost : Nat} {p : Pending} {groups : List Pending}
  {next last : State}

/-- A minus sign in front of an operand. -/
theorem Fills.minus (h : Fills text value cost (p.signed true) groups next) :
    Fills ('-' :: text) (-value) (cost + 1) p groups next where
  path := .cons .minus h.path
  finish := h.finish
  peak := by
    rw [peak_cons_of_step Transition.minus.step, h.peak, State.cost_operand, Pending.signs_signed]
    omega

/-- Behind an expression that has closed its groups a parenthesis closes the group around it. -/
theorem transition_parenthesis_under (hf : last.finish = .ok value) (hg : last.groups = [])
    (p : Pending) (groups : List Pending) :
    Transition (last.under (p :: groups)) ')' ⟨p.fill value, groups⟩ := by
  obtain ⟨sum, number, hvalue, hstep⟩ := exists_term_of_finish hf
  rw [hg] at hvalue
  obtain rfl : value = sum number := hvalue
  refine step_eq_ok_iff.1 ?_
  rw [State.under, hg, hstep ')' _ rfl]
  rfl

/-- An expression in parentheses fills in an operand.  Only if the expression has closed its own
groups the text can go on with it as with any other operand. -/
theorem exists_fills_grouped (h : Path .start text last) (hf : last.finish = .ok value)
    (p : Pending) (groups : List Pending) :
    ∃ next, Fills (grouped text) value (3 + nestingCost text) p groups next ∧
      (last.groups = [] → next = ⟨p.fill value, groups⟩) := by
  have hunder := h.under (p :: groups)
  have hfinish : (last.under (p :: groups)).finish = (State.mk (p.fill value) groups).finish :=
    finish_under hf (p :: groups)
  -- What the parenthesis closes does not matter for the value and the cost.
  obtain ⟨next, hnext, hend, hcost, hexact⟩ : ∃ next,
      Transition (last.under (p :: groups)) ')' next ∧
        next.finish = (State.mk (p.fill value) groups).finish ∧
        next.cost ≤ (last.under (p :: groups)).cost ∧
        (last.groups = [] → next = ⟨p.fill value, groups⟩) := by
    cases hg : last.groups with
    | nil =>
        refine ⟨_, transition_parenthesis_under hf hg p groups, rfl, ?_, fun _ => rfl⟩
        rw [State.cost_fill, cost_under, groupsCost]
        omega
    | cons q rest =>
        have hgroups : (last.under (p :: groups)).groups = q :: (rest ++ p :: groups) := by
          rw [State.under, hg]
          rfl
        obtain ⟨next, hnext, -, hend, hcost⟩ := exists_transition_parenthesis hfinish hgroups
        exact ⟨next, hnext, hend, hcost, by simp⟩
  refine ⟨next, ⟨.cons .opened (hunder.concat hnext), hend, ?_⟩, hexact⟩
  have hbehind : (last.under (p :: groups)).peak [')'] = (last.under (p :: groups)).cost := by
    rw [peak_cons_of_step hnext.step]
    exact Nat.max_eq_left hcost
  have hinside : (State.mk (.operand .nothing) (p :: groups)).peak (text ++ [')']) =
      nestingCost text + groupsCost (p :: groups) := by
    change (State.start.under (p :: groups)).peak (text ++ [')']) = _
    rw [peak_append hunder, hbehind, Nat.max_eq_left hunder.cost_le_peak, peak_under h]
    rfl
  rw [grouped, peak_cons_of_step Transition.opened.step, hinside, State.cost_operand, groupsCost]
  omega

/-- An operator behind a term needs an operand, which it joins to the term. -/
theorem exists_transition_operator {c : Char} {operation : Double → Double → Double}
    (hc : additive c = some operation ∨ multiplicative c = some operation) (v : Double) :
    ∃ p, Transition ⟨.term id v, []⟩ c ⟨.operand p, []⟩ ∧ p.signs = 0 ∧
      ∀ w, (State.mk (p.fill w) []).finish = .ok (operation v w) := by
  rcases hc with hc | hc
  · exact ⟨_, .added hc, rfl, fun _ => rfl⟩
  · exact ⟨_, .multiplied hc, rfl, fun _ => rfl⟩

end

/-! ### Whole texts -/

section

variable {text other : List Char} {v w : Double}

/-- A text with a value fills in an operand once it is in parentheses. -/
theorem exists_fills_of_evaluateText (h : evaluateText text = .ok v) (p : Pending)
    (groups : List Pending) :
    ∃ next, Fills (grouped text) v (3 + nestingCost text) p groups next := by
  obtain ⟨-, last, hp, hf⟩ := evaluateText_eq_ok_iff_path.1 h
  obtain ⟨next, hnext, -⟩ := exists_fills_grouped hp hf p groups
  exact ⟨next, hnext⟩

/-- Two expressions in parentheses with an operator between them are a path that costs as much as
the more expensive of them. -/
theorem exists_path_joined (hv : evaluateText text = .ok v)
    (hg : text.count '(' = text.count ')') (hw : evaluateText other = .ok w) {c : Char}
    {operation : Double → Double → Double}
    (hc : additive c = some operation ∨ multiplicative c = some operation) :
    nestingCost (grouped text ++ c :: grouped other) =
        3 + max (nestingCost text) (nestingCost other) ∧
      ∃ last, Path .start (grouped text ++ c :: grouped other) last ∧
        last.finish = .ok (operation v w) := by
  obtain ⟨-, last, hp, hf⟩ := evaluateText_eq_ok_iff_path.1 hv
  have hclosed : last.groups = [] := by
    have hgroups := hp.length_groups
    rw [hg, State.start, List.length_nil] at hgroups
    exact List.eq_nil_of_length_eq_zero (by omega)
  obtain ⟨left, hleft, hexact⟩ := exists_fills_grouped hp hf .nothing []
  obtain rfl := hexact hclosed
  obtain ⟨p, hop, hsigns, hfinish⟩ := exists_transition_operator hc v
  obtain ⟨right, hright⟩ := exists_fills_of_evaluateText hw p []
  refine ⟨?_, right, hleft.path.append (.cons hop hright.path), ?_⟩
  · have hpeak : nestingCost (grouped text ++ c :: grouped other) =
        max (nestingCost (grouped text))
          ((State.mk (.term id v) []).peak (c :: grouped other)) := peak_append hleft.path _
    have hcost : nestingCost (grouped text) = 0 + 0 + (3 + nestingCost text) := hleft.peak
    rw [hpeak, peak_cons_of_step hop.step, hright.peak, hsigns, State.cost_term, hcost, groupsCost]
    omega
  · rw [hright.finish, hfinish w]

end

end Expression

/-! ### Division by zero -/

namespace Double

/-- The sign of a double, also of a zero or an infinity; a NaN has none that shows. -/
def sign : Double → Bool
  | .nan => false
  | .infinite negative => negative
  | .finite negative _ => negative

/-- Divided by a zero, zero and NaN are NaN, and everything else is infinite with the product of the
signs. -/
theorem div_of_isZero (v : Double) {w : Double} (hw : w.isZero = true) :
    v / w = if v = .nan ∨ v.isZero = true then .nan else .infinite (v.sign != w.sign) := by
  cases w with
  | nan => simp [isZero] at hw
  | infinite t => simp [isZero] at hw
  | finite t b =>
      obtain rfl : b = .zero := (Magnitude.units_eq_zero_iff b).1 (by simpa [isZero] using hw)
      cases v with
      | nan => rfl
      | infinite s => rfl
      | finite s a =>
          by_cases ha : a.units = 0
          · obtain rfl : a = .zero := (Magnitude.units_eq_zero_iff a).1 ha
            rfl
          · have hne : ¬(Double.finite s a = .nan ∨ (Double.finite s a).isZero = true) := by
              simp [isZero, ha]
            rw [if_neg hne]
            exact finite_div_zero s t ha

end Double

/-! ### Expressions -/

open Expression

/-- The expression has this nesting cost, and within the limit it has this value. -/
def Yields (expression : String) (cost : Nat) (value : Double) : Prop :=
  nestingCost expression.toList = cost ∧ (cost ≤ nestingLimit → evaluate expression = .ok value)

/-- A path to a state in which the text may end gives the value. -/
theorem yields_of_path {expression : String} {text : List Char} (ht : expression.toList = text)
    {last : State} {cost : Nat} {value : Double} (hc : nestingCost text = cost)
    (hp : Path .start text last) (hf : last.finish = .ok value) : Yields expression cost value := by
  subst ht
  exact ⟨hc, fun hl => evaluateText_eq_ok_iff_path.2 ⟨hc ▸ hl, last, hp, hf⟩⟩

/-- A text that is an operand is an expression. -/
theorem Expression.Fills.yields {expression : String} {text : List Char}
    (ht : expression.toList = text) {value : Double} {cost : Nat} {next : State}
    (h : Fills text value cost .nothing [] next) : Yields expression cost value := by
  have hcost : nestingCost text = 0 + 0 + cost := h.peak
  exact yields_of_path ht (by omega) h.path h.finish

/-- **Grouping is compositional.**  Two expressions in parentheses, joined by an operator, have the
value that the operator gives for their values, if the first of them has closed its own groups; and
a quotient by a zero is NaN or infinite by the signs.  An expression in parentheses has its value,
and with a minus sign in front the opposite value, also if it has left groups open. -/
theorem evaluate_grouped (e₁ e₂ : String) (v₁ v₂ : Double) (h₁ : evaluate e₁ = .ok v₁)
    (h₂ : evaluate e₂ = .ok v₂) :
    (e₁.toList.count '(' = e₁.toList.count ')' →
      ∀ c operation, additive c = some operation ∨ multiplicative c = some operation →
        Yields ("(" ++ e₁ ++ ")" ++ String.singleton c ++ "(" ++ e₂ ++ ")")
          (3 + max (nestingCost e₁.toList) (nestingCost e₂.toList)) (operation v₁ v₂)) ∧
    (v₂.isZero = true →
      v₁ / v₂ =
        if v₁ = .nan ∨ v₁.isZero = true then .nan else .infinite (v₁.sign != v₂.sign)) ∧
    Yields ("-(" ++ e₂ ++ ")") (4 + nestingCost e₂.toList) (-v₂) ∧
    Yields ("(" ++ e₂ ++ ")") (3 + nestingCost e₂.toList) v₂ := by
  refine ⟨fun hg c operation hc => ?_, Double.div_of_isZero v₁, ?_, ?_⟩
  · obtain ⟨hcost, last, hp, hf⟩ := exists_path_joined h₁ hg h₂ hc
    exact yields_of_path (by simp [grouped]) hcost hp hf
  · obtain ⟨next, hnext⟩ := exists_fills_of_evaluateText h₂ (Pending.nothing.signed true) []
    have hcost : 3 + nestingCost e₂.toList + 1 = 4 + nestingCost e₂.toList := by omega
    exact hcost ▸ hnext.minus.yields (by simp [grouped])
  · obtain ⟨next, hnext⟩ := exists_fills_of_evaluateText h₂ .nothing []
    exact hnext.yields (by simp [grouped])

/-- A divisor that is a negative zero and leaves a group open. -/
theorem evaluate_grouped_quotient :
    evaluate "(1-(3))" = .ok (Double.ofDecimal true ⟨2, 0⟩) ∧
      evaluate "0*(-5" = .ok (Double.zero true) ∧
      evaluate "((1-(3)))/(0*(-5)" = .ok (.infinite false) ∧
      evaluate "-(0*(-5)" = .ok (Double.zero false) ∧
      evaluate "(0*(-5)" = .ok (Double.zero true) := by
  have h₁ : evaluate "(1-(3))" = .ok (Double.ofDecimal true ⟨2, 0⟩) := by decide +kernel
  have h₂ : evaluate "0*(-5" = .ok (Double.zero true) := by decide +kernel
  obtain ⟨hjoined, hzero, hminus, hgroup⟩ := evaluate_grouped _ _ _ _ h₁ h₂
  have hsign : ((Double.ofDecimal true ⟨2, 0⟩).sign != (Double.zero true).sign) = false := by
    decide +kernel
  have hquotient := (hjoined rfl '/' (· / ·) (.inr rfl)).2 (by decide +kernel)
  rw [hzero rfl, if_neg (by decide +kernel), hsign] at hquotient
  exact ⟨h₁, h₂, hquotient, hminus.2 (by decide +kernel), hgroup.2 (by decide +kernel)⟩

/-- With a group left open in the first expression the operator would join only what stands in that
group. -/
example : evaluate "1+(1" = .ok (Double.ofDecimal false ⟨2, 0⟩) ∧
    evaluate "(1+(1)*(3)" = .ok (Double.ofDecimal false ⟨4, 0⟩) := by
  decide +kernel

end Calculator
