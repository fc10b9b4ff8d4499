/-
**Paths of a scan.**

A scan goes from state to state, one character at a time.  Here this is stated as a relation: what
one character does to each state that lets it pass, and the path along a text that follows from it.
A path knows no limit; a limit lets the whole path through exactly if the highest cost on it does
not exceed the limit.

Main definitions:

* `Calculator.Expression.Transition` — **what one character can do**;
* `Calculator.Expression.Path` — the states along a text.

Main results:

* `Calculator.Expression.step_eq_ok_iff` — the steps of a scan are the transitions;
* `Calculator.Expression.peak_append` — the highest cost along a text that is put together;
* `Calculator.Expression.scan_eq_ok_iff`, `Calculator.Expression.evaluateText_eq_ok_iff_path` — **a
  text has a value exactly if a path leads along it to a state in which it may end**, within the
  limit.
-/

import Calculator.Proofs.Expression.Nesting

set_option relaxedAutoImplicit false
set_option autoImplicit false

namespace Calculator.Expression

/-! ### Transitions -/

/-- **What one character can do**, state by state.  A number ends only when a character follows that
is none of its own, and that character then finds the term that the number completes. -/
inductive Transition : State → Char → State → Prop where
  | space {p : Pending} {groups : List Pending} :
      Transition ⟨.operand p, groups⟩ ' ' ⟨.operand p, groups⟩
  | plus {p : Pending} {groups : List Pending} :
      Transition ⟨.operand p, groups⟩ '+' ⟨.operand (p.signed false), groups⟩
  | minus {p : Pending} {groups : List Pending} :
      Transition ⟨.operand p, groups⟩ '-' ⟨.operand (p.signed true), groups⟩
  | opened {p : Pending} {groups : List Pending} :
      Transition ⟨.operand p, groups⟩ '(' ⟨.operand .nothing, p :: groups⟩
  | digit {p : Pending} {groups : List Pending} {c : Char} : isLiteralChar c = true →
      Transition ⟨.operand p, groups⟩ c ⟨.literal p [c], groups⟩
  | further {p : Pending} {groups : List Pending} {read : List Char} {c : Char} :
      isLiteralChar c = true →
      Transition ⟨.literal p read, groups⟩ c ⟨.literal p (read ++ [c]), groups⟩
  | ended {p : Pending} {groups : List Pending} {read : List Char} {value : Double} {c : Char}
      {next : State} : isLiteralChar c = false → literalValue read = .ok value →
      Transition ⟨p.fill value, groups⟩ c next → Transition ⟨.literal p read, groups⟩ c next
  | spaceBehind {sum : Double → Double} {value : Double} {groups : List Pending} :
      Transition ⟨.term sum value, groups⟩ ' ' ⟨.term sum value, groups⟩
  | multiplied {sum : Double → Double} {value : Double} {groups : List Pending} {c : Char}
      {operation : Double → Double → Double} : multiplicative c = some operation →
      Transition ⟨.term sum value, groups⟩ c ⟨.operand ⟨sum, operation value, 0⟩, groups⟩
  | added {sum : Double → Double} {value : Double} {groups : List Pending} {c : Char}
      {operation : Double → Double → Double} : additive c = some operation →
      Transition ⟨.term sum value, groups⟩ c ⟨.operand ⟨operation (sum value), id, 0⟩, groups⟩
  | closed {sum : Double → Double} {value : Double} {p : Pending} {groups : List Pending} :
      Transition ⟨.term sum value, p :: groups⟩ ')' ⟨p.fill (sum value), groups⟩

/-- A character behind a number finds the term that the number completes. -/
theorem step_literal {p : Pending} {groups : List Pending} {read : List Char} {value : Double}
    {c : Char} (hc : isLiteralChar c = false) (hv : literalValue read = .ok value) :
    (State.mk (.literal p read) groups).step c = (State.mk (p.fill value) groups).step c := by
  simp [State.step, Pending.fill, hc, hv]

/-- So does the end of the text. -/
theorem finish_literal {p : Pending} {groups : List Pending} {read : List Char} {value : Double}
    (hv : literalValue read = .ok value) :
    (State.mk (.literal p read) groups).finish = (State.mk (p.fill value) groups).finish := by
  simp [State.finish, Pending.fill, hv]

theorem multiplicative_of_additive {c : Char} {operation : Double → Double → Double}
    (h : additive c = some operation) : multiplicative c = none := by
  rcases additive_cases h with ⟨rfl, -⟩ | ⟨rfl, -⟩
  · rfl
  · rfl

/-- A transition is a step. -/
theorem Transition.step {s next : State} {c : Char} (h : Transition s c next) :
    s.step c = .ok next := by
  induction h with
  | space => rfl
  | plus => rfl
  | minus => rfl
  | opened => rfl
  | digit hc =>
      obtain ⟨hs, hp, hm, hg⟩ := ne_of_isLiteralChar hc
      simp [State.step, State.beforeOperand, hs, hp, hm, hg, hc]
  | further hc => simp [State.step, hc]
  | ended hc hv _ ih => rw [step_literal hc hv, ih]
  | spaceBehind => rfl
  | multiplied hc => exact step_of_multiplicative hc _ _ _
  | added hc => exact step_of_additive (multiplicative_of_additive hc) hc _ _ _
  | closed => rfl

private theorem transition_of_beforeOperand {p : Pending} {groups : List Pending} {c : Char}
    {next : State} (h : State.beforeOperand p groups c = .ok next) :
    Transition ⟨.operand p, groups⟩ c next := by
  unfold State.beforeOperand at h
  split at h
  · next hc => subst hc; cases h; exact .space
  · split at h
    · next hc => subst hc; cases h; exact .plus
    · split at h
      · next hc => subst hc; cases h; exact .minus
      · split at h
        · next hc => subst hc; cases h; exact .opened
        · split at h
          · next hc => cases h; exact .digit hc
          · simp at h

private theorem transition_of_afterTerm {sum : Double → Double} {value : Double}
    {groups : List Pending} {c : Char} {next : State}
    (h : State.afterTerm sum value groups c = .ok next) :
    Transition ⟨.term sum value, groups⟩ c next := by
  unfold State.afterTerm at h
  split at h
  · next hc => subst hc; cases h; exact .spaceBehind
  · split at h
    · next operation hc => cases h; exact .multiplied hc
    · split at h
      · next operation hc => cases h; exact .added hc
      · split at h
        · next hc =>
            subst hc
            cases groups with
            | nil => simp [State.close] at h
            | cons p groups => cases h; exact .closed
        · simp at h

/-- The steps of a scan are the transitions. -/
theorem step_eq_ok_iff {s next : State} {c : Char} :
    s.step c = .ok next ↔ Transition s c next := by
  refine ⟨fun h => ?_, Transition.step⟩
  obtain ⟨reading, groups⟩ := s
  cases reading with
  | operand p => exact transition_of_beforeOperand h
  | literal p read =>
      cases hc : isLiteralChar c with
      | true =>
          simp only [State.step, hc, if_true, Except.ok.injEq] at h
          exact h ▸ .further hc
      | false =>
          cases hv : literalValue read with
          | error cause => simp [State.step, hc, hv] at h
          | ok value =>
              rw [step_literal hc hv] at h
              exact .ended hc hv (transition_of_afterTerm h)
  | term sum value => exact transition_of_afterTerm h

/-! ### Paths -/

/-- The states along a text, from one before it to one behind it. -/
inductive Path : State → List Char → State → Prop where
  | nil {s : State} : Path s [] s
  | cons {s next last : State} {c : Char} {rest : List Char} :
      Transition s c next → Path next rest last → Path s (c :: rest) last

namespace Path

variable {s middle last : State} {before rest : List Char}

theorem append (h : Path s before middle) (h' : Path middle rest last) :
    Path s (before ++ rest) last := by
  induction h with
  | nil => exact h'
  | cons hc _ ih => exact .cons hc (ih h')

/-- One character more. -/
theorem concat (h : Path s before middle) {c : Char} (hc : Transition middle c last) :
    Path s (before ++ [c]) last :=
  h.append (.cons hc .nil)

/-- A path along a text passes a state behind each beginning of it. -/
theorem exists_middle (h : Path s (before ++ rest) last) :
    ∃ middle, Path s before middle ∧ Path middle rest last := by
  induction before generalizing s with
  | nil => exact ⟨s, .nil, h⟩
  | cons c before ih =>
      cases h with
      | cons hc h =>
          obtain ⟨middle, hm, hl⟩ := ih h
          exact ⟨middle, .cons hc hm, hl⟩

/-- An invariant of the transitions holds behind a text if it holds before it; it may speak about
the characters that have been passed. -/
theorem invariant {P : State → List Char → Prop}
    (hstep : ∀ {s next : State} {c : Char} {done : List Char}, P s done → Transition s c next →
      P next (done ++ [c]))
    (h : Path s rest last) {done : List Char} (hs : P s done) : P last (done ++ rest) := by
  induction h generalizing done with
  | nil => rwa [List.append_nil]
  | @cons s next last c rest hc _ ih =>
      rw [← List.singleton_append, ← List.append_assoc]
      exact ih (hstep hs hc)

end Path

/-! ### Costs along a path -/

/-- The highest cost along a text that is put together. -/
theorem peak_append {s last : State} {before : List Char} (h : Path s before last)
    (rest : List Char) : s.peak (before ++ rest) = max (s.peak before) (last.peak rest) := by
  induction h with
  | @nil s => exact (Nat.max_eq_right (cost_le_peak s rest)).symm
  | cons hc _ ih =>
      rw [List.cons_append, peak_cons_of_step hc.step, peak_cons_of_step hc.step, ih, Nat.max_assoc]

/-- The cost at the end of a path is one of the costs along it. -/
theorem Path.cost_le_peak {s last : State} {text : List Char} (h : Path s text last) :
    last.cost ≤ s.peak text := by
  have hp := peak_append h []
  rw [List.append_nil] at hp
  rw [hp]
  exact Nat.le_max_right _ _

/-- Within the limit a scan follows the path. -/
theorem Path.scan_append {limit : Nat} {s last : State} {before : List Char}
    (h : Path s before last) (hl : s.peak before ≤ limit) (rest : List Char) :
    scan limit s (before ++ rest) = scan limit last rest := by
  induction h with
  | nil => rfl
  | @cons s next last c before hc _ ih =>
      rw [peak_cons_of_step hc.step] at hl
      have hn := Expression.cost_le_peak next before
      rw [List.cons_append, scan_cons_of_step hc.step (by omega)]
      exact ih (by omega)

/-- A scan with a value has followed a path. -/
theorem exists_path_of_scan {limit : Nat} {s : State} {text : List Char} {value : Double}
    (h : scan limit s text = .ok value) : ∃ last, Path s text last ∧ last.finish = .ok value := by
  induction text generalizing s with
  | nil =>
      rw [scan] at h
      cases hf : s.finish with
      | error cause => simp [hf] at h
      | ok result =>
          simp only [hf, Except.ok.injEq] at h
          exact ⟨s, .nil, h ▸ hf⟩
  | cons c rest ih =>
      cases hn : s.step c with
      | error cause => simp [scan_cons_of_error hn] at h
      | ok next =>
          by_cases hl : next.cost ≤ limit
          · rw [scan_cons_of_step hn hl] at h
            obtain ⟨last, hp, hf⟩ := ih h
            exact ⟨last, .cons (step_eq_ok_iff.1 hn) hp, hf⟩
          · simp [scan_cons_of_depth hn (Nat.not_le.1 hl)] at h

/-- A scan has a value exactly if a path within the limit leads to a state in which the text may
end. -/
theorem scan_eq_ok_iff {limit : Nat} {s : State} (hs : s.cost ≤ limit) {text : List Char}
    {value : Double} :
    scan limit s text = .ok value ↔
      s.peak text ≤ limit ∧ ∃ last, Path s text last ∧ last.finish = .ok value := by
  constructor
  · intro h
    exact ⟨peak_le_of_scan_ok hs h, exists_path_of_scan h⟩
  · rintro ⟨hl, last, hp, hf⟩
    have hscan := hp.scan_append hl []
    rw [List.append_nil] at hscan
    rw [hscan, scan, hf]

/-- **A text has a value exactly if a path leads along it** to a state in which it may end, within
the limit. -/
theorem evaluateText_eq_ok_iff_path {text : List Char} {value : Double} :
    evaluateText text = .ok value ↔
      nestingCost text ≤ nestingLimit ∧ ∃ last, Path .start text last ∧ last.finish = .ok value := by
  rw [evaluateText_eq_ok_iff_scan, scan_eq_ok_iff (Nat.zero_le _), nestingCost]

end Calculator.Expression
