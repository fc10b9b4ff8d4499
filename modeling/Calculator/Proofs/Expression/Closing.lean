/-
**Closing parentheses at the end.**

A scan has as many groups open as it has passed opening parentheses more than closing ones.  Where
a text may end, a closing parenthesis closes the innermost of them and changes nothing about the
value, because the end of the text would have closed it as well; and where no group is open it is
refused.  So a text that leaves groups open has the same value with any number of them closed, and
one closing parenthesis more is the first fault.

Main results:

* `Calculator.Expression.Path.length_groups` — the groups that are open behind a text;
* `Calculator.Expression.exists_transition_parenthesis` — closing a group where a text may end;
* `Calculator.Expression.scan_closing`, `Calculator.Expression.scan_closing_beyond` — closing
  parentheses, up to the last group and beyond it;
* `Calculator.evaluate_append_closing` — **missing parentheses do not change a value**.
-/

import Mathlib.Control.Monad.Basic
import Calculator.Proofs.Expression.Path
import Calculator.Calculation

set_option relaxedAutoImplicit false
set_option autoImplicit false

namespace Calculator

namespace Expression

/-! ### Open groups -/

theorem ne_parenthesis_of_isLiteralChar {c : Char} (h : isLiteralChar c = true) :
    c ≠ '(' ∧ c ≠ ')' := by
  constructor
  · rintro rfl
    exact absurd h (by decide)
  · rintro rfl
    exact absurd h (by decide)

/-- A group is opened by a parenthesis, closed by a parenthesis, and otherwise stays. -/
theorem Transition.length_groups {s next : State} {c : Char} (h : Transition s c next) :
    next.groups.length + [c].count ')' = s.groups.length + [c].count '(' := by
  induction h with
  | space => rfl
  | plus => rfl
  | minus => rfl
  | opened => rfl
  | digit hc =>
      obtain ⟨hg, hp⟩ := ne_parenthesis_of_isLiteralChar hc
      simp [hg, hp]
  | further hc =>
      obtain ⟨hg, hp⟩ := ne_parenthesis_of_isLiteralChar hc
      simp [hg, hp]
  | ended _ _ _ ih => exact ih
  | spaceBehind => rfl
  | multiplied hc =>
      rcases multiplicative_cases hc with ⟨rfl, -⟩ | ⟨rfl, -⟩
      · rfl
      · rfl
  | added hc =>
      rcases additive_cases hc with ⟨rfl, -⟩ | ⟨rfl, -⟩
      · rfl
      · rfl
  | closed => rfl

/-- Behind a text those groups are open that have not been closed. -/
theorem Path.length_groups {s last : State} {text : List Char} (h : Path s text last) :
    last.groups.length + text.count ')' = s.groups.length + text.count '(' := by
  induction h with
  | nil => rfl
  | @cons s next last c rest hc _ ih =>
      have hstep := hc.length_groups
      rw [← List.singleton_append, List.count_append, List.count_append]
      omega

/-! ### Closing -/

section

variable {s : State} {value : Double}

/-- Where a text may end there is a complete term, possibly only once the number ends that is being
read.  Which groups are open around it does not matter for that. -/
theorem exists_term_of_finish (h : s.finish = .ok value) :
    ∃ sum last, value = State.closeAll (sum last) s.groups ∧
      ∀ c groups, isLiteralChar c = false →
        (State.mk s.reading groups).step c = (State.mk (.term sum last) groups).step c := by
  obtain ⟨reading, groups⟩ := s
  cases reading with
  | operand p => simp [State.finish] at h
  | literal p read =>
      cases hv : literalValue read with
      | error cause => simp [State.finish, hv] at h
      | ok number =>
          rw [finish_literal hv] at h
          cases h
          exact ⟨p.sum, p.product number, rfl, fun _ _ hc => step_literal hc hv⟩
  | term sum last =>
      cases h
      exact ⟨sum, last, rfl, fun _ _ _ => rfl⟩

/-- Where no group is open a closing parenthesis is refused. -/
theorem step_parenthesis_of_nil (h : s.finish = .ok value) (hg : s.groups = []) :
    s.step ')' = .error (.character ')') := by
  obtain ⟨sum, last, -, hstep⟩ := exists_term_of_finish h
  rw [hstep ')' s.groups rfl, hg]
  rfl

/-- Closing the innermost group does not change the value at the end. -/
theorem exists_transition_parenthesis (h : s.finish = .ok value) {p : Pending}
    {groups : List Pending} (hg : s.groups = p :: groups) :
    ∃ next, Transition s ')' next ∧ next.groups = groups ∧ next.finish = .ok value ∧
      next.cost ≤ s.cost := by
  obtain ⟨sum, last, rfl, hstep⟩ := exists_term_of_finish h
  refine ⟨⟨p.fill (sum last), groups⟩, step_eq_ok_iff.1 ?_, rfl, ?_, ?_⟩
  · rw [hstep ')' s.groups rfl, hg]
    rfl
  · rw [hg]
    rfl
  · rw [State.cost_fill, State.cost, hg, groupsCost]
    omega

/-- As many closing parentheses as groups are open, or fewer, leave the value as it is. -/
theorem scan_closing {limit j : Nat} (h : s.finish = .ok value) (hl : s.cost ≤ limit)
    (hj : j ≤ s.groups.length) : scan limit s (List.replicate j ')') = .ok value := by
  induction j generalizing s with
  | zero => rw [List.replicate_zero, scan, h]
  | succ j ih =>
      obtain ⟨p, groups, hg⟩ := List.exists_cons_of_length_pos (Nat.zero_lt_of_lt hj)
      obtain ⟨next, hnext, hgroups, hf, hc⟩ := exists_transition_parenthesis h hg
      rw [hg, List.length_cons] at hj
      rw [List.replicate_succ, scan_cons_of_step hnext.step (by omega)]
      exact ih hf (by omega) (by rw [hgroups]; omega)

/-- One closing parenthesis more than groups are open is refused, whatever follows it. -/
theorem scan_closing_beyond {limit : Nat} (h : s.finish = .ok value) (hl : s.cost ≤ limit)
    (rest : List Char) :
    scan limit s (List.replicate s.groups.length ')' ++ ')' :: rest) =
      .error ⟨.character ')', ')' :: rest⟩ := by
  induction hn : s.groups.length generalizing s with
  | zero =>
      have hg := List.eq_nil_of_length_eq_zero hn
      exact scan_cons_of_error (step_parenthesis_of_nil h hg) rest
  | succ n ih =>
      obtain ⟨p, groups, hg⟩ := List.exists_cons_of_length_eq_add_one hn
      obtain ⟨next, hnext, hgroups, hf, hc⟩ := exists_transition_parenthesis h hg
      rw [hg, List.length_cons] at hn
      rw [List.replicate_succ, List.cons_append, scan_cons_of_step hnext.step (by omega)]
      exact ih hf (by omega) (by rw [hgroups]; omega)

end

/-! ### Whole texts -/

theorem message_character (c : Char) (position : Nat) :
    Fault.message ⟨.character c, position⟩ =
      "Unexpected character " ++ quoted c ++ " at position " ++ toString position ++ "." := rfl

/-- A text with a value, and closing parentheses behind it. -/
theorem evaluateText_append_closing {text : List Char} {value : Double}
    (h : evaluateText text = .ok value) :
    ∃ opened, text.count '(' = text.count ')' + opened ∧
      (∀ j ≤ opened, evaluateText (text ++ List.replicate j ')') = .ok value) ∧
      ∀ m, opened < m → evaluateText (text ++ List.replicate m ')') =
        .error ⟨.character ')', text.length + opened⟩ := by
  obtain ⟨hl, last, hp, hf⟩ := evaluateText_eq_ok_iff_path.1 h
  have hgroups := hp.length_groups
  have hcost : last.cost ≤ nestingLimit := Nat.le_trans hp.cost_le_peak hl
  refine ⟨last.groups.length, ?_, fun j hj => ?_, fun m hm => ?_⟩
  · rw [State.start, List.length_nil] at hgroups
    omega
  · exact evaluateText_of_scan_ok ((hp.scan_append hl _).trans (scan_closing hf hcost hj))
  · obtain ⟨extra, rfl⟩ : ∃ extra, m = last.groups.length + (extra + 1) :=
      ⟨m - last.groups.length - 1, by omega⟩
    have hstop := (hp.scan_append hl _).trans
      (scan_closing_beyond hf hcost (List.replicate extra ')'))
    rw [← List.append_assoc] at hstop
    rw [← List.replicate_append_replicate, List.replicate_succ, ← List.append_assoc,
      evaluateText_of_scan hstop, fault_append, List.length_append, List.length_replicate]

end Expression

open Expression

/-- **Missing parentheses do not change a value.**  An expression with a value has at least as many
opening parentheses as closing ones; closing some of its open groups at the end, or all of them,
which balances it, leaves the value as it is, and a closing parenthesis beyond them is the first
fault. -/
theorem evaluate_append_closing (expression : String) (value : Double)
    (h : evaluate expression = .ok value) :
    ∃ opened, expression.toList.count '(' = expression.toList.count ')' + opened ∧
      (∀ j ≤ opened,
        evaluate (expression ++ String.ofList (List.replicate j ')')) = .ok value) ∧
      (expression ++ String.ofList (List.replicate opened ')')).toList.count '(' =
        (expression ++ String.ofList (List.replicate opened ')')).toList.count ')' ∧
      ∀ m, opened < m → ∃ fault,
        evaluate (expression ++ String.ofList (List.replicate m ')')) = .error fault ∧
        fault = ⟨.character ')', expression.length + opened⟩ ∧
        fault.message = "Unexpected character ')' at position " ++
          toString (expression.length + opened) ++ "." := by
  obtain ⟨opened, hcount, hclosed, hbeyond⟩ := evaluateText_append_closing h
  refine ⟨opened, hcount, fun j hj => ?_, ?_, fun m hm => ⟨_, ?_, rfl, ?_⟩⟩
  · rw [evaluate, String.toList_append, String.toList_ofList]
    exact hclosed j hj
  · rw [String.toList_append, String.toList_ofList, List.count_append, List.count_append, hcount]
    simp [List.count_replicate]
  · rw [evaluate, String.toList_append, String.toList_ofList, hbeyond m hm, String.length_toList]
  · have hquoted : "Unexpected character " ++ quoted ')' ++ " at position " =
        "Unexpected character ')' at position " := by decide +kernel
    rw [message_character, hquoted]

/-- Two groups are open: the product is closed first, and then the sum. -/
theorem evaluate_append_closing_twice :
    evaluate "5-(1+(2)*(3" = .ok (Double.ofDecimal true ⟨2, 0⟩) ∧
      evaluate "5-(1+(2)*(3)" = .ok (Double.ofDecimal true ⟨2, 0⟩) ∧
      evaluate "5-(1+(2)*(3))" = .ok (Double.ofDecimal true ⟨2, 0⟩) ∧
      evaluate "5-(1+(2)*(3))))" = .error ⟨.character ')', 13⟩ := by
  have h : evaluate "5-(1+(2)*(3" = .ok (Double.ofDecimal true ⟨2, 0⟩) := by decide +kernel
  obtain ⟨opened, hcount, hclosed, -, hbeyond⟩ := evaluate_append_closing _ _ h
  obtain rfl : opened = 2 := by
    have hcounts : 3 = 1 + opened := hcount
    omega
  obtain ⟨fault, hfault, rfl, -⟩ := hbeyond 4 (by decide)
  exact ⟨h, hclosed 1 (by decide), hclosed 2 (by decide), hfault⟩

end Calculator
