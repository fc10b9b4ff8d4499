/-
**Scanning an expression.**

The readers of an expression call one another, and what they still have to do with a value is
hidden in the calls.  Here the same text is scanned from left to right, one character at a step.
What waits for an operand is part of the state: the terms and factors in front of it inside its
group, the signs directly in front of it, and the same for every group that is still open around
it.  A state has a cost, three for an open group and one for a waiting sign, and a scan stops where
its cost exceeds the limit.

A scan gives what the readers give, and it has what they lack: it depends on a beginning of the
text only through the state that is reached there.

Main definitions:

* `Calculator.Expression.Pending` — what waits for an operand inside one group;
* `Calculator.Expression.State`, `Calculator.Expression.State.cost` — a place in the scan, and what
  it costs to be there;
* `Calculator.Expression.State.step`, `Calculator.Expression.State.finish` — one character, and the
  end of the text;
* `Calculator.Expression.scan` — the value of what remains, scanned from a state.

Main results:

* `Calculator.Expression.step_error`, `Calculator.Expression.finish_error` — what a step and the end
  of the text can refuse;
* `Calculator.Expression.scan_cons_of_step`, `Calculator.Expression.scan_cons_of_depth`,
  `Calculator.Expression.scan_cons_of_error` — one step of a scan.
-/

import Calculator.Expression.Parser

set_option relaxedAutoImplicit false
set_option autoImplicit false

namespace Calculator.Expression

/-! ### States -/

/-- What waits for an operand inside its group. -/
structure Pending where
  /-- From the term of the operand to the value of the group so far. -/
  sum : Double → Double
  /-- From the operand, without its signs, to the value of its term so far. -/
  product : Double → Double
  /-- The number of signs directly in front of the operand. -/
  signs : Nat

namespace Pending

/-- Nothing waits at the beginning of a group. -/
def nothing : Pending := ⟨id, id, 0⟩

/-- One sign more in front of the operand. -/
def signed (p : Pending) (negative : Bool) : Pending :=
  { p with
    product := fun value => p.product (if negative then -value else value)
    signs := p.signs + 1 }

@[simp] theorem signs_signed (p : Pending) (negative : Bool) :
    (p.signed negative).signs = p.signs + 1 := rfl

end Pending

/-- What is being read. -/
inductive Reading where
  /-- An operand is needed. -/
  | operand (pending : Pending)
  /-- These characters of a number have been read. -/
  | literal (pending : Pending) (read : List Char)
  /-- A term is complete so far, and an operator may follow. -/
  | term (sum : Double → Double) (value : Double)

/-- The term that a complete operand completes. -/
def Pending.fill (p : Pending) (value : Double) : Reading := .term p.sum (p.product value)

/-- A place in a scan. -/
structure State where
  reading : Reading
  /-- What waits for the open groups, the innermost first. -/
  groups : List Pending

/-- The cost of the open groups with the signs in front of them. -/
def groupsCost : List Pending → Nat
  | [] => 0
  | p :: groups => 3 + p.signs + groupsCost groups

/-- The signs that wait inside the innermost group. -/
def Reading.signs : Reading → Nat
  | .operand p => p.signs
  | .literal p _ => p.signs
  | .term _ _ => 0

namespace State

/-- Three for each open group and one for each sign that waits for its operand. -/
def cost (s : State) : Nat := s.reading.signs + groupsCost s.groups

/-- The state before the first character. -/
def start : State := ⟨.operand .nothing, []⟩

@[simp] theorem cost_start : start.cost = 0 := rfl

@[simp] theorem cost_operand (p : Pending) (groups : List Pending) :
    (State.mk (.operand p) groups).cost = p.signs + groupsCost groups := rfl

@[simp] theorem cost_literal (p : Pending) (read : List Char) (groups : List Pending) :
    (State.mk (.literal p read) groups).cost = p.signs + groupsCost groups := rfl

@[simp] theorem cost_term (sum : Double → Double) (value : Double) (groups : List Pending) :
    (State.mk (.term sum value) groups).cost = groupsCost groups := by
  simp [cost, Reading.signs]

@[simp] theorem cost_fill (p : Pending) (value : Double) (groups : List Pending) :
    (State.mk (p.fill value) groups).cost = groupsCost groups := cost_term _ _ _

end State

/-! ### Steps -/

/-- The double denoted by the characters of a number. -/
def literalValue (read : List Char) : Except Cause Double :=
  match Decimal.ofLiteral? read with
  | some decimal => .ok (Double.ofDecimal false decimal)
  | none => .error (.number read)

namespace State

/-- A character where an operand is needed. -/
def beforeOperand (p : Pending) (groups : List Pending) (c : Char) : Except Cause State :=
  if c = ' ' then .ok ⟨.operand p, groups⟩
  else if c = '+' then .ok ⟨.operand (p.signed false), groups⟩
  else if c = '-' then .ok ⟨.operand (p.signed true), groups⟩
  else if c = '(' then .ok ⟨.operand .nothing, p :: groups⟩
  else if isLiteralChar c then .ok ⟨.literal p [c], groups⟩
  else .error (.character c)

/-- A closing parenthesis makes the innermost group an operand. -/
def close (value : Double) : List Pending → Except Cause State
  | p :: groups => .ok ⟨p.fill value, groups⟩
  | [] => .error (.character ')')

/-- A character after a term that is complete so far. -/
def afterTerm (sum : Double → Double) (value : Double) (groups : List Pending) (c : Char) :
    Except Cause State :=
  if c = ' ' then .ok ⟨.term sum value, groups⟩
  else
    match multiplicative c with
    | some operation => .ok ⟨.operand ⟨sum, operation value, 0⟩, groups⟩
    | none =>
        match additive c with
        | some operation => .ok ⟨.operand ⟨operation (sum value), id, 0⟩, groups⟩
        | none => if c = ')' then close (sum value) groups else .error (.character c)

/-- One character. -/
def step (s : State) (c : Char) : Except Cause State :=
  match s.reading with
  | .operand p => beforeOperand p s.groups c
  | .literal p read =>
      if isLiteralChar c then .ok ⟨.literal p (read ++ [c]), s.groups⟩
      else
        match literalValue read with
        | .error cause => .error cause
        | .ok value => afterTerm p.sum (p.product value) s.groups c
  | .term sum value => afterTerm sum value s.groups c

/-- Groups that are still open at the end of the text are closed there. -/
def closeAll (value : Double) : List Pending → Double
  | [] => value
  | p :: groups => closeAll (p.sum (p.product value)) groups

/-- The end of the text. -/
def finish (s : State) : Except Cause Double :=
  match s.reading with
  | .operand _ => .error .endOfText
  | .literal p read =>
      match literalValue read with
      | .error cause => .error cause
      | .ok value => .ok (closeAll (p.sum (p.product value)) s.groups)
  | .term sum value => .ok (closeAll (sum value) s.groups)

end State

/-- The value of the text that remains, scanned from a state, or where the scan stops. -/
def scan (limit : Nat) (s : State) : List Char → Except Stop Double
  | [] =>
      match s.finish with
      | .error cause => .error ⟨cause, []⟩
      | .ok value => .ok value
  | c :: rest =>
      match s.step c with
      | .error cause => .error ⟨cause, c :: rest⟩
      | .ok next => if next.cost ≤ limit then scan limit next rest else .error ⟨.depth, rest⟩

/-! ### What a step can refuse -/

theorem literalValue_error {read : List Char} {cause : Cause}
    (h : literalValue read = .error cause) :
    Decimal.ofLiteral? read = none ∧ cause = .number read := by
  unfold literalValue at h
  split at h
  · simp at h
  · next hd => exact ⟨hd, by cases h; rfl⟩

theorem beforeOperand_error {p : Pending} {groups : List Pending} {c : Char} {cause : Cause}
    (h : State.beforeOperand p groups c = .error cause) :
    cause = .character c ∧ c ≠ ' ' ∧ isLiteralChar c = false := by
  by_cases hs : c = ' '
  · simp [State.beforeOperand, hs] at h
  by_cases hp : c = '+'
  · simp [State.beforeOperand, hp] at h
  by_cases hm : c = '-'
  · simp [State.beforeOperand, hm] at h
  by_cases hg : c = '('
  · simp [State.beforeOperand, hg] at h
  cases hl : isLiteralChar c with
  | true => simp [State.beforeOperand, hs, hp, hm, hg, hl] at h
  | false =>
      simp only [State.beforeOperand, hs, hp, hm, hg, hl, if_false, Bool.false_eq_true,
        Except.error.injEq] at h
      exact ⟨h.symm, hs, rfl⟩

theorem afterTerm_error {sum : Double → Double} {value : Double} {groups : List Pending} {c : Char}
    {cause : Cause} (h : State.afterTerm sum value groups c = .error cause) :
    cause = .character c ∧ c ≠ ' ' := by
  unfold State.afterTerm at h
  split at h
  · simp at h
  · next hs =>
      refine ⟨?_, hs⟩
      split at h
      · simp at h
      · split at h
        · simp at h
        · split at h
          · next hc =>
              cases groups with
              | nil => cases h; rw [hc]
              | cons p groups => simp [State.close] at h
          · cases h; rfl

/-- A step refuses a run of digits and points that is no number when the run ends, and otherwise
its own character, in front of which an operand is needed or the text might have ended. -/
theorem step_error {s : State} {c : Char} {cause : Cause} (h : s.step c = .error cause) :
    (∃ p read, s.reading = .literal p read ∧ isLiteralChar c = false ∧
      Decimal.ofLiteral? read = none ∧ cause = .number read) ∨
    (cause = .character c ∧ c ≠ ' ' ∧
      ((∃ p, s.reading = .operand p) ∨ ∃ value, s.finish = .ok value)) := by
  obtain ⟨reading, groups⟩ := s
  cases reading with
  | operand p =>
      obtain ⟨rfl, hs, -⟩ := beforeOperand_error h
      exact .inr ⟨rfl, hs, .inl ⟨p, rfl⟩⟩
  | literal p read =>
      simp only [State.step] at h
      split at h
      · simp at h
      · next hc =>
          cases hv : literalValue read with
          | error cause' =>
              rw [hv] at h
              cases h
              obtain ⟨hd, rfl⟩ := literalValue_error hv
              exact .inl ⟨p, read, rfl, by simpa using hc, hd, rfl⟩
          | ok value =>
              rw [hv] at h
              obtain ⟨rfl, hs⟩ := afterTerm_error h
              have hfinish : (State.mk (.literal p read) groups).finish =
                  .ok (State.closeAll (p.sum (p.product value)) groups) := by
                simp only [State.finish, hv]
              exact .inr ⟨rfl, hs, .inr ⟨_, hfinish⟩⟩
  | term sum value =>
      obtain ⟨rfl, hs⟩ := afterTerm_error h
      exact .inr ⟨rfl, hs, .inr ⟨_, rfl⟩⟩

/-- The end of the text is refused where an operand is needed, and after a run of digits and points
that is no number. -/
theorem finish_error {s : State} {cause : Cause} (h : s.finish = .error cause) :
    (∃ p read, s.reading = .literal p read ∧ Decimal.ofLiteral? read = none ∧
      cause = .number read) ∨
    ((∃ p, s.reading = .operand p) ∧ cause = .endOfText) := by
  obtain ⟨reading, groups⟩ := s
  cases reading with
  | operand p => exact .inr ⟨⟨p, rfl⟩, by cases h; rfl⟩
  | literal p read =>
      cases hv : literalValue read with
      | error cause' =>
          simp only [State.finish, hv] at h
          cases h
          obtain ⟨hd, rfl⟩ := literalValue_error hv
          exact .inl ⟨p, read, rfl, hd, rfl⟩
      | ok value => simp [State.finish, hv] at h
  | term sum value => simp [State.finish] at h

/-! ### Scans -/

/-- A step within the limit goes on from the state that it leads to. -/
theorem scan_cons_of_step {limit : Nat} {s next : State} {c : Char} (h : s.step c = .ok next)
    (hl : next.cost ≤ limit) (rest : List Char) :
    scan limit s (c :: rest) = scan limit next rest := by
  rw [scan, h]
  exact if_pos hl

/-- A step beyond the limit stops the scan behind its character. -/
theorem scan_cons_of_depth {limit : Nat} {s next : State} {c : Char} (h : s.step c = .ok next)
    (hl : limit < next.cost) (rest : List Char) :
    scan limit s (c :: rest) = .error ⟨.depth, rest⟩ := by
  rw [scan, h]
  exact if_neg (Nat.not_le.2 hl)

/-- A step that fails stops the scan in front of its character. -/
theorem scan_cons_of_error {limit : Nat} {s : State} {c : Char} {cause : Cause}
    (h : s.step c = .error cause) (rest : List Char) :
    scan limit s (c :: rest) = .error ⟨cause, c :: rest⟩ := by
  rw [scan, h]

/-- States with the same steps and the same end scan alike. -/
theorem scan_congr {limit : Nat} {s t : State} {text : List Char}
    (hstep : ∀ c, text.head? = some c → s.step c = t.step c)
    (hfinish : text = [] → s.finish = t.finish) : scan limit s text = scan limit t text := by
  cases text with
  | nil => rw [scan, scan, hfinish rfl]
  | cons c rest => rw [scan, scan, hstep c rfl]

/-- Spaces are passed over wherever a state lets one pass. -/
theorem scan_skipSpaces {limit : Nat} {s : State} (hs : s.step ' ' = .ok s)
    (hl : s.cost ≤ limit) (text : List Char) :
    scan limit s (skipSpaces text) = scan limit s text := by
  induction text with
  | nil => rfl
  | cons c text ih =>
      by_cases hc : c = ' '
      · subst hc
        rw [skipSpaces_space, ih, scan_cons_of_step hs hl]
      · rw [skipSpaces_cons hc]

end Calculator.Expression
