/-
**A fault is the first fault.**

A text is refused at the first character behind which no continuation could be accepted.  What
stands before it can be completed, and what stands behind it does not matter: every text with the
same beginning is refused in the same way.  A run of digits and points that is no number is refused
as a whole, once it has ended; an end that comes too early is refused only because something is
missing; and a text is refused for its depth only if its nesting cost exceeds the limit.

All of this is read off a scan, which depends on the beginning of a text only through the state
that is reached behind it.

Main definitions:

* `Calculator.Expression.advance` — the state behind a beginning of the text;
* `Calculator.Expression.Halt` — the ways in which a scan stops;
* `Calculator.Expression.lastRun` — the digits and points at the end of a text;
* `Calculator.Expression.Malformed` — a run of digits and points that is no number;
* `Calculator.Expression.Fault.Explains` — **what a fault says about the text**.

Main results:

* `Calculator.Expression.scan_append` — a scan depends on a beginning only through its state;
* `Calculator.Expression.halt_of_scan` — there are no other ways to stop;
* `Calculator.Expression.follows_of_advance` — a scan has read the digits and points at the end;
* `Calculator.Expression.evaluateText_value_or_first_fault` — **every text has a value or is refused
  at its first fault**.
-/

import Calculator.Proofs.Expression.Path
import Calculator.Proofs.Expression.Grammar

set_option relaxedAutoImplicit false
set_option autoImplicit false

namespace Calculator.Expression

/-! ### Beginnings of a text -/

/-- The state behind a beginning of the text, if the scan gets there. -/
def advance (limit : Nat) (s : State) : List Char → Option State
  | [] => some s
  | c :: rest =>
      match s.step c with
      | .error _ => none
      | .ok next => if next.cost ≤ limit then advance limit next rest else none

theorem advance_cons_of_step {limit : Nat} {s next : State} {c : Char} (h : s.step c = .ok next)
    (hl : next.cost ≤ limit) (rest : List Char) :
    advance limit s (c :: rest) = advance limit next rest := by
  rw [advance, h]
  exact if_pos hl

/-- A scan that gets behind a character has made its step within the limit. -/
theorem step_of_advance {limit : Nat} {s last : State} {c : Char} {rest : List Char}
    (h : advance limit s (c :: rest) = some last) :
    ∃ next, s.step c = .ok next ∧ next.cost ≤ limit ∧ advance limit next rest = some last := by
  rw [advance] at h
  cases hs : s.step c with
  | error cause => simp [hs] at h
  | ok next =>
      simp only [hs] at h
      by_cases hl : next.cost ≤ limit
      · rw [if_pos hl] at h
        exact ⟨next, rfl, hl, h⟩
      · simp [hl] at h

/-- A scan depends on a beginning only through its state. -/
theorem scan_append {limit : Nat} {s last : State} {before : List Char}
    (h : advance limit s before = some last) (rest : List Char) :
    scan limit s (before ++ rest) = scan limit last rest := by
  induction before generalizing s with
  | nil =>
      obtain rfl : s = last := by simpa [advance] using h
      rfl
  | cons c before ih =>
      obtain ⟨next, hs, hl, hn⟩ := step_of_advance h
      rw [List.cons_append, scan_cons_of_step hs hl, ih hn]

theorem cost_of_advance {limit : Nat} {s last : State} {before : List Char}
    (hs : s.cost ≤ limit) (h : advance limit s before = some last) : last.cost ≤ limit := by
  induction before generalizing s with
  | nil =>
      obtain rfl : s = last := by simpa [advance] using h
      exact hs
  | cons c before ih =>
      obtain ⟨next, -, hl, hn⟩ := step_of_advance h
      exact ih hl hn

/-! ### How a scan stops -/

/-- A scan stops at a step that fails, at the end of the text, or where its limit is exceeded. -/
inductive Halt (limit : Nat) (s : State) (text : List Char) : Stop → Prop where
  | refused {before rest : List Char} {c : Char} {last : State} {cause : Cause} :
      text = before ++ c :: rest → advance limit s before = some last →
      last.step c = .error cause → Halt limit s text ⟨cause, c :: rest⟩
  | ended {last : State} {cause : Cause} : advance limit s text = some last →
      last.finish = .error cause → Halt limit s text ⟨cause, []⟩
  | deep {rest : List Char} : limit < s.peak text → Halt limit s text ⟨.depth, rest⟩

/-- There are no other ways to stop. -/
theorem halt_of_scan {limit : Nat} {s : State} {text : List Char} {stop : Stop}
    (hs : s.cost ≤ limit) (h : scan limit s text = .error stop) : Halt limit s text stop := by
  induction text generalizing s with
  | nil =>
      rw [scan] at h
      cases hf : s.finish with
      | ok value => simp [hf] at h
      | error cause =>
          simp only [hf, Except.error.injEq] at h
          exact h ▸ .ended rfl hf
  | cons c rest ih =>
      cases hn : s.step c with
      | error cause =>
          rw [scan_cons_of_error hn, Except.error.injEq] at h
          have hstop : Halt limit s (c :: rest) ⟨cause, c :: rest⟩ :=
            .refused (List.nil_append _).symm rfl hn
          exact h ▸ hstop
      | ok next =>
          by_cases hl : next.cost ≤ limit
          · rw [scan_cons_of_step hn hl] at h
            cases ih hl h with
            | @refused before rest d last cause ht ha hd =>
                have hadvance : advance limit s (c :: before) = some last := by
                  rw [advance_cons_of_step hn hl, ha]
                exact .refused (by rw [ht]; rfl) hadvance hd
            | ended ha hf => exact .ended (by rw [advance_cons_of_step hn hl, ha]) hf
            | deep hp =>
                refine .deep (Nat.lt_of_lt_of_le hp ?_)
                rw [peak_cons_of_step hn]
                exact Nat.le_max_right _ _
          · have hd : limit < next.cost := Nat.not_le.1 hl
            rw [scan_cons_of_depth hn hd, Except.error.injEq] at h
            refine h ▸ .deep (Nat.lt_of_lt_of_le hd ?_)
            rw [peak_cons_of_step hn]
            exact Nat.le_trans (cost_le_peak next rest) (Nat.le_max_right _ _)

/-! ### Runs of digits and points -/

/-- The digits and points at the end of a text. -/
def lastRun (text : List Char) : List Char := (text.reverse.takeWhile isLiteralChar).reverse

theorem lastRun_concat (text : List Char) (c : Char) :
    lastRun (text ++ [c]) = if isLiteralChar c then lastRun text ++ [c] else [] := by
  cases hc : isLiteralChar c <;> simp [lastRun, hc]

/-- In front of its last run a text does not end in a digit or point. -/
theorem exists_before_lastRun (text : List Char) :
    ∃ before, text = before ++ lastRun text ∧
      (∀ c, before.getLast? = some c → isLiteralChar c = false) ∧
      ∀ c ∈ lastRun text, isLiteralChar c = true := by
  refine ⟨(text.reverse.dropWhile isLiteralChar).reverse, ?_, ?_, ?_⟩
  · rw [lastRun, ← List.reverse_append, List.takeWhile_append_dropWhile, List.reverse_reverse]
  · intro c hc
    have := List.head?_dropWhile_not isLiteralChar text.reverse
    rw [List.getLast?_reverse] at hc
    rw [hc] at this
    simpa using this
  · intro c hc
    exact List.all_eq_true.1 List.all_takeWhile c (by simpa [lastRun] using hc)

/-- The characters that have been read of a number, if one is being read. -/
def State.read? (s : State) : Option (List Char) :=
  match s.reading with
  | .literal _ read => some read
  | _ => none

/-- Behind a term no digit or point is passed. -/
theorem Transition.isLiteralChar_eq {sum : Double → Double} {value : Double}
    {groups : List Pending} {c : Char} {next : State}
    (h : Transition ⟨.term sum value, groups⟩ c next) : isLiteralChar c = false := by
  cases h with
  | spaceBehind => rfl
  | multiplied hc => rcases multiplicative_cases hc with ⟨rfl, -⟩ | ⟨rfl, -⟩ <;> rfl
  | added hc => rcases additive_cases hc with ⟨rfl, -⟩ | ⟨rfl, -⟩ <;> rfl
  | closed => rfl

/-- A character is read as part of a number, or ends the number. -/
theorem Transition.read_eq {s next : State} {c : Char} (h : Transition s c next) :
    next.read? = if isLiteralChar c then some (s.read?.getD [] ++ [c]) else none := by
  induction h with
  | space => rfl
  | plus => rfl
  | minus => rfl
  | opened => rfl
  | digit hc => rw [if_pos hc]; rfl
  | further hc => rw [if_pos hc]; rfl
  | ended hc _ _ ih => rwa [hc] at ih ⊢
  | spaceBehind => rfl
  | multiplied hc => rcases multiplicative_cases hc with ⟨rfl, -⟩ | ⟨rfl, -⟩ <;> rfl
  | added hc => rcases additive_cases hc with ⟨rfl, -⟩ | ⟨rfl, -⟩ <;> rfl
  | closed => rfl

/-- What a state behind a text has read of a number is the run of digits and points at the end of
the text, and a number is being read only if there is one. -/
structure State.Follows (s : State) (text : List Char) : Prop where
  run : s.read?.getD [] = lastRun text
  nonempty : s.read? ≠ some []

theorem State.Follows.step {s next : State} {text : List Char} {c : Char} (hs : s.Follows text)
    (h : s.step c = .ok next) : next.Follows (text ++ [c]) := by
  have hn := (step_eq_ok_iff.1 h).read_eq
  constructor
  · rw [hn, lastRun_concat, ← hs.run]
    split <;> rfl
  · rw [hn]
    split <;> simp

/-- A scan has read the digits and points at the end. -/
theorem follows_of_advance {limit : Nat} {s last : State} {done before : List Char}
    (hs : s.Follows done) (h : advance limit s before = some last) :
    last.Follows (done ++ before) := by
  induction before generalizing s done with
  | nil =>
      obtain rfl : s = last := by simpa [advance] using h
      rwa [List.append_nil]
  | cons c before ih =>
      obtain ⟨next, hn, -, ha⟩ := step_of_advance h
      simpa using ih (hs.step hn) ha

theorem follows_start : State.start.Follows [] := ⟨rfl, by simp [State.read?, State.start]⟩

/-! ### Runs that are no numbers -/

/-- No digit, or two points. -/
def Malformed (literal : List Char) : Prop :=
  (∀ c ∈ literal, c.isDigit = false) ∨ 2 ≤ literal.count '.'

theorem isDigit_or_point {c : Char} (h : isLiteralChar c = true) : c.isDigit = true ∨ c = '.' := by
  simpa [isLiteralChar] using h

/-- A run of digits and points that denotes nothing has no digit or two points. -/
theorem malformed_of_ofLiteral? {literal : List Char}
    (hl : ∀ c ∈ literal, isLiteralChar c = true) (h : Decimal.ofLiteral? literal = none) :
    Malformed literal := by
  by_cases hcount : 2 ≤ literal.count '.'
  · exact .inr hcount
  refine .inl fun c hc => Bool.eq_false_iff.2 fun hd => ?_
  -- With a digit and one point at most the run would be a numeral.
  obtain ⟨decimal, hn⟩ : ∃ decimal, Numeral literal decimal := by
    by_cases hp : '.' ∈ literal
    · obtain ⟨digits, fraction, rfl⟩ := List.append_of_mem hp
      rw [List.count_append, List.count_cons_self] at hcount
      have hdigits : ∀ e ∈ digits, e.isDigit = true := fun e he => by
        refine (isDigit_or_point (hl e (by simp [he]))).resolve_right ?_
        rintro rfl
        exact hcount (by have := List.count_pos_iff.2 he; omega)
      have hfraction : ∀ e ∈ fraction, e.isDigit = true := fun e he => by
        refine (isDigit_or_point (hl e (by simp [he]))).resolve_right ?_
        rintro rfl
        exact hcount (by have := List.count_pos_iff.2 he; omega)
      refine ⟨_, .pointed hdigits hfraction ?_⟩
      rintro hnil
      obtain ⟨rfl, rfl⟩ := List.append_eq_nil_iff.1 hnil
      obtain rfl : c = '.' := by simpa using hc
      exact absurd hd (by decide)
    · refine ⟨_, .whole (fun e he => ?_) (List.ne_nil_of_mem hc)⟩
      refine (isDigit_or_point (hl e he)).resolve_right ?_
      rintro rfl
      exact hp he
  rw [ofLiteral?_eq_some_iff.2 hn] at h
  simp at h

/-! ### What a fault says -/

/-- **What a fault says about the text.** -/
def Fault.Explains (fault : Fault) (text : List Char) : Prop :=
  match fault.cause with
  | .character c =>
      text[fault.position]? = some c ∧ c ≠ ' ' ∧
      (∀ more, evaluateText (text.take (fault.position + 1) ++ more) = .error fault) ∧
      ((∃ value, evaluateText (text.take fault.position) = .ok value) ∨
        (∃ place, evaluateText (text.take fault.position) = .error ⟨.endOfText, place⟩) ∧
          ∃ value, evaluateText (text.take fault.position ++ ['1']) = .ok value)
  | .endOfText => ∃ value, evaluateText (text ++ ['1']) = .ok value
  | .number literal =>
      ∃ before after, text = before ++ literal ++ after ∧
        literal ≠ [] ∧ (∀ c ∈ literal, isLiteralChar c = true) ∧
        (∀ c, before.getLast? = some c → isLiteralChar c = false) ∧
        (∀ c, after.head? = some c → isLiteralChar c = false) ∧ Malformed literal ∧
        ∀ more : List Char, (∀ c, more.head? = some c → isLiteralChar c = false) →
          evaluateText (before ++ literal ++ more) = .error fault
  | .depth => nestingLimit < nestingCost text

/-- Where an operand is needed the digit one completes the text. -/
theorem evaluateText_concat_one {before : List Char} {s : State} {p : Pending}
    (h : advance nestingLimit .start before = some s) (hp : s.reading = .operand p) :
    evaluateText before = .error ⟨.endOfText, before.length⟩ ∧
      ∃ value, evaluateText (before ++ ['1']) = .ok value := by
  obtain ⟨reading, groups⟩ := s
  obtain rfl : reading = .operand p := hp
  have hl : p.signs + groupsCost groups ≤ nestingLimit := cost_of_advance (Nat.zero_le _) h
  constructor
  · have hs := scan_append h []
    rw [List.append_nil] at hs
    rw [evaluateText_of_scan (hs.trans rfl)]
    simp [Stop.fault]
  · have hs := scan_append h ['1']
    have hstep : (State.mk (.operand p) groups).step '1' = .ok ⟨.literal p ['1'], groups⟩ := rfl
    rw [scan_cons_of_step hstep hl] at hs
    exact ⟨_, evaluateText_of_scan_ok (hs.trans rfl)⟩

/-- A character that is refused. -/
theorem explains_character {before rest : List Char} {c : Char} {s : State}
    (h : advance nestingLimit .start before = some s) (hc : s.step c = .error (.character c)) :
    Fault.Explains ⟨.character c, before.length⟩ (before ++ c :: rest) := by
  have htake : (before ++ c :: rest).take before.length = before := List.take_left
  have htake' : (before ++ c :: rest).take (before.length + 1) = before ++ [c] := by
    rw [List.take_length_add_append]
    rfl
  have hmore (more : List Char) :
      evaluateText (before ++ c :: more) = .error ⟨.character c, before.length⟩ := by
    rw [evaluateText_of_scan ((scan_append h _).trans (scan_cons_of_error hc more)), fault_append]
  rcases step_error hc with ⟨_, _, _, _, _, hcause⟩ | ⟨-, hs, hreading⟩
  · simp at hcause
  · unfold Fault.Explains
    dsimp only
    rw [htake, htake']
    refine ⟨by simp, hs, fun more => by simpa using hmore more, ?_⟩
    rcases hreading with ⟨p, hp⟩ | ⟨value, hf⟩
    · obtain ⟨he, ho⟩ := evaluateText_concat_one h hp
      exact .inr ⟨⟨_, he⟩, ho⟩
    · have hscan := scan_append h []
      rw [List.append_nil, scan, hf] at hscan
      exact .inl ⟨value, evaluateText_of_scan_ok hscan⟩

/-- A run of digits and points that is refused, whatever follows it. -/
theorem evaluateText_malformed {before more : List Char} {s : State} {p : Pending}
    {read : List Char} (h : advance nestingLimit .start before = some s)
    (hs : s.reading = .literal p read) (hd : Decimal.ofLiteral? read = none)
    (hm : ∀ c, more.head? = some c → isLiteralChar c = false) :
    evaluateText (before ++ more) = .error ⟨.number read, before.length⟩ := by
  obtain ⟨reading, groups⟩ := s
  obtain rfl : reading = .literal p read := hs
  have hv : literalValue read = .error (.number read) := by rw [literalValue, hd]
  have hstop : scan nestingLimit ⟨.literal p read, groups⟩ more = .error ⟨.number read, more⟩ := by
    cases more with
    | nil => simp only [scan, State.finish, hv]
    | cons c more =>
        have hc : isLiteralChar c = false := hm c rfl
        exact scan_cons_of_error (by simp [State.step, hc, hv]) more
  rw [evaluateText_of_scan ((scan_append h more).trans hstop), fault_append]

theorem explains_number {before rest : List Char} {s : State} {p : Pending} {read : List Char}
    (h : advance nestingLimit .start before = some s) (hs : s.reading = .literal p read)
    (hd : Decimal.ofLiteral? read = none)
    (hrest : ∀ c, rest.head? = some c → isLiteralChar c = false) :
    Fault.Explains ⟨.number read, before.length⟩ (before ++ rest) := by
  have hfollows := follows_of_advance follows_start h
  have hread : s.read? = some read := by rw [State.read?, hs]
  have hrun : read = lastRun before := by simpa [hread] using hfollows.run
  obtain ⟨front, hfront, hlast, hl⟩ := exists_before_lastRun before
  rw [← hrun] at hfront hl
  refine ⟨front, rest, by rw [← hfront], ?_, hl, hlast, hrest, malformed_of_ofLiteral? hl hd, ?_⟩
  · rintro rfl
    exact hfollows.nonempty hread
  · intro more hm
    rw [← hfront]
    exact evaluateText_malformed h hs hd hm

/-- **Every text has a value or is refused at its first fault.** -/
theorem evaluateText_value_or_first_fault (text : List Char) :
    (∃ value, evaluateText text = .ok value) ∨
      ∃ fault, evaluateText text = .error fault ∧ fault.Explains text := by
  cases h : scan nestingLimit .start text with
  | ok value => exact .inl ⟨value, evaluateText_of_scan_ok h⟩
  | error stop =>
      refine .inr ⟨stop.fault text, evaluateText_of_scan h, ?_⟩
      cases halt_of_scan (Nat.zero_le _) h with
      | @refused before rest c s cause ht ha hc =>
          -- The character is refused by itself, or because it ends a malformed number.
          subst ht
          rw [fault_append]
          rcases step_error hc with ⟨p, read, hs, hl, hd, rfl⟩ | ⟨rfl, -⟩
          · exact explains_number ha hs hd (by simpa using hl)
          · exact explains_character ha hc
      | @ended s cause ha hf =>
          rcases finish_error hf with ⟨p, read, hs, hd, rfl⟩ | ⟨⟨p, hs⟩, rfl⟩
          · have he : Fault.Explains ⟨.number read, text.length⟩ (text ++ []) :=
              explains_number ha hs hd (by simp)
            simpa [Stop.fault] using he
          · exact (evaluateText_concat_one ha hs).2
      | deep hp => exact hp

end Calculator.Expression
