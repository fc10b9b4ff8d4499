/-
**The nesting cost, read off the text.**

Behind a beginning of a text three is due for each parenthesis that has been opened and not yet
closed, and one for each sign whose operand is not yet complete.  Both can be seen in the beginning
itself, without reading it: a sign has an operand of its own where an operand is needed, and the
operand is not complete while there is nothing but further signs, or a number that may go on, or a
parenthesis that has not been closed.  The nesting cost of a text is the highest cost behind a
beginning without a syntax error, and a beginning without a syntax error is one that can be
completed.

A scan keeps the same account in its state.  For each sign the state knows how far its operand has
come, and one more character changes that in the same way for the sign in the text and for the sign
in the state.

Main definitions:

* `Calculator.Expression.needsOperand` — whether an operand is needed behind a text;
* `Calculator.Expression.isIncomplete` — whether the operand that a text begins with may go on;
* `Calculator.Expression.waitingSigns`, `Calculator.Expression.costBehind` — **the cost behind a
  text**;
* `Calculator.Expression.Viable` — a beginning without a syntax error;
* `Calculator.Expression.Progress`, `Calculator.Expression.State.progress` — how far the operands of
  the waiting signs have come.

Main results:

* `Calculator.Expression.Path.accounts`, `Calculator.Expression.Path.costBehind_eq` — the state
  keeps the account of the text;
* `Calculator.Expression.lt_nestingCost_iff` — **the nesting cost is the highest cost behind a
  beginning without a syntax error**;
* `Calculator.evaluate_depth_iff` — **when nesting is too deep**.
-/

import Mathlib.Data.List.Infix
import Calculator.Proofs.Expression.Closing
import Calculator.Proofs.Expression.Evaluation
import Calculator.Proofs.Expression.Typing

set_option relaxedAutoImplicit false
set_option autoImplicit false

namespace Calculator

namespace Expression

/-! ### What is due behind a text -/

/-- The text with its spaces deleted. -/
def unspaced (text : List Char) : List Char := text.filter (· ≠ ' ')

/-- An operand is needed behind the text: nothing stands there yet, or an operator or an opening
parenthesis does. -/
def needsOperand (text : List Char) : Bool :=
  (unspaced text).getLast?.all fun c => isOperator c || c == '('

/-- Plus and minus can be signs. -/
def isSign (c : Char) : Bool := c == '+' || c == '-'

/-- At this place of the text stands a sign with an operand of its own. -/
def isUnarySign (text : List Char) (place : Nat) : Bool :=
  text[place]?.any isSign && needsOperand (text.take place)

/-- What stands behind each sign with an operand of its own. -/
def behindSigns (text : List Char) : List (List Char) :=
  ((List.range text.length).filter (isUnarySign text)).map fun place => text.drop (place + 1)

/-- The text does not close the group that it stands in. -/
def staysOpen (text : List Char) : Bool :=
  text.inits.all fun part => part.count ')' ≤ part.count '('

/-- The operand that the text begins with is not complete: there are only spaces and signs so far,
or a number that may go on, or a parenthesis that has not been closed. -/
def isIncomplete : List Char → Bool
  | [] => true
  | c :: rest =>
      if c == ' ' || isSign c then isIncomplete rest
      else if c == '(' then staysOpen rest
      else (c :: rest).all isLiteralChar

/-- The number of signs whose operand is not complete. -/
def waitingSigns (text : List Char) : Nat := (behindSigns text).countP isIncomplete

/-- **The cost behind a text**: three for each open parenthesis and one for each waiting sign. -/
def costBehind (text : List Char) : Nat :=
  3 * (text.count '(' - text.count ')') + waitingSigns text

/-- There is no syntax error so far: the text can be completed. -/
def Viable (text : List Char) : Prop := ∃ more value, Sentence (text ++ more) value

/-! ### Deleted spaces -/

theorem unspaced_append (before rest : List Char) :
    unspaced (before ++ rest) = unspaced before ++ unspaced rest :=
  List.filter_append ..

theorem unspaced_cons {c : Char} (hc : c ≠ ' ') (text : List Char) :
    unspaced (c :: text) = c :: unspaced text := by
  simp [unspaced, hc]

/-! ### One character more -/

theorem unspaced_concat (text : List Char) (c : Char) :
    unspaced (text ++ [c]) = if c = ' ' then unspaced text else unspaced text ++ [c] := by
  by_cases hc : c = ' '
  · rw [if_pos hc, unspaced_append, hc]
    exact List.append_nil _
  · rw [if_neg hc, unspaced_append, unspaced_cons hc]
    rfl

theorem needsOperand_concat (text : List Char) (c : Char) :
    needsOperand (text ++ [c]) = if c = ' ' then needsOperand text else isOperator c || c == '(' := by
  unfold needsOperand
  rw [unspaced_concat]
  by_cases hc : c = ' ' <;> simp [hc]

/-- The signs in a text that is one character longer. -/
theorem behindSigns_concat (text : List Char) (c : Char) :
    behindSigns (text ++ [c]) =
      (behindSigns text).map (· ++ [c]) ++
        if isSign c && needsOperand text then [[]] else [] := by
  have hbefore (place : Nat) (hp : place < text.length) :
      isUnarySign (text ++ [c]) place = isUnarySign text place := by
    rw [isUnarySign, isUnarySign, List.getElem?_append_left hp,
      List.take_append_of_le_length (Nat.le_of_lt hp)]
  have hfilter : (List.range text.length).filter (isUnarySign (text ++ [c])) =
      (List.range text.length).filter (isUnarySign text) :=
    List.filter_congr fun place hp => hbefore place (List.mem_range.1 hp)
  have hlast : isUnarySign (text ++ [c]) text.length = (isSign c && needsOperand text) := by
    simp [isUnarySign]
  rw [behindSigns, List.length_append, List.length_singleton, List.range_succ, List.filter_append,
    hfilter, List.map_append, behindSigns, List.map_map]
  congr 1
  · refine List.map_congr_left fun place hp => ?_
    have hlt := List.mem_range.1 (List.mem_filter.1 hp).1
    exact List.drop_append_of_le_length hlt
  · rw [List.filter_singleton, hlast]
    cases isSign c && needsOperand text with
    | true => simp
    | false => rfl

/-! ### How far an operand has come -/

/-- How far the operand of a waiting sign has come. -/
inductive Progress where
  /-- Only spaces and signs so far. -/
  | nothing
  /-- A number that may go on. -/
  | literal
  /-- An open parenthesis, and in it so many further ones. -/
  | group (inside : Nat)

/-- The progress with one character more, unless the operand is complete then. -/
def Progress.after (c : Char) : Progress → Option Progress
  | .nothing =>
      if c == ' ' || isSign c then some .nothing
      else if c == '(' then some (.group 0)
      else if isLiteralChar c then some .literal
      else none
  | .literal => if isLiteralChar c then some .literal else none
  | .group inside =>
      if c == '(' then some (.group (inside + 1))
      else if c == ')' then
        match inside with
        | 0 => none
        | inside + 1 => some (.group inside)
      else some (.group inside)

/-- The progress along a text. -/
def Progress.along (start : Progress) (text : List Char) : Option Progress :=
  text.foldlM (fun progress c => progress.after c) start

theorem Progress.along_cons (start : Progress) (c : Char) (text : List Char) :
    start.along (c :: text) = (start.after c).bind fun next => next.along text := rfl

theorem Progress.along_concat (start : Progress) (text : List Char) (c : Char) :
    start.along (text ++ [c]) = (start.along text).bind (Progress.after c) := by
  simp [Progress.along, List.foldlM_append]

theorem isSome_along_literal (text : List Char) :
    (Progress.literal.along text).isSome = text.all isLiteralChar := by
  induction text with
  | nil => rfl
  | cons c text ih =>
      rw [Progress.along_cons, Progress.after, List.all_cons]
      cases isLiteralChar c with
      | true => simpa using ih
      | false => rfl

/-- A group stays open as long as no beginning of the text has closed it, and with it the groups that
are open inside. -/
theorem isSome_along_group (inside : Nat) (text : List Char) :
    ((Progress.group inside).along text).isSome = true ↔
      ∀ part, part <+: text → part.count ')' ≤ part.count '(' + inside := by
  induction text generalizing inside with
  | nil => simp [Progress.along]
  | cons c text ih =>
      have hparts (P : List Char → Prop) :
          (∀ part, part <+: c :: text → P part) ↔ P [] ∧ ∀ part, part <+: text → P (c :: part) := by
        simp only [List.prefix_cons_iff]
        constructor
        · intro h
          exact ⟨h [] (.inl rfl), fun part hp => h _ (.inr ⟨part, rfl, hp⟩)⟩
        · rintro ⟨hnil, hcons⟩ part (rfl | ⟨rest, rfl, hr⟩)
          · exact hnil
          · exact hcons rest hr
      rw [Progress.along_cons, hparts]
      by_cases ho : c = '('
      · subst ho
        have hafter : (Progress.group inside).after '(' = some (.group (inside + 1)) := rfl
        rw [hafter, Option.bind_some, ih]
        simp [Nat.add_assoc, Nat.add_comm 1]
      by_cases hc : c = ')'
      · subst hc
        cases inside with
        | zero =>
            have hafter : (Progress.group 0).after ')' = none := rfl
            rw [hafter]
            simp only [Option.bind_none, Option.isSome_none, Bool.false_eq_true, false_iff]
            intro h
            exact absurd (h.2 [] List.nil_prefix) (by decide)
        | succ inside =>
            have hafter : (Progress.group (inside + 1)).after ')' = some (.group inside) := rfl
            rw [hafter, Option.bind_some, ih]
            simp [← Nat.add_assoc]
      · have hafter : (Progress.group inside).after c = some (.group inside) := by
          simp [Progress.after, ho, hc]
        rw [hafter, Option.bind_some, ih]
        simp [ho, hc]

/-- An operand is not complete as long as there is progress along it. -/
theorem isIncomplete_eq (text : List Char) :
    isIncomplete text = (Progress.nothing.along text).isSome := by
  induction text with
  | nil => rfl
  | cons c text ih =>
      rw [isIncomplete, Progress.along_cons, Progress.after]
      by_cases hs : (c == ' ' || isSign c) = true
      · rw [if_pos hs, if_pos hs, ih]
        rfl
      rw [if_neg hs, if_neg hs]
      by_cases ho : (c == '(') = true
      · rw [if_pos ho, if_pos ho, Option.bind_some, Bool.eq_iff_iff, isSome_along_group, staysOpen]
        simp [List.mem_inits]
      rw [if_neg ho, if_neg ho]
      cases hl : isLiteralChar c with
      | true => simp [hl, isSome_along_literal]
      | false => simp [hl]

/-! ### The account of a scan -/

/-- The progress of the signs that wait in front of open groups, the innermost group first; the
signs in front of the outermost group come first. -/
def groupProgress : Nat → List Pending → List Progress
  | _, [] => []
  | inside, p :: groups =>
      groupProgress (inside + 1) groups ++ List.replicate p.signs (.group inside)

/-- The progress of the signs that wait inside the innermost group. -/
def Reading.progress : Reading → List Progress
  | .operand p => List.replicate p.signs .nothing
  | .literal p _ => List.replicate p.signs .literal
  | .term _ _ => []

/-- **How far the operands of the waiting signs have come**, sign by sign from left to right. -/
def State.progress (s : State) : List Progress := groupProgress 0 s.groups ++ s.reading.progress

/-- An operand is needed in this state. -/
def State.needsOperand (s : State) : Bool :=
  match s.reading with
  | .operand _ => true
  | _ => false

/-- Where the text may end none is needed. -/
theorem needsOperand_of_finish {s : State} {value : Double} (h : s.finish = .ok value) :
    s.needsOperand = false := by
  obtain ⟨reading, groups⟩ := s
  cases reading with
  | operand p => simp [State.finish] at h
  | literal p read => rfl
  | term sum value => rfl

theorem length_groupProgress (inside : Nat) (groups : List Pending) :
    groupsCost groups = 3 * groups.length + (groupProgress inside groups).length := by
  induction groups generalizing inside with
  | nil => rfl
  | cons p groups ih =>
      rw [groupsCost, groupProgress, List.length_append, List.length_replicate, List.length_cons,
        ih (inside + 1)]
      omega

/-- The cost of a state, from its groups and its account. -/
theorem cost_eq (s : State) : s.cost = 3 * s.groups.length + s.progress.length := by
  obtain ⟨reading, groups⟩ := s
  rw [State.cost, State.progress, List.length_append, length_groupProgress 0]
  cases reading <;> simp [Reading.signs, Reading.progress] <;> omega

/-- What an opening parenthesis does to the signs in front of open groups. -/
theorem groupProgress_opened (inside : Nat) (groups : List Pending) :
    (groupProgress inside groups).filterMap (Progress.after '(') =
      groupProgress (inside + 1) groups := by
  induction groups generalizing inside with
  | nil => rfl
  | cons p groups ih =>
      rw [groupProgress, groupProgress, List.filterMap_append, ih, List.filterMap_replicate]
      rfl

/-- What a closing parenthesis inside another group does to them. -/
theorem groupProgress_closed (inside : Nat) (groups : List Pending) :
    (groupProgress (inside + 1) groups).filterMap (Progress.after ')') =
      groupProgress inside groups := by
  induction groups generalizing inside with
  | nil => rfl
  | cons p groups ih =>
      rw [groupProgress, groupProgress, List.filterMap_append, ih, List.filterMap_replicate]
      rfl

/-- What any other character does to them. -/
theorem groupProgress_other {c : Char} (ho : c ≠ '(') (hc : c ≠ ')') (inside : Nat)
    (groups : List Pending) :
    (groupProgress inside groups).filterMap (Progress.after c) = groupProgress inside groups := by
  induction groups generalizing inside with
  | nil => rfl
  | cons p groups ih =>
      have hafter : (Progress.group inside).after c = some (.group inside) := by
        simp [Progress.after, ho, hc]
      rw [groupProgress, List.filterMap_append, ih, List.filterMap_replicate, hafter]

/-- Where no group is opened or closed only the innermost signs count. -/
theorem progress_of_reading {reading reading' : Reading} {groups : List Pending} {c : Char}
    {further : List Progress} (ho : c ≠ '(') (hc : c ≠ ')')
    (h : reading'.progress = reading.progress.filterMap (Progress.after c) ++ further) :
    (State.mk reading' groups).progress =
      (State.mk reading groups).progress.filterMap (Progress.after c) ++ further := by
  simp only [State.progress]
  rw [List.filterMap_append, groupProgress_other ho hc, h, List.append_assoc]

/-- **One character changes the account** as it changes the operands, and a sign where an operand is
needed is added to it. -/
theorem Transition.progress_eq {s next : State} {c : Char} (h : Transition s c next) :
    next.progress = s.progress.filterMap (Progress.after c) ++
      if isSign c && s.needsOperand then [.nothing] else [] := by
  induction h with
  | @space p groups =>
      refine progress_of_reading (by decide) (by decide) ?_
      rw [Reading.progress, List.filterMap_replicate]
      exact (List.append_nil _).symm
  | @plus p groups =>
      refine progress_of_reading (by decide) (by decide) ?_
      rw [Reading.progress, Reading.progress, List.filterMap_replicate]
      exact List.replicate_succ'
  | @minus p groups =>
      refine progress_of_reading (by decide) (by decide) ?_
      rw [Reading.progress, Reading.progress, List.filterMap_replicate]
      exact List.replicate_succ'
  | @opened p groups =>
      -- The signs in front of the parenthesis now wait for the group.
      simp only [State.progress]
      rw [List.filterMap_append, groupProgress_opened, Reading.progress, Reading.progress,
        List.filterMap_replicate]
      rfl
  | @digit p groups c hc =>
      obtain ⟨hs, hp, hm, hg⟩ := ne_of_isLiteralChar hc
      have hsign : isSign c = false := by simp [isSign, hp, hm]
      have hafter : Progress.nothing.after c = some .literal := by
        simp [Progress.after, hs, hsign, hg, hc]
      refine progress_of_reading hg (ne_parenthesis_of_isLiteralChar hc).2 ?_
      rw [Reading.progress, Reading.progress, List.filterMap_replicate, hafter, hsign]
      exact (List.append_nil _).symm
  | @further p groups read c hc =>
      obtain ⟨-, hp, hm, hg⟩ := ne_of_isLiteralChar hc
      have hsign : isSign c = false := by simp [isSign, hp, hm]
      have hafter : Progress.literal.after c = some .literal := by simp [Progress.after, hc]
      refine progress_of_reading hg (ne_parenthesis_of_isLiteralChar hc).2 ?_
      rw [Reading.progress, Reading.progress, List.filterMap_replicate, hafter, hsign]
      exact (List.append_nil _).symm
  | @ended p groups read value c next hc _ _ ih =>
      -- The operands that the number completes are complete.
      have hafter : Progress.literal.after c = none := by simp [Progress.after, hc]
      rw [ih]
      simp only [State.progress]
      rw [List.filterMap_append, List.filterMap_append, Reading.progress, List.filterMap_replicate,
        hafter]
      rfl
  | spaceBehind => exact progress_of_reading (by decide) (by decide) rfl
  | @multiplied sum value groups c operation hc =>
      obtain ⟨ho, hp, hs⟩ : c ≠ '(' ∧ c ≠ ')' ∧ isSign c = false := by
        rcases multiplicative_cases hc with ⟨rfl, -⟩ | ⟨rfl, -⟩ <;> decide
      refine progress_of_reading ho hp ?_
      rw [hs]
      rfl
  | @added sum value groups c operation hc =>
      obtain ⟨ho, hp⟩ : c ≠ '(' ∧ c ≠ ')' := by
        rcases additive_cases hc with ⟨rfl, -⟩ | ⟨rfl, -⟩ <;> decide
      refine progress_of_reading ho hp ?_
      rw [State.needsOperand, Bool.and_false]
      rfl
  | @closed sum value p groups =>
      -- The signs in front of the group have their operand.
      simp only [State.progress]
      rw [groupProgress, List.append_assoc, List.filterMap_append, groupProgress_closed,
        List.filterMap_append, List.filterMap_replicate]
      exact (List.append_nil (groupProgress 0 groups ++ [])).symm

/-! ### The state keeps the account of the text -/

/-- Behind a number no operand is needed. -/
theorem needsOperand_literal {c : Char} (h : isLiteralChar c = true) (text : List Char) :
    needsOperand (text ++ [c]) = false := by
  obtain ⟨hs, -, -, hg⟩ := ne_of_isLiteralChar h
  rw [needsOperand_concat, if_neg hs, (plain_of_isLiteralChar h).2]
  simpa using hg

/-- Behind an operator one is needed. -/
theorem needsOperand_operator {c : Char} (h : isOperator c = true) (text : List Char) :
    needsOperand (text ++ [c]) = true := by
  have hs : c ≠ ' ' := by
    rintro rfl
    exact absurd h (by decide)
  rw [needsOperand_concat, if_neg hs, h, Bool.true_or]

/-- Whether an operand is needed can be seen in the text. -/
theorem Transition.needsOperand_eq {s next : State} {c : Char} (h : Transition s c next)
    {text : List Char} (hs : Expression.needsOperand text = s.needsOperand) :
    Expression.needsOperand (text ++ [c]) = next.needsOperand := by
  induction h with
  | space => rwa [needsOperand_concat]
  | plus => exact needsOperand_operator rfl text
  | minus => exact needsOperand_operator rfl text
  | opened => exact needsOperand_concat text '('
  | digit hc => exact needsOperand_literal hc text
  | further hc => exact needsOperand_literal hc text
  | ended _ _ _ ih => exact ih hs
  | spaceBehind => rwa [needsOperand_concat]
  | multiplied hc =>
      refine needsOperand_operator ?_ text
      rcases multiplicative_cases hc with ⟨rfl, -⟩ | ⟨rfl, -⟩ <;> rfl
  | added hc =>
      refine needsOperand_operator ?_ text
      rcases additive_cases hc with ⟨rfl, -⟩ | ⟨rfl, -⟩ <;> rfl
  | closed => exact needsOperand_concat text ')'

/-- The state says of a text whether an operand is needed behind it, and how far the operands of its
signs have come. -/
structure State.Accounts (s : State) (text : List Char) : Prop where
  operand : Expression.needsOperand text = s.needsOperand
  progress : (behindSigns text).filterMap Progress.nothing.along = s.progress

theorem accounts_start : State.start.Accounts [] := ⟨rfl, rfl⟩

theorem State.Accounts.step {s next : State} {text : List Char} {c : Char} (hs : s.Accounts text)
    (h : Transition s c next) : next.Accounts (text ++ [c]) where
  operand := h.needsOperand_eq hs.operand
  progress := by
    have hfurther : (fun behind : List Char => Progress.nothing.along (behind ++ [c])) =
        fun behind => (Progress.nothing.along behind).bind (Progress.after c) :=
      funext fun behind => Progress.along_concat _ behind c
    rw [behindSigns_concat, List.filterMap_append, List.filterMap_map, h.progress_eq, ← hs.progress,
      ← hs.operand, List.filterMap_filterMap]
    congr 1
    · exact congrArg (fun f => (behindSigns text).filterMap f) hfurther
    · split
      · rfl
      · rfl

/-- A scan keeps the account of the text. -/
theorem Path.accounts {last : State} {text : List Char} (h : Path .start text last) :
    last.Accounts text :=
  h.invariant State.Accounts.step accounts_start

/-- **The cost of the state is the cost behind the text.** -/
theorem Path.costBehind_eq {last : State} {text : List Char} (h : Path .start text last) :
    costBehind text = last.cost := by
  have hgroups := h.length_groups
  rw [State.start, List.length_nil] at hgroups
  have hwaiting : waitingSigns text = last.progress.length := by
    rw [← h.accounts.progress, List.length_filterMap_eq_countP, waitingSigns]
    exact List.countP_congr fun behind _ => by rw [isIncomplete_eq]
  rw [costBehind, cost_eq, hwaiting]
  omega

/-- Two parentheses are open, and three signs wait: the second minus sign joins two terms. -/
example : costBehind "-(2--(+3".toList = 9 := by decide +kernel

/-! ### Beginnings without a syntax error -/

/-- A sentence is a path to a state in which the text may end. -/
theorem sentence_iff_path {text : List Char} {value : Double} :
    Sentence text value ↔ ∃ last, Path .start text last ∧ last.finish = .ok value := by
  constructor
  · intro h
    obtain ⟨limit, hl⟩ := h.eventually_scan.exists
    exact exists_path_of_scan hl
  · intro h
    have hscan := (scan_eq_ok_iff (Nat.zero_le _)).2 ⟨Nat.le_refl (State.start.peak text), h⟩
    rw [scan_start] at hscan
    cases hr : expression (State.start.peak text) text with
    | error stop => simp [hr] at hscan
    | ok outcome =>
        obtain ⟨result, rest⟩ := outcome
        cases rest with
        | nil =>
            obtain rfl : result = value := by simpa [hr] using hscan
            exact sentence_of_expression hr
        | cons c rest => simp [hr] at hscan

/-- A path leads along a text that can be completed. -/
theorem Viable.exists_path {text : List Char} (h : Viable text) :
    ∃ last, Path .start text last := by
  obtain ⟨more, value, hs⟩ := h
  obtain ⟨last, hp, -⟩ := sentence_iff_path.1 hs
  obtain ⟨middle, hm, -⟩ := hp.exists_middle
  exact ⟨middle, hm⟩

/-- Where an operand is needed a text can be completed. -/
theorem Path.viable {last : State} {text : List Char} (h : Path .start text last)
    (hn : last.needsOperand = true) : Viable text := by
  obtain ⟨reading, groups⟩ := last
  cases reading with
  | operand p =>
      have hdigit : Transition ⟨.operand p, groups⟩ '1' ⟨.literal p ['1'], groups⟩ := .digit rfl
      exact ⟨['1'], _, sentence_iff_path.2 ⟨_, h.concat hdigit, rfl⟩⟩
  | literal p read => simp [State.needsOperand] at hn
  | term sum value => simp [State.needsOperand] at hn

/-! ### The highest cost -/

/-- The cost rises only with a sign or a parenthesis, behind which an operand is needed. -/
theorem Transition.cost_le {s next : State} {c : Char} (h : Transition s c next) :
    next.cost ≤ s.cost ∨ next.needsOperand = true := by
  induction h with
  | space => exact .inr rfl
  | plus => exact .inr rfl
  | minus => exact .inr rfl
  | opened => exact .inr rfl
  | digit _ => exact .inl (by simp)
  | further _ => exact .inl (by simp)
  | ended _ _ _ ih =>
      refine ih.imp_left fun hl => Nat.le_trans hl ?_
      simp
  | spaceBehind => exact .inl (Nat.le_refl _)
  | multiplied _ => exact .inr rfl
  | added _ => exact .inr rfl
  | closed =>
      refine .inl ?_
      rw [State.cost_fill, State.cost_term, groupsCost]
      omega

/-- A limit that is exceeded is exceeded behind some beginning, where an operand is needed. -/
theorem exists_path_of_lt_peak {limit : Nat} {s : State} {text : List Char} (hs : s.cost ≤ limit)
    (h : limit < s.peak text) :
    ∃ before last, before <+: text ∧ Path s before last ∧ last.needsOperand = true ∧
      limit < last.cost := by
  induction text generalizing s with
  | nil => exact absurd h (Nat.not_lt.2 hs)
  | cons c rest ih =>
      cases hn : s.step c with
      | error cause =>
          rw [peak_cons_of_error hn] at h
          exact absurd h (Nat.not_lt.2 hs)
      | ok next =>
          have hc := step_eq_ok_iff.1 hn
          by_cases hl : next.cost ≤ limit
          · rw [peak_cons_of_step hn] at h
            obtain ⟨before, last, hb, hp, ho, hlast⟩ := ih hl (by omega)
            exact ⟨c :: before, last, (List.prefix_cons_inj c).2 hb, .cons hc hp, ho, hlast⟩
          · have ho := hc.cost_le.resolve_left (by omega)
            exact ⟨[c], next, ⟨rest, rfl⟩, .cons hc .nil, ho, Nat.not_le.1 hl⟩

/-- **The nesting cost is the highest cost behind a beginning without a syntax error.** -/
theorem lt_nestingCost_iff (limit : Nat) (text : List Char) :
    limit < nestingCost text ↔
      ∃ before, before <+: text ∧ Viable before ∧ limit < costBehind before := by
  constructor
  · intro h
    obtain ⟨before, last, hb, hp, ho, hl⟩ := exists_path_of_lt_peak (Nat.zero_le _) h
    exact ⟨before, hb, hp.viable ho, by rwa [hp.costBehind_eq]⟩
  · rintro ⟨before, ⟨rest, rfl⟩, hv, hl⟩
    obtain ⟨last, hp⟩ := hv.exists_path
    rw [hp.costBehind_eq] at hl
    rw [nestingCost, peak_append hp]
    exact Nat.lt_of_lt_of_le hl (Nat.le_trans hp.cost_le_peak (Nat.le_max_left _ _))

/-! ### Too deep -/

/-- A scan that has stopped for depth does not look at what follows. -/
theorem scan_depth_append {limit : Nat} {s : State} {before rest : List Char}
    (h : scan limit s before = .error ⟨.depth, rest⟩) (more : List Char) :
    scan limit s (before ++ more) = .error ⟨.depth, rest ++ more⟩ := by
  induction before generalizing s with
  | nil =>
      rw [scan] at h
      cases hf : s.finish with
      | ok value => simp [hf] at h
      | error cause =>
          simp only [hf, Except.error.injEq, Stop.mk.injEq] at h
          exact absurd h.1 (ne_depth_of_finish hf)
  | cons c before ih =>
      cases hn : s.step c with
      | error cause =>
          rw [scan_cons_of_error hn] at h
          simp only [Except.error.injEq, Stop.mk.injEq] at h
          exact absurd h.1 (ne_depth_of_step hn)
      | ok next =>
          rw [List.cons_append]
          by_cases hl : next.cost ≤ limit
          · rw [scan_cons_of_step hn hl] at h ⊢
            exact ih h
          · rw [scan_cons_of_depth hn (Nat.not_le.1 hl)] at h ⊢
            cases h
            rfl

/-- A text is refused for its depth exactly if its nesting cost exceeds the limit. -/
theorem evaluateText_depth_iff (text : List Char) :
    (∃ place, evaluateText text = .error ⟨.depth, place⟩) ↔ nestingLimit < nestingCost text := by
  rw [nestingCost, ← scan_depth_iff (Nat.zero_le _)]
  cases hs : scan nestingLimit .start text with
  | ok value => simp [evaluateText_of_scan_ok hs]
  | error stop =>
      obtain ⟨cause, rest⟩ := stop
      simp [evaluateText_of_scan hs, Stop.fault]

/-- What is too deep is refused at the same place, whatever follows. -/
theorem exists_evaluateText_append_depth {before : List Char} (hv : Viable before)
    (hl : nestingLimit < costBehind before) :
    ∃ place, ∀ more, evaluateText (before ++ more) = .error ⟨.depth, place⟩ := by
  have hcost := (lt_nestingCost_iff nestingLimit before).2 ⟨before, List.prefix_rfl, hv, hl⟩
  obtain ⟨rest, hrest⟩ := (scan_depth_iff (Nat.zero_le _) before).2 hcost
  refine ⟨before.length - rest.length, fun more => ?_⟩
  rw [evaluateText_of_scan (scan_depth_append hrest more)]
  simp [Stop.fault, Nat.add_sub_add_right]

/-- Parentheses that are opened one after the other. -/
theorem path_replicate_opened (n : Nat) (groups : List Pending) :
    Path ⟨.operand .nothing, groups⟩ (List.replicate n '(')
      ⟨.operand .nothing, List.replicate n .nothing ++ groups⟩ := by
  induction n generalizing groups with
  | zero => exact .nil
  | succ n ih =>
      rw [List.replicate_succ, List.replicate_succ', List.append_assoc]
      exact .cons .opened (ih _)

theorem groupsCost_replicate (n : Nat) : groupsCost (List.replicate n .nothing) = 3 * n := by
  induction n with
  | zero => rfl
  | succ n ih =>
      have hsigns : Pending.nothing.signs = 0 := rfl
      rw [List.replicate_succ, groupsCost, ih]
      omega

/-- Groups with two signs in the innermost of them can be completed at any depth. -/
theorem viable_signs_in_groups (n : Nat) :
    Viable (List.replicate n '(' ++ ['-', '+']) ∧
      costBehind (List.replicate n '(' ++ ['-', '+']) = 3 * n + 2 := by
  have hpath := (path_replicate_opened n []).append (.cons .minus (.cons .plus .nil))
  refine ⟨hpath.viable rfl, ?_⟩
  rw [hpath.costBehind_eq, State.cost_operand, List.append_nil, groupsCost_replicate]
  exact Nat.add_comm 2 (3 * n)

end Expression

open Expression

/-- **When nesting is too deep.**  An expression is refused for its depth exactly if the cost behind
a beginning without a syntax error exceeds the limit, which is a number between 810 and 1300.  That
beginning is then refused at the same place whatever follows it; and what is calculated of an
expression that is too deep is shown as an error. -/
theorem evaluate_depth_iff (expression : String) :
    ((∃ place, evaluate expression = .error ⟨.depth, place⟩) ↔
      ∃ before, before <+: expression.toList ∧ Viable before ∧
        nestingLimit < costBehind before) ∧
    (∀ before : String, Viable before.toList → nestingLimit < costBehind before.toList →
      ∃ place, ∀ more, evaluate (before ++ more) = .error ⟨.depth, place⟩) ∧
    (∀ place, evaluateText (prepared expression.toList) = .error ⟨.depth, place⟩ →
      calculate expression = "Error") ∧
    810 ≤ nestingLimit ∧ nestingLimit ≤ 1300 := by
  refine ⟨?_, fun before hv hl => ?_, fun place h => ?_, by decide, by decide⟩
  · rw [evaluate, evaluateText_depth_iff]
    exact lt_nestingCost_iff nestingLimit expression.toList
  · obtain ⟨place, hplace⟩ := exists_evaluateText_append_depth hv hl
    refine ⟨place, fun more => ?_⟩
    rw [evaluate, String.toList_append]
    exact hplace more.toList
  · have hne : plainText expression.toList ≠ [] := by
      intro hnil
      rw [prepared, hnil] at h
      exact absurd ((evaluateText_depth_iff []).1 ⟨place, h⟩) (by decide)
    have hout : outcome expression = .error ⟨.depth, place⟩ := by
      unfold outcome
      dsimp only
      rw [if_neg hne, ← prepared, h]
    exact calculate_of_error hout

/-- Signs inside many groups, before any number has been read. -/
theorem evaluate_depth_iff_signs :
    let before := String.ofList (List.replicate 333 '(' ++ ['-', '+'])
    Viable before.toList ∧ nestingLimit < costBehind before.toList ∧
      (∃ place, ∀ more, evaluate (before ++ more) = .error ⟨.depth, place⟩) ∧
      calculate (before ++ "1") = "Error" := by
  intro before
  obtain ⟨hv, hcost⟩ := viable_signs_in_groups 333
  rw [← String.toList_ofList (l := List.replicate 333 '(' ++ ['-', '+'])] at hv hcost
  have hl : nestingLimit < costBehind before.toList := by
    rw [hcost]
    decide
  obtain ⟨-, hfurther, hshown, -⟩ := evaluate_depth_iff (before ++ "1")
  obtain ⟨place, hplace⟩ := hfurther before hv hl
  refine ⟨hv, hl, ⟨place, hplace⟩, hshown place ?_⟩
  have htext : (before ++ "1").toList = List.replicate 333 '(' ++ ['-', '+', '1'] := by
    rw [String.toList_append, String.toList_ofList, List.append_assoc]
    rfl
  have hprepared : prepared (before ++ "1").toList = (before ++ "1").toList := by
    rw [htext]
    decide +kernel
  rw [hprepared]
  exact hplace "1"

end Calculator
