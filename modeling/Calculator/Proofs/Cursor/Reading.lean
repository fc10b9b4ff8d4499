/-
**A cursor reads what remains.**

A cursor keeps a whole text, a place in it and the character that it found there, and cuts numbers
out of the text by their places; the readers of the grammar know nothing but the text that remains.
As long as the character of a cursor is the one at its place, the two read the same: a cursor gives
the value or the fault that the reader gives for what remains behind it, and is left where the
reader leaves its text.  This holds outside the text as well, where nothing remains.

Main definitions:

* `Calculator.Expression.Cursor.remaining` — the text from the cursor on;
* `Calculator.Expression.Cursor.Agrees` — the character of the cursor is the one at its place;
* `Calculator.Expression.Cursor.leaving` — the cursor when less of the text remains;
* `Calculator.Expression.Cursor.Reads` — a cursor and a reader read the same.

Main results:

* `Calculator.Expression.Cursor.passWhile_eq`, `Calculator.Expression.Cursor.take_token`,
  `Calculator.Expression.Cursor.take_other` — what the movements leave;
* `Calculator.Expression.Cursor.reads_factor`, `Calculator.Expression.Cursor.reads_term`,
  `Calculator.Expression.Cursor.reads_expression` — **a cursor reads what remains**;
* `Calculator.Expression.Cursor.whole_eq` — reading the whole expression evaluates the text.
-/

import Calculator.Expression.Cursor
import Calculator.Proofs.Expression.Lookahead

set_option relaxedAutoImplicit false
set_option autoImplicit false

namespace Calculator.Expression.Cursor

/-! ### Places -/

/-- The text from the current character on; outside the text nothing remains. -/
def remaining (cursor : Cursor) : List Char :=
  if cursor.position < 0 then [] else cursor.text.drop cursor.position.toNat

/-- The character of the cursor is the one at its place, which is not far before the text. -/
structure Agrees (cursor : Cursor) : Prop where
  neg_one_le : -1 ≤ cursor.position
  found_eq : cursor.found = cursor.remaining.head?

theorem remaining_of_nonneg {cursor : Cursor} (h : 0 ≤ cursor.position) :
    cursor.remaining = cursor.text.drop cursor.position.toNat :=
  if_neg (Int.not_lt.2 h)

theorem position_nonneg {cursor : Cursor} {c : Char} {rest : List Char}
    (h : cursor.remaining = c :: rest) : 0 ≤ cursor.position := by
  by_contra hneg
  rw [remaining, if_pos (Int.not_le.1 hneg)] at h
  cases h

theorem agrees_start (text : List Char) : (start text).Agrees := ⟨Int.le_refl _, rfl⟩

/-- A movement looks the new character up. -/
theorem Agrees.next {cursor : Cursor} (h : cursor.Agrees) : cursor.next.Agrees := by
  have hle := h.neg_one_le
  have hnonneg : 0 ≤ cursor.next.position := by
    rw [position_next]
    omega
  refine ⟨by omega, ?_⟩
  rw [remaining_of_nonneg hnonneg, found_next, List.head?_drop]
  rfl

/-- The cursor when only `rest` of what remained is left. -/
def leaving (rest : List Char) (cursor : Cursor) : Cursor where
  text := cursor.text
  position := cursor.position + (cursor.remaining.length - rest.length : Nat)
  found := rest.head?

@[simp] theorem text_leaving (rest : List Char) (cursor : Cursor) :
    (cursor.leaving rest).text = cursor.text := rfl

@[simp] theorem position_leaving (rest : List Char) (cursor : Cursor) :
    (cursor.leaving rest).position =
      cursor.position + (cursor.remaining.length - rest.length : Nat) := rfl

@[simp] theorem found_leaving (rest : List Char) (cursor : Cursor) :
    (cursor.leaving rest).found = rest.head? := rfl

section

variable {cursor : Cursor} {rest rest' : List Char}

theorem remaining_leaving (h : rest <:+ cursor.remaining) :
    (cursor.leaving rest).remaining = rest := by
  obtain ⟨taken, ht⟩ := h
  by_cases hneg : cursor.position < 0
  · have hnil : cursor.remaining = [] := if_pos hneg
    rw [hnil] at ht
    obtain ⟨rfl, rfl⟩ := List.append_eq_nil_iff.1 ht
    rw [remaining, position_leaving, hnil]
    exact if_pos (by simpa using hneg)
  · have hnonneg := Int.not_lt.1 hneg
    have hlength : cursor.remaining.length - rest.length = taken.length := by
      rw [← ht, List.length_append]
      omega
    have hplace : (cursor.position + (taken.length : Nat)).toNat =
        cursor.position.toNat + taken.length := by omega
    rw [remaining_of_nonneg hnonneg] at ht
    rw [remaining_of_nonneg (by rw [position_leaving]; omega), position_leaving, hlength, hplace,
      text_leaving, ← List.drop_drop, ← ht, List.drop_left]

theorem Agrees.leaving (ha : cursor.Agrees) (h : rest <:+ cursor.remaining) :
    (cursor.leaving rest).Agrees where
  neg_one_le := by
    have := ha.neg_one_le
    rw [position_leaving]
    omega
  found_eq := by rw [remaining_leaving h, found_leaving]

/-- Leaving more and then less is leaving less. -/
theorem leaving_leaving (h : rest <:+ cursor.remaining) (h' : rest' <:+ rest) :
    (cursor.leaving rest).leaving rest' = cursor.leaving rest' := by
  have hlength := h.length_le
  have hlength' := h'.length_le
  rw [leaving, remaining_leaving h]
  simp only [leaving, mk.injEq, true_and, and_true]
  omega

theorem Agrees.leaving_remaining (ha : cursor.Agrees) :
    cursor.leaving cursor.remaining = cursor := by
  simp [Cursor.leaving, ← ha.found_eq]

/-- Where a character remains, a movement leaves what comes behind it. -/
theorem next_eq {c : Char} (h : cursor.remaining = c :: rest) :
    cursor.next = cursor.leaving rest := by
  have hnonneg := position_nonneg h
  have hplace : (cursor.position + 1).toNat = cursor.position.toNat + 1 := by omega
  have hfound : cursor.text[(cursor.position + 1).toNat]? = rest.head? := by
    rw [remaining_of_nonneg hnonneg] at h
    rw [hplace, ← List.head?_drop, ← List.drop_drop, h]
    rfl
  rw [leaving, h, ← hfound, List.length_cons]
  simp [next]

/-! ### Movements -/

/-- A run of characters of one kind is passed over. -/
theorem passWhile_eq (ha : cursor.Agrees) (kind : Char → Bool) :
    cursor.passWhile kind = cursor.leaving (cursor.remaining.dropWhile kind) := by
  induction hr : cursor.remaining generalizing cursor with
  | nil =>
      rw [passWhile, ha.found_eq, hr, if_neg (by simp), List.dropWhile_nil, ← hr,
        ha.leaving_remaining]
  | cons c rest ih =>
      have hrest : rest <:+ cursor.remaining := hr ▸ List.suffix_cons c rest
      rw [passWhile, ha.found_eq, hr]
      by_cases hc : kind c = true
      · rw [if_pos (by simpa using hc), next_eq hr,
          ih (ha.leaving hrest) (remaining_leaving hrest),
          leaving_leaving hrest (List.dropWhile_suffix kind), List.dropWhile_cons_of_pos hc]
      · rw [if_neg (by simpa using hc), List.dropWhile_cons_of_neg hc, ← hr, ha.leaving_remaining]

/-- Spaces are passed over. -/
theorem passWhile_space (ha : cursor.Agrees) (h : rest <:+ cursor.remaining) :
    (cursor.leaving rest).passWhile (· == ' ') = cursor.leaving (skipSpaces rest) := by
  rw [passWhile_eq (ha.leaving h), remaining_leaving h,
    leaving_leaving h (List.dropWhile_suffix _)]
  rfl

/-- A token that comes next behind spaces is taken. -/
theorem take_token (ha : cursor.Agrees) (h : rest <:+ cursor.remaining) {c : Char}
    (hs : skipSpaces rest = c :: rest') :
    (cursor.leaving rest).take [c] = (true, cursor.leaving rest') := by
  have hskip : c :: rest' <:+ rest := hs ▸ skipSpaces_suffix rest
  have hcurrent : (cursor.leaving (c :: rest')).current = [c] := rfl
  have hnext : (cursor.leaving (c :: rest')).next = cursor.leaving rest' := by
    rw [next_eq (remaining_leaving (hskip.trans h)),
      leaving_leaving (hskip.trans h) (List.suffix_cons c rest')]
  rw [take, passWhile_space ha h, hs, if_pos hcurrent, hnext]

/-- If another character comes next, or none, then only spaces are passed over. -/
theorem take_other (ha : cursor.Agrees) (h : rest <:+ cursor.remaining) {c : Char}
    (hs : (skipSpaces rest).head? ≠ some c) :
    (cursor.leaving rest).take [c] = (false, cursor.leaving (skipSpaces rest)) := by
  have hcurrent : (cursor.leaving (skipSpaces rest)).current ≠ [c] := by
    rw [current, found_leaving]
    cases hd : (skipSpaces rest).head? with
    | none => nofun
    | some d =>
        rw [hd] at hs
        simpa using hs
  rw [take, passWhile_space ha h]
  exact if_neg hcurrent

/-- Once spaces have been passed over, a token is looked for in the same place. -/
theorem take_again (ha : cursor.Agrees) (h : rest <:+ cursor.remaining) (c : Char) :
    (cursor.leaving (skipSpaces rest)).take [c] = (cursor.leaving rest).take [c] := by
  have hskip := (skipSpaces_suffix rest).trans h
  by_cases hs : (skipSpaces rest).head? = some c
  · obtain ⟨more, hmore⟩ := List.head?_eq_some_iff.1 hs
    have hagain : skipSpaces (skipSpaces rest) = c :: more := by rw [skipSpaces_skipSpaces, hmore]
    rw [take_token ha h hmore, take_token ha hskip hagain]
  · have hagain : (skipSpaces (skipSpaces rest)).head? ≠ some c := by rwa [skipSpaces_skipSpaces]
    rw [take_other ha h hs, take_other ha hskip hagain, skipSpaces_skipSpaces]

/-! ### Outcomes at a place -/

/-- The outcome of a reader, for a cursor behind which the reader has read. -/
def placed (cursor : Cursor) : Outcome → Except Fault Double × Cursor
  | .ok (value, rest) => (.ok value, cursor.leaving rest)
  | .error stop => (cursor.leaving stop.rest).stop stop.cause

@[simp] theorem placed_ok (cursor : Cursor) (value : Double) (rest : List Char) :
    cursor.placed (.ok (value, rest)) = (.ok value, cursor.leaving rest) := rfl

@[simp] theorem placed_error (cursor : Cursor) (stop : Stop) :
    cursor.placed (.error stop) = (cursor.leaving stop.rest).stop stop.cause := rfl

/-- The cursor is left where the reader leaves the text. -/
theorem snd_placed (cursor : Cursor) (outcome : Outcome) :
    (cursor.placed outcome).2 = cursor.leaving outcome.rest := by
  cases outcome <;> rfl

/-- Reading further on counts from where reading began. -/
theorem placed_leaving (h : rest <:+ cursor.remaining) {outcome : Outcome}
    (ho : outcome.rest <:+ rest) :
    (cursor.leaving rest).placed outcome = cursor.placed outcome := by
  cases outcome with
  | error stop =>
      rw [Outcome.rest_error] at ho
      rw [placed_error, placed_error, leaving_leaving h ho]
  | ok found =>
      obtain ⟨value, more⟩ := found
      rw [Outcome.rest_ok] at ho
      rw [placed_ok, placed_ok, leaving_leaving h ho]

/-- A cursor reads what the reader reads from the text that remains. -/
def Reads (action : Action) (reader : Reader) : Prop :=
  ∀ cursor : Cursor, cursor.Agrees → action cursor = cursor.placed (reader cursor.remaining)

/-- Reading behind what has been taken. -/
theorem Reads.leaving {action : Action} {reader : Reader} (hr : Reads action reader)
    (hl : LooksOneAhead reader) (ha : cursor.Agrees) (h : rest <:+ cursor.remaining) :
    action (cursor.leaving rest) = cursor.placed (reader rest) := by
  rw [hr _ (ha.leaving h), remaining_leaving h, placed_leaving h (hl rest).suffix]

theorem negated_placed (cursor : Cursor) (outcome : Outcome) :
    negated (cursor.placed outcome) = cursor.placed outcome.negated := by
  cases outcome <;> rfl

theorem closed_placed (ha : cursor.Agrees) {outcome : Outcome}
    (h : outcome.rest <:+ cursor.remaining) :
    closed (cursor.placed outcome) = cursor.placed outcome.closed := by
  cases outcome with
  | error stop => rfl
  | ok found =>
      obtain ⟨value, middle⟩ := found
      rw [Outcome.rest_ok] at h
      rw [placed_ok, closed]
      by_cases hm : (skipSpaces middle).head? = some ')'
      · obtain ⟨more, hmore⟩ := List.head?_eq_some_iff.1 hm
        rw [take_token ha h hmore, closed_of_parenthesis hmore, placed_ok]
      · rw [take_other ha h hm, closed_of_other hm, placed_ok]

end

/-! ### Levels of operators -/

section

variable {cursor : Cursor} {level : Level} {operators : Operators} {rest rest' : List Char}

/-- The operator that comes next is taken. -/
theorem takeOperator_some (ha : cursor.Agrees) (h : rest <:+ cursor.remaining) {c : Char}
    (hs : skipSpaces rest = c :: rest') {operation : Double → Double → Double}
    (hc : level.lookup c = some operation) :
    takeOperator level (cursor.leaving rest) = (some operation, cursor.leaving rest') := by
  induction level generalizing rest with
  | nil => cases hc
  | cons entry others ih =>
      obtain ⟨d, first⟩ := entry
      rw [takeOperator]
      by_cases hd : c = d
      · subst hd
        rw [List.lookup_cons_self, Option.some_inj] at hc
        rw [take_token ha h hs, hc]
      · have hother : (skipSpaces rest).head? ≠ some d := by
          rw [hs]
          simpa using hd
        rw [List.lookup_cons, beq_false_of_ne hd] at hc
        rw [take_other ha h hother]
        refine ih ((skipSpaces_suffix rest).trans h) ?_ hc
        rw [skipSpaces_skipSpaces, hs]

/-- If none of the operators comes next, then only spaces are passed over. -/
theorem takeOperator_none (ha : cursor.Agrees) (h : rest <:+ cursor.remaining) (hne : level ≠ [])
    (hs : ∀ c, (skipSpaces rest).head? = some c → level.lookup c = none) :
    takeOperator level (cursor.leaving rest) = (none, cursor.leaving (skipSpaces rest)) := by
  induction level generalizing rest with
  | nil => exact absurd rfl hne
  | cons entry others ih =>
      obtain ⟨d, first⟩ := entry
      have hother : (skipSpaces rest).head? ≠ some d := by
        intro hd
        have hnone := hs d hd
        rw [List.lookup_cons_self] at hnone
        cases hnone
      rw [takeOperator, take_other ha h hother]
      dsimp only
      cases others with
      | nil => rfl
      | cons second others =>
          rw [ih ((skipSpaces_suffix rest).trans h) (List.cons_ne_nil _ _), skipSpaces_skipSpaces]
          intro c hc
          rw [skipSpaces_skipSpaces] at hc
          have hcd : c ≠ d := by
            rintro rfl
            exact hother hc
          have hnone := hs c hc
          rwa [List.lookup_cons, beq_false_of_ne hcd] at hnone

/-- Joining further operands, where there are not more than the bounds allow. -/
theorem joinFurther_placed {action : Action} {operand : Reader} (hne : level ≠ [])
    (ht : ∀ c, operators c = level.lookup c) (hr : Reads action operand)
    (hl : LooksOneAhead operand) (ha : cursor.Agrees) (h : rest <:+ cursor.remaining)
    {bound bound' : Nat} (hb : rest.length < bound) (hb' : rest.length ≤ bound') (value : Double) :
    joinFurther level action bound value (cursor.leaving rest) =
      cursor.placed (Expression.joinFurther operators operand bound' value rest) := by
  -- the cursor bounds the operands by its whole text and the reader by what remains
  induction bound generalizing bound' value rest with
  | zero => exact absurd hb (Nat.not_lt_zero _)
  | succ bound ih =>
      have hskip := skipSpaces_suffix rest
      rcases exhausted_or_operator operators rest with he | ⟨c, more, operation, hs, hc⟩
      · have hnone : ∀ c, (skipSpaces rest).head? = some c → level.lookup c = none :=
          fun c hc => (ht c).symm.trans (he.head c hc)
        rw [joinFurther_of_exhausted he, joinFurther, takeOperator_none ha h hne hnone, placed_ok]
      · have hmore := hs ▸ hskip
        have hlength := hmore.length_le
        have hsuffix := (hl more).suffix
        replace hmore := ((List.suffix_cons c more).trans hmore).trans h
        rw [List.length_cons] at hlength
        obtain ⟨bound', rfl⟩ : ∃ b, bound' = b + 1 := ⟨bound' - 1, by omega⟩
        rw [joinFurther_of_operator hs hc, joinFurther,
          takeOperator_some ha h hs ((ht c).symm.trans hc)]
        dsimp only
        rw [hr.leaving hl ha hmore]
        cases hm : operand more with
        | error stop => rfl
        | ok found =>
            obtain ⟨further, middle⟩ := found
            rw [hm, Outcome.rest_ok] at hsuffix
            have hmiddle := hsuffix.length_le
            exact ih (hsuffix.trans hmore) (by omega) (by omega) _

theorem length_remaining_le (cursor : Cursor) : cursor.remaining.length ≤ cursor.text.length := by
  rw [remaining]
  split
  · exact Nat.zero_le _
  · rw [List.length_drop]
    exact Nat.sub_le _ _

/-- Operands joined by the operators of one level. -/
theorem reads_leftAssociative {action : Action} {operand : Reader} (hne : level ≠ [])
    (ht : ∀ c, operators c = level.lookup c) (hr : Reads action operand)
    (hl : LooksOneAhead operand) :
    Reads (leftAssociative level action) (Expression.leftAssociative operators operand) := by
  intro cursor ha
  have hsuffix := (hl cursor.remaining).suffix
  rw [leftAssociative, hr cursor ha, Expression.leftAssociative]
  cases hm : operand cursor.remaining with
  | error stop => rfl
  | ok found =>
      obtain ⟨value, middle⟩ := found
      rw [hm, Outcome.rest_ok] at hsuffix
      have hlength := hsuffix.length_le
      have htext := cursor.length_remaining_le
      exact joinFurther_placed hne ht hr hl ha hsuffix (by rw [text_leaving]; omega) (Nat.le_refl _)
        value

theorem multiplicative_eq_lookup (c : Char) : multiplicative c = products.lookup c := by
  unfold multiplicative
  split
  · rfl
  · rfl
  · next h₁ h₂ => simp [products, List.lookup_cons, beq_false_of_ne h₁, beq_false_of_ne h₂]

theorem additive_eq_lookup (c : Char) : additive c = sums.lookup c := by
  unfold additive
  split
  · rfl
  · rfl
  · next h₁ h₂ => simp [sums, List.lookup_cons, beq_false_of_ne h₁, beq_false_of_ne h₂]

end

/-! ### The readers of the grammar -/

/-- What lies between two places is cut out of the text. -/
theorem textFrom_leaving {cursor : Cursor} (hn : 0 ≤ cursor.position) {taken rest : List Char}
    (h : cursor.remaining = taken ++ rest) :
    (cursor.leaving rest).textFrom cursor.position = taken := by
  have hlength : cursor.remaining.length - rest.length = taken.length := by
    rw [h, List.length_append]
    omega
  have hplace : (cursor.position + (taken.length : Nat) - cursor.position).toNat =
      taken.length := by omega
  rw [remaining_of_nonneg hn] at h
  rw [textFrom, position_leaving, hlength, text_leaving, h, hplace, List.take_left]

theorem number_eq {cursor : Cursor} (ha : cursor.Agrees) (hn : 0 ≤ cursor.position) :
    number cursor.position cursor = cursor.placed (Expression.number cursor.remaining) := by
  have htext := textFrom_leaving hn
    (List.takeWhile_append_dropWhile (p := isLiteralChar) (l := cursor.remaining)).symm
  rw [number, passWhile_eq ha, htext, Expression.number]
  cases Decimal.ofLiteral? (cursor.remaining.takeWhile isLiteralChar) <;> rfl

section

variable {cursor : Cursor} {rest more : List Char}

theorem factor_plus (ha : cursor.Agrees) (h : rest <:+ cursor.remaining)
    (hs : skipSpaces rest = '+' :: more) :
    factor 0 (cursor.leaving rest) = (cursor.leaving more).stop .depth ∧
      ∀ budget,
        factor (budget + 1) (cursor.leaving rest) = factor budget (cursor.leaving more) := by
  have hplus := take_token ha h hs
  refine ⟨?_, fun budget => ?_⟩
  · rw [factor, hplus]
  · rw [factor, hplus]

theorem factor_minus (ha : cursor.Agrees) (h : rest <:+ cursor.remaining)
    (hs : skipSpaces rest = '-' :: more) :
    factor 0 (cursor.leaving rest) = (cursor.leaving more).stop .depth ∧
      ∀ budget, factor (budget + 1) (cursor.leaving rest) =
        negated (factor budget (cursor.leaving more)) := by
  have hplus := take_other ha h (c := '+') (by simp [hs])
  have hminus := (take_again ha h '-').trans (take_token ha h hs)
  refine ⟨?_, fun budget => ?_⟩
  · rw [factor, hplus]
    dsimp only
    rw [hminus]
  · rw [factor, hplus]
    dsimp only
    rw [hminus]

theorem factor_group (ha : cursor.Agrees) (h : rest <:+ cursor.remaining)
    (hs : skipSpaces rest = '(' :: more) :
    (∀ budget < 3, factor budget (cursor.leaving rest) = (cursor.leaving more).stop .depth) ∧
      ∀ budget, factor (budget + 3) (cursor.leaving rest) =
        closed (expression budget (cursor.leaving more)) := by
  have hplus := take_other ha h (c := '+') (by simp [hs])
  have hminus := (take_again ha h '-').trans (take_other ha h (by simp [hs]))
  have hgroup := (take_again ha h '(').trans (take_token ha h hs)
  refine ⟨fun budget hb => ?_, fun budget => ?_⟩
  · rw [factor, hplus]
    dsimp only
    rw [hminus]
    dsimp only
    rw [hgroup]
    obtain rfl | rfl | rfl : budget = 0 ∨ budget = 1 ∨ budget = 2 := by omega
    · rfl
    · rfl
    · rfl
  · rw [factor, hplus]
    dsimp only
    rw [hminus]
    dsimp only
    rw [hgroup]
    rfl

theorem factor_plain (ha : cursor.Agrees) (h : rest <:+ cursor.remaining)
    (hp : (skipSpaces rest).head? ≠ some '+') (hm : (skipSpaces rest).head? ≠ some '-')
    (hg : (skipSpaces rest).head? ≠ some '(') (budget : Nat) :
    factor budget (cursor.leaving rest) =
      if (skipSpaces rest).head?.any isLiteralChar then
        number (cursor.leaving (skipSpaces rest)).position (cursor.leaving (skipSpaces rest))
      else (cursor.leaving (skipSpaces rest)).unexpected := by
  have hminus := (take_again ha h '-').trans (take_other ha h hm)
  have hgroup := (take_again ha h '(').trans (take_other ha h hg)
  rw [factor, take_other ha h hp]
  dsimp only
  rw [hminus]
  dsimp only
  rw [hgroup]
  rfl

end

/-- **A cursor reads a factor as the reader does.** -/
theorem reads_factor (budget : Nat) : Reads (factor budget) (Expression.factor budget) := by
  -- a sign leaves one less of the budget and a group three less
  induction budget using Nat.strongRecOn with
  | ind budget ih =>
      intro cursor ha
      have hall := List.suffix_refl cursor.remaining
      have hskip := skipSpaces_suffix cursor.remaining
      suffices factor budget (cursor.leaving cursor.remaining) =
          cursor.placed (Expression.factor budget cursor.remaining) by
        rwa [ha.leaving_remaining] at this
      cases opening cursor.remaining with
      | nothing ht =>
          rw [Expression.factor_nil ht, factor_plain ha hall (by simp [ht]) (by simp [ht])
            (by simp [ht]), ht]
          rfl
      | plus more ht =>
          have hmore := (List.suffix_cons _ _).trans (ht ▸ hskip)
          obtain ⟨hzero, hsucc⟩ := factor_plus ha hall ht
          cases budget with
          | zero =>
              rw [factor_sign_of_depth ht (.inl rfl), hzero]
              rfl
          | succ budget =>
              rw [Expression.factor_plus ht, hsucc,
                (ih budget (by omega)).leaving (looksOneAhead_factor budget) ha hmore]
      | minus more ht =>
          have hmore := (List.suffix_cons _ _).trans (ht ▸ hskip)
          obtain ⟨hzero, hsucc⟩ := factor_minus ha hall ht
          cases budget with
          | zero =>
              rw [factor_sign_of_depth ht (.inr rfl), hzero]
              rfl
          | succ budget =>
              rw [Expression.factor_minus ht, hsucc,
                (ih budget (by omega)).leaving (looksOneAhead_factor budget) ha hmore,
                negated_placed]
      | group more ht =>
          have hmore := (List.suffix_cons _ _).trans (ht ▸ hskip)
          obtain ⟨hdepth, hgroup⟩ := factor_group ha hall ht
          by_cases hb : budget < 3
          · rw [factor_group_of_depth ht hb, hdepth budget hb]
            rfl
          · obtain ⟨budget, rfl⟩ : ∃ b, budget = b + 3 := ⟨budget - 3, by omega⟩
            have hterm : Reads (term budget) (Expression.term budget) :=
              reads_leftAssociative (List.cons_ne_nil _ _) multiplicative_eq_lookup
                (ih budget (by omega)) (looksOneAhead_factor budget)
            have hinner : Reads (expression budget) (Expression.expression budget) :=
              reads_leftAssociative (List.cons_ne_nil _ _) additive_eq_lookup hterm
                (looksOneAhead_term budget)
            have hlook := looksOneAhead_expression budget
            rw [Expression.factor_group ht, hgroup, hinner.leaving hlook ha hmore,
              closed_placed ha ((hlook more).suffix.trans hmore)]
      | literal c more ht hc =>
          obtain ⟨-, hp, hm, hg⟩ := ne_of_isLiteralChar hc
          have hremaining := remaining_leaving hskip
          rw [Expression.factor_literal ht hc, factor_plain ha hall (by simpa [ht]) (by simpa [ht])
            (by simpa [ht]), if_pos (by simp [ht, hc]),
            number_eq (ha.leaving hskip) (position_nonneg (hremaining.trans ht)), hremaining,
            placed_leaving hskip (looksOneAhead_number _).suffix, ht]
      | other c more ht hc =>
          obtain ⟨-, hp, hm, hg, hl⟩ := hc
          rw [Expression.factor_other ht ⟨skipSpaces_ne_space ht, hp, hm, hg, hl⟩,
            factor_plain ha hall (by simpa [ht]) (by simpa [ht]) (by simpa [ht]),
            if_neg (by simp [ht, hl]), ht]
          rfl

theorem reads_term (budget : Nat) : Reads (term budget) (Expression.term budget) :=
  reads_leftAssociative (List.cons_ne_nil _ _) multiplicative_eq_lookup (reads_factor budget)
    (looksOneAhead_factor budget)

theorem reads_expression (budget : Nat) :
    Reads (expression budget) (Expression.expression budget) :=
  reads_leftAssociative (List.cons_ne_nil _ _) additive_eq_lookup (reads_term budget)
    (looksOneAhead_term budget)

/-! ### The whole expression -/

theorem remaining_of_first {cursor : Cursor} (h : cursor.position = 0) :
    cursor.remaining = cursor.text := by
  rw [remaining_of_nonneg (Int.le_of_eq h.symm), h]
  rfl

/-- The place at which a reader leaves a text, for a cursor that stood on its first character. -/
theorem position_leaving_first {cursor : Cursor} (h : cursor.position = 0) (rest : List Char) :
    (cursor.leaving rest).position = (cursor.text.length - rest.length : Nat) := by
  rw [position_leaving, remaining_of_first h, h, Int.zero_add]

/-- **Reading the whole expression evaluates the text**, and leaves the cursor where an expression
that begins with the text ends. -/
theorem whole_eq (cursor : Cursor) :
    cursor.whole =
      (evaluateText cursor.text, (start cursor.text).next.leaving
        (Expression.expression nestingLimit cursor.text).rest) := by
  have hfirst : { cursor with position := -1 }.next = (start cursor.text).next := rfl
  have ha := (agrees_start cursor.text).next
  have hzero : (start cursor.text).next.position = 0 := rfl
  have htext : (start cursor.text).next.text = cursor.text := rfl
  rw [whole, hfirst]
  generalize (start cursor.text).next = first at ha hzero htext
  have hplace := position_leaving_first hzero
  rw [← htext, reads_expression nestingLimit first ha, remaining_of_first hzero, evaluateText]
  cases hr : Expression.expression nestingLimit first.text with
  | error stop =>
      rw [placed_error, Cursor.stop, hplace, Int.toNat_natCast]
      rfl
  | ok found =>
      obtain ⟨value, rest⟩ := found
      have hlength := (looksOneAhead_expression nestingLimit first.text).suffix.length_le
      rw [hr, Outcome.rest_ok] at hlength
      rw [placed_ok]
      dsimp only
      rw [hplace, text_leaving]
      cases rest with
      | nil => exact if_neg (Int.lt_irrefl _)
      | cons c rest =>
          rw [List.length_cons] at hlength
          rw [if_pos (by rw [List.length_cons]; omega), unexpected, found_leaving, List.head?_cons]
          dsimp only
          rw [Cursor.stop, hplace, Int.toNat_natCast]
          rfl

end Calculator.Expression.Cursor
