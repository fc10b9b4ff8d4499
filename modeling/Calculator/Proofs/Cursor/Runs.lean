/-
**Where a cursor stands.**

A cursor is moved about, it reads parts of an expression, and wherever reading stops at a fault it
is left there.  Whatever has been asked of it, its current character is the one at its place, and it
has none outside the text.  Only reading the whole expression moves it back.  Reading never leads
beyond the end of the text; a part that has a value has taken more than spaces, and a whole
expression that has a value has taken the whole text.

Main definitions:

* `Calculator.Expression.Cursor.Stands` — the current character is the one at the place;
* `Calculator.Expression.Step.ReadsPart` — the steps that read a part of an expression;
* `Calculator.Expression.Cursor.Moves` — what a step does to the place.

Main results:

* `Calculator.Expression.Cursor.exists_reader` — reading a part is what a reader does;
* `Calculator.Expression.Cursor.agrees_after` — the character agrees with the place after every run;
* `Calculator.Expression.Cursor.moves_step` — one step;
* `Calculator.Expression.Cursor.run_moves` — **where a cursor stands in every run**.
-/

import Calculator.Proofs.Cursor.Reading

set_option relaxedAutoImplicit false
set_option autoImplicit false

namespace Calculator.Expression

/-- The step reads a part of an expression. -/
def Step.ReadsPart (s : Step) : Prop := s = .expression ∨ s = .term ∨ s = .factor

instance (s : Step) : Decidable s.ReadsPart := inferInstanceAs (Decidable (_ ∨ _ ∨ _))

deriving instance DecidableEq for Answer

namespace Cursor

/-! ### Character and place -/

/-- The current character is the one at the place of the cursor, which is before the text at most by
one, and there is none outside the text. -/
structure Stands (cursor : Cursor) : Prop where
  neg_one_le : -1 ≤ cursor.position
  inside : ∀ (n : Nat) (h : n < cursor.text.length), cursor.position = n →
    cursor.current = [cursor.text[n]]
  outside : cursor.position < 0 ∨ cursor.text.length ≤ cursor.position → cursor.current = []

theorem Agrees.stands {cursor : Cursor} (ha : cursor.Agrees) : cursor.Stands where
  neg_one_le := ha.neg_one_le
  inside n h hn := by
    have hplace : cursor.position.toNat = n := by omega
    rw [current, ha.found_eq, remaining_of_nonneg (by omega), hplace, List.head?_drop,
      List.getElem?_eq_getElem h]
    rfl
  outside h := by
    have hnil : cursor.remaining = [] := by
      by_cases hneg : cursor.position < 0
      · exact if_pos hneg
      · rw [remaining_of_nonneg (Int.not_lt.1 hneg), List.drop_eq_nil_iff]
        omega
    rw [current, ha.found_eq, hnil]
    rfl

/-! ### Parts of an expression -/

/-- Reading a part of an expression is what a reader does with the text that remains. -/
theorem exists_reader {s : Step} (hs : s.ReadsPart) :
    ∃ reader : Reader, LooksOneAhead reader ∧ TakesCharacter reader ∧
      ∀ cursor : Cursor, cursor.Agrees →
        cursor.step s = (cursor.placed (reader cursor.remaining)).map .value id := by
  obtain rfl | rfl | rfl := hs
  · refine ⟨_, looksOneAhead_expression nestingLimit, takesCharacter_expression nestingLimit,
      fun cursor ha => ?_⟩
    rw [step, reads_expression nestingLimit cursor ha]
  · refine ⟨_, looksOneAhead_term nestingLimit, takesCharacter_term nestingLimit,
      fun cursor ha => ?_⟩
    rw [step, reads_term nestingLimit cursor ha]
  · refine ⟨_, looksOneAhead_factor nestingLimit, takesCharacter_factor nestingLimit,
      fun cursor ha => ?_⟩
    rw [step, reads_factor nestingLimit cursor ha]

/-- A value of a part comes with the text that its reader leaves. -/
theorem exists_rest_of_value {cursor : Cursor} {outcome : Outcome} {value : Double}
    (h : ((cursor.placed outcome).map Answer.value id).1 = .value (.ok value)) :
    ∃ rest, outcome = .ok (value, rest) := by
  cases outcome with
  | error stop => cases h
  | ok found =>
      obtain ⟨result, rest⟩ := found
      cases h
      exact ⟨rest, rfl⟩

/-- A token is taken, or spaces only. -/
theorem exists_take_eq {cursor : Cursor} (ha : cursor.Agrees) (token : List Char) :
    ∃ reached : Cursor, reached.Agrees ∧ reached.text = cursor.text ∧
      cursor.position ≤ reached.position ∧
        ((cursor.take token).2 = reached ∨ (cursor.take token).2 = reached.next) := by
  have hsuffix := List.dropWhile_suffix (l := cursor.remaining) (· == ' ')
  refine ⟨cursor.leaving (cursor.remaining.dropWhile (· == ' ')), ha.leaving hsuffix, rfl, ?_, ?_⟩
  · rw [position_leaving]
    omega
  · rw [take, passWhile_eq ha]
    split
    · exact .inr rfl
    · exact .inl rfl

/-! ### One step -/

/-- What a step does to the place of a cursor. -/
structure Moves (before : Cursor) (s : Step) (answer : Answer) (after : Cursor) : Prop where
  text_eq : after.text = before.text
  stands : after.Stands
  /-- Only reading the whole expression moves back. -/
  forward : s ≠ .whole → before.position ≤ after.position
  /-- Reading a part does not lead beyond the end of the text. -/
  part_le : s.ReadsPart → after.position ≤ max before.position before.text.length
  whole_le : s = .whole → after.position ≤ before.text.length
  /-- A part that has a value has taken a character that is no space. -/
  progress : s.ReadsPart → ∀ value, answer = .value (.ok value) →
    ∃ (n : Nat) (h : n < before.text.length),
      before.position ≤ n ∧ n < after.position ∧ before.text[n] ≠ ' '
  /-- A whole expression that has a value has taken the text. -/
  complete : s = .whole → ∀ value, answer = .value (.ok value) →
    after.position = before.text.length
  /-- The whole expression is read as if nothing had been asked before. -/
  afresh : s = .whole → (start before.text).step .whole = (answer, after)

variable {cursor : Cursor}

/-- Behind spaces a part that has a value takes a character. -/
theorem exists_taken {c : Char} {rest more : List Char}
    (hs : skipSpaces cursor.remaining = c :: more) (hrest : rest <:+ more) :
    ∃ (n : Nat) (h : n < cursor.text.length),
      cursor.position ≤ n ∧ n < (cursor.leaving rest).position ∧ cursor.text[n] ≠ ' ' := by
  have hskip := skipSpaces_suffix cursor.remaining
  obtain ⟨spaces, hspaces⟩ := hs ▸ hskip
  have hnonneg : 0 ≤ cursor.position := by
    obtain ⟨d, tail, hd⟩ : ∃ d tail, cursor.remaining = d :: tail := by
      rw [← hspaces]
      cases spaces with
      | nil => exact ⟨_, _, rfl⟩
      | cons d spaces => exact ⟨_, _, rfl⟩
    exact position_nonneg hd
  have hfound : cursor.text[cursor.position.toNat + spaces.length]? = some c := by
    rw [← List.getElem?_drop, ← remaining_of_nonneg hnonneg, ← hspaces,
      List.getElem?_append_right (Nat.le_refl _), Nat.sub_self]
    rfl
  obtain ⟨h, hc⟩ := List.getElem?_eq_some_iff.1 hfound
  have hlength := hrest.length_le
  refine ⟨_, h, by omega, ?_, hc ▸ skipSpaces_ne_space hs⟩
  rw [position_leaving, ← hspaces, List.length_append, List.length_cons]
  omega

theorem moves_part (ha : cursor.Agrees) {s : Step} (hs : s.ReadsPart) :
    (cursor.step s).2.Agrees ∧ Moves cursor s (cursor.step s).1 (cursor.step s).2 := by
  obtain ⟨reader, hlook, htakes, hstep⟩ := exists_reader hs
  have hsuffix := (hlook cursor.remaining).suffix
  have hwhole : s ≠ .whole := by
    rintro rfl
    exact absurd hs (by decide)
  have hreached : (cursor.step s).2 = cursor.leaving (reader cursor.remaining).rest := by
    rw [hstep cursor ha, Prod.map_snd, snd_placed]
    rfl
  rw [hreached]
  refine ⟨ha.leaving hsuffix, ?_⟩
  refine
    { text_eq := rfl
      stands := (ha.leaving hsuffix).stands
      forward := fun _ => ?_
      part_le := fun _ => ?_
      whole_le := fun h => absurd h hwhole
      progress := fun _ value hvalue => ?_
      complete := fun h => absurd h hwhole
      afresh := fun h => absurd h hwhole }
  · rw [position_leaving]
    omega
  · rw [position_leaving]
    -- before the text nothing remains, and the cursor stays where it is
    by_cases hneg : cursor.position < 0
    · have hnil : cursor.remaining = [] := if_pos hneg
      rw [hnil, List.length_nil, Nat.zero_sub]
      omega
    · rw [remaining_of_nonneg (Int.not_lt.1 hneg), List.length_drop]
      omega
  · rw [hstep cursor ha] at hvalue
    obtain ⟨rest, hr⟩ := exists_rest_of_value hvalue
    obtain ⟨c, more, hmore, hrest⟩ := htakes hr
    rw [hr]
    exact exists_taken hmore hrest

theorem moves_whole (cursor : Cursor) :
    (cursor.step .whole).2.Agrees ∧
      Moves cursor .whole (cursor.step .whole).1 (cursor.step .whole).2 := by
  have ha := (agrees_start cursor.text).next
  have hzero : (start cursor.text).next.position = 0 := rfl
  have hplace := position_leaving_first hzero
  have hsuffix := (looksOneAhead_expression nestingLimit cursor.text).suffix
  have hagrees : (cursor.step .whole).2.Agrees := by
    rw [step, whole_eq]
    exact ha.leaving ((remaining_of_first hzero).symm ▸ hsuffix)
  refine ⟨hagrees, ?_⟩
  refine
    { text_eq := by rw [step, whole_eq]; rfl
      stands := hagrees.stands
      forward := fun h => absurd rfl h
      part_le := fun h => absurd h (by decide)
      whole_le := fun _ => ?_
      progress := fun h => absurd h (by decide)
      complete := fun _ value hvalue => ?_
      afresh := fun _ => step_whole _ _ rfl }
  · rw [step, whole_eq]
    change ((start cursor.text).next.leaving _).position ≤ _
    rw [hplace, text_next]
    change ((cursor.text.length - _ : Nat) : Int) ≤ _
    omega
  · rw [step, whole_eq] at hvalue ⊢
    have hok := evaluateText_eq_ok_iff.1 (Answer.value.inj hvalue)
    change ((start cursor.text).next.leaving _).position = _
    rw [hplace, hok]
    rfl

/-- A step that reads nothing moves forward in the same text. -/
theorem Moves.of_movement {after : Cursor} {s : Step} {answer : Answer} (hpart : ¬ s.ReadsPart)
    (hwhole : s ≠ .whole) (htext : after.text = cursor.text) (ha : after.Agrees)
    (hle : cursor.position ≤ after.position) : Moves cursor s answer after where
  text_eq := htext
  stands := ha.stands
  forward _ := hle
  part_le h := absurd h hpart
  whole_le h := absurd h hwhole
  progress h := absurd h hpart
  complete h := absurd h hwhole
  afresh h := absurd h hwhole

/-- **One step.** -/
theorem moves_step (ha : cursor.Agrees) (s : Step) :
    (cursor.step s).2.Agrees ∧ Moves cursor s (cursor.step s).1 (cursor.step s).2 := by
  cases s with
  | next =>
      refine ⟨ha.next, .of_movement (by decide) (by decide) rfl ha.next ?_⟩
      rw [step, position_next]
      omega
  | take token =>
      have hpart : ¬ (Step.take token).ReadsPart := by simp [Step.ReadsPart]
      obtain ⟨reached, hr, htext, hle, heq | heq⟩ := exists_take_eq ha token
      · have hstep : (cursor.step (.take token)).2 = reached := heq
        rw [hstep]
        exact ⟨hr, .of_movement hpart nofun htext hr hle⟩
      · have hstep : (cursor.step (.take token)).2 = reached.next := heq
        rw [hstep]
        refine ⟨hr.next, .of_movement hpart nofun htext hr.next ?_⟩
        rw [position_next]
        omega
  | whole => exact moves_whole cursor
  | expression => exact moves_part ha (.inl rfl)
  | term => exact moves_part ha (.inr (.inl rfl))
  | factor => exact moves_part ha (.inr (.inr rfl))

/-! ### Runs -/

/-- After a run the text is the same, and the character agrees with the place. -/
theorem Agrees.after (ha : cursor.Agrees) (steps : List Step) :
    (cursor.after steps).Agrees ∧ (cursor.after steps).text = cursor.text := by
  induction steps generalizing cursor with
  | nil => exact ⟨ha, rfl⟩
  | cons s steps ih =>
      obtain ⟨hagrees, hmoves⟩ := moves_step ha s
      obtain ⟨hafter, htext⟩ := ih hagrees
      exact ⟨hafter, htext.trans hmoves.text_eq⟩

theorem agrees_after (text : List Char) (steps : List Step) :
    ((start text).after steps).Agrees ∧ ((start text).after steps).text = text :=
  (agrees_start text).after steps

/-- A place of a run is one step from where the steps before it lead. -/
theorem getElem?_run (cursor : Cursor) {steps : List Step} {i : Nat} {s : Step}
    (hs : steps[i]? = some s) :
    (cursor.run steps)[i]? = some ((cursor.after (steps.take i)).step s) := by
  induction steps generalizing cursor i with
  | nil => cases hs
  | cons first steps ih =>
      cases i with
      | zero =>
          obtain rfl : first = s := Option.some.inj hs
          rfl
      | succ i => exact ih (cursor.step first).2 hs

/-- **Where a cursor stands in every run.**  Whatever steps come before, and however they ended, the
cursor stands on the character at its place, and every step moves it as steps do. -/
theorem run_moves (text : List Char) {steps : List Step} {i : Nat} {s : Step}
    (hs : steps[i]? = some s) :
    let before := (start text).after (steps.take i)
    let reached := before.step s
    ((start text).run steps)[i]? = some reached ∧ before.text = text ∧ before.Stands ∧
      Moves before s reached.1 reached.2 := by
  obtain ⟨ha, htext⟩ := agrees_after text (steps.take i)
  exact ⟨getElem?_run _ hs, htext, ha.stands, (moves_step ha s).2⟩

/-- A term is read, the sign behind it has no operand, and then the empty token is taken at the end
of the text; reading the whole expression afterwards stops at the same fault. -/
theorem run_moves_beyond_the_end :
    let text := "2*(3)+ ".toList
    let steps := [.next, .term, .expression, .take [], .whole]
    let behind (i : Nat) := (start text).after (steps.take i)
    (steps[3]? = some (.take []) ∧ (behind 3).position = text.length ∧
        (behind 4).position = text.length + 1) ∧
      (behind 3).Stands ∧ Moves (behind 3) (.take []) (.taken true) (behind 4) ∧
        steps[4]? = some .whole ∧
          Moves (behind 4) .whole (.value (.error ⟨.endOfText, 7⟩)) (behind 5) := by
  intro text steps behind
  have htake : steps[3]? = some (.take []) := rfl
  have hwhole : steps[4]? = some .whole := rfl
  obtain ⟨-, -, hstands, hmoves⟩ := run_moves text htake
  obtain ⟨-, -, -, hmoves'⟩ := run_moves text hwhole
  have htaken : ((behind 3).step (.take [])).1 = .taken true := by decide +kernel
  have hfault : ((behind 4).step .whole).1 = .value (.error ⟨.endOfText, 7⟩) := by decide +kernel
  exact ⟨by decide +kernel, hstands, htaken ▸ hmoves, hwhole, hfault ▸ hmoves'⟩

end Cursor

end Calculator.Expression
