/-
**Reading is local.**

When a part of an expression is read, nothing before the cursor has any part in it: behind another
text the same is read, only the places are counted from elsewhere.  And nothing has a part in it
that comes behind the place where reading ends, apart from the one character there.

Main definitions:

* `Calculator.Expression.Fault.shifted`, `Calculator.Expression.Answer.shifted` — the same answer
  with its place counted from elsewhere;
* `Calculator.Expression.Outcome.resultAt` — what is answered at a place.

Main results:

* `Calculator.Expression.Cursor.exists_result` — the answer and the place that come of a reader;
* `Calculator.Expression.Cursor.step_shifted` — the same is read behind another text;
* `Calculator.Expression.Cursor.step_ahead` — texts that agree up to the place where reading ends
  are read alike;
* `Calculator.Expression.Cursor.step_is_local` — **reading is local**.
-/

import Calculator.Proofs.Cursor.Runs

set_option relaxedAutoImplicit false
set_option autoImplicit false

namespace Calculator.Expression

/-! ### Places counted from elsewhere -/

/-- The same fault behind more characters. -/
def Fault.shifted (n : Nat) (fault : Fault) : Fault := { fault with position := n + fault.position }

/-- The same answer behind more characters. -/
def Answer.shifted (n : Nat) : Answer → Answer
  | .value (.error fault) => .value (.error (fault.shifted n))
  | answer => answer

/-- What is answered when a reader ends at a place. -/
def Outcome.resultAt (place : Int) : Outcome → Answer
  | .ok (value, _) => .value (.ok value)
  | .error stop => .value (.error ⟨stop.cause, place.toNat⟩)

theorem Outcome.resultAt_leaving (place : Int) (outcome : Outcome) (rest : List Char) :
    (outcome.leaving rest).resultAt place = outcome.resultAt place := by
  cases outcome <;> rfl

theorem Outcome.resultAt_add (n : Nat) {place : Int} (h : 0 ≤ place) (outcome : Outcome) :
    outcome.resultAt (n + place) = (outcome.resultAt place).shifted n := by
  cases outcome with
  | ok found => rfl
  | error stop =>
      have hplace : (n + place).toNat = n + place.toNat := by omega
      rw [resultAt, hplace]
      rfl

/-- A text that agrees with another one up to a character goes on with the same character. -/
theorem exists_rest_of_take {taken rest other : List Char} (hrest : rest ≠ [])
    (h : other.take (taken.length + 1) = (taken ++ rest).take (taken.length + 1)) :
    ∃ rest', other = taken ++ rest' ∧ rest'.head? = rest.head? := by
  obtain ⟨c, more, rfl⟩ := List.exists_cons_of_ne_nil hrest
  rw [List.take_length_add_append] at h
  have hother := List.take_append_drop (taken.length + 1) other
  rw [h, List.append_assoc] at hother
  exact ⟨_, hother.symm, rfl⟩

namespace Cursor

/-- A part is answered by its reader, at the place where the reader ends. -/
theorem exists_result {s : Step} (hs : s.ReadsPart) :
    ∃ reader : Reader, LooksOneAhead reader ∧ ∀ cursor : Cursor, cursor.Agrees →
      (cursor.step s).2 = cursor.leaving (reader cursor.remaining).rest ∧
        (cursor.step s).1 = (reader cursor.remaining).resultAt (cursor.step s).2.position := by
  obtain ⟨reader, hl, -, hstep⟩ := exists_reader hs
  refine ⟨reader, hl, fun cursor ha => ?_⟩
  rw [hstep cursor ha]
  cases reader cursor.remaining <;> exact ⟨rfl, rfl⟩

section

variable {s : Step} {cursor other : Cursor}

/-- Where the same text remains, the same is read, and places are counted from elsewhere. -/
theorem step_shifted (hs : s.ReadsPart) (ha : cursor.Agrees) (ha' : other.Agrees)
    (hr : other.remaining = cursor.remaining) {n : Nat} (hn : 0 ≤ cursor.position)
    (hp : other.position = n + cursor.position) :
    (other.step s).1 = (cursor.step s).1.shifted n ∧
      (other.step s).2.position = n + (cursor.step s).2.position ∧
        (other.step s).2.current = (cursor.step s).2.current := by
  obtain ⟨reader, -, hstep⟩ := exists_result hs
  obtain ⟨hreached, hanswer⟩ := hstep cursor ha
  obtain ⟨hreached', hanswer'⟩ := hstep other ha'
  have hnonneg : 0 ≤ (cursor.step s).2.position := by
    rw [hreached, position_leaving]
    omega
  have hplace : (other.step s).2.position = n + (cursor.step s).2.position := by
    rw [hreached, hreached', position_leaving, position_leaving, hr, hp, Int.add_assoc]
  refine ⟨?_, hplace, ?_⟩
  · rw [hanswer, hanswer', hplace, hr, Outcome.resultAt_add n hnonneg]
  · rw [hreached, hreached', hr]
    rfl

/-- Where the text that remains agrees up to the character at which reading ends, the same is
read. -/
theorem step_ahead (hs : s.ReadsPart) (ha : cursor.Agrees) (ha' : other.Agrees)
    (hp : other.position = cursor.position) {taken rest rest' : List Char}
    (hr : cursor.remaining = taken ++ rest) (hr' : other.remaining = taken ++ rest')
    (hhead : rest'.head? = rest.head?)
    (hend : (cursor.step s).2.position = cursor.position + taken.length) :
    (other.step s).1 = (cursor.step s).1 ∧
      (other.step s).2.position = (cursor.step s).2.position ∧
        (other.step s).2.current = (cursor.step s).2.current := by
  obtain ⟨reader, hl, hstep⟩ := exists_result hs
  obtain ⟨hreached, hanswer⟩ := hstep cursor ha
  obtain ⟨hreached', hanswer'⟩ := hstep other ha'
  -- where the reader ends is told by the place, since what it leaves is an end of the text
  have hrest : (reader cursor.remaining).rest = rest := by
    obtain ⟨front, hfront⟩ := (hl cursor.remaining).suffix
    have hlength := congrArg List.length hfront
    have hlength' := congrArg List.length hr
    rw [List.length_append] at hlength hlength'
    rw [hreached, position_leaving] at hend
    exact (List.append_inj' (hfront.trans hr) (by omega)).2
  have hahead : reader other.remaining = (reader cursor.remaining).leaving rest' :=
    hr' ▸ (hl cursor.remaining).ahead hr hrest hhead
  have hrest' : (reader other.remaining).rest = rest' := by
    rw [hahead, Outcome.rest_leaving]
  have hplace : (other.step s).2.position = (cursor.step s).2.position := by
    rw [hend, hreached', hrest', position_leaving, hr', hp, List.length_append, Nat.add_sub_cancel]
  refine ⟨?_, hplace, ?_⟩
  · rw [hanswer, hanswer', hplace, hahead, Outcome.resultAt_leaving]
  · rw [hreached, hreached', hrest, hrest']
    exact congrArg Option.toList hhead

end

/-- **Reading is local.**  Behind another text a part is read in the same way, and its places are
counted from there.  If reading ends before the end of the text, then a text that agrees with it up
to the character where reading ends is read in the same way. -/
theorem step_is_local {before text : List Char} {s : Step} (hs : s.ReadsPart)
    {steps steps' : List Step} (halone : ((start text).after steps).position = 0)
    (hbehind : ((start (before ++ text)).after steps').position = before.length) :
    let alone := ((start text).after steps).step s
    let behind := ((start (before ++ text)).after steps').step s
    (behind.1 = alone.1.shifted before.length ∧
        behind.2.position = before.length + alone.2.position ∧
          behind.2.current = alone.2.current) ∧
      ∀ (other : List Char) (steps'' : List Step) (p : Nat),
        ((start other).after steps'').position = 0 → alone.2.position = p → p < text.length →
          other.take (p + 1) = text.take (p + 1) →
            let changed := ((start other).after steps'').step s
            changed.1 = alone.1 ∧ changed.2.position = p ∧
              changed.2.current = alone.2.current := by
  obtain ⟨ha, htext⟩ := agrees_after text steps
  obtain ⟨ha', htext'⟩ := agrees_after (before ++ text) steps'
  have hremaining : ((start text).after steps).remaining = text :=
    (remaining_of_first halone).trans htext
  refine ⟨step_shifted hs ha ha' ?_ (Int.le_of_eq halone.symm) ?_, ?_⟩
  · rw [hremaining, remaining_of_nonneg (by omega), htext', hbehind, Int.toNat_natCast,
      List.drop_left]
  · rw [hbehind, halone, Int.add_zero]
  · intro other steps'' p hother hp hlt htake
    obtain ⟨ha'', htext''⟩ := agrees_after other steps''
    have hremaining'' : ((start other).after steps'').remaining = other :=
      (remaining_of_first hother).trans htext''
    have hlength : (text.take p).length = p := List.length_take_of_le (Nat.le_of_lt hlt)
    have hparts := (List.take_append_drop p text).symm
    have hdrop : text.drop p ≠ [] := by
      rw [Ne, List.drop_eq_nil_iff]
      omega
    have htaken : other.take ((text.take p).length + 1) =
        (text.take p ++ text.drop p).take ((text.take p).length + 1) := by
      rw [hlength, ← hparts, htake]
    obtain ⟨rest', hrest', hhead⟩ := exists_rest_of_take hdrop htaken
    rw [← hp]
    refine step_ahead hs ha ha'' (hother.trans halone.symm) (hremaining.trans hparts)
      (hremaining''.trans hrest') hhead ?_
    rw [hlength, halone, Int.zero_add, hp]

/-- A malformed number is found behind a minus sign as it is on its own, three places further on,
and what follows the parenthesis behind it does not matter. -/
theorem step_is_local_malformed :
    let before := "(7-".toList
    let text := "2*1.2.)4".toList
    let other := "2*1.2.)+0".toList
    let alone := ((start text).after [.next]).step .expression
    let behind := ((start (before ++ text)).after
      [.next, .take ['('], .next, .next]).step .expression
    let changed := ((start other).after [.next]).step .expression
    alone.1 = .value (.error ⟨.number "1.2.".toList, 6⟩) ∧ alone.2.position = 6 ∧
      behind.1 = .value (.error ⟨.number "1.2.".toList, 9⟩) ∧ behind.2.position = 9 ∧
        changed.1 = alone.1 ∧ changed.2.position = 6 := by
  intro before text other alone behind changed
  have hanswer : alone.1 = .value (.error ⟨.number "1.2.".toList, 6⟩) := by decide +kernel
  have hplace : alone.2.position = 6 := by decide +kernel
  have halone : ((start text).after [.next]).position = 0 := by decide +kernel
  have hbefore : ((start (before ++ text)).after
      [.next, .take ['('], .next, .next]).position = before.length := by decide +kernel
  have hother : ((start other).after [.next]).position = 0 := by decide +kernel
  have hpart : Step.expression.ReadsPart := by decide
  obtain ⟨⟨hbehind, hbehind', -⟩, hahead⟩ := step_is_local hpart halone hbefore
  obtain ⟨hchanged, hchanged', -⟩ := hahead other [.next] 6 hother hplace (by decide) (by decide)
  refine ⟨hanswer, hplace, hbehind.trans ?_, hbehind'.trans ?_, hchanged, hchanged'⟩
  · rw [hanswer]
    rfl
  · rw [hplace]
    rfl

end Cursor

end Calculator.Expression
