/-
**Ids are restored by their tokens.**

A token remembers the id that was current when it was given.  It may be used at any time and in any
order, but only once: what it brings back depends on what happened before it was given, and whether
it does so on whether it has been used since.  Steps in which every id that is set is restored
again, the last one first, leave the id as it was.

Main definitions:

* `Calculator.Context.Session.next`, `Calculator.Context.Session.after` — a session after one step
  and after several;
* `Calculator.Context.tokensGiven`, `Calculator.Context.idsGenerated` — the tokens that steps give
  and the ids that they generate;
* `Calculator.Context.Nested` — steps that restore every id that they set.

Main results:

* `Calculator.RequestId.text_generated_inj` — generated ids have different texts;
* `Calculator.Context.Session.getElem?_tokens_next`,
  `Calculator.Context.Session.getElem?_tokens_after` — what becomes of a token in one step and in
  several;
* `Calculator.Context.Session.getElem?_tokens_of_set` — what a token remembers;
* `Calculator.Context.Nested.current_after` — nested steps restore the id they began with;
* `Calculator.Context.Session.ids_are_restored` — **ids are restored by their tokens**.
-/

import Calculator.RequestId
import Mathlib.Data.List.Basic

set_option relaxedAutoImplicit false
set_option autoImplicit false

namespace Calculator

namespace RequestId

/-- Ids that are generated for different numbers are different. -/
theorem text_generated_inj {i j : Nat} (h : (generated i).text = (generated j).text) : i = j := by
  rw [text, text, String.append_left_inj, String.append_right_inj] at h
  have hdigits : Nat.toDigits 10 i = Nat.toDigits 10 j := String.ofList_injective h
  have hj := @Nat.ofDigitChars_ten_toDigits j
  rw [← hdigits] at hj
  exact (@Nat.ofDigitChars_ten_toDigits i).symm.trans hj

end RequestId

namespace Context

/-! ### What steps give -/

/-- The step sets an id. -/
def Step.sets : Step → Bool
  | .set _ => true
  | .reset _ | .get => false

/-- The step sets an id that is generated. -/
def Step.generates : Step → Bool
  | .set offer => (RequestId.offered? offer).isNone
  | .reset _ | .get => false

/-- The number of tokens that steps give: one for each id that is set. -/
def tokensGiven (steps : List Step) : Nat := steps.countP Step.sets

/-- The number of ids that steps generate. -/
def idsGenerated (steps : List Step) : Nat := steps.countP Step.generates

/-- Steps in which every id that is set is restored, the last one first; the first token that they
give has the given number. -/
inductive Nested : Nat → List Step → Prop where
  | nil (first : Nat) : Nested first []
  | get {first : Nat} {steps : List Step} (rest : Nested first steps) : Nested first (.get :: steps)
  | scope {first : Nat} (offer : Option String) {within steps : List Step}
      (inner : Nested (first + 1) within)
      (rest : Nested (first + 1 + tokensGiven within) steps) :
      Nested first (.set offer :: within ++ .reset first :: steps)

/-- Nested steps use no token that was given before them. -/
theorem Nested.reset_not_mem {first : Nat} {steps : List Step} (h : Nested first steps)
    {token : Nat} (hlt : token < first) : .reset token ∉ steps := by
  induction h with
  | nil first => exact List.not_mem_nil
  | get rest ih => simpa using ih hlt
  | @scope first offer within steps inner rest ihinner ihrest =>
      have hne : token ≠ first := Nat.ne_of_lt hlt
      simpa [hne] using And.intro (ihinner (by omega)) (ihrest (by omega))

namespace Session

/-! ### One step -/

/-- The session after a step; a step that is refused changes nothing. -/
def next (session : Session) (s : Step) : Session := (session.step? s).getD session

/-- An id is set: it becomes current, and a token remembers the one before. -/
theorem next_set (session : Session) (offer : Option String) :
    (session.next (.set offer)).context =
      session.context.set (RequestId.choose offer session.generated) := rfl

/-- A token that has not been used brings back what it remembers. -/
theorem step?_reset_of_unused {session : Session} {token : Nat} {previous : Option RequestId}
    (h : session.context.tokens[token]? = some ⟨previous, false⟩) :
    session.step? (.reset token) =
      some ⟨⟨previous, session.context.tokens.set token ⟨previous, true⟩⟩,
        session.generated⟩ := by
  rw [step?, reset?, h]
  rfl

/-- A token that has been used is refused. -/
theorem step?_reset_of_used {session : Session} {token : Nat} {previous : Option RequestId}
    (h : session.context.tokens[token]? = some ⟨previous, true⟩) :
    session.step? (.reset token) = none := by
  rw [step?, reset?_used h]
  rfl

/-- All that a reset can do: nothing, or to bring back what its unused token remembers. -/
theorem next_reset_cases (session : Session) (token : Nat) :
    session.next (.reset token) = session ∨
      ∃ previous, session.context.tokens[token]? = some ⟨previous, false⟩ ∧
        session.next (.reset token) =
          ⟨⟨previous, session.context.tokens.set token ⟨previous, true⟩⟩, session.generated⟩ := by
  cases h : session.context.tokens[token]? with
  | none => exact .inl (by simp [next, step?, reset?, h])
  | some found =>
      obtain ⟨previous, used⟩ := found
      cases used with
      | true => exact .inl (by rw [next, step?_reset_of_used h, Option.getD_none])
      | false =>
          exact .inr ⟨previous, rfl, by rw [next, step?_reset_of_unused h, Option.getD_some]⟩

/-- An id that is set gives a token. -/
theorem length_tokens_next (session : Session) (s : Step) :
    (session.next s).context.tokens.length =
      session.context.tokens.length + if s.sets then 1 else 0 := by
  cases s with
  | set offer =>
      rw [next_set, Context.set, List.length_append]
      rfl
  | get => rfl
  | reset token =>
      rcases session.next_reset_cases token with hsame | ⟨previous, -, hnext⟩
      · rw [hsame]
        rfl
      · rw [hnext, List.length_set]
        rfl

/-- An id that is set without one being offered is generated. -/
theorem generated_next (session : Session) (s : Step) :
    (session.next s).generated = session.generated + if s.generates then 1 else 0 := by
  cases s with
  | set offer =>
      cases hoffer : (RequestId.offered? offer).isNone <;>
        simp [next, step?, Step.generates, hoffer]
  | get => rfl
  | reset token =>
      rcases session.next_reset_cases token with hsame | ⟨previous, -, hnext⟩
      · rw [hsame]
        rfl
      · rw [hnext]
        rfl

/-- **What becomes of a token**: it remembers what it did, and has been used if the step uses it. -/
theorem getElem?_tokens_next {session : Session} {token : Nat} {previous : Option RequestId}
    {used : Bool} (h : session.context.tokens[token]? = some ⟨previous, used⟩) (s : Step) :
    (session.next s).context.tokens[token]? = some ⟨previous, used || s = .reset token⟩ := by
  have hlt : token < session.context.tokens.length := (List.getElem?_eq_some_iff.1 h).1
  cases s with
  | set offer =>
      rw [next_set, Context.set, List.getElem?_append_left hlt, h]
      simp
  | get => simpa [next, step?] using h
  | reset other =>
      by_cases hother : other = token
      · subst hother
        cases used with
        | true => simpa [next, step?_reset_of_used h] using h
        | false => simp [next, step?_reset_of_unused h, List.getElem?_set_self hlt]
      · have hkept : (session.next (.reset other)).context.tokens[token]? =
            session.context.tokens[token]? := by
          rcases session.next_reset_cases other with hsame | ⟨found, -, hnext⟩
          · rw [hsame]
          · rw [hnext, List.getElem?_set_ne hother]
        rw [hkept, h]
        simp [hother]

/-! ### Several steps -/

/-- The session after steps. -/
def after (session : Session) : List Step → Session
  | [] => session
  | s :: steps => (session.next s).after steps

theorem after_append (session : Session) (before steps : List Step) :
    session.after (before ++ steps) = (session.after before).after steps := by
  induction before generalizing session with
  | nil => rfl
  | cons s before ih => exact ih (session.next s)

/-- A run tells of its last step whether it is accepted, and the id that is current after it. -/
theorem run_concat (session : Session) (steps : List Step) (s : Step) :
    session.run (steps ++ [s]) = session.run steps ++
      [(((session.after steps).step? s).isSome,
        (session.after (steps ++ [s])).context.current)] := by
  induction steps generalizing session with
  | nil => rfl
  | cons first steps ih => exact congrArg (_ :: ·) (ih (session.next first))

theorem length_tokens_after (session : Session) (steps : List Step) :
    (session.after steps).context.tokens.length =
      session.context.tokens.length + tokensGiven steps := by
  induction steps generalizing session with
  | nil => rfl
  | cons s steps ih =>
      rw [after, ih, length_tokens_next, tokensGiven, tokensGiven, List.countP_cons]
      omega

theorem generated_after (session : Session) (steps : List Step) :
    (session.after steps).generated = session.generated + idsGenerated steps := by
  induction steps generalizing session with
  | nil => rfl
  | cons s steps ih =>
      rw [after, ih, generated_next, idsGenerated, idsGenerated, List.countP_cons]
      omega

/-- A token remembers what it did, and has been used if some step uses it. -/
theorem getElem?_tokens_after {session : Session} {token : Nat} {previous : Option RequestId}
    {used : Bool} (h : session.context.tokens[token]? = some ⟨previous, used⟩) (steps : List Step) :
    (session.after steps).context.tokens[token]? =
      some ⟨previous, used || .reset token ∈ steps⟩ := by
  induction steps generalizing session used with
  | nil =>
      rw [after, h]
      simp
  | cons s steps ih =>
      rw [after, ih (getElem?_tokens_next h s)]
      simp [Bool.or_assoc, eq_comm]

/-- The token that an id gives remembers the id before it, whatever is done then, and has been used
if it is used then. -/
theorem getElem?_tokens_of_set (session : Session) (offer : Option String) (steps : List Step) :
    (session.after (.set offer :: steps)).context.tokens[session.context.tokens.length]? =
      some ⟨session.context.current, .reset session.context.tokens.length ∈ steps⟩ := by
  have hgiven : (session.next (.set offer)).context.tokens[session.context.tokens.length]? =
      some ⟨session.context.current, false⟩ := by
    rw [next_set, Context.set, List.getElem?_concat_length]
  rw [after, getElem?_tokens_after hgiven]
  simp

end Session

/-! ### Nested steps -/

/-- **Nested steps** restore the id they began with. -/
theorem Nested.current_after {session : Session} {steps : List Step}
    (h : Nested session.context.tokens.length steps) :
    (session.after steps).context.current = session.context.current := by
  generalize hfirst : session.context.tokens.length = first at h
  induction h generalizing session with
  | nil first => rfl
  | get rest ih => exact ih hfirst
  | @scope first offer within steps inner rest ihinner ihrest =>
      subst hfirst
      -- the inner steps do not use the token, so that it restores the id from before the scope
      have hunused : .reset session.context.tokens.length ∉ within :=
        inner.reset_not_mem (Nat.lt_succ_self _)
      have htoken := session.getElem?_tokens_of_set offer within
      simp only [hunused, decide_false] at htoken
      have hlength := session.length_tokens_after (.set offer :: within)
      rw [Session.after_append, Session.after]
      generalize session.after (.set offer :: within) = inside at htoken hlength ⊢
      have hrestored : (inside.next (.reset session.context.tokens.length)).context =
          ⟨session.context.current, inside.context.tokens.set session.context.tokens.length
            ⟨session.context.current, true⟩⟩ := by
        rw [Session.next, Session.step?_reset_of_unused htoken, Option.getD_some]
      have hgiven : tokensGiven (.set offer :: within) = tokensGiven within + 1 :=
        List.countP_cons_of_pos rfl
      have hnext : (inside.next (.reset session.context.tokens.length)).context.tokens.length =
          session.context.tokens.length + 1 + tokensGiven within := by
        rw [hrestored, List.length_set, hlength, hgiven]
        omega
      rw [ihrest hnext, hrestored]

namespace Session

/-! ### The discipline of ids -/

/-- The id that is current after it was set. -/
theorem current_after_concat_set (session : Session) (steps : List Step) (offer : Option String) :
    (session.after (steps ++ [.set offer])).context.current =
      some (RequestId.choose offer (session.generated + idsGenerated steps)) := by
  rw [after_append, after, after, next_set, current_set, generated_after]

/-- **Ids are restored by their tokens.**  No current id is empty; it is the one that was offered,
and an id that is generated differs from all that were generated before.  A token that has not been
used restores the id from before it was given, whatever happened in between, and a token that has
been used is refused and changes nothing.  Nested steps restore the id they began with. -/
theorem ids_are_restored :
    (∀ steps s, start.run (steps ++ [s]) = start.run steps ++
      [(((start.after steps).step? s).isSome, (start.after (steps ++ [s])).context.current)]) ∧
    (∀ steps id, (start.after steps).context.current = some id → id.text ≠ "") ∧
    (∀ steps text, text ≠ "" → ∃ id,
      (start.after (steps ++ [.set (some text)])).context.current = some id ∧ id.text = text) ∧
    (∀ before between offer offer',
      (offer = none ∨ offer = some "") → (offer' = none ∨ offer' = some "") →
      ∃ id id', (start.after (before ++ [.set offer])).context.current = some id ∧
        (start.after (before ++ .set offer :: between ++ [.set offer'])).context.current =
          some id' ∧
        id.text ≠ id'.text) ∧
    (∀ before offer between,
      let token := tokensGiven before
      let session := start.after (before ++ .set offer :: between)
      (.reset token ∉ between → ∃ restored, session.step? (.reset token) = some restored ∧
        restored.context.current = (start.after before).context.current) ∧
      (.reset token ∈ between → session.step? (.reset token) = none ∧
        start.after (before ++ .set offer :: between ++ [.reset token]) = session)) ∧
    ∀ before steps, Nested (tokensGiven before) steps →
      (start.after (before ++ steps)).context.current = (start.after before).context.current := by
  have htokens : ∀ before, (start.after before).context.tokens.length = tokensGiven before := by
    intro before
    rw [length_tokens_after]
    exact Nat.zero_add _
  refine ⟨start.run_concat, ?_, ?_, ?_, ?_, ?_⟩
  · intro steps id _
    exact id.text_ne_empty
  · intro steps text hne
    rw [current_after_concat_set]
    exact ⟨_, rfl, congrArg RequestId.text (RequestId.choose_of_offered _ rfl hne)⟩
  · intro before between offer offer' hoffer hoffer'
    rw [current_after_concat_set, current_after_concat_set]
    refine ⟨_, _, rfl, rfl, ?_⟩
    rw [RequestId.choose_of_not_offered _ hoffer, RequestId.choose_of_not_offered _ hoffer']
    intro heq
    have hgenerates : (Step.set offer).generates = true := by
      rcases hoffer with rfl | rfl <;> rfl
    have hcount : idsGenerated (before ++ .set offer :: between) =
        idsGenerated before + (idsGenerated between + 1) := by
      rw [idsGenerated, List.countP_append, List.countP_cons_of_pos hgenerates]
      rfl
    have hnumber := RequestId.text_generated_inj heq
    omega
  · intro before offer between token session
    have htoken : session.context.tokens[token]? =
        some ⟨(start.after before).context.current, .reset token ∈ between⟩ := by
      have := (start.after before).getElem?_tokens_of_set offer between
      rwa [htokens, ← after_append] at this
    constructor
    · intro hunused
      simp only [hunused, decide_false] at htoken
      exact ⟨_, step?_reset_of_unused htoken, rfl⟩
    · intro hused
      simp only [hused, decide_true] at htoken
      have hrefused := step?_reset_of_used htoken
      refine ⟨hrefused, ?_⟩
      rw [after_append, after, after, next, hrefused, Option.getD_none]
  · intro before steps h
    rw [← htokens before] at h
    rw [after_append, h.current_after]

/-- The tokens of two ids in the order in which they were given: the second one brings back the id
that the first one has ended, and the first one is refused after that. -/
theorem ids_are_restored_in_any_order :
    let session := start.after [.set none, .set (some "a"), .reset 0]
    (∃ restored, session.step? (.reset 1) = some restored ∧
      restored.context.current = some (.generated 0)) ∧ session.step? (.reset 0) = none := by
  intro session
  obtain ⟨-, -, -, -, hreset, -⟩ := ids_are_restored
  exact ⟨(hreset [.set none] (some "a") [.reset 0]).1 (by decide),
    ((hreset [] none [.set (some "a"), .reset 0]).2 (by decide)).1⟩

end Session

end Context

end Calculator
