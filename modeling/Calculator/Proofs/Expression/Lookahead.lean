/-
**One character ahead.**

A reader takes a beginning of the text.  Where it ends is decided by the first character behind it,
whether a value has been read or reading has stopped; what comes after that character has no part in
it.  So the text behind a reader may be replaced by any other that begins alike, and the reader ends
at the same place with the same answer.

Main definitions:

* `Calculator.Expression.Outcome.rest`, `Calculator.Expression.Outcome.leaving` — the text that
  remains, and the same outcome with another text;
* `Calculator.Expression.LooksOneAheadOn`, `Calculator.Expression.LooksOneAhead` — a reader depends
  on what it takes and on one character more;
* `Calculator.Expression.Outcome.andThen`, `Calculator.Expression.closing`,
  `Calculator.Expression.joined` — reading on after a value;
* `Calculator.Expression.TakesCharacter` — a reader that gives a value takes more than spaces.

Main results:

* `Calculator.Expression.dropWhile_ahead` — runs of characters end at the first character behind
  them;
* `Calculator.Expression.LooksOneAheadOn.andThen` — so does what reads on after a value;
* `Calculator.Expression.looksOneAhead_leftAssociative` — so do operands joined by the operators of
  one level;
* `Calculator.Expression.looksOneAhead_factor`, `Calculator.Expression.looksOneAhead_term`,
  `Calculator.Expression.looksOneAhead_expression` — **the readers of the grammar look one
  character ahead**;
* `Calculator.Expression.takesCharacter_factor`, `Calculator.Expression.takesCharacter_term`,
  `Calculator.Expression.takesCharacter_expression` — none of them gives a value for nothing.
-/

import Calculator.Proofs.Expression.Remainder
import Mathlib.Data.List.Basic

set_option relaxedAutoImplicit false
set_option autoImplicit false

namespace Calculator.Expression

/-! ### What an outcome leaves -/

/-- The text that remains, also where reading stopped. -/
def Outcome.rest : Outcome → List Char
  | .error stop => stop.rest
  | .ok (_, rest) => rest

/-- The same outcome with another text behind it. -/
def Outcome.leaving (rest : List Char) : Outcome → Outcome
  | .error stop => .error ⟨stop.cause, rest⟩
  | .ok (value, _) => .ok (value, rest)

@[simp] theorem Outcome.rest_error (stop : Stop) : Outcome.rest (.error stop) = stop.rest := rfl

@[simp] theorem Outcome.rest_ok (value : Double) (rest : List Char) :
    Outcome.rest (.ok (value, rest)) = rest := rfl

@[simp] theorem Outcome.leaving_ok (value : Double) (rest rest' : List Char) :
    Outcome.leaving rest' (.ok (value, rest)) = .ok (value, rest') := rfl

@[simp] theorem Outcome.rest_leaving (outcome : Outcome) (rest : List Char) :
    (outcome.leaving rest).rest = rest := by
  cases outcome <;> rfl

@[simp] theorem Outcome.leaving_leaving (outcome : Outcome) (rest rest' : List Char) :
    (outcome.leaving rest).leaving rest' = outcome.leaving rest' := by
  cases outcome <;> rfl

/-- A reader takes a beginning of the text, and what decides behind it is the first character. -/
structure LooksOneAheadOn (reader : Reader) (text : List Char) : Prop where
  suffix : (reader text).rest <:+ text
  ahead : ∀ {taken rest rest' : List Char}, text = taken ++ rest → (reader text).rest = rest →
    rest'.head? = rest.head? → reader (taken ++ rest') = (reader text).leaving rest'

/-- A reader depends on what it takes and on one character more. -/
def LooksOneAhead (reader : Reader) : Prop := ∀ text, LooksOneAheadOn reader text

/-! ### Texts that begin alike -/

section

variable {taken rest rest' : List Char}

theorem head?_append_ahead (h : rest'.head? = rest.head?) (front : List Char) :
    (front ++ rest').head? = (front ++ rest).head? := by
  cases front with
  | nil => exact h
  | cons c front => rfl

/-- What lies between two ends of a text. -/
theorem exists_between {middle : List Char} (hm : middle <:+ taken ++ rest) (hr : rest <:+ middle) :
    ∃ before between, taken = before ++ between ∧ middle = between ++ rest := by
  obtain ⟨between, rfl⟩ := hr
  obtain ⟨before, hb⟩ := hm
  rw [← List.append_assoc] at hb
  exact ⟨before, between, (List.append_cancel_right hb).symm, rfl⟩

/-- A run of characters of one kind ends at the first character behind it. -/
theorem dropWhile_ahead (front : List Char) {kind : Char → Bool}
    (h : (taken ++ rest).dropWhile kind = front ++ rest)
    (hhead : rest'.head? = rest.head?) : (taken ++ rest').dropWhile kind = front ++ rest' := by
  induction taken with
  | nil =>
      have hlength := (List.dropWhile_suffix (l := rest) kind).length_le
      rw [List.nil_append] at h
      rw [h, List.length_append] at hlength
      obtain rfl : front = [] := List.length_eq_zero_iff.1 (by omega)
      cases rest with
      | nil =>
          rw [List.head?_eq_none_iff.1 hhead]
          rfl
      | cons c more =>
          obtain ⟨more', rfl⟩ := List.head?_eq_some_iff.1 hhead
          have hc : kind c = false := by
            have := List.head?_dropWhile_not kind (c :: more)
            rw [h] at this
            simpa using this
          simp [hc]
  | cons c taken ih =>
      by_cases hc : kind c = true
      · rw [List.cons_append, List.dropWhile_cons_of_pos hc] at h ⊢
        exact ih h
      · rw [List.cons_append, List.dropWhile_cons_of_neg hc, ← List.cons_append] at h
        rw [List.cons_append, List.dropWhile_cons_of_neg hc, ← List.append_cancel_right h]
        rfl

/-- The run itself is then the same. -/
theorem takeWhile_ahead (front : List Char) {kind : Char → Bool}
    (h : (taken ++ rest).dropWhile kind = front ++ rest)
    (hhead : rest'.head? = rest.head?) :
    (taken ++ rest').takeWhile kind = (taken ++ rest).takeWhile kind := by
  have hparts := List.takeWhile_append_dropWhile (p := kind) (l := taken ++ rest)
  have hparts' := List.takeWhile_append_dropWhile (p := kind) (l := taken ++ rest')
  rw [h, ← List.append_assoc] at hparts
  rw [dropWhile_ahead front h hhead, ← List.append_assoc] at hparts'
  have htaken := List.append_cancel_right hparts
  have htaken' := List.append_cancel_right hparts'
  exact List.append_cancel_right (htaken'.trans htaken.symm)

theorem skipSpaces_ahead (front : List Char) (h : skipSpaces (taken ++ rest) = front ++ rest)
    (hhead : rest'.head? = rest.head?) : skipSpaces (taken ++ rest') = front ++ rest' :=
  dropWhile_ahead front h hhead

end

/-! ### Readers and their beginnings -/

section

variable {reader inner : Reader} {text more : List Char} {c : Char}

theorem LooksOneAhead.leavesSuffix (h : LooksOneAhead reader) : LeavesSuffix reader := by
  intro text rest value hr
  have hsuffix := (h text).suffix
  rwa [hr] at hsuffix

/-- Taking nothing. -/
theorem looksOneAhead_leaving (outcome : Outcome) :
    LooksOneAhead fun text => outcome.leaving text := by
  refine fun text => ⟨⟨[], Outcome.rest_leaving outcome text⟩, ?_⟩
  intro taken rest rest' htext hrest _
  rw [Outcome.rest_leaving] at hrest
  obtain rfl : taken = [] := List.append_left_eq_self.1 (htext.symm.trans hrest)
  rw [Outcome.leaving_leaving, List.nil_append]

theorem looksOneAhead_stop (cause : Cause) : LooksOneAhead fun text => .error ⟨cause, text⟩ :=
  looksOneAhead_leaving (.error ⟨cause, []⟩)

theorem looksOneAhead_done (value : Double) : LooksOneAhead fun text => .ok (value, text) :=
  looksOneAhead_leaving (.ok (value, []))

/-- A reader that passes over spaces only, because of the character behind them. -/
theorem looksOneAheadOn_skipSpaces (value : Double)
    (h : ∀ {other : List Char}, (skipSpaces other).head? = (skipSpaces text).head? →
      reader other = .ok (value, skipSpaces other)) : LooksOneAheadOn reader text where
  suffix := by
    rw [h rfl]
    exact skipSpaces_suffix text
  ahead {taken rest rest'} htext hrest hhead := by
    rw [h rfl, Outcome.rest_ok] at hrest
    have hskip : skipSpaces (taken ++ rest') = rest' :=
      skipSpaces_ahead [] (htext ▸ hrest) hhead
    have hother : (skipSpaces (taken ++ rest')).head? = (skipSpaces text).head? := by
      rw [hskip, hrest, hhead]
    rw [h hother, h rfl, hskip, Outcome.leaving_ok]

/-- A reader that goes on behind a first character as another one does. -/
theorem LooksOneAheadOn.behind (hi : LooksOneAheadOn inner more)
    (hc : ∀ {text more : List Char}, skipSpaces text = c :: more → reader text = inner more)
    (hs : skipSpaces text = c :: more) : LooksOneAheadOn reader text where
  suffix := by
    rw [hc hs]
    exact hi.suffix.trans ((List.suffix_cons c more).trans (hs ▸ skipSpaces_suffix text))
  ahead {taken rest rest'} htext hrest hhead := by
    rw [hc hs] at hrest ⊢
    obtain ⟨between, hb⟩ : rest <:+ more := hrest ▸ hi.suffix
    rw [htext, ← hb] at hs
    have hs' : skipSpaces (taken ++ rest') = c :: (between ++ rest') :=
      skipSpaces_ahead (c :: between) hs hhead
    rw [hc hs', hi.ahead hb.symm hrest hhead]

/-- A reader that reads from a first character on as another one does. -/
theorem LooksOneAheadOn.from (hi : LooksOneAheadOn inner (c :: more))
    (hc : ∀ {text more : List Char}, skipSpaces text = c :: more → reader text = inner (c :: more))
    (hs : skipSpaces text = c :: more) : LooksOneAheadOn reader text where
  suffix := by
    rw [hc hs]
    exact hi.suffix.trans (hs ▸ skipSpaces_suffix text)
  ahead {taken rest rest'} htext hrest hhead := by
    rw [hc hs] at hrest ⊢
    obtain ⟨between, hb⟩ : rest <:+ c :: more := hrest ▸ hi.suffix
    rw [htext, ← hb] at hs
    have hs' := skipSpaces_ahead between hs hhead
    obtain ⟨more', hmore⟩ : ∃ more', between ++ rest' = c :: more' := by
      refine List.head?_eq_some_iff.1 ?_
      rw [head?_append_ahead hhead, hb]
      rfl
    rw [hc (hs'.trans hmore), ← hmore, hi.ahead hb.symm hrest hhead]

end

/-! ### One reader after another -/

/-- Reads on, with a value, in the text that remains after it. -/
def Outcome.andThen (next : Double → Reader) : Outcome → Outcome
  | .error stop => .error stop
  | .ok (value, rest) => next value rest

/-- Keeps a value, and takes a closing parenthesis if it is there. -/
def closing (value : Double) : Reader := fun text => Outcome.closed (.ok (value, text))

theorem Outcome.negated_eq_andThen (outcome : Outcome) :
    outcome.negated = outcome.andThen fun value rest => .ok (-value, rest) := by
  cases outcome <;> rfl

theorem Outcome.closed_eq_andThen (outcome : Outcome) :
    outcome.closed = outcome.andThen closing := by
  cases outcome <;> rfl

section

variable {reader : Reader} {text : List Char}

/-- **What reads on looks one character ahead** if the readers do, the second one where it reads. -/
theorem LooksOneAheadOn.andThen {next : Double → Reader} (h : LooksOneAheadOn reader text)
    (hn : ∀ {value : Double} {middle : List Char}, reader text = .ok (value, middle) →
      LooksOneAheadOn (next value) middle) :
    LooksOneAheadOn (fun text => (reader text).andThen next) text := by
  have hsuffix := h.suffix
  cases hr : reader text with
  | error stop =>
      rw [hr, Outcome.rest_error] at hsuffix
      refine ⟨by rw [hr]; exact hsuffix, fun {taken rest rest'} htext hrest hhead => ?_⟩
      rw [hr] at hrest
      rw [h.ahead htext (by rw [hr]; exact hrest) hhead, hr]
      rfl
  | ok found =>
      obtain ⟨value, middle⟩ := found
      have hlook := hn hr
      rw [hr, Outcome.rest_ok] at hsuffix
      refine ⟨by rw [hr]; exact hlook.suffix.trans hsuffix,
        fun {taken rest rest'} htext hrest hhead => ?_⟩
      rw [hr] at hrest
      -- the first reader ends before the second one, which decides where the text ends for both
      obtain ⟨before, between, rfl, rfl⟩ := exists_between (htext ▸ hsuffix)
        (hrest ▸ hlook.suffix)
      rw [List.append_assoc] at htext ⊢
      rw [h.ahead htext (by rw [hr]; rfl) (head?_append_ahead hhead between), hr]
      exact hlook.ahead rfl hrest hhead

theorem LooksOneAhead.negated (h : LooksOneAhead reader) :
    LooksOneAhead fun text => (reader text).negated := by
  intro text
  simp only [Outcome.negated_eq_andThen]
  exact (h text).andThen fun {value middle} _ => looksOneAhead_done (-value) middle

theorem looksOneAhead_closing (value : Double) : LooksOneAhead (closing value) := by
  intro text
  by_cases hp : (skipSpaces text).head? = some ')'
  · obtain ⟨more, hmore⟩ := List.head?_eq_some_iff.1 hp
    exact (looksOneAhead_done value more).behind (fun h => closed_of_parenthesis h value) hmore
  · refine looksOneAheadOn_skipSpaces value fun {other} hhead => closed_of_other ?_ value
    rwa [hhead]

theorem LooksOneAhead.closed (h : LooksOneAhead reader) :
    LooksOneAhead fun text => (reader text).closed := by
  intro text
  simp only [Outcome.closed_eq_andThen]
  exact (h text).andThen fun {value middle} _ => looksOneAhead_closing value middle

end

/-! ### Levels of operators -/

/-- Joins all further operands to a value. -/
def joined (operators : Operators) (operand : Reader) (value : Double) : Reader := fun text =>
  joinFurther operators operand text.length value text

theorem leftAssociative_eq_andThen (operators : Operators) (operand : Reader) :
    leftAssociative operators operand =
      fun text => (operand text).andThen (joined operators operand) := by
  funext text
  rw [leftAssociative]
  cases operand text <;> rfl

section

variable {operators : Operators} {operand : Reader}

/-- Bounds that are high enough make no difference. -/
theorem joinFurther_bound (ho : LeavesSuffix operand) {bound bound' : Nat} {text : List Char}
    (hb : text.length ≤ bound) (hb' : text.length ≤ bound') (value : Double) :
    joinFurther operators operand bound value text =
      joinFurther operators operand bound' value text := by
  induction bound generalizing bound' text value with
  | zero =>
      obtain rfl := List.length_eq_zero_iff.1 (Nat.le_zero.1 hb)
      rw [joinFurther_of_exhausted (exhausted_nil operators),
        joinFurther_of_exhausted (exhausted_nil operators)]
  | succ bound ih =>
      rcases exhausted_or_operator operators text with he | ⟨c, more, operation, ht, hc⟩
      · rw [joinFurther_of_exhausted he, joinFurther_of_exhausted he]
      · have hlength := (skipSpaces_suffix text).length_le
        rw [ht, List.length_cons] at hlength
        obtain ⟨bound', rfl⟩ : ∃ b, bound' = b + 1 := ⟨bound' - 1, by omega⟩
        rw [joinFurther_of_operator ht hc, joinFurther_of_operator ht hc]
        cases hm : operand more with
        | error stop => rfl
        | ok found =>
            have hmiddle := (ho hm).length_le
            exact ih (by omega) (by omega) _

theorem joined_of_operator (ho : LeavesSuffix operand) {text more : List Char} {c : Char}
    {operation : Double → Double → Double} (ht : skipSpaces text = c :: more)
    (hc : operators c = some operation) (value : Double) :
    joined operators operand value text =
      (operand more).andThen fun further => joined operators operand (operation value further) := by
  have hlength := (skipSpaces_suffix text).length_le
  rw [ht, List.length_cons] at hlength
  obtain ⟨bound, hbound⟩ : ∃ b, text.length = b + 1 := ⟨text.length - 1, by omega⟩
  rw [joined, hbound, joinFurther_of_operator ht hc]
  cases hm : operand more with
  | error stop => rfl
  | ok found =>
      have hmiddle := (ho hm).length_le
      exact joinFurther_bound ho (by omega) (Nat.le_refl _) _

/-- Joining ends at the first character behind the last operand. -/
theorem looksOneAhead_joined (ho : LooksOneAhead operand) (value : Double) :
    LooksOneAhead (joined operators operand value) := by
  intro text
  induction hn : text.length using Nat.strongRecOn generalizing text value with
  | ind n ih =>
      rcases exhausted_or_operator operators text with he | ⟨c, more, operation, ht, hc⟩
      · refine looksOneAheadOn_skipSpaces value fun {other} hhead => ?_
        have hother : Exhausted operators (skipSpaces other) :=
          ⟨skipSpaces_skipSpaces other, fun c hc => he.head c (hhead ▸ hc)⟩
        exact joinFurther_of_exhausted hother _ _ _
      · have hlength := (skipSpaces_suffix text).length_le
        rw [ht, List.length_cons] at hlength
        have hmore := (ho more).andThen fun {further middle} hm => by
          have hmiddle := (ho.leavesSuffix hm).length_le
          exact ih middle.length (by omega) (operation value further) middle rfl
        exact hmore.behind (fun h => joined_of_operator ho.leavesSuffix h hc value) ht

/-- **Operands joined by the operators of one level end at the first character behind them.** -/
theorem looksOneAhead_leftAssociative (ho : LooksOneAhead operand) :
    LooksOneAhead (leftAssociative operators operand) := by
  intro text
  rw [leftAssociative_eq_andThen]
  exact (ho text).andThen fun {value middle} _ => looksOneAhead_joined ho value middle

end

/-! ### The readers of the grammar -/

theorem rest_number (text : List Char) : (number text).rest = text.dropWhile isLiteralChar := by
  unfold number
  dsimp only
  split <;> rfl

theorem looksOneAhead_number : LooksOneAhead number := by
  intro text
  refine ⟨?_, fun htext hrest hhead => ?_⟩
  · rw [rest_number]
    exact List.dropWhile_suffix _
  · rw [rest_number] at hrest
    subst htext
    have hdrop := dropWhile_ahead [] hrest hhead
    have htake := takeWhile_ahead [] hrest hhead
    unfold number
    dsimp only
    rw [hdrop, htake]
    split <;> rfl

/-- **A factor ends at the first character behind it.** -/
theorem looksOneAhead_factor (budget : Nat) : LooksOneAhead (factor budget) := by
  induction budget using Nat.strongRecOn with
  | ind budget ih =>
      intro text
      cases opening text with
      | nothing ht =>
          refine ⟨?_, fun htext hrest hhead => ?_⟩
          · rw [factor_nil ht]
            exact List.nil_suffix
          · rw [factor_nil ht, Outcome.rest_error] at hrest
            subst hrest
            rw [List.head?_eq_none_iff.1 hhead, ← htext, factor_nil ht]
            rfl
      | plus more ht =>
          cases budget with
          | zero =>
              exact (looksOneAhead_stop .depth more).behind
                (fun h => factor_sign_of_depth h (.inl rfl)) ht
          | succ budget =>
              exact (ih budget (by omega) more).behind (fun h => factor_plus h budget) ht
      | minus more ht =>
          cases budget with
          | zero =>
              exact (looksOneAhead_stop .depth more).behind
                (fun h => factor_sign_of_depth h (.inr rfl)) ht
          | succ budget =>
              exact ((ih budget (by omega)).negated more).behind (fun h => factor_minus h budget) ht
      | group more ht =>
          by_cases hb : budget < 3
          · exact (looksOneAhead_stop .depth more).behind (fun h => factor_group_of_depth h hb) ht
          · obtain ⟨budget, rfl⟩ : ∃ b, budget = b + 3 := ⟨budget - 3, by omega⟩
            have hinner : LooksOneAhead (expression budget) :=
              looksOneAhead_leftAssociative (looksOneAhead_leftAssociative (ih budget (by omega)))
            exact (hinner.closed more).behind (fun h => factor_group h budget) ht
      | literal c more ht hc =>
          exact (looksOneAhead_number (c :: more)).from (fun h => factor_literal h hc budget) ht
      | other c more ht hc =>
          exact (looksOneAhead_stop (.character c) (c :: more)).from
            (fun h => factor_other h hc budget) ht

theorem looksOneAhead_term (budget : Nat) : LooksOneAhead (term budget) :=
  looksOneAhead_leftAssociative (looksOneAhead_factor budget)

theorem looksOneAhead_expression (budget : Nat) : LooksOneAhead (expression budget) :=
  looksOneAhead_leftAssociative (looksOneAhead_term budget)

/-! ### No value for nothing -/

/-- A reader that gives a value takes a character behind the spaces. -/
def TakesCharacter (reader : Reader) : Prop :=
  ∀ {text rest : List Char} {value : Double}, reader text = .ok (value, rest) →
    ∃ c more, skipSpaces text = c :: more ∧ rest <:+ more

theorem takesCharacter_factor (budget : Nat) : TakesCharacter (factor budget) := by
  intro text rest value h
  cases opening text with
  | nothing ht => simp [factor_nil ht] at h
  | plus more ht =>
      cases budget with
      | zero => simp [factor_sign_of_depth ht (.inl rfl)] at h
      | succ budget =>
          rw [factor_plus ht] at h
          exact ⟨_, more, ht, leavesSuffix_factor budget h⟩
  | minus more ht =>
      cases budget with
      | zero => simp [factor_sign_of_depth ht (.inr rfl)] at h
      | succ budget =>
          rw [factor_minus ht] at h
          obtain ⟨result, hr, -⟩ := negated_ok h
          exact ⟨_, more, ht, leavesSuffix_factor budget hr⟩
  | group more ht =>
      by_cases hb : budget < 3
      · simp [factor_group_of_depth ht hb] at h
      · obtain ⟨budget, rfl⟩ : ∃ b, budget = b + 3 := ⟨budget - 3, by omega⟩
        rw [factor_group ht] at h
        have hsuffix := ((looksOneAhead_expression budget).closed more).suffix
        rw [h] at hsuffix
        exact ⟨_, more, ht, hsuffix⟩
  | literal c more ht hc =>
      rw [factor_literal ht hc] at h
      have hrest := rest_number (c :: more)
      rw [h, Outcome.rest_ok, List.dropWhile_cons_of_pos hc] at hrest
      exact ⟨c, more, ht, hrest ▸ List.dropWhile_suffix _⟩
  | other c more ht hc => simp [factor_other ht hc] at h

theorem takesCharacter_leftAssociative {operators : Operators} {operand : Reader}
    (ho : LooksOneAhead operand) (ht : TakesCharacter operand) :
    TakesCharacter (leftAssociative operators operand) := by
  intro text rest value h
  rw [leftAssociative] at h
  cases hr : operand text with
  | error stop => simp [hr] at h
  | ok found =>
      obtain ⟨first, middle⟩ := found
      obtain ⟨c, more, hs, hmiddle⟩ := ht hr
      simp only [hr] at h
      have hsuffix : (joined operators operand first middle).rest <:+ middle :=
        (looksOneAhead_joined ho first middle).suffix
      rw [joined, h] at hsuffix
      exact ⟨c, more, hs, hsuffix.trans hmiddle⟩

theorem takesCharacter_term (budget : Nat) : TakesCharacter (term budget) :=
  takesCharacter_leftAssociative (looksOneAhead_factor budget) (takesCharacter_factor budget)

theorem takesCharacter_expression (budget : Nat) : TakesCharacter (expression budget) :=
  takesCharacter_leftAssociative (looksOneAhead_term budget) (takesCharacter_term budget)

end Calculator.Expression
