/-
**The nesting cost of a text.**

An open parenthesis costs three and a sign that waits for its operand costs one.  The nesting cost
of a text is the highest cost that is reached while it is scanned from left to right, up to its
first fault or its end.  It does not mention any limit; a limit stops exactly the scans whose cost
exceeds it, and makes no difference to the others.

Main definitions:

* `Calculator.Expression.State.peak` — the highest cost from a state on;
* `Calculator.Expression.nestingCost` — the highest cost of a whole text.

Main results:

* `Calculator.Expression.scan_eq_of_peak_le` — limits that are not exceeded do not matter;
* `Calculator.Expression.scan_depth_iff` — **a scan stops for depth exactly if its limit is
  exceeded**.
-/

import Calculator.Proofs.Expression.Agreement

set_option relaxedAutoImplicit false
set_option autoImplicit false

namespace Calculator.Expression

/-! ### The highest cost -/

/-- The highest cost from a state on, up to the first fault or the end of the text. -/
def State.peak (s : State) : List Char → Nat
  | [] => s.cost
  | c :: rest =>
      match s.step c with
      | .error _ => s.cost
      | .ok next => max s.cost (next.peak rest)

/-- The nesting cost of a text. -/
def nestingCost (text : List Char) : Nat := State.start.peak text

theorem peak_cons_of_step {s next : State} {c : Char} (h : s.step c = .ok next)
    (rest : List Char) : s.peak (c :: rest) = max s.cost (next.peak rest) := by
  rw [State.peak, h]

theorem peak_cons_of_error {s : State} {c : Char} {cause : Cause} (h : s.step c = .error cause)
    (rest : List Char) : s.peak (c :: rest) = s.cost := by
  rw [State.peak, h]

theorem cost_le_peak (s : State) (text : List Char) : s.cost ≤ s.peak text := by
  cases text with
  | nil => exact Nat.le_refl _
  | cons c rest =>
      cases h : s.step c with
      | error cause => exact Nat.le_of_eq (peak_cons_of_error h rest).symm
      | ok next => rw [peak_cons_of_step h]; exact Nat.le_max_left _ _

/-! ### Limits -/

/-- Limits that are not exceeded do not matter. -/
theorem scan_eq_of_peak_le {limit limit' : Nat} {s : State} {text : List Char}
    (h : s.peak text ≤ limit) (h' : s.peak text ≤ limit') :
    scan limit s text = scan limit' s text := by
  induction text generalizing s with
  | nil => rfl
  | cons c rest ih =>
      cases hs : s.step c with
      | error cause => rw [scan_cons_of_error hs, scan_cons_of_error hs]
      | ok next =>
          rw [peak_cons_of_step hs] at h h'
          have hn := cost_le_peak next rest
          rw [scan_cons_of_step hs (by omega), scan_cons_of_step hs (by omega)]
          exact ih (by omega) (by omega)

/-- No step runs into the limit by itself. -/
theorem ne_depth_of_step {s : State} {c : Char} {cause : Cause} (h : s.step c = .error cause) :
    cause ≠ .depth := by
  rcases step_error h with ⟨_, _, _, _, _, rfl⟩ | ⟨rfl, -⟩
  · simp
  · simp

theorem ne_depth_of_finish {s : State} {cause : Cause} (h : s.finish = .error cause) :
    cause ≠ .depth := by
  rcases finish_error h with ⟨_, _, _, _, rfl⟩ | ⟨-, rfl⟩
  · simp
  · simp

/-- **A scan stops for depth exactly if its limit is exceeded.** -/
theorem scan_depth_iff {limit : Nat} {s : State} (hs : s.cost ≤ limit) (text : List Char) :
    (∃ rest, scan limit s text = .error ⟨.depth, rest⟩) ↔ limit < s.peak text := by
  induction text generalizing s with
  | nil =>
      constructor
      · rintro ⟨rest, h⟩
        rw [scan] at h
        cases hf : s.finish with
        | ok value => simp [hf] at h
        | error cause =>
            simp only [hf, Except.error.injEq, Stop.mk.injEq] at h
            exact absurd h.1 (ne_depth_of_finish hf)
      · intro h
        exact absurd h (Nat.not_lt.2 hs)
  | cons c rest ih =>
      cases hn : s.step c with
      | error cause =>
          rw [scan_cons_of_error hn, peak_cons_of_error hn]
          constructor
          · rintro ⟨rest', h⟩
            simp only [Except.error.injEq, Stop.mk.injEq] at h
            exact absurd h.1 (ne_depth_of_step hn)
          · intro h
            exact absurd h (Nat.not_lt.2 hs)
      | ok next =>
          have hmax : limit < max s.cost (next.peak rest) ↔ limit < next.peak rest := by omega
          rw [peak_cons_of_step hn, hmax]
          by_cases hl : next.cost ≤ limit
          · rw [scan_cons_of_step hn hl, ih hl]
          · have hd : limit < next.cost := Nat.not_le.1 hl
            rw [scan_cons_of_depth hn hd]
            exact ⟨fun _ => Nat.lt_of_lt_of_le hd (cost_le_peak next rest), fun _ => ⟨rest, rfl⟩⟩

/-- A text with a value is nested within the limit. -/
theorem peak_le_of_scan_ok {limit : Nat} {s : State} (hs : s.cost ≤ limit) {text : List Char}
    {value : Double} (h : scan limit s text = .ok value) : s.peak text ≤ limit := by
  refine Nat.not_lt.1 fun hl => ?_
  obtain ⟨rest, hd⟩ := (scan_depth_iff hs text).2 hl
  rw [h] at hd
  simp at hd

end Calculator.Expression
