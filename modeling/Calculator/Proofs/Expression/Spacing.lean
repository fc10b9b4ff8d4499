/-
**Spaces between tokens.**

Where the spaces of a text stand does not matter, as long as its numbers stay what they are: two
texts that are equal without their spaces, and that have the same runs of digits and points, are
scanned alike.  The scan makes the same steps on both, apart from spaces, which it passes over in
every state in which no number is being read.  So they have the same value, or the same fault in
front of the same character.

A text with a value has no space inside a number, since an operator would have to follow the space.
So its spaces can be deleted, and as nothing else is changed by preparing it, a text with a value is
calculated to the display of that value.

Main definitions:

* `Calculator.Expression.numberRuns` — the runs of digits and points in a text;
* `Calculator.Expression.Respaced` — two texts that differ in spaces between tokens only;
* `Calculator.Expression.SameFault` — faults in front of the same character.

Main results:

* `Calculator.Expression.induction_on_runs` — induction over a text, a run at a time;
* `Calculator.Expression.respaced_of_numberRuns` — texts with the same runs differ in such spaces
  only;
* `Calculator.Expression.scan_respaced` — **such texts are scanned alike**;
* `Calculator.Expression.Path.respaced_unspaced` — a text with a value has no space inside a number;
* `Calculator.evaluate_ignores_spaces` — **spaces between tokens do not matter**.
-/

import Calculator.Proofs.Expression.Depth
import Calculator.Proofs.Expression.FirstFault

set_option relaxedAutoImplicit false
set_option autoImplicit false

namespace Calculator

namespace Expression

/-! ### Runs of digits and points -/

/-- The maximal runs of digits and points in a text, from left to right. -/
def numberRuns (text : List Char) : List (List Char) :=
  (text.splitOnP fun c => !isLiteralChar c).filter (· ≠ [])

/-- The text does not begin with a digit or point. -/
def EndsNumber (text : List Char) : Prop := ∀ c, text.head? = some c → isLiteralChar c = false

theorem numberRuns_nil : numberRuns [] = [] := by simp [numberRuns, List.splitOnP_nil]

/-- Runs on the two sides of another character. -/
theorem numberRuns_append_cons {c : Char} (hc : isLiteralChar c = false) (before rest : List Char) :
    numberRuns (before ++ c :: rest) = numberRuns before ++ numberRuns rest := by
  unfold numberRuns
  rw [List.splitOnP_append_cons before rest (by simp [hc]), List.filter_append]

theorem numberRuns_cons {c : Char} (hc : isLiteralChar c = false) (rest : List Char) :
    numberRuns (c :: rest) = numberRuns rest := by
  simpa [numberRuns_nil] using numberRuns_append_cons hc [] rest

theorem numberRuns_space (rest : List Char) : numberRuns (' ' :: rest) = numberRuns rest :=
  numberRuns_cons rfl rest

/-- Digits and points are one run if none of them follows. -/
theorem numberRuns_append {run rest : List Char} (hne : run ≠ [])
    (hr : ∀ c ∈ run, isLiteralChar c = true) (hrest : EndsNumber rest) :
    numberRuns (run ++ rest) = run :: numberRuns rest := by
  have hrun : numberRuns run = [run] := by
    rw [numberRuns, List.splitOnP_eq_singleton fun c hc => by simp [hr c hc]]
    simp [hne]
  cases rest with
  | nil => rw [List.append_nil, hrun, numberRuns_nil]
  | cons c rest =>
      have hc : isLiteralChar c = false := hrest c rfl
      rw [numberRuns_append_cons hc, numberRuns_cons hc, hrun]
      rfl

/-! ### Texts that differ in spaces -/

/-- Two texts that are the same but for spaces, none of which stands inside a number. -/
inductive Respaced : List Char → List Char → Prop where
  | nil : Respaced [] []
  | spaceLeft {text other : List Char} : Respaced text other → Respaced (' ' :: text) other
  | spaceRight {text other : List Char} : Respaced text other → Respaced text (' ' :: other)
  | mark {c : Char} {text other : List Char} : c ≠ ' ' → isLiteralChar c = false →
      Respaced text other → Respaced (c :: text) (c :: other)
  | number {run text other : List Char} : run ≠ [] → (∀ c ∈ run, isLiteralChar c = true) →
      EndsNumber text → EndsNumber other → Respaced text other →
      Respaced (run ++ text) (run ++ other)

/-- A number has no spaces. -/
theorem unspaced_of_isLiteralChar {run : List Char} (h : ∀ c ∈ run, isLiteralChar c = true) :
    unspaced run = run := by
  refine List.filter_eq_self.2 fun c hc => ?_
  simpa using (ne_of_isLiteralChar (h c hc)).1

/-- Without their spaces the two texts are equal. -/
theorem Respaced.unspaced_eq {text other : List Char} (h : Respaced text other) :
    unspaced text = unspaced other := by
  induction h with
  | nil => rfl
  | spaceLeft _ ih => exact ih
  | spaceRight _ ih => exact ih
  | mark hc _ _ ih => rw [unspaced_cons hc, unspaced_cons hc, ih]
  | number _ _ _ _ _ ih => rw [unspaced_append, unspaced_append, ih]

/-- A text that begins with a digit or point begins with a run of them. -/
theorem exists_number_run {c : Char} (hc : isLiteralChar c = true) (rest : List Char) :
    ∃ run more, c :: rest = run ++ more ∧ run ≠ [] ∧ (∀ d ∈ run, isLiteralChar d = true) ∧
      EndsNumber more := by
  refine ⟨(c :: rest).takeWhile isLiteralChar, (c :: rest).dropWhile isLiteralChar,
    List.takeWhile_append_dropWhile.symm, ?_, ?_, ?_⟩
  · simp [hc]
  · exact List.all_eq_true.1 List.all_takeWhile
  · intro d hd
    have hnot := List.head?_dropWhile_not isLiteralChar (c :: rest)
    rw [hd] at hnot
    simpa using hnot

/-- Induction over a text with a whole run of digits and points at a time. -/
theorem induction_on_runs {P : List Char → Prop} (nil : P [])
    (mark : ∀ (c : Char) (rest : List Char), isLiteralChar c = false → P rest → P (c :: rest))
    (number : ∀ number rest : List Char, number ≠ [] → (∀ c ∈ number, isLiteralChar c = true) →
      EndsNumber rest → P rest → P (number ++ rest)) (text : List Char) : P text := by
  induction hn : text.length using Nat.strongRecOn generalizing text with
  | ind n ih =>
      cases text with
      | nil => exact nil
      | cons c rest =>
          cases hc : isLiteralChar c with
          | false => exact mark c rest hc (ih _ (by simp at hn; omega) rest rfl)
          | true =>
              obtain ⟨run, more, hsplit, hne, hrun, hmore⟩ := exists_number_run hc rest
              have hlt : more.length < n := by
                have hpos := List.length_pos_of_ne_nil hne
                rw [hsplit, List.length_append] at hn
                omega
              rw [hsplit]
              exact number run more hne hrun hmore (ih _ hlt more rfl)

/-- A text is empty, or begins with a space or with another character. -/
theorem nil_or_space_or_mark (text : List Char) :
    text = [] ∨ (∃ rest, text = ' ' :: rest) ∨ ∃ c rest, c ≠ ' ' ∧ text = c :: rest := by
  cases text with
  | nil => exact .inl rfl
  | cons c rest =>
      by_cases hc : c = ' '
      · exact .inr (.inl ⟨rest, hc ▸ rfl⟩)
      · exact .inr (.inr ⟨c, rest, hc, rfl⟩)

/-- **Texts with the same characters and the same runs** differ in spaces between tokens only. -/
theorem respaced_of_numberRuns {text other : List Char} (hu : unspaced text = unspaced other)
    (hr : numberRuns text = numberRuns other) : Respaced text other := by
  -- By induction on the length of both, as a whole run is taken from each of them at a time.
  induction hn : text.length + other.length using Nat.strongRecOn generalizing text other with
  | ind n ih =>
      rcases nil_or_space_or_mark text with rfl | ⟨text, rfl⟩ | ⟨c, text, hc, rfl⟩
      · rcases nil_or_space_or_mark other with rfl | ⟨other, rfl⟩ | ⟨d, other, hd, rfl⟩
        · exact .nil
        · rw [numberRuns_space] at hr
          exact .spaceRight (ih _ (by simp at hn ⊢; omega) hu hr rfl)
        · rw [unspaced_cons hd] at hu
          simp [unspaced] at hu
      · rw [numberRuns_space] at hr
        exact .spaceLeft (ih _ (by simp at hn ⊢; omega) hu hr rfl)
      · rcases nil_or_space_or_mark other with rfl | ⟨other, rfl⟩ | ⟨d, other, hd, rfl⟩
        · rw [unspaced_cons hc] at hu
          simp [unspaced] at hu
        · rw [numberRuns_space] at hr
          exact .spaceRight (ih _ (by simp at hn ⊢; omega) hu hr rfl)
        · have hcd : c = d := by
            rw [unspaced_cons hc, unspaced_cons hd] at hu
            exact (List.cons.inj hu).1
          subst hcd
          cases hl : isLiteralChar c with
          | false =>
              rw [unspaced_cons hc, unspaced_cons hc] at hu
              rw [numberRuns_cons hl, numberRuns_cons hl] at hr
              exact .mark hc hl (ih _ (by simp at hn; omega) (List.cons.inj hu).2 hr rfl)
          | true =>
              obtain ⟨run, more, ht, hne, hrun, hm⟩ := exists_number_run hl text
              obtain ⟨run', more', ht', hne', hrun', hm'⟩ := exists_number_run hl other
              rw [ht, ht', numberRuns_append hne hrun hm, numberRuns_append hne' hrun' hm'] at hr
              obtain ⟨rfl, hruns⟩ := List.cons.inj hr
              rw [ht, ht', unspaced_append, unspaced_append] at hu
              have hlt : more.length + more'.length < n := by
                have hpos := List.length_pos_of_ne_nil hne
                rw [ht, ht', List.length_append, List.length_append] at hn
                omega
              rw [ht, ht']
              exact .number hne hrun hm hm' (ih _ hlt (List.append_cancel_left hu) hruns rfl)

/-! ### Scans of such texts -/

/-- A scan that ends, as far as spaces do not matter: with its value, or with its cause and what
remains without spaces. -/
def ending (result : Except Stop Double) : Except (Cause × List Char) Double :=
  match result with
  | .ok value => .ok value
  | .error stop => .error (stop.cause, unspaced stop.rest)

@[simp] theorem ending_ok (value : Double) : ending (.ok value) = .ok value := rfl

@[simp] theorem ending_error (cause : Cause) (rest : List Char) :
    ending (.error ⟨cause, rest⟩) = .error (cause, unspaced rest) := rfl

/-- A space is passed over unless a number is being read. -/
theorem step_space {s : State} (hs : s.read? = none) : s.step ' ' = .ok s := by
  obtain ⟨reading, groups⟩ := s
  cases reading with
  | operand p => rfl
  | literal p read => simp [State.read?] at hs
  | term sum value => rfl

theorem Transition.eq_of_space {s next : State} (h : Transition s ' ' next) (hs : s.read? = none) :
    next = s :=
  Except.ok.inj (h.step.symm.trans (step_space hs))

/-- A digit or point is refused behind a term. -/
theorem step_literal_of_term {c : Char} (hc : isLiteralChar c = true) (sum : Double → Double)
    (value : Double) (groups : List Pending) :
    (State.mk (.term sum value) groups).step c = .error (.character c) := by
  cases hstep : (State.mk (.term sum value) groups).step c with
  | error cause =>
      obtain ⟨rfl, -⟩ := afterTerm_error hstep
      rfl
  | ok next =>
      have hl := (step_eq_ok_iff.1 hstep).isLiteralChar_eq
      rw [hc] at hl
      exact absurd hl (by decide)

/-- **Texts that differ in spaces between tokens are scanned alike.** -/
theorem scan_respaced {limit : Nat} {s : State} {text other : List Char} (h : Respaced text other)
    (hs : s.read? = none) (hl : s.cost ≤ limit) :
    ending (scan limit s text) = ending (scan limit s other) := by
  induction h generalizing s with
  | nil => rfl
  | spaceLeft _ ih => rw [scan_cons_of_step (step_space hs) hl, ih hs hl]
  | spaceRight _ ih => rw [scan_cons_of_step (step_space hs) hl, ih hs hl]
  | @mark c text other hc hlit hrest ih =>
      have hu : unspaced (c :: text) = unspaced (c :: other) := by
        rw [unspaced_cons hc, unspaced_cons hc, hrest.unspaced_eq]
      cases hn : s.step c with
      | error cause => rw [scan_cons_of_error hn, scan_cons_of_error hn, ending_error, ending_error, hu]
      | ok next =>
          by_cases hnext : next.cost ≤ limit
          · have hread : next.read? = none := by rw [(step_eq_ok_iff.1 hn).read_eq, hlit]; rfl
            rw [scan_cons_of_step hn hnext, scan_cons_of_step hn hnext, ih hread hnext]
          · have hd := Nat.not_le.1 hnext
            rw [scan_cons_of_depth hn hd, scan_cons_of_depth hn hd, ending_error, ending_error,
              hrest.unspaced_eq]
  | @number run text other hne hrun ht ho hrest ih =>
      obtain ⟨reading, groups⟩ := s
      cases reading with
      | operand p =>
          rw [scan_number p groups hl hne hrun ht, scan_number p groups hl hne hrun ho]
          cases literalValue run with
          | error cause => simp [hrest.unspaced_eq]
          | ok value =>
              refine ih rfl ?_
              rw [State.cost_operand] at hl
              rw [State.cost_fill]
              omega
      | literal p read => simp [State.read?] at hs
      | term sum value =>
          obtain ⟨c, more, rfl⟩ := List.exists_cons_of_ne_nil hne
          have hstep := step_literal_of_term (hrun c List.mem_cons_self) sum value groups
          have hu : unspaced (c :: more ++ text) = unspaced (c :: more ++ other) := by
            rw [unspaced_append, unspaced_append, hrest.unspaced_eq]
          simp only [List.cons_append] at hu ⊢
          rw [scan_cons_of_error hstep, scan_cons_of_error hstep, ending_error, ending_error, hu]

/-! ### Faults -/

/-- Faults with the same cause, in front of the same character of the two texts: with spaces deleted
the same text stands before them. -/
structure SameFault (text other : List Char) (fault fault' : Fault) : Prop where
  cause : fault.cause = fault'.cause
  before : unspaced (text.take fault.position) = unspaced (other.take fault'.position)
  character : ∀ c, fault.cause = .character c →
    c ≠ ' ' ∧ text[fault.position]? = some c ∧ other[fault'.position]? = some c

/-- What remains where a scan stops is an end of the text. -/
theorem suffix_of_scan {limit : Nat} {s : State} {text : List Char} {stop : Stop}
    (h : scan limit s text = .error stop) : stop.rest <:+ text := by
  induction text generalizing s with
  | nil =>
      rw [scan] at h
      cases hf : s.finish with
      | ok value => simp [hf] at h
      | error cause =>
          simp only [hf, Except.error.injEq] at h
          exact h ▸ List.suffix_rfl
  | cons c rest ih =>
      cases hn : s.step c with
      | error cause =>
          rw [scan_cons_of_error hn, Except.error.injEq] at h
          exact h ▸ List.suffix_rfl
      | ok next =>
          by_cases hl : next.cost ≤ limit
          · rw [scan_cons_of_step hn hl] at h
            exact (ih h).trans (List.suffix_cons c rest)
          · rw [scan_cons_of_depth hn (Nat.not_le.1 hl), Except.error.injEq] at h
            exact h ▸ List.suffix_cons c rest

/-- A character that is refused is the first of what remains. -/
theorem exists_rest_of_character {limit : Nat} {s : State} (hs : s.cost ≤ limit) {text : List Char}
    {c : Char} {rest : List Char} (h : scan limit s text = .error ⟨.character c, rest⟩) :
    c ≠ ' ' ∧ ∃ more, rest = c :: more := by
  cases halt_of_scan hs h with
  | refused ht ha hc =>
      rcases step_error hc with ⟨_, _, _, _, _, hcause⟩ | ⟨hcause, hne, -⟩
      · simp at hcause
      · cases hcause
        exact ⟨hne, _, rfl⟩
  | ended ha hf =>
      rcases finish_error hf with ⟨_, _, _, _, hcause⟩ | ⟨-, hcause⟩
      · simp at hcause
      · simp at hcause

/-- Scans that end alike up to spaces give faults in front of the same character. -/
theorem sameFault_of_ending {text other : List Char} {stop stop' : Stop}
    (hu : unspaced text = unspaced other) (h : scan nestingLimit .start text = .error stop)
    (h' : scan nestingLimit .start other = .error stop')
    (he : ending (.error stop) = ending (.error stop')) :
    SameFault text other (stop.fault text) (stop'.fault other) := by
  obtain ⟨cause, rest⟩ := stop
  obtain ⟨cause', rest'⟩ := stop'
  simp only [ending_error, Except.error.injEq, Prod.mk.injEq] at he
  obtain ⟨rfl, hrest⟩ := he
  obtain ⟨before, rfl⟩ := suffix_of_scan h
  obtain ⟨before', rfl⟩ := suffix_of_scan h'
  rw [unspaced_append, unspaced_append, hrest] at hu
  rw [fault_append, fault_append]
  refine ⟨rfl, ?_, fun c hc => ?_⟩
  · rw [List.take_left, List.take_left]
    exact List.append_cancel_right hu
  · obtain rfl : cause = .character c := hc
    obtain ⟨hne, more, rfl⟩ := exists_rest_of_character (Nat.zero_le _) h
    obtain ⟨-, more', rfl⟩ := exists_rest_of_character (Nat.zero_le _) h'
    exact ⟨hne, by simp, by simp⟩

/-- Texts that differ in spaces between tokens have the same value or the same fault. -/
theorem evaluateText_respaced {text other : List Char} (h : Respaced text other) :
    (∃ value, evaluateText text = .ok value ∧ evaluateText other = .ok value) ∨
      ∃ fault fault', evaluateText text = .error fault ∧ evaluateText other = .error fault' ∧
        SameFault text other fault fault' := by
  have hstart : State.start.cost ≤ nestingLimit := Nat.zero_le _
  have hending := scan_respaced h rfl hstart
  cases hs : scan nestingLimit .start text with
  | ok value =>
      rw [hs, ending_ok] at hending
      cases ho : scan nestingLimit .start other with
      | ok value' =>
          obtain rfl : value = value' := by simpa [ho] using hending
          exact .inl ⟨value, evaluateText_of_scan_ok hs, evaluateText_of_scan_ok ho⟩
      | error stop => simp [ho, ending] at hending
  | error stop =>
      cases ho : scan nestingLimit .start other with
      | ok value => simp [hs, ho, ending] at hending
      | error stop' =>
          rw [hs, ho] at hending
          exact .inr ⟨_, _, evaluateText_of_scan hs, evaluateText_of_scan ho,
            sameFault_of_ending h.unspaced_eq hs ho hending⟩

/-! ### Texts with a value -/

/-- Behind a term the first character that is no space is no digit or point either. -/
theorem Path.endsNumber_unspaced {sum : Double → Double} {value : Double} {groups : List Pending}
    {text : List Char} {last : State} (h : Path ⟨.term sum value, groups⟩ text last) :
    EndsNumber (unspaced text) := by
  induction text with
  | nil => exact fun c hc => by simp [unspaced] at hc
  | cons c text ih =>
      cases h with
      | @cons _ next _ _ _ hc h =>
          by_cases hs : c = ' '
          · subst hs
            obtain rfl := hc.eq_of_space rfl
            exact ih h
          · rw [unspaced_cons hs]
            rintro d hd
            obtain rfl : c = d := Option.some.inj hd
            exact hc.isLiteralChar_eq

/-- Along digits and points a path comes to a number. -/
theorem Path.exists_literal {s middle : State} {run : List Char} (h : Path s run middle)
    (hne : run ≠ []) (hr : ∀ c ∈ run, isLiteralChar c = true) :
    ∃ p read, middle.reading = .literal p read := by
  obtain ⟨front, c, rfl⟩ := (List.eq_nil_or_concat run).resolve_left hne
  rw [List.concat_eq_append] at h
  obtain ⟨before, -, hlast⟩ := h.exists_middle
  cases hlast with
  | cons hc hnil =>
      cases hnil
      have hread := hc.read_eq
      rw [if_pos (hr c (by simp))] at hread
      obtain ⟨reading, groups⟩ := middle
      cases reading with
      | operand p => simp [State.read?] at hread
      | literal p read => exact ⟨p, read, rfl⟩
      | term sum value => simp [State.read?] at hread

/-- A number that has ended completes a term, along whose path the text goes on. -/
theorem Path.exists_fill {p : Pending} {read : List Char} {groups : List Pending}
    {more : List Char} {last : State} (h : Path ⟨.literal p read, groups⟩ more last)
    (hm : EndsNumber more) (hne : more ≠ []) :
    ∃ value, Path ⟨p.fill value, groups⟩ more last := by
  cases h with
  | nil => exact absurd rfl hne
  | @cons _ _ _ c _ hc h =>
      cases hc with
      | further hl =>
          rw [hm c rfl] at hl
          exact absurd hl (by decide)
      | @ended _ _ _ value _ _ _ _ hc => exact ⟨value, .cons hc h⟩

/-- **A path has no space inside a number**, since behind the space another term would begin. -/
theorem Path.respaced_unspaced {s last : State} {text : List Char} (h : Path s text last)
    (hs : s.read? = none) : Respaced text (unspaced text) := by
  induction text using induction_on_runs generalizing s with
  | nil => exact .nil
  | mark c rest hl ih =>
      cases h with
      | @cons _ next _ _ _ hstep h =>
          by_cases hc : c = ' '
          · subst hc
            obtain rfl := hstep.eq_of_space hs
            exact .spaceLeft (ih h hs)
          · have hread : next.read? = none := by
              rw [hstep.read_eq, hl]
              rfl
            rw [unspaced_cons hc]
            exact .mark hc hl (ih h hread)
  | number run more hne hrun hm ih =>
      rw [unspaced_append, unspaced_of_isLiteralChar hrun]
      obtain ⟨⟨reading, groups⟩, hbefore, hrest⟩ := h.exists_middle
      obtain ⟨p, read, rfl⟩ := hbefore.exists_literal hne hrun
      by_cases hnil : more = []
      · subst hnil
        exact .number hne hrun hm hm .nil
      · obtain ⟨value, hterm⟩ := hrest.exists_fill hm hnil
        exact .number hne hrun hm hterm.endsNumber_unspaced (ih hterm rfl)

/-- The spaces of a text with a value can be deleted. -/
theorem evaluateText_unspaced {text : List Char} {value : Double}
    (h : evaluateText text = .ok value) : evaluateText (unspaced text) = .ok value := by
  obtain ⟨-, last, hp, -⟩ := evaluateText_eq_ok_iff_path.1 h
  obtain ⟨value', hv, hu⟩ | ⟨fault, -, hf, -⟩ := evaluateText_respaced (hp.respaced_unspaced rfl)
  · obtain rfl : value' = value := Except.ok.inj (hv.symm.trans h)
    exact hu
  · rw [h] at hf
    simp at hf

/-! ### Preparation -/

/-- A character that is passed is a space, or stands for itself. -/
theorem Transition.eq_space_or_plain {s next : State} {c : Char} (h : Transition s c next) :
    c = ' ' ∨ plain c = [c] := by
  induction h with
  | space => exact .inl rfl
  | plus => exact .inr rfl
  | minus => exact .inr rfl
  | opened => exact .inr rfl
  | digit hc => exact .inr (plain_of_isLiteralChar hc).1
  | further hc => exact .inr (plain_of_isLiteralChar hc).1
  | ended _ _ _ ih => exact ih
  | spaceBehind => exact .inl rfl
  | multiplied hc => rcases multiplicative_cases hc with ⟨rfl, -⟩ | ⟨rfl, -⟩ <;> exact .inr rfl
  | added hc => rcases additive_cases hc with ⟨rfl, -⟩ | ⟨rfl, -⟩ <;> exact .inr rfl
  | closed => exact .inr rfl

theorem Path.eq_space_or_plain {s last : State} {text : List Char} (h : Path s text last) :
    ∀ c ∈ text, c = ' ' ∨ plain c = [c] := by
  induction h with
  | nil => exact fun c hc => absurd hc List.not_mem_nil
  | cons hc _ ih => exact List.forall_mem_cons.2 ⟨hc.eq_space_or_plain, ih⟩

/-- Of such characters only the spaces are changed. -/
theorem plainText_eq_unspaced {text : List Char} (h : ∀ c ∈ text, c = ' ' ∨ plain c = [c]) :
    plainText text = unspaced text := by
  induction text with
  | nil => rfl
  | cons c rest ih =>
      obtain ⟨hc, hrest⟩ := List.forall_mem_cons.1 h
      by_cases hs : c = ' '
      · subst hs
        exact ih hrest
      · rw [plainText_cons, hc.resolve_left hs, ih hrest, unspaced_cons hs]
        rfl

/-- Behind an operator no text ends, so that none is dropped. -/
theorem isPrepared_unspaced {text : List Char} {value : Double}
    (h : evaluateText text = .ok value) :
    plainText text = unspaced text ∧ IsPrepared (unspaced text) := by
  obtain ⟨-, last, hp, hf⟩ := evaluateText_eq_ok_iff_path.1 h
  have hplain := hp.eq_space_or_plain
  refine ⟨plainText_eq_unspaced hplain, fun c hc => ?_, ?_⟩
  · obtain ⟨hmem, hs⟩ := List.mem_filter.1 hc
    exact (hplain c hmem).resolve_left (by simpa using hs)
  · have hneeds : needsOperand text = false := by
      rw [hp.accounts.operand, needsOperand_of_finish hf]
    rcases List.eq_nil_or_concat (unspaced text) with hnil | ⟨front, c, hlast⟩
    · rw [needsOperand, hnil] at hneeds
      exact absurd hneeds (by decide)
    · rw [needsOperand, hlast, List.concat_eq_append, List.getLast?_concat, Option.all_some,
        Bool.or_eq_false_iff] at hneeds
      exact ⟨front, c, by rw [hlast, List.concat_eq_append], hneeds.1⟩

end Expression

open Expression

/-- **Spaces between tokens do not matter.**  Two expressions that are equal without their spaces,
and that have the same runs of digits and points, have the same value or the same fault in front of
the same character.  An expression with a value has the same value without its spaces, which is all
that its preparation deletes, and so its display is that of the value. -/
theorem evaluate_ignores_spaces :
    (∀ expression other : String, unspaced expression.toList = unspaced other.toList →
      numberRuns expression.toList = numberRuns other.toList →
      (∃ value, evaluate expression = .ok value ∧ evaluate other = .ok value) ∨
        ∃ fault fault', evaluate expression = .error fault ∧ evaluate other = .error fault' ∧
          SameFault expression.toList other.toList fault fault') ∧
    ∀ (expression : String) (value : Double), evaluate expression = .ok value →
      evaluate (String.ofList (unspaced expression.toList)) = .ok value ∧
        evaluateText (prepared expression.toList) = .ok value ∧
        calculate expression = value.display := by
  refine ⟨fun expression other hu hr => evaluateText_respaced (respaced_of_numberRuns hu hr), ?_⟩
  intro expression value h
  have hvalue := evaluateText_unspaced h
  obtain ⟨hplain, hprepared⟩ := isPrepared_unspaced h
  have hshown := hprepared.dropPending_eq
  refine ⟨?_, ?_, ?_⟩
  · rw [evaluate, String.toList_ofList]
    exact hvalue
  · rw [prepared, hplain, hshown]
    exact hvalue
  · refine calculate_of_ok ?_
    unfold outcome
    dsimp only
    rw [hplain, if_neg hprepared.ne_nil, hshown, hvalue]

/-- Spaces around operators, and around a parenthesis that is refused. -/
theorem evaluate_ignores_spaces_around_operators :
    evaluate "1 + 2 * 3 " = .ok (Double.ofDecimal false ⟨7, 0⟩) ∧
      evaluate "1+2*3" = .ok (Double.ofDecimal false ⟨7, 0⟩) ∧
      calculate "1 + 2 * 3 " = (Double.ofDecimal false ⟨7, 0⟩).display ∧
      evaluate "2 * ) 3" = .error ⟨.character ')', 4⟩ ∧
      ∃ fault, evaluate "2*)3" = .error fault ∧
        SameFault "2 * ) 3".toList "2*)3".toList ⟨.character ')', 4⟩ fault := by
  obtain ⟨hrespaced, hunspaced⟩ := evaluate_ignores_spaces
  have hvalue : evaluate "1 + 2 * 3 " = .ok (Double.ofDecimal false ⟨7, 0⟩) := by decide +kernel
  have hfault : evaluate "2 * ) 3" = .error ⟨.character ')', 4⟩ := by decide +kernel
  obtain ⟨hdeleted, -, hshown⟩ := hunspaced _ _ hvalue
  refine ⟨hvalue, hdeleted, hshown, hfault, ?_⟩
  obtain ⟨value, hv, -⟩ | ⟨fault, fault', hf, ho, hsame⟩ :=
    hrespaced "2 * ) 3" "2*)3" (by decide +kernel) (by decide +kernel)
  · rw [hfault] at hv
    simp at hv
  · obtain rfl : ⟨.character ')', 4⟩ = fault := Except.error.inj (hfault.symm.trans hf)
    exact ⟨fault', ho, hsame⟩

end Calculator
