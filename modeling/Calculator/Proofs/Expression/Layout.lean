/-
**Layout and glyphs.**

Spaces and line feeds stand for nothing in a typed expression, and times, divide and minus may be
typed as glyphs or as plain operators.  Replacing one kind of character after the other in the whole
text gives the same as replacing each character by what it stands for, because nothing that is put
in is replaced again.  So a character that is no layout stands for one character, which is an
operator exactly if an operator or a glyph was typed, and the first and the last character and the
number of operators of the replaced text can be told from the typed one.

Main definitions:

* `Calculator.Expression.replacements`, `Calculator.Expression.substituted` — **the replacements, one
  after the other**;
* `Calculator.Expression.isLayout`, `Calculator.Expression.StartsInLayout`,
  `Calculator.Expression.EndsInLayout` — spaces and line feeds, and where a text has them;
* `Calculator.Expression.significant` — a typed text without layout;
* `Calculator.Expression.EndsInOperator` — an operator is the last character of a text.

Main results:

* `Calculator.Expression.substituted_eq_plainText` — **one replacement after the other** is one pass;
* `Calculator.Expression.endsInOperator_significant_iff` — the last character that is no layout;
* `Calculator.Expression.countP_isTypedOperator` — operators are counted alike;
* `Calculator.Expression.head?_typed_iff`, `Calculator.Expression.getLast?_typed_iff` — what the
  first and the last character of a typed text tell.
-/

import Calculator.Calculation

set_option relaxedAutoImplicit false
set_option autoImplicit false

namespace Calculator

namespace Expression

/-! ### One replacement after the other -/

/-- What is replaced in a typed text, and by what, in this order. -/
def replacements : List (Char × List Char) :=
  [('\n', []), (' ', []), ('×', ['*']), ('÷', ['/']), ('−', ['-'])]

/-- The text with every occurrence of one character replaced. -/
def replaceAll (text : List Char) (rule : Char × List Char) : List Char :=
  text.flatMap fun c => if c = rule.1 then rule.2 else [c]

/-- The text with all replacements made, each in what the one before it has left. -/
def substituted (text : List Char) : List Char := replacements.foldl replaceAll text

theorem replaceAll_append (text other : List Char) (rule : Char × List Char) :
    replaceAll (text ++ other) rule = replaceAll text rule ++ replaceAll other rule :=
  List.flatMap_append

theorem foldl_replaceAll_append (rules : List (Char × List Char)) (text other : List Char) :
    rules.foldl replaceAll (text ++ other) =
      rules.foldl replaceAll text ++ rules.foldl replaceAll other := by
  induction rules generalizing text other with
  | nil => rfl
  | cons rule rules ih => rw [List.foldl_cons, replaceAll_append, ih, List.foldl_cons, List.foldl_cons]

/-- A single character goes through all replacements, but what is put in for it stays. -/
theorem substituted_singleton (c : Char) : substituted [c] = plain c := by
  by_cases hn : c = '\n'
  · subst hn; rfl
  by_cases hs : c = ' '
  · subst hs; rfl
  by_cases ht : c = '×'
  · subst ht; rfl
  by_cases hd : c = '÷'
  · subst hd; rfl
  by_cases hm : c = '−'
  · subst hm; rfl
  simp [substituted, replacements, replaceAll, plain, hn, hs, ht, hd, hm]

/-- **One replacement after the other** is one pass over the characters. -/
theorem substituted_eq_plainText (text : List Char) : substituted text = plainText text := by
  induction text with
  | nil => rfl
  | cons c rest ih =>
      have hsplit := foldl_replaceAll_append replacements [c] rest
      rw [List.singleton_append] at hsplit
      rw [substituted, hsplit, ← substituted, ← substituted, substituted_singleton, ih,
        plainText_cons]

/-! ### Layout -/

/-- Spaces and line feeds. -/
def isLayout (c : Char) : Bool := c == '\n' || c == ' '

/-- The text begins with layout. -/
def StartsInLayout (text : List Char) : Prop := text.head?.any isLayout = true

/-- The text ends in layout. -/
def EndsInLayout (text : List Char) : Prop := text.getLast?.any isLayout = true

/-- The last character is an operator. -/
def EndsInOperator (text : List Char) : Prop := text.getLast?.any isOperator = true

instance (text : List Char) : Decidable (StartsInLayout text) := inferInstanceAs (Decidable (_ = _))

instance (text : List Char) : Decidable (EndsInLayout text) := inferInstanceAs (Decidable (_ = _))

instance (text : List Char) : Decidable (EndsInOperator text) := inferInstanceAs (Decidable (_ = _))

/-- A typed text without its layout. -/
def significant (text : List Char) : List Char := text.filter fun c => !isLayout c

variable {c : Char} {text : List Char}

theorem plain_of_isLayout (h : isLayout c = true) : plain c = [] := by
  simp only [isLayout, Bool.or_eq_true, beq_iff_eq] at h
  exact if_pos h

/-- **A character that is no layout stands for one character**, which tells whether an operator, and
whether a minus sign was typed. -/
theorem exists_plain_eq (h : isLayout c = false) :
    ∃ d, plain c = [d] ∧ isOperator d = isTypedOperator c ∧ (d == '-') = isTypedMinus c := by
  simp only [isLayout, Bool.or_eq_false_iff, beq_eq_false_iff_ne, ne_eq] at h
  obtain ⟨hn, hs⟩ := h
  by_cases ht : c = '×'
  · subst ht; exact ⟨'*', rfl, rfl, rfl⟩
  by_cases hd : c = '÷'
  · subst hd; exact ⟨'/', rfl, rfl, rfl⟩
  by_cases hm : c = '−'
  · subst hm; exact ⟨'-', rfl, rfl, rfl⟩
  refine ⟨c, by simp [plain, hn, hs, ht, hd, hm], ?_, ?_⟩
  · rw [isTypedOperator, beq_false_of_ne ht, beq_false_of_ne hd, beq_false_of_ne hm, Bool.or_false,
      Bool.or_false, Bool.or_false]
  · rw [isTypedMinus, beq_false_of_ne hm, Bool.or_false]

/-- Layout is no operator. -/
theorem isTypedOperator_of_isLayout (h : isLayout c = true) :
    isTypedOperator c = false ∧ isTypedMinus c = false := by
  simp only [isLayout, Bool.or_eq_true, beq_iff_eq] at h
  rcases h with rfl | rfl
  · exact ⟨rfl, rfl⟩
  · exact ⟨rfl, rfl⟩

/-- Layout alone stands for nothing. -/
theorem plainText_of_isLayout (h : ∀ c ∈ text, isLayout c = true) : plainText text = [] := by
  induction text with
  | nil => rfl
  | cons c rest ih =>
      obtain ⟨hc, hrest⟩ := List.forall_mem_cons.1 h
      rw [plainText_cons, plain_of_isLayout hc, ih hrest]
      rfl

/-- A typed operator with layout around it stands for one operator. -/
theorem exists_plainText_operator {before after : List Char} {o : Char}
    (ho : isTypedOperator o = true) (hb : ∀ c ∈ before, isLayout c = true)
    (ha : ∀ c ∈ after, isLayout c = true) :
    ∃ d, isOperator d = true ∧ plainText (before ++ o :: after) = [d] := by
  have hlayout : isLayout o = false := by
    refine Bool.eq_false_iff.2 fun hl => ?_
    rw [(isTypedOperator_of_isLayout hl).1] at ho
    exact absurd ho (by decide)
  obtain ⟨d, hd, hoperator, -⟩ := exists_plain_eq hlayout
  refine ⟨d, by rw [hoperator, ho], ?_⟩
  rw [plainText_append, plainText_of_isLayout hb, plainText_cons, hd, plainText_of_isLayout ha]
  rfl

/-! ### Operators in a typed text -/

/-- Layout does not count in what a text stands for. -/
theorem plainText_significant (text : List Char) : plainText (significant text) = plainText text := by
  induction text with
  | nil => rfl
  | cons c rest ih =>
      cases hl : isLayout c with
      | true =>
          have hskip : significant (c :: rest) = significant rest := by simp [significant, hl]
          rw [hskip, ih, plainText_cons, plain_of_isLayout hl]
          rfl
      | false =>
          have hkeep : significant (c :: rest) = c :: significant rest := by simp [significant, hl]
          rw [hkeep, plainText_cons, plainText_cons, ih]

/-- Operators are counted alike in a typed text and in what it stands for. -/
theorem countP_isTypedOperator (text : List Char) :
    text.countP isTypedOperator = (plainText text).countP isOperator := by
  induction text with
  | nil => rfl
  | cons c rest ih =>
      rw [plainText_cons, List.countP_append, List.countP_cons, ih]
      cases hl : isLayout c with
      | true => simp [plain_of_isLayout hl, (isTypedOperator_of_isLayout hl).1]
      | false =>
          obtain ⟨d, hd, hoperator, -⟩ := exists_plain_eq hl
          simp [hd, List.countP_cons, hoperator, Nat.add_comm]

/-- The last character typed is an operator exactly if an operator is the last character that the
text stands for, and no layout follows it. -/
theorem getLast?_typed_iff (text : List Char) :
    text.getLast?.any isTypedOperator = true ↔
      EndsInOperator (plainText text) ∧ ¬ EndsInLayout text := by
  rcases List.eq_nil_or_concat text with rfl | ⟨front, c, rfl⟩
  · simp [EndsInOperator]
  · rw [List.concat_eq_append, EndsInOperator, EndsInLayout, plainText_append,
      List.getLast?_concat, Option.any_some, Option.any_some]
    cases hl : isLayout c with
    | true => simp [(isTypedOperator_of_isLayout hl).1]
    | false =>
        obtain ⟨d, hd, hoperator, -⟩ := exists_plain_eq hl
        rw [plainText_cons, hd, plainText_nil, List.append_nil, List.getLast?_concat,
          Option.any_some, hoperator]
        simp

/-- The first character typed is a minus sign exactly if a minus sign is the first character that
the text stands for, and no layout precedes it. -/
theorem head?_typed_iff (text : List Char) :
    text.head?.any isTypedMinus = true ↔
      (plainText text).head? = some '-' ∧ ¬ StartsInLayout text := by
  cases text with
  | nil => simp
  | cons c rest =>
      rw [plainText_cons, StartsInLayout, List.head?_cons, Option.any_some, Option.any_some]
      cases hl : isLayout c with
      | true => simp [(isTypedOperator_of_isLayout hl).2]
      | false =>
          obtain ⟨d, hd, -, hminus⟩ := exists_plain_eq hl
          rw [hd, ← hminus]
          simp

/-- **The last character that is no layout** is an operator or a glyph exactly if an operator is the
last character that the text stands for. -/
theorem endsInOperator_significant_iff (text : List Char) :
    (significant text).getLast?.any isTypedOperator = true ↔ EndsInOperator (plainText text) := by
  rw [getLast?_typed_iff, plainText_significant]
  refine and_iff_left fun hlayout => ?_
  rw [EndsInLayout, Option.any_eq_true] at hlayout
  obtain ⟨c, hc, hl⟩ := hlayout
  have hkept := (List.mem_filter.1 (List.mem_of_getLast? hc)).2
  rw [hl] at hkept
  exact absurd hkept (by decide)

end Expression

end Calculator
