/-
**Typed expressions.**

A typed expression may spread over lines, hold spaces and use the signs for times, divide and
minus that are found on a calculator's keys.  Before it is evaluated the layout is dropped, the
signs are replaced by plain operators, and one operator at the very end, whose operand has not been
typed yet, is forgiven.

Main definitions:

* `Calculator.Expression.plain` — what a typed character stands for;
* `Calculator.Expression.plainText` — the same for a text;
* `Calculator.Expression.dropPending` — a text without an operator at its end;
* `Calculator.Expression.prepared` — both.

Main results:

* `Calculator.Expression.plainText_append` — characters are replaced one by one;
* `Calculator.Expression.plainText_idem` — what has been replaced stays as it is;
* `Calculator.Expression.dropPending_concat` — exactly the last character is dropped.
-/

namespace Calculator.Expression

/-! ### Glyphs -/

/-- What a typed character stands for: spaces and line feeds for nothing, the keys' signs for
operators, and any other character for itself. -/
def plain (c : Char) : List Char :=
  if c = '\n' ∨ c = ' ' then []
  else if c = '×' then ['*']
  else if c = '÷' then ['/']
  else if c = '−' then ['-']
  else [c]

/-- A text without layout and with plain operators. -/
def plainText (text : List Char) : List Char := text.flatMap plain

@[simp] theorem plainText_nil : plainText [] = [] := rfl

theorem plainText_cons (c : Char) (text : List Char) :
    plainText (c :: text) = plain c ++ plainText text := rfl

@[simp] theorem plainText_append (s t : List Char) :
    plainText (s ++ t) = plainText s ++ plainText t := by
  simp [plainText]

private theorem plain_of_mem_plain {c d : Char} (h : d ∈ plain c) : plain d = [d] := by
  unfold plain at h
  split at h
  · simp at h
  · split at h
    · simp_all [plain]
    · split at h
      · simp_all [plain]
      · split at h <;> simp_all [plain]

/-- What has been replaced stays as it is. -/
theorem plainText_idem (text : List Char) :
    plainText (plainText text) = plainText text := by
  induction text with
  | nil => rfl
  | cons c text ih =>
      have h : plainText (plain c) = plain c := by
        have : ∀ l : List Char, (∀ d ∈ l, plain d = [d]) → plainText l = l := by
          intro l hl
          induction l with
          | nil => rfl
          | cons d l ih' =>
              have hd := hl d (by simp)
              have hl' := ih' fun e he => hl e (by simp [he])
              simp only [plainText, List.flatMap_cons, hd] at hl' ⊢
              simp [hl']
        exact this _ fun d hd => plain_of_mem_plain hd
      rw [plainText_cons, plainText_append, h, ih]

/-! ### The dangling operator -/

/-- The four plain operators. -/
def isOperator (c : Char) : Bool := c == '+' || c == '-' || c == '*' || c == '/'

/-- The text without its last character, if that is an operator. -/
def dropPending (text : List Char) : List Char :=
  if text.getLast?.any isOperator then text.dropLast else text

@[simp] theorem dropPending_nil : dropPending [] = [] := rfl

/-- Exactly the last character is dropped, and only if it is an operator. -/
@[simp] theorem dropPending_concat (text : List Char) (c : Char) :
    dropPending (text ++ [c]) = if isOperator c then text else text ++ [c] := by
  simp [dropPending]

/-- A typed text as it is evaluated. -/
def prepared (text : List Char) : List Char := dropPending (plainText text)

end Calculator.Expression
