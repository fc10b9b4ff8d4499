/-
**Integer arithmetic.**

A tree of integer literals, signs, sums, differences and products is written with the parentheses
that it needs: around an operand whose outermost operator binds less tightly than the operator in
front of it or behind it, and around the right operand of an operator of the same level, since
operators of one level are joined from the left.  Further parentheses may stand around any tree.
What is written in this way is a sentence of the grammar, and as long as no number on the way
reaches `10 ^ 15` its value is the exact value of the tree.

Main definitions:

* `Calculator.Expression.IntegerTree` — the trees;
* `Calculator.Expression.IntegerTree.value`, `Calculator.Expression.IntegerTree.text` — the exact
  value of a tree, and how it is written;
* `Calculator.Expression.ReadsAs` — a text is read as an integer at a level of the grammar.

Main results:

* `Calculator.Expression.IntegerTree.readsAs_text` — **a written tree is read as its value**;
* `Calculator.calculate_integerTree` — **integer arithmetic is displayed exactly**.
-/

import Calculator.Proofs.Display.Notation
import Calculator.Proofs.Double.Integers
import Calculator.Proofs.Expression.Evaluation
import Calculator.Proofs.Expression.Typing

set_option relaxedAutoImplicit false
set_option autoImplicit false

namespace Calculator

attribute [local instance (high)] instPowNat

namespace Expression

/-! ### Trees -/

/-- An expression of integers. -/
inductive IntegerTree where
  /-- The numeral of a natural number, with further zeros in front of it. -/
  | literal (zeros value : Nat)
  | plus (operand : IntegerTree)
  | minus (operand : IntegerTree)
  /-- A tree in parentheses, whether it needs them or not. -/
  | group (inner : IntegerTree)
  | add (left right : IntegerTree)
  | sub (left right : IntegerTree)
  | mul (left right : IntegerTree)
  deriving DecidableEq

/-- How tightly the operators of a level bind. -/
def Level.tightness : Level → Nat
  | .expression => 0
  | .term => 1
  | .factor => 2

/-- An operand of the given level where a level is needed, in parentheses if it binds less
tightly. -/
def enclosed (needed level : Level) (text : List Char) : List Char :=
  if level.tightness < needed.tightness then '(' :: (text ++ [')']) else text

namespace IntegerTree

/-- The exact value. -/
def value : IntegerTree → Int
  | literal _ value => value
  | plus t => t.value
  | minus t => -t.value
  | group t => t.value
  | add l r => l.value + r.value
  | sub l r => l.value - r.value
  | mul l r => l.value * r.value

/-- The tree itself and all trees in it. -/
def subtrees : IntegerTree → List IntegerTree
  | literal zeros value => [literal zeros value]
  | plus t => plus t :: t.subtrees
  | minus t => minus t :: t.subtrees
  | group t => group t :: t.subtrees
  | add l r => add l r :: (l.subtrees ++ r.subtrees)
  | sub l r => sub l r :: (l.subtrees ++ r.subtrees)
  | mul l r => mul l r :: (l.subtrees ++ r.subtrees)

/-- The level of the outermost operator. -/
def level : IntegerTree → Level
  | literal _ _ => .factor
  | plus _ => .factor
  | minus _ => .factor
  | group _ => .factor
  | add _ _ => .expression
  | sub _ _ => .expression
  | mul _ _ => .term

/-- The tree as it is written. -/
def text : IntegerTree → List Char
  | literal zeros value => List.replicate zeros '0' ++ Nat.toDigits 10 value
  | plus t => '+' :: enclosed .factor t.level t.text
  | minus t => '-' :: enclosed .factor t.level t.text
  | group t => '(' :: (t.text ++ [')'])
  | add l r => l.text ++ '+' :: enclosed .term r.level r.text
  | sub l r => l.text ++ '-' :: enclosed .term r.level r.text
  | mul l r => enclosed .term l.level l.text ++ '*' :: enclosed .factor r.level r.text

/-- No number on the way reaches `10 ^ 15`. -/
def IsSmall (t : IntegerTree) : Prop := ∀ s ∈ t.subtrees, s.value.natAbs < 10 ^ 15

instance (t : IntegerTree) : Decidable t.IsSmall :=
  List.decidableBAll (fun s : IntegerTree => s.value.natAbs < 10 ^ 15) t.subtrees

end IntegerTree

/-! ### Reading -/

/-- Wherever no digit and no point follows, the text is derived at the level, and its value is the
integer. -/
def ReadsAs (level : Level) (text : List Char) (n : Int) : Prop :=
  ∀ rest : List Char, (∀ c, rest.head? = some c → isLiteralChar c = false) →
    ∃ v : Double, v.Denotes n ∧ Derives level (text ++ rest) v rest

section

variable {level : Level} {text other : List Char} {n k : Int}

/-- What binds more tightly may stand where less is needed. -/
theorem ReadsAs.of_tightness (h : ReadsAs level text n) (needed : Level)
    (hl : needed.tightness ≤ level.tightness) : ReadsAs needed text n := by
  intro rest hr
  obtain ⟨v, hv, hd⟩ := h rest hr
  refine ⟨v, hv, ?_⟩
  cases level with
  | expression =>
      cases needed with
      | expression => exact hd
      | term => exact absurd hl (by decide)
      | factor => exact absurd hl (by decide)
  | term =>
      cases needed with
      | expression => exact .alone hd
      | term => exact hd
      | factor => exact absurd hl (by decide)
  | factor =>
      cases needed with
      | expression => exact .alone (.single hd)
      | term => exact .single hd
      | factor => exact hd

theorem ReadsAs.expression (h : ReadsAs level text n) : ReadsAs .expression text n :=
  h.of_tightness .expression (Nat.zero_le _)

/-- Anything in parentheses is a factor. -/
theorem ReadsAs.group (h : ReadsAs level text n) : ReadsAs .factor ('(' :: (text ++ [')'])) n := by
  intro rest _
  obtain ⟨v, hv, hd⟩ := h.expression (')' :: rest) (by simp [isLiteralChar])
  refine ⟨v, hv, ?_⟩
  rw [List.cons_append, List.append_assoc]
  exact @Derives.group _ [] _ _ hd blank_nil

/-- An operand may stand where a level is needed, once it is enclosed. -/
theorem ReadsAs.enclosed (h : ReadsAs level text n) (needed : Level) :
    ReadsAs needed (enclosed needed level text) n := by
  unfold Expression.enclosed
  split
  · exact h.group.of_tightness needed (by cases needed <;> decide)
  · exact h.of_tightness needed (by omega)

theorem bits_of_small {k : Nat} (h : k < 10 ^ 15) : k ≤ 2 ^ (fractionBits + 1) :=
  Nat.le_trans (Nat.le_of_lt h) (by decide)

theorem isDigit_of_mem_literal {zeros k : Nat} {c : Char}
    (h : c ∈ List.replicate zeros '0' ++ Nat.toDigits 10 k) : c.isDigit = true :=
  isDigit_append (isDigit_zeros _) (fun _ hd => isDigit_toDigits hd) c h

/-- A numeral with zeros in front of it is read as its number. -/
theorem readsAs_literal (zeros : Nat) {k : Nat} (hk : k < 10 ^ 15) :
    ReadsAs .factor (List.replicate zeros '0' ++ Nat.toDigits 10 k) k := by
  intro rest hr
  have hvalue : Nat.ofDigitChars 10 (List.replicate zeros '0' ++ Nat.toDigits 10 k) 0 = k := by
    rw [ofDigitChars_concat, Nat.ofDigitChars_replicate_zero, Nat.mul_zero, Nat.zero_mul,
      Nat.zero_add, Nat.ofDigitChars_ten_toDigits]
  have hne : List.replicate zeros '0' ++ Nat.toDigits 10 k ≠ [] := by
    simp [Nat.toDigits_ne_nil]
  have hn := Numeral.whole (fun c hc => isDigit_of_mem_literal hc) hne
  rw [hvalue] at hn
  exact ⟨_, Double.denotes_ofDecimal (bits_of_small hk), .number hn hr⟩

/-- A character that ends a numeral in front of it. -/
private theorem head_of_operator {c : Char} (hc : isLiteralChar c = false) (rest : List Char) :
    ∀ d, (c :: rest).head? = some d → isLiteralChar d = false := by
  intro d hd
  rwa [← Option.some.inj hd]

theorem ReadsAs.plus (h : ReadsAs .factor text n) : ReadsAs .factor ('+' :: text) n := by
  intro rest hr
  obtain ⟨v, hv, hd⟩ := h rest hr
  exact ⟨v, hv, .plus hd⟩

theorem ReadsAs.minus (h : ReadsAs .factor text n) : ReadsAs .factor ('-' :: text) (-n) := by
  intro rest hr
  obtain ⟨v, hv, hd⟩ := h rest hr
  exact ⟨-v, hv.neg, .minus hd⟩

theorem ReadsAs.add (h : ReadsAs .expression text n) (ho : ReadsAs .term other k)
    (hs : (n + k).natAbs < 10 ^ 15) : ReadsAs .expression (text ++ '+' :: other) (n + k) := by
  intro rest hr
  obtain ⟨v, hv, hd⟩ := h ('+' :: (other ++ rest)) (head_of_operator rfl _)
  obtain ⟨w, hw, ho⟩ := ho rest hr
  refine ⟨v + w, hv.add hw (bits_of_small hs), ?_⟩
  rw [List.append_assoc, List.cons_append]
  exact @Derives.add _ [] _ _ _ _ hd blank_nil ho

theorem ReadsAs.sub (h : ReadsAs .expression text n) (ho : ReadsAs .term other k)
    (hs : (n - k).natAbs < 10 ^ 15) : ReadsAs .expression (text ++ '-' :: other) (n - k) := by
  intro rest hr
  obtain ⟨v, hv, hd⟩ := h ('-' :: (other ++ rest)) (head_of_operator rfl _)
  obtain ⟨w, hw, ho⟩ := ho rest hr
  refine ⟨v - w, hv.sub hw (bits_of_small hs), ?_⟩
  rw [List.append_assoc, List.cons_append]
  exact @Derives.subtract _ [] _ _ _ _ hd blank_nil ho

theorem ReadsAs.mul (h : ReadsAs .term text n) (ho : ReadsAs .factor other k)
    (hs : (n * k).natAbs < 10 ^ 15) : ReadsAs .term (text ++ '*' :: other) (n * k) := by
  intro rest hr
  obtain ⟨v, hv, hd⟩ := h ('*' :: (other ++ rest)) (head_of_operator rfl _)
  obtain ⟨w, hw, ho⟩ := ho rest hr
  refine ⟨v * w, hv.mul hw (bits_of_small hs), ?_⟩
  rw [List.append_assoc, List.cons_append]
  exact @Derives.times _ [] _ _ _ _ hd blank_nil ho

end

namespace IntegerTree

variable {l r t : IntegerTree}

theorem IsSmall.natAbs_lt (h : t.IsSmall) : t.value.natAbs < 10 ^ 15 :=
  h t (by cases t <;> exact List.mem_cons_self)

/-- **A written tree is read as its value.** -/
theorem readsAs_text (h : t.IsSmall) : ReadsAs t.level t.text t.value := by
  -- every tree is read at its own level, and enclosing lifts it to the level its operator needs
  induction t with
  | literal zeros value => exact readsAs_literal zeros h.natAbs_lt
  | plus t ih =>
      have ht : t.IsSmall := fun s hs => h s (List.mem_cons_of_mem _ hs)
      exact ((ih ht).enclosed .factor).plus
  | minus t ih =>
      have ht : t.IsSmall := fun s hs => h s (List.mem_cons_of_mem _ hs)
      exact ((ih ht).enclosed .factor).minus
  | group t ih =>
      have ht : t.IsSmall := fun s hs => h s (List.mem_cons_of_mem _ hs)
      exact (ih ht).group
  | add l r ihl ihr =>
      obtain ⟨hl, hr⟩ := List.forall_mem_append.1 fun s hs => h s (List.mem_cons_of_mem _ hs)
      exact (ihl hl).expression.add ((ihr hr).enclosed .term) h.natAbs_lt
  | sub l r ihl ihr =>
      obtain ⟨hl, hr⟩ := List.forall_mem_append.1 fun s hs => h s (List.mem_cons_of_mem _ hs)
      exact (ihl hl).expression.sub ((ihr hr).enclosed .term) h.natAbs_lt
  | mul l r ihl ihr =>
      obtain ⟨hl, hr⟩ := List.forall_mem_append.1 fun s hs => h s (List.mem_cons_of_mem _ hs)
      exact ((ihl hl).enclosed .term).mul ((ihr hr).enclosed .factor) h.natAbs_lt

/-! ### Evaluation -/

/-- A written tree is evaluated to its value. -/
theorem evaluateText_text (h : t.IsSmall) (hn : nestingCost t.text ≤ nestingLimit) :
    ∃ v : Double, v.Denotes t.value ∧ evaluateText t.text = .ok v := by
  obtain ⟨v, hv, hd⟩ := (readsAs_text h).expression [] (by simp)
  rw [List.append_nil] at hd
  exact ⟨v, hv, (evaluateText_eq_ok_iff_sentence _ _).2 ⟨hn, [], hd, blank_nil⟩⟩

end IntegerTree

/-! ### Typing -/

section

variable {text other : List Char}

theorem IsPrepared.group (h : IsPrepared text) : IsPrepared ('(' :: (text ++ [')'])) := by
  have hclose : IsPrepared [')'] := ⟨by simp [plain], [], ')', rfl, rfl⟩
  exact .cons rfl (.append h.1 hclose)

theorem IsPrepared.enclosed (h : IsPrepared text) (needed level : Level) :
    IsPrepared (enclosed needed level text) := by
  unfold Expression.enclosed
  split
  · exact h.group
  · exact h

/-- Two operands with an operator between them. -/
theorem IsPrepared.join (h : IsPrepared text) {c : Char} (hc : plain c = [c])
    (ho : IsPrepared other) : IsPrepared (text ++ c :: other) :=
  .append h.1 (ho.cons hc)

end

/-- A written tree is evaluated as it is typed. -/
theorem IntegerTree.isPrepared_text (t : IntegerTree) : IsPrepared t.text := by
  induction t with
  | literal zeros value =>
      refine isPrepared_of_isLiteralChar (fun c hc => ?_) (by simp [text])
      simp [isLiteralChar, isDigit_of_mem_literal hc]
  | plus t ih => exact (ih.enclosed _ _).cons rfl
  | minus t ih => exact (ih.enclosed _ _).cons rfl
  | group t ih => exact ih.group
  | add l r ihl ihr => exact ihl.join rfl (ihr.enclosed _ _)
  | sub l r ihl ihr => exact ihl.join rfl (ihr.enclosed _ _)
  | mul l r ihl ihr => exact (ihl.enclosed _ _).join rfl (ihr.enclosed _ _)

end Expression

open Expression

/-- **Integer arithmetic is displayed exactly.**  A tree of integers that is written with the
parentheses that it needs, and possibly with more, is displayed as the numeral of its exact value,
as long as it is nested within the limit and no number on the way reaches `10 ^ 15`. -/
theorem calculate_integerTree (t : IntegerTree) (hn : nestingCost t.text ≤ nestingLimit)
    (h : ∀ s ∈ t.subtrees, s.value.natAbs < 10 ^ 15) :
    calculate (String.ofList t.text) = toString t.value := by
  obtain ⟨v, hv, he⟩ := IntegerTree.evaluateText_text h hn
  rw [calculate_of_isPrepared t.isPrepared_text he]
  exact hv.display_eq (IntegerTree.IsSmall.natAbs_lt h)

/-- Differences are joined from the left, and a product that is `-0` shows as zero. -/
theorem calculate_integerTree_difference :
    let product : IntegerTree := .mul (.group (.literal 0 0)) (.minus (.literal 1 5))
    let t : IntegerTree :=
      .sub (.sub (.literal 2 7) (.literal 0 9)) (.add product (.literal 0 999999999999990))
    (nestingCost product.text ≤ nestingLimit ∧ product.IsSmall ∧
      calculate "(0)*-05" = "0") ∧
    nestingCost t.text ≤ nestingLimit ∧ t.IsSmall ∧
      calculate "007-9-((0)*-05+999999999999990)" = "-999999999999992" := by
  intro product t
  have hp : nestingCost product.text ≤ nestingLimit := by decide +kernel
  have hsp : product.IsSmall := by decide +kernel
  have ht : nestingCost t.text ≤ nestingLimit := by decide +kernel
  have hst : t.IsSmall := by decide +kernel
  exact ⟨⟨hp, hsp, calculate_integerTree product hp hsp⟩, ht, hst, calculate_integerTree t ht hst⟩

end Calculator
