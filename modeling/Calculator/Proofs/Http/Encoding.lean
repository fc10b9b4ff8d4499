/-
**Form fields that were encoded.**

A value is put into a query with percent signs for its bytes.  Characters that mean nothing else in
a query may stay as they are, and no others: an ampersand would end the value, a plus sign would be
read as a space, and a percent sign as the beginning of a byte.  Whatever of the other characters
stays, the value is read back.

Main definitions:

* `Calculator.Http.IsPlainChar` — the characters that mean nothing but themselves.

Main results:

* `Calculator.Http.percentBytes_percentEncode` — percent signs stand for the bytes of a text;
* `Calculator.Http.formText_percentEncode` — an encoded text is read as the text;
* `Calculator.Http.formFields_percentEncode` — **an encoded value is read back**, and nothing else.
-/

import Calculator.Http.Form
import Calculator.Proofs.Text.Utf8

set_option relaxedAutoImplicit false
set_option autoImplicit false

namespace Calculator.Http

/-! ### Bytes with percent signs -/

theorem hexDigit?_hexDigit : ∀ n < 16, Json.hexDigit? (hexDigit n) = some n := by decide

/-- A byte with a percent sign is read as that byte. -/
theorem percentBytes_percentByte (byte : UInt8) (rest : List Char) :
    percentBytes (percentByte byte ++ rest) = byte :: percentBytes rest := by
  have hlt : byte.toNat < 256 := byte.toNat_lt
  have hhigh := hexDigit?_hexDigit (byte.toNat / 16) (by omega)
  have hlow := hexDigit?_hexDigit (byte.toNat % 16) (by omega)
  have hbyte : byte.toNat / 16 * 16 + byte.toNat % 16 = byte.toNat := by omega
  change percentBytes ('%' :: hexDigit (byte.toNat / 16) :: hexDigit (byte.toNat % 16) :: rest) = _
  rw [percentBytes, hhigh, hlow]
  dsimp only
  rw [hbyte, UInt8.ofNat_toNat]

theorem percentBytes_flatMap_percentByte (bytes : List UInt8) (rest : List Char) :
    percentBytes (bytes.flatMap percentByte ++ rest) = bytes ++ percentBytes rest := by
  induction bytes with
  | nil => rfl
  | cons byte bytes ih =>
      rw [List.flatMap_cons, List.append_assoc, percentBytes_percentByte, ih]
      rfl

/-- What does not begin with a percent sign stands for its own bytes. -/
theorem percentBytes_cons {c : Char} (h : c ≠ '%') (rest : List Char) :
    percentBytes (c :: rest) = String.utf8EncodeChar c ++ percentBytes rest := by
  rw [percentBytes]
  intro a b others heq
  exact absurd heq h

/-! ### Characters that may stay -/

/-- The character means nothing but itself in a value of a query. -/
def IsPlainChar (c : Char) : Prop := isAscii c = true ∧ c ≠ '%' ∧ c ≠ '&' ∧ c ≠ '+'

instance (c : Char) : Decidable (IsPlainChar c) := inferInstanceAs (Decidable (_ ∧ _))

/-- What an encoded byte is written with means nothing else. -/
theorem plain_of_mem_percentByte {byte : UInt8} {c : Char} (h : c ∈ percentByte byte) :
    isAscii c = true ∧ c ≠ '&' ∧ c ≠ '+' := by
  have hdigit : ∀ n < 16, isAscii (hexDigit n) = true ∧ hexDigit n ≠ '&' ∧ hexDigit n ≠ '+' := by
    decide
  have hlt : byte.toNat < 256 := byte.toNat_lt
  rcases List.mem_cons.1 h with rfl | h
  · decide
  rcases List.mem_cons.1 h with rfl | h
  · exact hdigit _ (by omega)
  · rw [List.mem_singleton.1 h]
    exact hdigit _ (by omega)

section

variable {keep : Char → Bool} (hkeep : ∀ c, keep c = true → IsPlainChar c)

include hkeep

/-- An encoded text has neither ampersands nor plus signs. -/
theorem plain_of_mem_percentEncode {text : String} {c : Char}
    (h : c ∈ (percentEncode keep text).toList) : isAscii c = true ∧ c ≠ '&' ∧ c ≠ '+' := by
  rw [percentEncode, String.toList_ofList, List.mem_flatMap] at h
  obtain ⟨d, -, h⟩ := h
  split at h
  · next hd =>
      obtain ⟨hascii, -, hamp, hplus⟩ := hkeep d hd
      rw [List.mem_singleton.1 h]
      exact ⟨hascii, hamp, hplus⟩
  · obtain ⟨byte, -, h⟩ := List.mem_flatMap.1 h
    exact plain_of_mem_percentByte h

/-- Percent signs stand for the bytes of a text. -/
theorem percentBytes_percentEncode (text : String) :
    percentBytes (percentEncode keep text).toList = text.toList.flatMap String.utf8EncodeChar := by
  rw [percentEncode, String.toList_ofList]
  induction text.toList with
  | nil => rfl
  | cons c chars ih =>
      rw [List.flatMap_cons, List.flatMap_cons, ← ih]
      split
      · next hc => exact percentBytes_cons (hkeep c hc).2.1 _
      · exact percentBytes_flatMap_percentByte _ _

/-- An encoded text is read as the text. -/
theorem formText_percentEncode (text : String) :
    formText (percentEncode keep text).toList = text := by
  have hplus : (percentEncode keep text).toList.map (fun c => if c = '+' then ' ' else c) =
      (percentEncode keep text).toList :=
    (List.map_congr_left fun c hc =>
      if_neg (plain_of_mem_percentEncode hkeep hc).2.2).trans (List.map_id _)
  rw [formText, hplus, decoded_of_ascii fun c hc => (plain_of_mem_percentEncode hkeep hc).1,
    percentBytes_percentEncode hkeep, Utf8.decode_encode, String.ofList_toList]

end

/-! ### Fields -/

/-- A text without separators is a single piece. -/
theorem pieces_of_not_mem {separator : Char} {text : List Char} (h : separator ∉ text) :
    pieces separator text = [text] := by
  induction text with
  | nil => rfl
  | cons c text ih =>
      rw [List.mem_cons, not_or] at h
      rw [pieces, ih h.2]
      exact if_neg (Ne.symm h.1)

/-- **An encoded value is read back**, under its name and as the only field. -/
theorem formFields_percentEncode {keep : Char → Bool} (hkeep : ∀ c, keep c = true → IsPlainChar c)
    (name : String) (hname : ∀ c ∈ name.toList, IsPlainChar c ∧ c ≠ '=') (value : String) :
    formFields (name ++ "=" ++ percentEncode keep value) = [(name, value)] := by
  -- a plain name is its own encoding, so that it is read back like the value
  have hself : percentEncode (IsPlainChar ·) name = name :=
    percentEncode_of_keep fun c hc => decide_eq_true (hname c hc).1
  have hformName : formText name.toList = name := by
    have h := formText_percentEncode (fun c => of_decide_eq_true) name
    rwa [hself] at h
  have htext : (name ++ "=" ++ percentEncode keep value).toList =
      name.toList ++ '=' :: (percentEncode keep value).toList := by
    rw [String.toList_append, String.toList_append, List.append_assoc]
    rfl
  have hplain : ∀ c ∈ name.toList ++ '=' :: (percentEncode keep value).toList,
      isAscii c = true ∧ c ≠ '&' := by
    intro c hc
    rcases List.mem_append.1 hc with hc | hc
    · exact ⟨(hname c hc).1.1, (hname c hc).1.2.2.1⟩
    rcases List.mem_cons.1 hc with rfl | hc
    · decide
    · exact ⟨(plain_of_mem_percentEncode hkeep hc).1, (plain_of_mem_percentEncode hkeep hc).2.1⟩
  -- the first equals sign is the one after the name
  have hsplit : ∀ c ∈ name.toList, (c != '=') = true := fun c hc => bne_iff_ne.2 (hname c hc).2
  have harrive : arriving (name ++ "=" ++ percentEncode keep value) =
      (name ++ "=" ++ percentEncode keep value).toList :=
    arriving_of_ascii fun c hc => (hplain c (htext ▸ hc)).1
  rw [formFields, harrive, htext, pieces_of_not_mem fun hc => (hplain '&' hc).2 rfl,
    List.filter_cons_of_pos (by simp), List.filter_nil, List.map_singleton, formField,
    List.takeWhile_append_of_pos hsplit, List.dropWhile_append_of_pos hsplit,
    List.takeWhile_cons_of_neg (by decide), List.dropWhile_cons_of_neg (by decide),
    List.append_nil, List.tail_cons, hformName, formText_percentEncode hkeep]

end Calculator.Http
