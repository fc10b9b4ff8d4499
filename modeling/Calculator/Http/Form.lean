/-
**Form fields in a query.**

A query arrives as bytes, and every byte is read as a character of its own.  It is a list of fields,
separated by ampersands; a field is a name and a value with an equals sign between them.  In both, a
plus sign stands for a space, and a percent sign with two hexadecimal digits for a byte.  What is
ASCII, with the bytes that percent signs stand for, is UTF-8; any other character stays as it is and
ends the piece of UTF-8 before it.

Main definitions:

* `Calculator.Http.percentEncode` — text with percent signs for all bytes but those that are kept;
* `Calculator.Http.percentBytes` — the bytes of a text with percent signs;
* `Calculator.Http.arriving` — the characters of a query as it arrives;
* `Calculator.Http.formText` — the text of a name or value;
* `Calculator.Http.formFields` — the fields of a query.

Main results:

* `Calculator.Http.percentEncode_of_keep` — what is kept stays as it is;
* `Calculator.Http.arriving_of_ascii` — a query of ASCII arrives as it was sent;
* `Calculator.Http.decoded_of_ascii` — a text of ASCII is a single piece of UTF-8;
* `Calculator.Http.formFields_empty` — an empty query has no fields.
-/

import Calculator.Json.Reader
import Calculator.Text.Utf8

namespace Calculator.Http

/-! ### Percent signs -/

/-- A hexadecimal digit in upper case. -/
def hexDigit (n : Nat) : Char := Char.ofNat (if n < 10 then 48 + n else 55 + n)

/-- A byte as a percent sign and two digits. -/
def percentByte (byte : UInt8) : List Char :=
  ['%', hexDigit (byte.toNat / 16), hexDigit (byte.toNat % 16)]

/-- A text in which every byte of every character that is not kept has a percent sign. -/
def percentEncode (keep : Char → Bool) (text : String) : String :=
  String.ofList <| text.toList.flatMap fun c =>
    if keep c then [c] else (String.utf8EncodeChar c).flatMap percentByte

/-- A text of characters that are kept stays as it is. -/
theorem percentEncode_of_keep {keep : Char → Bool} {text : String}
    (h : ∀ c ∈ text.toList, keep c = true) : percentEncode keep text = text := by
  have hl : ∀ l : List Char, (∀ c ∈ l, keep c = true) →
      (l.flatMap fun c => if keep c then [c] else (String.utf8EncodeChar c).flatMap percentByte) =
        l := by
    intro l hl
    induction l with
    | nil => rfl
    | cons c l ih =>
        rw [List.flatMap_cons, if_pos (hl c (by simp)), ih fun d hd => hl d (by simp [hd])]
        rfl
  rw [percentEncode, hl _ h, String.ofList_toList]

/-- The bytes of a text.  A percent sign without two digits stands for itself. -/
def percentBytes : List Char → List UInt8
  | [] => []
  | '%' :: a :: b :: rest =>
      match Json.hexDigit? a, Json.hexDigit? b with
      | some high, some low => UInt8.ofNat (high * 16 + low) :: percentBytes rest
      | _, _ => 0x25 :: percentBytes (a :: b :: rest)
  | c :: rest => String.utf8EncodeChar c ++ percentBytes rest

/-! ### Characters and bytes -/

/-- The character is a byte of UTF-8 by itself. -/
def isAscii (c : Char) : Bool := c.toNat < 0x80

/-- The characters of a query as it arrives: each byte of it is the character of that number. -/
def arriving (query : String) : List Char :=
  query.toList.flatMap fun c =>
    (String.utf8EncodeChar c).map fun byte => Char.ofNat byte.toNat

private theorem arriving_char {c : Char} (h : isAscii c = true) :
    ((String.utf8EncodeChar c).map fun byte => Char.ofNat byte.toNat) = [c] := by
  have hc : c.val.toNat < 0x80 := by simpa [isAscii] using h
  have hb : (UInt8.ofNat c.val.toNat).toNat = c.toNat := Nat.mod_eq_of_lt (by omega)
  have he : String.utf8EncodeChar c = [UInt8.ofNat c.val.toNat] := if_pos (Nat.le_of_lt_succ hc)
  rw [he, List.map_singleton, hb, Char.ofNat_toNat]

/-- A query of ASCII arrives as it was sent. -/
theorem arriving_of_ascii {query : String} (h : ∀ c ∈ query.toList, isAscii c = true) :
    arriving query = query.toList := by
  unfold arriving
  generalize query.toList = text at h
  induction text with
  | nil => rfl
  | cons c text ih =>
      rw [List.flatMap_cons, arriving_char (h c (by simp)), ih fun d hd => h d (by simp [hd])]
      rfl

/-- A text that follows the ASCII characters `piece`, which are given in reverse and may be none. -/
def decodedAfter (piece : List Char) : List Char → List Char
  | [] => (Utf8.decode (percentBytes piece.reverse)).toList
  | c :: rest =>
      if isAscii c then decodedAfter (c :: piece) rest
      else (Utf8.decode (percentBytes piece.reverse)).toList ++ c :: decodedAfter [] rest

/-- A text with all pieces of UTF-8 in it decoded. -/
def decoded (text : List Char) : String := String.ofList (decodedAfter [] text)

private theorem decodedAfter_of_ascii {text : List Char} (h : ∀ c ∈ text, isAscii c = true)
    (piece : List Char) :
    decodedAfter piece text = (Utf8.decode (percentBytes (piece.reverse ++ text))).toList := by
  induction text generalizing piece with
  | nil => simp [decodedAfter]
  | cons c text ih =>
      rw [decodedAfter, if_pos (h c (by simp)), ih fun d hd => h d (by simp [hd])]
      simp

/-- A text of ASCII is a single piece of UTF-8. -/
theorem decoded_of_ascii {text : List Char} (h : ∀ c ∈ text, isAscii c = true) :
    decoded text = Utf8.decode (percentBytes text) := by
  rw [decoded, decodedAfter_of_ascii h]
  simp

/-! ### Fields -/

/-- The text of a name or value: plus signs are spaces, and then percent signs are bytes. -/
def formText (text : List Char) : String := decoded (text.map fun c => if c = '+' then ' ' else c)

/-- The pieces of a text between separators. -/
def pieces (separator : Char) : List Char → List (List Char)
  | [] => [[]]
  | c :: rest =>
      match pieces separator rest with
      | [] => [[]]
      | piece :: others => if c = separator then [] :: piece :: others else (c :: piece) :: others

/-- A field: what stands before the first equals sign, and what stands after it. -/
def formField (piece : List Char) : String × String :=
  (formText (piece.takeWhile (· != '=')), formText (piece.dropWhile (· != '=')).tail)

/-- The fields of a query; nothing between two ampersands is no field. -/
def formFields (query : String) : List (String × String) :=
  ((pieces '&' (arriving query)).filter (· ≠ [])).map formField

/-- An empty query has no fields. -/
@[simp] theorem formFields_empty : formFields "" = [] := by decide

end Calculator.Http
