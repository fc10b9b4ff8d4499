/-
**Text from bytes.**

Bytes are read as UTF-8.  Where they are not, a replacement character stands for the longest
beginning of a character that was found, or for a single byte that begins none, and reading goes on
at the next byte.  Only shortest encodings of characters are accepted; the bounds on the second byte
exclude the others, the surrogates, and what lies beyond the last character.

Main definitions:

* `Calculator.Utf8.Pending` — the rest of a character that is still to come;
* `Calculator.Utf8.step` — what one byte adds to the text;
* `Calculator.Utf8.decode` — the text of bytes.

Main results:

* `Calculator.Utf8.decode_ascii` — bytes below 128 are characters of their own.
-/

namespace Calculator.Utf8

/-- A character whose first bytes have been read. -/
structure Pending where
  /-- How many bytes are to come. -/
  needed : Nat
  /-- The bits that have been read. -/
  bits : Nat
  /-- The least and the greatest next byte. -/
  least : Nat
  greatest : Nat
  deriving DecidableEq

/-- The character that stands for bytes that are no text. -/
def replacement : Char := '\ufffd'

/-- What a first byte adds to the text, and what it leaves to come. -/
def first (byte : Nat) : List Char × Option Pending :=
  if byte < 0x80 then ([Char.ofNat byte], none)
  else if byte < 0xc2 then ([replacement], none)
  else if byte < 0xe0 then ([], some ⟨1, byte - 0xc0, 0x80, 0xbf⟩)
  else if byte = 0xe0 then ([], some ⟨2, 0, 0xa0, 0xbf⟩)
  else if byte = 0xed then ([], some ⟨2, 0xd, 0x80, 0x9f⟩)
  else if byte < 0xf0 then ([], some ⟨2, byte - 0xe0, 0x80, 0xbf⟩)
  else if byte = 0xf0 then ([], some ⟨3, 0, 0x90, 0xbf⟩)
  else if byte < 0xf4 then ([], some ⟨3, byte - 0xf0, 0x80, 0xbf⟩)
  else if byte = 0xf4 then ([], some ⟨3, 4, 0x80, 0x8f⟩)
  else ([replacement], none)

/-- What a byte adds to the text, and what is then still to come. -/
def step : Option Pending → Nat → List Char × Option Pending
  | none, byte => first byte
  | some p, byte =>
      if p.least ≤ byte ∧ byte ≤ p.greatest then
        let bits := p.bits * 0x40 + (byte - 0x80)
        if p.needed = 1 then ([Char.ofNat bits], none)
        else ([], some ⟨p.needed - 1, bits, 0x80, 0xbf⟩)
      else
        let (text, next) := first byte
        (replacement :: text, next)

/-- The text of bytes, after the beginning of a character. -/
def decodeAfter : Option Pending → List Nat → List Char
  | none, [] => []
  | some _, [] => [replacement]
  | pending, byte :: bytes =>
      (step pending byte).1 ++ decodeAfter (step pending byte).2 bytes

/-- The text of bytes. -/
def decode (bytes : List UInt8) : String :=
  String.ofList (decodeAfter none (bytes.map UInt8.toNat))

/-- Bytes below 128 are characters of their own. -/
theorem decode_ascii {bytes : List Nat} (h : ∀ b ∈ bytes, b < 0x80) :
    decodeAfter none bytes = bytes.map Char.ofNat := by
  induction bytes with
  | nil => rfl
  | cons b bytes ih =>
      have hb := h b (by simp)
      have hs : step none b = ([Char.ofNat b], none) := by simp [step, first, hb]
      rw [decodeAfter, hs, ih fun c hc => h c (by simp [hc])]
      rfl

end Calculator.Utf8
