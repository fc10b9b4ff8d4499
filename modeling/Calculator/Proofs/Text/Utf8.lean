/-
**Text from the bytes of text.**

The bytes of a character are one to four, by its number.  The first of them tells how many are to
come and bounds the next one, so that reading them leaves nothing pending but the character itself.

Main results:

* `Calculator.Utf8.decodeAfter_char` — the bytes of one character are read as that character,
  whatever follows them;
* `Calculator.Utf8.decode_encode` — **the bytes of a text are read as that text**.
-/

import Calculator.Text.Utf8

set_option relaxedAutoImplicit false
set_option autoImplicit false

namespace Calculator.Utf8

/-! ### Bytes that are to come -/

/-- The last byte that is to come completes a character. -/
theorem decodeAfter_last {bits least greatest byte : Nat} (bytes : List Nat)
    (h : least ≤ byte ∧ byte ≤ greatest) :
    decodeAfter (some ⟨1, bits, least, greatest⟩) (byte :: bytes) =
      Char.ofNat (bits * 0x40 + (byte - 0x80)) :: decodeAfter none bytes := by
  rw [decodeAfter, step, if_pos h]
  rfl

/-- Any other byte leaves one less to come. -/
theorem decodeAfter_next {needed bits least greatest byte : Nat} (bytes : List Nat)
    (h : least ≤ byte ∧ byte ≤ greatest) :
    decodeAfter (some ⟨needed + 2, bits, least, greatest⟩) (byte :: bytes) =
      decodeAfter (some ⟨needed + 1, bits * 0x40 + (byte - 0x80), 0x80, 0xbf⟩) bytes := by
  rw [decodeAfter, step, if_pos h]
  rfl

/-- A first byte that begins a character leaves the rest of it to come. -/
theorem decodeAfter_first {byte : Nat} {pending : Pending} (bytes : List Nat)
    (h : first byte = ([], some pending)) :
    decodeAfter none (byte :: bytes) = decodeAfter (some pending) bytes := by
  rw [decodeAfter, step, h]
  rfl

/-! ### Characters by the number of their bytes -/

/-- The numbers of the bytes of a character. -/
theorem map_toNat_utf8EncodeChar (c : Char) :
    (String.utf8EncodeChar c).map UInt8.toNat =
      if c.toNat ≤ 0x7f then [c.toNat]
      else if c.toNat ≤ 0x7ff then [c.toNat / 0x40 + 0xc0, c.toNat % 0x40 + 0x80]
      else if c.toNat ≤ 0xffff then
        [c.toNat / 0x1000 + 0xe0, c.toNat / 0x40 % 0x40 + 0x80, c.toNat % 0x40 + 0x80]
      else
        [c.toNat / 0x40000 + 0xf0, c.toNat / 0x1000 % 0x40 + 0x80, c.toNat / 0x40 % 0x40 + 0x80,
          c.toNat % 0x40 + 0x80] := by
  have hlt : c.toNat < 0x110000 := by
    have hvalid : c.toNat < 0xd800 ∨ 0xdfff < c.toNat ∧ c.toNat < 0x110000 := c.valid
    omega
  have hbyte : ∀ n < 0x100, (UInt8.ofNat n).toNat = n := fun n hn => Nat.mod_eq_of_lt hn
  unfold String.utf8EncodeChar
  change List.map UInt8.toNat (if c.toNat ≤ 0x7f then [UInt8.ofNat c.toNat]
    else if c.toNat ≤ 0x7ff then
      [UInt8.ofNat (c.toNat / 64 % 0x20 + 0xc0), UInt8.ofNat (c.toNat % 0x40 + 0x80)]
    else if c.toNat ≤ 0xffff then
      [UInt8.ofNat (c.toNat / 4096 % 0x10 + 0xe0), UInt8.ofNat (c.toNat / 64 % 0x40 + 0x80),
        UInt8.ofNat (c.toNat % 0x40 + 0x80)]
    else
      [UInt8.ofNat (c.toNat / 262144 % 0x08 + 0xf0), UInt8.ofNat (c.toNat / 4096 % 0x40 + 0x80),
        UInt8.ofNat (c.toNat / 64 % 0x40 + 0x80), UInt8.ofNat (c.toNat % 0x40 + 0x80)]) = _
  generalize c.toNat = v at hlt
  split
  · rw [List.map_singleton, hbyte v (by omega)]
  split
  · simp only [List.map_cons, List.map_nil]
    rw [hbyte _ (by omega), hbyte _ (by omega), Nat.mod_eq_of_lt (by omega : v / 64 < 0x20)]
  split
  · simp only [List.map_cons, List.map_nil]
    rw [hbyte _ (by omega), hbyte _ (by omega), hbyte _ (by omega),
      Nat.mod_eq_of_lt (by omega : v / 4096 < 0x10)]
  · simp only [List.map_cons, List.map_nil]
    rw [hbyte _ (by omega), hbyte _ (by omega), hbyte _ (by omega), hbyte _ (by omega),
      Nat.mod_eq_of_lt (by omega : v / 262144 < 0x08)]

/-- The first of three bytes bounds the second so that neither a shorter encoding nor a surrogate is
read. -/
theorem exists_first_of_three {v : Nat} (hlow : 0x7ff < v) (hhigh : v ≤ 0xffff)
    (hvalid : v < 0xd800 ∨ 0xdfff < v) :
    ∃ least greatest, first (v / 0x1000 + 0xe0) = ([], some ⟨2, v / 0x1000, least, greatest⟩) ∧
      least ≤ v / 0x40 % 0x40 + 0x80 ∧ v / 0x40 % 0x40 + 0x80 ≤ greatest := by
  unfold first
  rw [if_neg (by omega), if_neg (by omega), if_neg (by omega)]
  split
  · have hv : v / 0x1000 = 0 := by omega
    rw [hv]
    exact ⟨_, _, rfl, by omega⟩
  split
  · have hv : v / 0x1000 = 0xd := by omega
    rw [hv]
    exact ⟨_, _, rfl, by omega⟩
  · rw [if_pos (by omega), Nat.add_sub_cancel]
    exact ⟨_, _, rfl, by omega⟩

/-- The first of four bytes bounds the second so that neither a shorter encoding nor a number beyond
the last character is read. -/
theorem exists_first_of_four {v : Nat} (hlow : 0xffff < v) (hhigh : v < 0x110000) :
    ∃ least greatest,
      first (v / 0x40000 + 0xf0) = ([], some ⟨3, v / 0x40000, least, greatest⟩) ∧
      least ≤ v / 0x1000 % 0x40 + 0x80 ∧ v / 0x1000 % 0x40 + 0x80 ≤ greatest := by
  unfold first
  rw [if_neg (by omega), if_neg (by omega), if_neg (by omega), if_neg (by omega),
    if_neg (by omega), if_neg (by omega)]
  split
  · have hv : v / 0x40000 = 0 := by omega
    rw [hv]
    exact ⟨_, _, rfl, by omega⟩
  split
  · rw [Nat.add_sub_cancel]
    exact ⟨_, _, rfl, by omega⟩
  · have hv : v / 0x40000 = 4 := by omega
    rw [hv, if_pos rfl]
    exact ⟨_, _, rfl, by omega⟩

/-- The bytes of one character are read as that character, whatever follows them. -/
theorem decodeAfter_char (c : Char) (bytes : List Nat) :
    decodeAfter none ((String.utf8EncodeChar c).map UInt8.toNat ++ bytes) =
      c :: decodeAfter none bytes := by
  have hvalid : c.toNat < 0xd800 ∨ 0xdfff < c.toNat ∧ c.toNat < 0x110000 := c.valid
  have hc : Char.ofNat c.toNat = c := Char.ofNat_toNat c
  rw [map_toNat_utf8EncodeChar]
  generalize c.toNat = v at *
  -- one to four bytes: each but the last leaves bits, which are the number without its end
  split
  · have hfirst : first v = ([c], none) := by
      rw [first, if_pos (by omega), hc]
    simp [decodeAfter, step, hfirst]
  split
  · have hfirst : first (v / 0x40 + 0xc0) = ([], some ⟨1, v / 0x40, 0x80, 0xbf⟩) := by
      rw [first, if_neg (by omega), if_neg (by omega), if_pos (by omega), Nat.add_sub_cancel]
    have hv : v / 0x40 * 0x40 + (v % 0x40 + 0x80 - 0x80) = v := by omega
    change decodeAfter none (_ :: _ :: bytes) = _
    rw [decodeAfter_first _ hfirst, decodeAfter_last _ (by omega), hv, hc]
  split
  · obtain ⟨least, greatest, hfirst, hsecond⟩ :=
      exists_first_of_three (v := v) (by omega) (by omega) (by omega)
    have hv : (v / 0x1000 * 0x40 + (v / 0x40 % 0x40 + 0x80 - 0x80)) * 0x40 +
        (v % 0x40 + 0x80 - 0x80) = v := by omega
    change decodeAfter none (_ :: _ :: _ :: bytes) = _
    rw [decodeAfter_first _ hfirst, decodeAfter_next _ hsecond, decodeAfter_last _ (by omega), hv,
      hc]
  · obtain ⟨least, greatest, hfirst, hsecond⟩ :=
      exists_first_of_four (v := v) (by omega) (by omega)
    have hv : ((v / 0x40000 * 0x40 + (v / 0x1000 % 0x40 + 0x80 - 0x80)) * 0x40 +
        (v / 0x40 % 0x40 + 0x80 - 0x80)) * 0x40 + (v % 0x40 + 0x80 - 0x80) = v := by omega
    change decodeAfter none (_ :: _ :: _ :: _ :: bytes) = _
    rw [decodeAfter_first _ hfirst, decodeAfter_next _ hsecond, decodeAfter_next _ (by omega),
      decodeAfter_last _ (by omega), hv, hc]

/-- **The bytes of a text are read as that text.** -/
theorem decode_encode (text : List Char) :
    decode (text.flatMap String.utf8EncodeChar) = String.ofList text := by
  unfold decode
  congr 1
  induction text with
  | nil => rfl
  | cons c text ih => rw [List.flatMap_cons, List.map_append, decodeAfter_char, ih]

end Calculator.Utf8
