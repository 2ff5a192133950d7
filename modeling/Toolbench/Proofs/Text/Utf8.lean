import Mathlib.Data.List.Basic
import Toolbench.Text.Utf8

/-!
# Texts are read back from their bytes

`decode_encode` says that decoding the bytes of a text gives the text back. The step is
`decodeFrom_encodeChar`: the bytes of one character are read as that character, whatever follows.
A byte below 0x80 stands for its own character only (`encodeChar_of_mem`), so a text without a
given ASCII character has bytes without it.
-/

namespace Toolbench.Text.Utf8

/-- The value of a byte that is small enough. -/
theorem toNat_ofNat {n : Nat} (h : n < 256) : (UInt8.ofNat n).toNat = n := by
  simpa using Nat.mod_eq_of_lt h

/-- The value of a character is a code point and no surrogate. -/
theorem toNat_isValid (c : Char) : c.toNat < 0xD800 ∨ (0xDFFF < c.toNat ∧ c.toNat < 0x110000) :=
  c.valid

/-! ## Reading one byte -/

/-- To read bytes is to read the first one and go on with what it leaves. -/
theorem decodeFrom_cons (held : Option Partial) (byte : UInt8) (bytes : List UInt8) :
    decodeFrom held (byte :: bytes)
      = (next held byte).1 ++ decodeFrom (next held byte).2 bytes := by
  cases held <;> rfl

/-- A byte that completes nothing is read into what is held. -/
theorem decodeFrom_of_next {held : Option Partial} {byte : UInt8} {left : Partial}
    (h : next held byte = ([], some left)) (bytes : List UInt8) :
    decodeFrom held (byte :: bytes) = decodeFrom (some left) bytes := by
  rw [decodeFrom_cons, h]
  rfl

/-- The first byte of two. -/
theorem decodeFrom_two {n : Nat} (hlow : 2 ≤ n) (hhigh : n < 32) (bytes : List UInt8) :
    decodeFrom none (UInt8.ofNat (0xC0 + n) :: bytes)
      = decodeFrom (some ⟨1, n, 0x80, 0xBF⟩) bytes := by
  refine decodeFrom_of_next ?_ bytes
  simp only [next, start]
  rw [toNat_ofNat (by omega), if_neg (by omega), if_neg (by omega), if_pos (by omega),
    Nat.add_sub_cancel_left]

/-- The first byte of three. -/
theorem decodeFrom_three {n : Nat} (hhigh : n < 16) (bytes : List UInt8) :
    decodeFrom none (UInt8.ofNat (0xE0 + n) :: bytes)
      = decodeFrom (some ⟨2, n, if n = 0 then 0xA0 else 0x80, if n = 13 then 0x9F else 0xBF⟩)
          bytes := by
  refine decodeFrom_of_next ?_ bytes
  simp only [next, start]
  rw [toNat_ofNat (by omega), if_neg (by omega), if_neg (by omega), if_neg (by omega),
    if_pos (by omega), Nat.add_sub_cancel_left]
  simp only [show (0xE0 + n = 0xE0) = (n = 0) by simp, show (0xE0 + n = 0xED) = (n = 13) by grind]

/-- The first byte of four. -/
theorem decodeFrom_four {n : Nat} (hhigh : n < 5) (bytes : List UInt8) :
    decodeFrom none (UInt8.ofNat (0xF0 + n) :: bytes)
      = decodeFrom (some ⟨3, n, if n = 0 then 0x90 else 0x80, if n = 4 then 0x8F else 0xBF⟩)
          bytes := by
  refine decodeFrom_of_next ?_ bytes
  simp only [next, start]
  rw [toNat_ofNat (by omega), if_neg (by omega), if_neg (by omega), if_neg (by omega),
    if_neg (by omega), if_pos (by omega), Nat.add_sub_cancel_left]
  simp only [show (0xF0 + n = 0xF0) = (n = 0) by simp, show (0xF0 + n = 0xF4) = (n = 4) by grind]

variable {missing bits low high n : Nat}

/-- A byte that goes on with a character and does not complete it. -/
theorem decodeFrom_more (hn : n < 64) (hlow : low ≤ 0x80 + n) (hhigh : 0x80 + n ≤ high)
    (bytes : List UInt8) :
    decodeFrom (some ⟨missing + 2, bits, low, high⟩) (UInt8.ofNat (0x80 + n) :: bytes)
      = decodeFrom (some ⟨missing + 1, 64 * bits + n, 0x80, 0xBF⟩) bytes := by
  have hbits : (0x80 + n) % 64 = n := by omega
  refine decodeFrom_of_next ?_ bytes
  simp only [next]
  rw [toNat_ofNat (by omega), if_pos ⟨hlow, hhigh⟩, if_neg (by omega), hbits]
  rfl

/-- The byte that completes a character. -/
theorem decodeFrom_last (hn : n < 64) (hlow : low ≤ 0x80 + n) (hhigh : 0x80 + n ≤ high)
    (bytes : List UInt8) :
    decodeFrom (some ⟨1, bits, low, high⟩) (UInt8.ofNat (0x80 + n) :: bytes)
      = Char.ofNat (64 * bits + n) :: decodeFrom none bytes := by
  have hbits : (0x80 + n) % 64 = n := by omega
  rw [decodeFrom_cons]
  simp only [next]
  rw [toNat_ofNat (by omega), if_pos ⟨hlow, hhigh⟩, if_pos (by omega), hbits]
  rfl

/-! ## Reading a text -/

/-- The bytes of a character are read as that character, whatever follows. -/
theorem decodeFrom_encodeChar (c : Char) (bytes : List UInt8) :
    decodeFrom none (encodeChar c ++ bytes) = c :: decodeFrom none bytes := by
  have hvalid := toNat_isValid c
  have hback : Char.ofNat c.toNat = c := Char.ofNat_toNat c
  unfold encodeChar
  -- One case for each length of the form; the bounds of the second byte are where a shorter form,
  -- a surrogate or too great a value would be.
  dsimp only
  split
  · rename_i hone
    have hbyte := toNat_ofNat (n := c.toNat) (by omega)
    rw [List.singleton_append, decodeFrom_ascii bytes (by omega), hbyte, hback]
  split
  · rename_i htwo
    have hsum : 64 * (c.toNat / 64) + c.toNat % 64 = c.toNat := by omega
    show decodeFrom none (_ :: _ :: bytes) = _
    rw [decodeFrom_two (by omega) (by omega),
      decodeFrom_last (by omega) (by omega) (by omega), hsum, hback]
  split
  · rename_i hthree
    have hsum : 64 * (64 * (c.toNat / 4096) + c.toNat / 64 % 64) + c.toNat % 64 = c.toNat := by
      omega
    show decodeFrom none (_ :: _ :: _ :: bytes) = _
    rw [decodeFrom_three (by omega),
      decodeFrom_more (by omega) (by split <;> omega) (by split <;> omega),
      decodeFrom_last (by omega) (by omega) (by omega), hsum, hback]
  · have hsum : 64 * (64 * (64 * (c.toNat / 262144) + c.toNat / 4096 % 64) + c.toNat / 64 % 64)
        + c.toNat % 64 = c.toNat := by omega
    show decodeFrom none (_ :: _ :: _ :: _ :: bytes) = _
    rw [decodeFrom_four (by omega),
      decodeFrom_more (by omega) (by split <;> omega) (by split <;> omega),
      decodeFrom_more (by omega) (by omega) (by omega),
      decodeFrom_last (by omega) (by omega) (by omega), hsum, hback]

/-- A text is read back from its bytes. -/
theorem decode_encode (cs : List Char) : decode (encode cs) = cs := by
  unfold decode encode
  induction cs with
  | nil => rfl
  | cons c cs ih => rw [List.flatMap_cons, decodeFrom_encodeChar, ih]

/-! ## ASCII bytes -/

/-- A byte below 0x80 is in the form of its own character only, and is all of it. -/
theorem encodeChar_of_mem {c : Char} {byte : UInt8} (h : byte ∈ encodeChar c)
    (hascii : byte.toNat < 0x80) : c.toNat = byte.toNat ∧ encodeChar c = [byte] := by
  have hvalid := toNat_isValid c
  -- Every byte of a longer form is at least 0x80.
  have hgreat : ∀ n, 0x80 ≤ n → n < 256 → byte ≠ UInt8.ofNat n := by
    intro n hlow hhigh heq
    rw [heq, toNat_ofNat hhigh] at hascii
    omega
  unfold encodeChar at h ⊢
  dsimp only at h ⊢
  split at h
  · rename_i hone
    have heq := List.mem_singleton.1 h
    rw [if_pos hone, heq, toNat_ofNat (by omega)]
    exact ⟨rfl, rfl⟩
  split at h
  · simp only [List.mem_cons, List.not_mem_nil, or_false] at h
    rcases h with h | h <;> exact absurd h (hgreat _ (by omega) (by omega))
  split at h
  · simp only [List.mem_cons, List.not_mem_nil, or_false] at h
    rcases h with h | h | h <;> exact absurd h (hgreat _ (by omega) (by omega))
  · simp only [List.mem_cons, List.not_mem_nil, or_false] at h
    rcases h with h | h | h | h <;> exact absurd h (hgreat _ (by omega) (by omega))

/-- No character has no bytes. -/
theorem encodeChar_ne_nil (c : Char) : encodeChar c ≠ [] := by
  unfold encodeChar
  dsimp only
  repeat' split
  all_goals exact List.cons_ne_nil _ _

variable {ascii : Char} {byte : UInt8} {cs : List Char}

/-- The character of an ASCII byte that is among the bytes of a text is in the text. -/
theorem mem_of_mem_encode (hbyte : byte.toNat = ascii.toNat) (hascii : ascii.toNat < 0x80)
    (h : byte ∈ encode cs) : ascii ∈ cs := by
  obtain ⟨c, hc, hmem⟩ := List.mem_flatMap.1 h
  have hsame := (encodeChar_of_mem hmem (hbyte ▸ hascii)).1
  rwa [Char.toNat_inj.1 (hbyte.symm.trans hsame.symm)]

/-- A text whose bytes end in an ASCII byte ends in the character of that byte. -/
theorem getLast?_of_getLast?_encode (hbyte : byte.toNat = ascii.toNat)
    (hascii : ascii.toNat < 0x80) (h : (encode cs).getLast? = some byte) :
    cs.getLast? = some ascii := by
  rcases List.eq_nil_or_concat cs with rfl | ⟨front, c, rfl⟩
  · exact nomatch h
  · have hlast : (encodeChar c).getLast? = some byte := by
      rw [List.concat_eq_append, encode, List.flatMap_append, List.flatMap_singleton,
        List.getLast?_append_of_ne_nil _ (encodeChar_ne_nil c)] at h
      exact h
    have hsame := (encodeChar_of_mem (List.mem_of_getLast? hlast) (hbyte ▸ hascii)).1
    rw [List.concat_eq_append, List.getLast?_concat,
      Char.toNat_inj.1 (hsame.trans hbyte)]

end Toolbench.Text.Utf8
