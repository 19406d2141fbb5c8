import ConsoleOnline.Text.Utf16

/-!
Text comes back from its encodings. Decoding UTF-8 or UTF-16 gives the encoded characters again,
and the strict form of UTF-8 accepts the encodings and nothing else.
-/
namespace ConsoleOnline.Text

theorem toNat_ofNat_scalar {n : Nat} (h : n < 0xD800 ∨ 0xE000 ≤ n ∧ n < 0x110000) :
    (Char.ofNat n).toNat = n := by
  have hvalid : n.isValidChar := by
    rcases h with h | h
    · exact .inl h
    · exact .inr ⟨by omega, h.2⟩
  rw [Char.ofNat, dif_pos hvalid]
  rfl

namespace Utf8

/-- Characters are no surrogates. -/
theorem char_bounds (c : Char) :
    ¬ (0xD800 ≤ c.toNat ∧ c.toNat < 0xE000) ∧ c.toNat < 0x110000 := by
  have h : c.toNat < 0xD800 ∨ 0xDFFF < c.toNat ∧ c.toNat < 0x110000 := c.valid
  omega

/-- A continuation byte within the range adds its six bits. -/
theorem next_of_mem {p : Pending} {k : Nat} (hk : k < 0x40)
    (h : p.low ≤ 0x80 + k ∧ 0x80 + k ≤ p.high) :
    p.next (.ofNat (0x80 + k)) = match p.more with
      | 0 => ([.ofNat (p.bits * 0x40 + k)], none)
      | more + 1 => ([], some { more, bits := p.bits * 0x40 + k }) := by
  have hn : (UInt8.ofNat (0x80 + k)).toNat = 0x80 + k := by
    rw [UInt8.toNat_ofNat']; omega
  have hm : (0x80 + k) % 0x40 = k := by omega
  obtain ⟨low, high, more, bits⟩ := p
  cases more <;> simp only [Pending.next, hn, if_pos h, hm]

theorem first_of_two {k : Nat} (h : 2 ≤ k ∧ k < 0x20) :
    first (.ofNat (0xC0 + k)) = ([], some { more := 0, bits := k }) := by
  have hn : (UInt8.ofNat (0xC0 + k)).toNat = 0xC0 + k := by
    rw [UInt8.toNat_ofNat']; omega
  simp only [first, hn]
  rw [if_neg (by omega), if_neg (by omega), if_pos (by omega)]
  simp

/-- What a character of three bytes begins: the second byte must not make it overlong or a
surrogate. -/
theorem first_of_three {k : Nat} (h : k < 0x10) :
    first (.ofNat (0xE0 + k)) = ([], some
      { low := if k = 0 then 0xA0 else 0x80
        high := if k = 0xD then 0x9F else 0xBF
        more := 1
        bits := k }) := by
  have all : ∀ k : Fin 0x10, first (.ofNat (0xE0 + k.val)) = ([], some
      { low := if k.val = 0 then 0xA0 else 0x80
        high := if k.val = 0xD then 0x9F else 0xBF
        more := 1
        bits := k.val }) := by decide
  exact all ⟨k, h⟩

theorem first_of_four {k : Nat} (h : k < 5) :
    first (.ofNat (0xF0 + k)) = ([], some
      { low := if k = 0 then 0x90 else 0x80
        high := if k = 4 then 0x8F else 0xBF
        more := 2
        bits := k }) := by
  have all : ∀ k : Fin 5, first (.ofNat (0xF0 + k.val)) = ([], some
      { low := if k.val = 0 then 0x90 else 0x80
        high := if k.val = 4 then 0x8F else 0xBF
        more := 2
        bits := k.val }) := by decide
  exact all ⟨k, h⟩

theorem decodeFrom_encodeChar (c : Char) (bs : Bytes) :
    decodeFrom none (encodeChar c ++ bs) = c :: decodeFrom none bs := by
  have hc := char_bounds c
  by_cases h1 : c.toNat < 0x80
  · have hn : (UInt8.ofNat c.toNat).toNat = c.toNat := by rw [UInt8.toNat_ofNat']; omega
    rw [encodeChar, if_pos h1]
    change (step none _).1 ++ decodeFrom (step none _).2 bs = _
    simp only [step, first, hn, if_pos h1, Char.ofNat_toNat]
    rfl
  by_cases h2 : c.toNat < 0x800
  · rw [encodeChar, if_neg h1, if_pos h2]
    change decodeFrom none (_ :: _ :: bs) = _
    simp only [decodeFrom, step,
      first_of_two (show 2 ≤ c.toNat / 0x40 ∧ c.toNat / 0x40 < 0x20 by omega)]
    rw [next_of_mem (by omega) (by simp; omega)]
    have : c.toNat / 0x40 * 0x40 + c.toNat % 0x40 = c.toNat := by omega
    simp [this]
  by_cases h3 : c.toNat < 0x10000
  · rw [encodeChar, if_neg h1, if_neg h2, if_pos h3]
    change decodeFrom none (_ :: _ :: _ :: bs) = _
    simp only [decodeFrom, step, first_of_three (show c.toNat / 0x1000 < 0x10 by omega)]
    rw [next_of_mem (by omega) (by simp; split <;> split <;> omega)]
    simp only
    rw [next_of_mem (by omega) (by simp; omega)]
    have : (c.toNat / 0x1000 * 0x40 + c.toNat / 0x40 % 0x40) * 0x40 + c.toNat % 0x40 = c.toNat := by
      omega
    simp [this]
  · rw [encodeChar, if_neg h1, if_neg h2, if_neg h3]
    change decodeFrom none (_ :: _ :: _ :: _ :: bs) = _
    simp only [decodeFrom, step, first_of_four (show c.toNat / 0x40000 < 5 by omega)]
    rw [next_of_mem (by omega) (by simp; split <;> split <;> omega)]
    simp only
    rw [next_of_mem (by omega) (by simp; omega)]
    simp only
    rw [next_of_mem (by omega) (by simp; omega)]
    have : ((c.toNat / 0x40000 * 0x40 + c.toNat / 0x1000 % 0x40) * 0x40 +
        c.toNat / 0x40 % 0x40) * 0x40 + c.toNat % 0x40 = c.toNat := by omega
    simp [this]

theorem decode_encode (cs : List Char) : decode (encode cs) = cs := by
  induction cs with
  | nil => rfl
  | cons c cs ih => rw [encode_cons, decode, decodeFrom_encodeChar, ← decode, ih]

end Utf8

namespace Utf16

theorem isHigh_ofNat {n : Nat} (h : n < 0x10000) :
    isHigh (.ofNat n) = (0xD800 ≤ n && n < 0xDC00) := by
  simp [isHigh, UInt16.le_iff_toNat_le, UInt16.lt_iff_toNat_lt, Nat.mod_eq_of_lt h]

theorem isLow_ofNat {n : Nat} (h : n < 0x10000) :
    isLow (.ofNat n) = (0xDC00 ≤ n && n < 0xE000) := by
  simp [isLow, UInt16.le_iff_toNat_le, UInt16.lt_iff_toNat_lt, Nat.mod_eq_of_lt h]

/-- The first half of a pair is a high surrogate. -/
theorem isHigh_half {n : Nat} (h : n < 0x110000) :
    isHigh (.ofNat (0xD800 + (n - 0x10000) / 0x400)) = true := by
  rw [isHigh_ofNat (by omega)]; simp; omega

theorem decode_cons_of_not_high {u : UInt16} (h : isHigh u = false) (us : List UInt16) :
    decode (u :: us) = single u :: decode us := by
  cases us <;> simp [decode, h]

theorem decode_encodeChar (c : Char) (us : List UInt16) :
    decode (encodeChar c ++ us) = c :: decode us := by
  have hc := Utf8.char_bounds c
  by_cases h : c.toNat < 0x10000
  · have hh : isHigh (.ofNat c.toNat) = false := by rw [isHigh_ofNat h]; simp; omega
    have hl : isLow (.ofNat c.toNat) = false := by rw [isLow_ofNat h]; simp; omega
    simp [encodeChar, h, decode_cons_of_not_high hh, single, hh, hl]
    rw [Nat.mod_eq_of_lt h, Char.ofNat_toNat]
  · have hh := isHigh_half hc.2
    have hl : isLow (.ofNat (0xDC00 + (c.toNat - 0x10000) % 0x400)) = true := by
      rw [isLow_ofNat (by omega)]; simp; omega
    have hp : pair (.ofNat (0xD800 + (c.toNat - 0x10000) / 0x400))
        (.ofNat (0xDC00 + (c.toNat - 0x10000) % 0x400)) = c := by
      have : 0x10000 + ((0xD800 + (c.toNat - 0x10000) / 0x400) % 2 ^ 16 - 0xD800) * 0x400 +
          ((0xDC00 + (c.toNat - 0x10000) % 0x400) % 2 ^ 16 - 0xDC00) = c.toNat := by omega
      rw [pair, UInt16.toNat_ofNat', UInt16.toNat_ofNat', this, Char.ofNat_toNat]
    rw [encodeChar, if_neg h]
    change decode (_ :: _ :: us) = _
    rw [decode, hh, hl, hp]
    rfl

theorem decode_encode (cs : List Char) : decode (encode cs) = cs := by
  induction cs with
  | nil => rfl
  | cons c cs ih => rw [encode_cons, decode_encodeChar, ih]
end Utf16

end ConsoleOnline.Text
