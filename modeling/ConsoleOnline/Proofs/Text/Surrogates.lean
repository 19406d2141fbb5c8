import ConsoleOnline.Text.RoundTrip

/-!
Surrogates in UTF-16 units. A pair is a high surrogate with a low one right after it, and as no unit
is both, no unit is in two pairs. Units that are decoded and encoded again come back in their places,
but for the surrogates that are in no pair.
-/
namespace ConsoleOnline.Text.Utf16

/-- Whether a surrogate pair begins at place `i`. -/
def pairAt (us : List UInt16) (i : Nat) : Bool := us[i]?.any isHigh && us[i + 1]?.any isLow

/-- Whether a surrogate pair ends at place `i`. -/
def pairEndsAt (us : List UInt16) : Nat → Bool
  | 0 => false
  | i + 1 => pairAt us i

/-- Whether the unit at place `i` is a surrogate in no pair. -/
def loneAt (us : List UInt16) (i : Nat) : Bool :=
  us[i]?.any (fun u => isHigh u || isLow u) && !pairAt us i && !pairEndsAt us i

/-- The units `vs` are `us`, but for U+FFFD in the places where `text` has a surrogate in no pair. -/
structure Mended (text us vs : List UInt16) : Prop where
  length : vs.length = us.length
  unit : ∀ i (h : i < us.length), vs[i]? = some (if loneAt text i then 0xFFFD else us[i])

theorem Mended.take {text us vs : List UInt16} (h : Mended text us vs) (n : Nat) :
    Mended text (us.take n) (vs.take n) where
  length := by rw [List.length_take, List.length_take, h.length]
  unit i hi := by
    rw [List.length_take] at hi
    rw [List.getElem?_take_of_lt (by omega), List.getElem_take]
    exact h.unit i (by omega)

/-! ### Single units and pairs -/

theorem not_high_of_low {u : UInt16} (h : isLow u) : isHigh u = false := by
  simp only [isLow, Bool.and_eq_true, decide_eq_true_eq] at h
  have hnot : ¬ u < 0xDC00 := UInt16.not_lt.mpr h.1
  simp [isHigh, hnot]

/-- What becomes of a unit outside of pairs. -/
theorem encodeChar_single (u : UInt16) :
    encodeChar (single u) = [if isHigh u || isLow u then 0xFFFD else u] := by
  have hlt : u.toNat < 0x10000 := u.toNat_lt
  rw [single]
  split
  · decide
  · next h =>
    have hrange : u.toNat < 0xD800 ∨ 0xE000 ≤ u.toNat ∧ u.toNat < 0x110000 := by
      simp [isHigh, isLow, UInt16.le_iff_toNat_le, UInt16.lt_iff_toNat_lt] at h
      omega
    simp only [encodeChar, toNat_ofNat_scalar hrange, if_pos hlt, UInt16.ofNat_toNat]

theorem encodeChar_pair {u v : UInt16} (hu : isHigh u) (hv : isLow v) :
    encodeChar (pair u v) = [u, v] := by
  simp only [isHigh, isLow, Bool.and_eq_true, decide_eq_true_eq, UInt16.le_iff_toNat_le,
    UInt16.lt_iff_toNat_lt] at hu hv
  have hhigh : 0xD800 ≤ u.toNat ∧ u.toNat < 0xDC00 := hu
  have hlow : 0xDC00 ≤ v.toNat ∧ v.toNat < 0xE000 := hv
  have hnum : (pair u v).toNat = 0x10000 + (u.toNat - 0xD800) * 0x400 + (v.toNat - 0xDC00) :=
    toNat_ofNat_scalar (by omega)
  have hfirst : 0xD800 + ((pair u v).toNat - 0x10000) / 0x400 = u.toNat := by omega
  have hsecond : 0xDC00 + ((pair u v).toNat - 0x10000) % 0x400 = v.toNat := by omega
  simp only [encodeChar, hfirst, hsecond, UInt16.ofNat_toNat]
  rw [if_neg (by omega)]

/-! ### Whole lists -/

theorem pairAt_cons (u : UInt16) (us : List UInt16) (i : Nat) :
    pairAt (u :: us) (i + 1) = pairAt us i := rfl

/-- A unit in front changes nothing where no pair begins with it. -/
theorem loneAt_cons {u : UInt16} {us : List UInt16} (h : pairAt (u :: us) 0 = false) (i : Nat) :
    loneAt (u :: us) (i + 1) = loneAt us i := by
  have hends : pairEndsAt (u :: us) (i + 1) = pairEndsAt us i := by
    cases i with
    | zero => exact h
    | succ i => rfl
  rw [loneAt, hends, pairAt_cons, List.getElem?_cons_succ, loneAt]

theorem Mended.cons {u : UInt16} {us vs : List UInt16} (h : Mended us us vs)
    (hpair : pairAt (u :: us) 0 = false) :
    Mended (u :: us) (u :: us) ((if isHigh u || isLow u then 0xFFFD else u) :: vs) where
  length := by rw [List.length_cons, List.length_cons, h.length]
  unit i hi := by
    cases i with
    | zero =>
      have hlone : loneAt (u :: us) 0 = (isHigh u || isLow u) := by
        simp [loneAt, hpair, pairEndsAt]
      rw [List.getElem?_cons_zero, hlone, List.getElem_cons_zero]
    | succ i =>
      rw [List.getElem?_cons_succ, loneAt_cons hpair, List.getElem_cons_succ]
      exact h.unit i (Nat.lt_of_succ_lt_succ hi)

theorem Mended.pair {u v : UInt16} {us vs : List UInt16} (h : Mended us us vs) (hu : isHigh u)
    (hv : isLow v) : Mended (u :: v :: us) (u :: v :: us) (u :: v :: vs) where
  length := by simp only [List.length_cons, h.length]
  unit i hi := by
    have hpair : pairAt (u :: v :: us) 0 = true := by simp [pairAt, hu, hv]
    have hnext : pairAt (v :: us) 0 = false := by simp [pairAt, not_high_of_low hv]
    match i with
    | 0 =>
      have hlone : loneAt (u :: v :: us) 0 = false := by simp [loneAt, hpair]
      rw [hlone]
      rfl
    | 1 =>
      have hlone : loneAt (u :: v :: us) 1 = false := by simp [loneAt, pairEndsAt, hpair]
      rw [hlone]
      rfl
    | i + 2 =>
      have hlone : loneAt (u :: v :: us) (i + 2) = loneAt us i := by
        -- no pair begins with the low surrogate, so it does not matter what stands before it
        rw [← loneAt_cons hnext i]
        rfl
      rw [hlone]
      exact h.unit i (by simpa using hi)

/-- Decoded and encoded again, the units are the same but for lone surrogates. -/
theorem mended_encode_decode (us : List UInt16) : Mended us us (encode (decode us)) := by
  induction us using decode.induct with
  | case1 => exact ⟨rfl, fun i hi => absurd hi (Nat.not_lt_zero i)⟩
  | case2 u =>
    have hnil : Mended [] [] [] := ⟨rfl, fun i hi => absurd hi (Nat.not_lt_zero i)⟩
    rw [decode, encode_cons, encodeChar_single, encode_nil]
    exact hnil.cons (by simp [pairAt])
  | case3 u v us h ih =>
    obtain ⟨hu, hv⟩ := Bool.and_eq_true_iff.mp h
    rw [decode, if_pos h, encode_cons, encodeChar_pair hu hv]
    exact ih.pair hu hv
  | case4 u v us h ih =>
    have hpair : pairAt (u :: v :: us) 0 = false := by simpa [pairAt] using h
    rw [decode, if_neg h, encode_cons, encodeChar_single]
    exact ih.cons hpair

end ConsoleOnline.Text.Utf16
