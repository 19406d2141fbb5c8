import ConsoleOnline.Digits

/-!
Bytes and big-endian numbers. Guest memory stores every number most significant byte first;
`bigEndian` writes `width` bytes of a number and `ofBigEndian` reads a number back.
-/
namespace ConsoleOnline

abbrev Bytes := List UInt8

namespace Bytes

def bigEndian (width n : Nat) : Bytes :=
  (Digits.fixed 256 width n).map UInt8.ofNat

def ofBigEndian (bs : Bytes) : Nat :=
  Digits.value 256 (bs.map UInt8.toNat)

/-- The first `n` bytes, with zeros where the list has no more. -/
def window (n : Nat) (bs : Bytes) : Vector UInt8 n :=
  Vector.ofFn fun i => bs.getD i 0

@[simp] theorem length_bigEndian (width n : Nat) : (bigEndian width n).length = width := by
  simp [bigEndian]

theorem ofBigEndian_bigEndian (width n : Nat) :
    ofBigEndian (bigEndian width n) = n % Nat.pow 256 width := by
  have h : (Digits.fixed 256 width n).map (UInt8.toNat ∘ UInt8.ofNat) = Digits.fixed 256 width n := by
    refine (List.map_congr_left fun d hd => ?_).trans (List.map_id _)
    have := Digits.mem_fixed_lt (by decide) hd
    simp; omega
  rw [ofBigEndian, bigEndian, List.map_map, h, Digits.value_fixed]

end Bytes

end ConsoleOnline
