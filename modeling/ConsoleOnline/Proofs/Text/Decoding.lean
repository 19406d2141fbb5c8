import ConsoleOnline.Text.RoundTrip
import Mathlib.Data.List.TakeWhile

/-!
What comes of bytes that are decoded as UTF-8. The ranges of the next byte keep each character begun
between a least and a greatest number, and inside these there is no surrogate and no zero, so only a
zero byte reads as a zero character.
-/
namespace ConsoleOnline.Text.Utf8

namespace Pending

/-- The least number that the character may have in the end. -/
def least (p : Pending) : Nat := (p.bits * 0x40 + (p.low - 0x80)) * Nat.pow 0x40 p.more

/-- The number after the greatest that it may have. -/
def limit (p : Pending) : Nat := (p.bits * 0x40 + (p.high - 0x80) + 1) * Nat.pow 0x40 p.more

/-- Whatever follows, the character begun is one, and not zero. -/
structure Sound (p : Pending) : Prop where
  low_ge : 0x80 ≤ p.low
  high_le : p.high ≤ 0xBF
  pos : 0 < p.least
  scalar : p.limit ≤ 0xD800 ∨ 0xE000 ≤ p.least ∧ p.limit ≤ 0x110000

theorem least_of_tail (more bits : Nat) :
    least { more, bits } = bits * Nat.pow 0x40 (more + 1) := by
  simp only [least, Nat.sub_self, Nat.add_zero, Nat.pow_eq]
  rw [Nat.pow_succ', ← Nat.mul_assoc]

theorem limit_of_tail (more bits : Nat) :
    limit { more, bits } = (bits + 1) * Nat.pow 0x40 (more + 1) := by
  have hall : bits * 0x40 + (0xBF - 0x80) + 1 = (bits + 1) * 0x40 := by omega
  simp only [limit, hall, Nat.pow_eq]
  rw [Nat.pow_succ', ← Nat.mul_assoc]

/-- A byte in the range narrows the numbers down to those that begin with its bits. -/
theorem Sound.narrow {p : Pending} (hp : p.Sound) {n : Nat} (hlow : p.low ≤ n) (hhigh : n ≤ p.high) :
    p.least ≤ (p.bits * 0x40 + n % 0x40) * Nat.pow 0x40 p.more ∧
      (p.bits * 0x40 + n % 0x40 + 1) * Nat.pow 0x40 p.more ≤ p.limit := by
  have := hp.low_ge
  have := hp.high_le
  have hbits : n % 0x40 = n - 0x80 := by omega
  rw [hbits]
  exact ⟨Nat.mul_le_mul_right _ (by omega), Nat.mul_le_mul_right _ (by omega)⟩

end Pending

/-- What a step leaves behind: characters that are not zero, and none begun that could be. -/
structure Step.Clean (s : Step) : Prop where
  chars : ∀ c ∈ s.1, c ≠ '\x00'
  rest : ∀ p ∈ s.2, p.Sound

theorem ofNat_ne_nul {n : Nat} (hpos : 0 < n) (h : n < 0xD800 ∨ 0xE000 ≤ n ∧ n < 0x110000) :
    Char.ofNat n ≠ '\x00' := by
  intro hzero
  have hn := congrArg Char.toNat hzero
  rw [toNat_ofNat_scalar h] at hn
  exact Nat.ne_of_gt hpos hn

/-- Every kind of first byte has its own range for the one that follows. -/
theorem sound_first {b : UInt8} {p : Pending} (h : (first b).2 = some p) : p.Sound := by
  simp only [first] at h
  repeat' split at h
  all_goals cases h
  all_goals
    constructor <;> simp only [Pending.least, Pending.limit, Nat.pow_eq] <;> omega

theorem clean_first {b : UInt8} (hb : b ≠ 0) : Step.Clean (first b) where
  chars c hc := by
    have hpos : 0 < b.toNat := Nat.pos_of_ne_zero fun h => hb (UInt8.toNat.inj h)
    have hreplacement : replacement ≠ '\x00' := by decide
    simp only [first] at hc
    repeat' split at hc
    all_goals simp only [List.mem_singleton, List.not_mem_nil] at hc
    all_goals subst hc
    · exact ofNat_ne_nul hpos (.inl (by omega))
    · exact hreplacement
    · exact hreplacement
  rest _ hp := sound_first hp

theorem Pending.Sound.clean_next {p : Pending} (hp : p.Sound) {b : UInt8} (hb : b ≠ 0) :
    Step.Clean (p.next b) := by
  by_cases hrange : p.low ≤ b.toNat ∧ b.toNat ≤ p.high
  · have hnarrow := hp.narrow hrange.1 hrange.2
    have hpos := hp.pos
    have hscalar := hp.scalar
    cases hmore : p.more with
    | zero =>
      simp only [hmore, Nat.pow_eq, Nat.pow_zero, Nat.mul_one] at hnarrow
      simp only [next, if_pos hrange, hmore]
      refine ⟨fun c hc => ?_, fun q hq => by cases hq⟩
      obtain rfl := List.mem_singleton.mp hc
      exact ofNat_ne_nul (by omega) (by omega)
    | succ more =>
      rw [hmore, ← least_of_tail, ← limit_of_tail] at hnarrow
      simp only [next, if_pos hrange, hmore]
      refine ⟨fun c hc => absurd hc List.not_mem_nil, fun q hq => ?_⟩
      obtain rfl := Option.some.inj hq
      exact ⟨Nat.le_refl _, Nat.le_refl _, by omega, by omega⟩
  · have hfirst := clean_first hb
    simp only [next, if_neg hrange]
    refine ⟨fun c hc => ?_, hfirst.rest⟩
    rcases List.mem_cons.mp hc with rfl | hc
    · decide
    · exact hfirst.chars c hc

theorem clean_step {p : Option Pending} (hp : ∀ q ∈ p, q.Sound) {b : UInt8} (hb : b ≠ 0) :
    Step.Clean (step p b) := by
  cases p with
  | none => exact clean_first hb
  | some q => exact (hp q rfl).clean_next hb

theorem ne_nul_of_mem_decodeFrom {bs : Bytes} (hbs : ∀ b ∈ bs, b ≠ 0) {p : Option Pending}
    (hp : ∀ q ∈ p, q.Sound) : ∀ c ∈ decodeFrom p bs, c ≠ '\x00' := by
  induction bs generalizing p with
  | nil =>
    intro c hc
    cases p with
    | none => exact absurd hc List.not_mem_nil
    | some q =>
      obtain rfl := List.mem_singleton.mp hc
      decide
  | cons b bs ih =>
    obtain ⟨hb, hrest⟩ := List.forall_mem_cons.mp hbs
    have hstep := clean_step hp hb
    intro c hc
    rw [decodeFrom] at hc
    rcases List.mem_append.mp hc with hc | hc
    · exact hstep.chars c hc
    · exact ih hrest hstep.rest c hc

/-- Bytes that are not zero read as characters that are not zero, well formed or not. -/
theorem nul_not_mem_decode {bs : Bytes} (hbs : ∀ b ∈ bs, b ≠ 0) : '\x00' ∉ decode bs :=
  fun h => ne_nul_of_mem_decodeFrom hbs (fun q hq => by cases hq) _ h rfl

end ConsoleOnline.Text.Utf8
