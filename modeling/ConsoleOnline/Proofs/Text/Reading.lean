import ConsoleOnline.Proofs.Text.Decoding
import Mathlib.Data.List.Induction

/-!
What bytes read as, told without a decoder. Where the encoding of a character stands, they read as
that character. Where none stands, the longest beginning of one reads as U+FFFD, and so does a byte
that begins none. The decoder reads exactly this: what it keeps of a character begun are the numbers
of all the characters that begin so.
-/
namespace ConsoleOnline.Text.Utf8

/-- The encoding of some character begins with these bytes, or is them. -/
def Begins (bs : Bytes) : Prop := ∃ c, bs <+: encodeChar c

/-- In `broken`, a character is begun by `part` and does not go on with what follows. -/
inductive Reads : Bytes → List Char → Prop where
  | nil : Reads [] []
  | char (c : Char) {bs : Bytes} {cs : List Char} (rest : Reads bs cs) :
    Reads (encodeChar c ++ bs) (c :: cs)
  | broken {part bs : Bytes} {cs : List Char} (nonempty : part ≠ [])
    (unfinished : ∃ b, Begins (part ++ [b])) (stuck : ∀ b ∈ bs.head?, ¬ Begins (part ++ [b]))
    (rest : Reads bs cs) : Reads (part ++ bs) (replacement :: cs)
  | stray {b : UInt8} {bs : Bytes} {cs : List Char} (h : ¬ Begins [b]) (rest : Reads bs cs) :
    Reads (b :: bs) (replacement :: cs)

/-! ### Encodings, byte by byte -/

/-- The last `k` bytes of a longer encoding, six bits of the number in each. -/
def tail : Nat → Nat → Bytes
  | 0, _ => []
  | k + 1, n => .ofNat (0x80 + n / Nat.pow 0x40 k % 0x40) :: tail k n

/-- The first byte, as a number. -/
def lead (n : Nat) : Nat :=
  if n < 0x80 then n
  else if n < 0x800 then 0xC0 + n / 0x40
  else if n < 0x10000 then 0xE0 + n / 0x1000
  else 0xF0 + n / 0x40000

/-- How many bytes follow the first one. -/
def trailing (n : Nat) : Nat :=
  if n < 0x80 then 0 else if n < 0x800 then 1 else if n < 0x10000 then 2 else 3

theorem lead_cases (n : Nat) :
    n < 0x80 ∧ lead n = n ∧ trailing n = 0 ∨
      0x80 ≤ n ∧ n < 0x800 ∧ lead n = 0xC0 + n / 0x40 ∧ trailing n = 1 ∨
      0x800 ≤ n ∧ n < 0x10000 ∧ lead n = 0xE0 + n / 0x1000 ∧ trailing n = 2 ∨
      0x10000 ≤ n ∧ lead n = 0xF0 + n / 0x40000 ∧ trailing n = 3 := by
  simp only [lead, trailing]
  repeat' split
  all_goals omega

theorem encodeChar_eq (c : Char) :
    encodeChar c = .ofNat (lead c.toNat) :: tail (trailing c.toNat) c.toNat := by
  simp only [encodeChar, lead, trailing]
  repeat' split
  all_goals simp [tail]

theorem eq_ofNat_iff {b : UInt8} {n : Nat} (h : n < 0x100) : b = .ofNat n ↔ b.toNat = n := by
  rw [← UInt8.toNat_inj, UInt8.toNat_ofNat', Nat.mod_eq_of_lt h]

theorem Begins.of_append {bs bs' : Bytes} (h : Begins (bs ++ bs')) : Begins bs := by
  obtain ⟨c, hc⟩ := h
  exact ⟨c, (List.prefix_append bs bs').trans hc⟩

theorem prefix_encodeChar_iff (b : UInt8) (c : Char) :
    [b] <+: encodeChar c ↔ b.toNat = lead c.toNat := by
  have hlead : lead c.toNat < 0x100 := by
    have := lead_cases c.toNat
    have := char_bounds c
    omega
  rw [encodeChar_eq, ← eq_ofNat_iff hlead]
  simp

/-! ### Characters begun -/

/-- A character begun by `part`: its numbers are those of the characters that begin so, and its bytes
to come are the last ones of each. -/
structure Pending.After (p : Pending) (part : Bytes) : Prop where
  nonempty : part ≠ []
  sound : p.Sound
  low_le_high : p.low ≤ p.high
  begins_iff : ∀ c, part <+: encodeChar c ↔ p.least ≤ c.toNat ∧ c.toNat < p.limit
  spelled : ∀ c, part <+: encodeChar c → encodeChar c = part ++ tail (p.more + 1) c.toNat

/-- What becomes of the bytes since the last character: they are one, or begin one. -/
inductive Settles (part : Bytes) : Step → Prop where
  | whole {c : Char} (h : part = encodeChar c) : Settles part ([c], none)
  | begun {p : Pending} (h : p.After part) : Settles part ([], some p)

/-! ### The first byte -/

theorem first_of_stray {b : UInt8} (h : 0x80 ≤ b.toNat ∧ b.toNat < 0xC2 ∨ 0xF5 ≤ b.toNat) :
    first b = ([replacement], none) := by
  rcases h with h | h
  · rw [first, if_neg (by omega), if_pos (by omega)]
  · have all : ∀ k : Fin 0x0B, first (.ofNat (0xF5 + k.val)) = ([replacement], none) := by decide
    have hlt := b.toNat_lt
    have hb : b = .ofNat (0xF5 + (b.toNat - 0xF5)) := by
      rw [eq_ofNat_iff (by omega)]
      omega
    rw [hb]
    exact all ⟨b.toNat - 0xF5, by omega⟩

/-- What a byte with the number `n` leads to where no character is begun. -/
inductive FirstStep (n : Nat) : Step → Prop where
  | ascii (h : n < 0x80) : FirstStep n ([.ofNat n], none)
  | stray (h : 0x80 ≤ n ∧ n < 0xC2 ∨ 0xF5 ≤ n) : FirstStep n ([replacement], none)
  | two {k : Nat} (h : 2 ≤ k ∧ k < 0x20) (hn : n = 0xC0 + k) :
    FirstStep n ([], some { more := 0, bits := k })
  | three {k : Nat} (h : k < 0x10) (hn : n = 0xE0 + k) :
    FirstStep n ([], some
      { low := if k = 0 then 0xA0 else 0x80
        high := if k = 0xD then 0x9F else 0xBF
        more := 1
        bits := k })
  | four {k : Nat} (h : k < 5) (hn : n = 0xF0 + k) :
    FirstStep n ([], some
      { low := if k = 0 then 0x90 else 0x80
        high := if k = 4 then 0x8F else 0xBF
        more := 2
        bits := k })

theorem firstStep_first (b : UInt8) : FirstStep b.toNat (first b) := by
  have hb : ∀ base k, base + k = b.toNat → b = .ofNat (base + k) := by
    rintro base k hk
    rw [hk, UInt8.ofNat_toNat]
  by_cases hstray : 0x80 ≤ b.toNat ∧ b.toNat < 0xC2 ∨ 0xF5 ≤ b.toNat
  · exact first_of_stray hstray ▸ .stray hstray
  by_cases hascii : b.toNat < 0x80
  · rw [first, if_pos hascii]
    exact .ascii hascii
  by_cases htwo : b.toNat < 0xE0
  · obtain ⟨k, hk⟩ := Nat.exists_eq_add_of_le (show 0xC0 ≤ b.toNat by omega)
    have hfirst := first_of_two (k := k) (by omega)
    rw [← hb _ _ hk.symm] at hfirst
    exact hfirst ▸ .two (by omega) hk
  by_cases hthree : b.toNat < 0xF0
  · obtain ⟨k, hk⟩ := Nat.exists_eq_add_of_le (show 0xE0 ≤ b.toNat by omega)
    have hfirst := first_of_three (k := k) (by omega)
    rw [← hb _ _ hk.symm] at hfirst
    exact hfirst ▸ .three (by omega) hk
  · obtain ⟨k, hk⟩ := Nat.exists_eq_add_of_le (show 0xF0 ≤ b.toNat by omega)
    have hfirst := first_of_four (k := k) (by omega)
    rw [← hb _ _ hk.symm] at hfirst
    exact hfirst ▸ .four (by omega) hk

theorem after_first {b : UInt8} {p : Pending} (h : first b = ([], some p)) : p.After [b] := by
  have hafter : p.low ≤ p.high →
      (∀ c : Char, b.toNat = lead c.toNat ↔ p.least ≤ c.toNat ∧ c.toNat < p.limit) →
      (∀ n, b.toNat = lead n → trailing n = p.more + 1) → p.After [b] := by
    intro hrange hlead htrailing
    have hsound : p.Sound := sound_first (congrArg Prod.snd h)
    refine ⟨List.cons_ne_nil b [], hsound, hrange, fun c => ?_, fun c hc => ?_⟩
    · rw [prefix_encodeChar_iff, hlead]
    · rw [prefix_encodeChar_iff] at hc
      rw [encodeChar_eq, htrailing _ hc, ← hc, UInt8.ofNat_toNat]
      rfl
  have hstep := firstStep_first b
  rw [h] at hstep
  cases hstep with
  | two hk hn =>
    refine hafter (by simp) (fun c => ?_) fun n hlead => ?_
    · have := lead_cases c.toNat
      simp only [Pending.least, Pending.limit, Nat.pow_eq]
      omega
    · have := lead_cases n
      simp only
      omega
  | three hk hn =>
    refine hafter (by simp only; split <;> split <;> omega) (fun c => ?_) fun n hlead => ?_
    · have := lead_cases c.toNat
      have := char_bounds c
      simp only [Pending.least, Pending.limit, Nat.pow_eq]
      split <;> split <;> omega
    · have := lead_cases n
      simp only
      omega
  | four hk hn =>
    refine hafter (by simp only; split <;> split <;> omega) (fun c => ?_) fun n hlead => ?_
    · have := lead_cases c.toNat
      have := char_bounds c
      simp only [Pending.least, Pending.limit, Nat.pow_eq]
      split <;> split <;> omega
    · have := lead_cases n
      simp only
      omega

theorem settles_first (b : UInt8) :
    Settles [b] (first b) ∨ ¬ Begins [b] ∧ first b = ([replacement], none) := by
  have hstep := firstStep_first b
  generalize hfirst : first b = s at hstep
  cases hstep with
  | ascii h =>
    have hn : (Char.ofNat b.toNat).toNat = b.toNat := toNat_ofNat_scalar (by omega)
    refine .inl (.whole ?_)
    rw [encodeChar, hn, if_pos h, UInt8.ofNat_toNat]
  | stray h =>
    refine .inr ⟨?_, rfl⟩
    rintro ⟨c, hc⟩
    rw [prefix_encodeChar_iff] at hc
    have := lead_cases c.toNat
    have := char_bounds c
    omega
  | two => exact .inl (.begun (after_first hfirst))
  | three => exact .inl (.begun (after_first hfirst))
  | four => exact .inl (.begun (after_first hfirst))

/-! ### The next byte -/

namespace Pending.After

variable {p : Pending} {part : Bytes}

/-- The number of a character that begins so, without the bits after the next six. -/
theorem next_digit (h : p.After part) {c : Char} (hc : part <+: encodeChar c) :
    p.bits * 0x40 + (p.low - 0x80) ≤ c.toNat / Nat.pow 0x40 p.more ∧
      c.toNat / Nat.pow 0x40 p.more ≤ p.bits * 0x40 + (p.high - 0x80) := by
  obtain ⟨hleast, hlimit⟩ := (h.begins_iff c).mp hc
  have hpos : 0 < Nat.pow 0x40 p.more := Nat.pow_pos (by decide)
  exact ⟨(Nat.le_div_iff_mul_le hpos).mpr hleast,
    Nat.lt_succ_iff.mp ((Nat.div_lt_iff_lt_mul hpos).mpr hlimit)⟩

/-- Of these characters, the next byte picks those that have its bits next. -/
theorem concat_iff (h : p.After part) (b : UInt8) (c : Char) :
    part ++ [b] <+: encodeChar c ↔ part <+: encodeChar c ∧ p.low ≤ b.toNat ∧ b.toNat ≤ p.high ∧
      c.toNat / Nat.pow 0x40 p.more = p.bits * 0x40 + b.toNat % 0x40 := by
  have hlow := h.sound.low_ge
  have hhigh := h.sound.high_le
  have hrange := h.low_le_high
  have hdigit : ∀ hc : part <+: encodeChar c, part ++ [b] <+: encodeChar c ↔
      b.toNat = 0x80 + c.toNat / Nat.pow 0x40 p.more % 0x40 := by
    intro hc
    rw [h.spelled c hc, List.prefix_append_right_inj, tail, ← eq_ofNat_iff (by omega)]
    simp
  constructor
  · intro hb
    have hc : part <+: encodeChar c := (List.prefix_append part [b]).trans hb
    have hnext := h.next_digit hc
    rw [hdigit hc] at hb
    refine ⟨hc, ?_⟩
    omega
  · rintro ⟨hc, hlo, hhi, hbits⟩
    rw [hdigit hc, hbits]
    omega

theorem concat_eq_of_last (h : p.After part) (hmore : p.more = 0) {b : UInt8}
    (hb : p.low ≤ b.toNat ∧ b.toNat ≤ p.high) :
    part ++ [b] = encodeChar (.ofNat (p.bits * 0x40 + b.toNat % 0x40)) := by
  have hnarrow := h.sound.narrow hb.1 hb.2
  have hscalar := h.sound.scalar
  simp only [hmore, Nat.pow_eq, Nat.pow_zero, Nat.mul_one] at hnarrow
  have hn : (Char.ofNat (p.bits * 0x40 + b.toNat % 0x40)).toNat = p.bits * 0x40 + b.toNat % 0x40 :=
    toNat_ofNat_scalar (by omega)
  have hc := (h.begins_iff (.ofNat (p.bits * 0x40 + b.toNat % 0x40))).mpr (by omega)
  have hconcat := (h.concat_iff b _).mpr ⟨hc, hb.1, hb.2, by rw [hn, hmore]; exact Nat.div_one _⟩
  have hlength := congrArg List.length (h.spelled _ hc)
  rw [hmore, List.length_append] at hlength
  exact hconcat.eq_of_length (by rw [hlength, List.length_append]; rfl)

theorem concat (h : p.After part) {more : Nat} (hmore : p.more = more + 1) {b : UInt8}
    (hb : p.low ≤ b.toNat ∧ b.toNat ≤ p.high) :
    After { more, bits := p.bits * 0x40 + b.toNat % 0x40 } (part ++ [b]) := by
  have hnarrow := h.sound.narrow hb.1 hb.2
  have hscalar := h.sound.scalar
  have hpos := h.sound.pos
  have hlow := h.sound.low_ge
  have hhigh := h.sound.high_le
  rw [hmore, ← least_of_tail, ← limit_of_tail] at hnarrow
  have hdigit : ∀ n, n / Nat.pow 0x40 (more + 1) = p.bits * 0x40 + b.toNat % 0x40 ↔
      least { more, bits := p.bits * 0x40 + b.toNat % 0x40 } ≤ n ∧
        n < limit { more, bits := p.bits * 0x40 + b.toNat % 0x40 } := by
    intro n
    have hpow : 0 < Nat.pow 0x40 (more + 1) := Nat.pow_pos (by decide)
    rw [least_of_tail, limit_of_tail, Nat.div_eq_iff hpow, Nat.succ_mul]
    omega
  constructor
  case nonempty => exact List.append_ne_nil_of_right_ne_nil part (List.cons_ne_nil b [])
  case sound => exact ⟨Nat.le_refl _, Nat.le_refl _, by omega, by omega⟩
  case low_le_high => simp
  case begins_iff =>
    intro c
    rw [h.concat_iff, h.begins_iff, hmore, hdigit]
    omega
  case spelled =>
    intro c hc
    rw [h.concat_iff, hmore] at hc
    obtain ⟨hc, -, -, hbits⟩ := hc
    have hnext : b = .ofNat (0x80 + c.toNat / Nat.pow 0x40 (more + 1) % 0x40) := by
      rw [eq_ofNat_iff (by omega), hbits]
      omega
    rw [h.spelled c hc, hmore, List.append_assoc, tail, ← hnext]
    rfl

/-- A byte in the range leads on, and one outside it leads nowhere. -/
theorem settles_next (h : p.After part) (b : UInt8) :
    Settles (part ++ [b]) (p.next b) ∨
      ¬ Begins (part ++ [b]) ∧ p.next b = (replacement :: (first b).1, (first b).2) := by
  by_cases hb : p.low ≤ b.toNat ∧ b.toNat ≤ p.high
  · left
    rw [next, if_pos hb]
    cases hmore : p.more with
    | zero => exact .whole (h.concat_eq_of_last hmore hb)
    | succ more => exact .begun (h.concat hmore hb)
  · right
    refine ⟨?_, by rw [next, if_neg hb]⟩
    rintro ⟨c, hc⟩
    obtain ⟨-, hlow, hhigh, -⟩ := (h.concat_iff b c).mp hc
    exact hb ⟨hlow, hhigh⟩

/-- The least of these characters has a byte after `part`. -/
theorem unfinished (h : p.After part) : ∃ b, Begins (part ++ [b]) := by
  have hrange := h.low_le_high
  have hscalar := h.sound.scalar
  have hlt : p.least < p.limit :=
    Nat.mul_lt_mul_of_pos_right (by omega) (Nat.pow_pos (by decide))
  have hn : (Char.ofNat p.least).toNat = p.least := toNat_ofNat_scalar (by omega)
  have hc := (h.begins_iff (.ofNat p.least)).mpr (by omega)
  have hspelled := h.spelled _ hc
  rw [tail, List.append_cons] at hspelled
  exact ⟨_, Char.ofNat p.least, hspelled ▸ List.prefix_append _ _⟩

end Pending.After

namespace Settles

variable {part : Bytes} {s : Step}

theorem begins (h : Settles part s) : Begins part := by
  cases h with
  | @whole c h => exact ⟨c, h ▸ List.prefix_rfl⟩
  | begun h => exact h.unfinished.choose_spec.of_append

/-- No encoding goes on after another one. -/
theorem after_of_unfinished (h : Settles part s) (hpart : ∃ b, Begins (part ++ [b])) :
    ∃ p, s = ([], some p) ∧ p.After part := by
  cases h with
  | begun h => exact ⟨_, rfl, h⟩
  | @whole c h =>
    obtain ⟨b, d, rest, hd⟩ := hpart
    have hread := decodeFrom_encodeChar d []
    rw [List.append_nil, ← hd, h, List.append_assoc, decodeFrom_encodeChar] at hread
    have hlength := congrArg List.length hd
    rw [h, ← (List.cons.inj hread).1] at hlength
    simp at hlength

end Settles

/-! ### The decoder -/

/-- A character that goes on no further is read as U+FFFD, and the bytes after it for themselves. -/
theorem Pending.After.decodeFrom_of_stuck {p : Pending} {part bs : Bytes} (h : p.After part)
    (hstuck : ∀ b ∈ bs.head?, ¬ Begins (part ++ [b])) :
    decodeFrom (some p) bs = replacement :: decodeFrom none bs := by
  cases bs with
  | nil => rfl
  | cons b bs =>
    rcases h.settles_next b with hsettles | ⟨-, hstep⟩
    · exact absurd hsettles.begins (hstuck b rfl)
    · rw [decodeFrom, step, hstep]
      rfl

/-- By induction on the bytes, whether a character is begun before them or not. -/
theorem reads_decodeFrom (bs : Bytes) :
    Reads bs (decodeFrom none bs) ∧
      ∀ p part, Pending.After p part → Reads (part ++ bs) (decodeFrom (some p) bs) := by
  induction bs with
  | nil => exact ⟨.nil, fun p part h => .broken h.nonempty h.unfinished (by simp) .nil⟩
  | cons b bs ih =>
    have hgo : ∀ part s, Settles (part ++ [b]) s →
        Reads (part ++ b :: bs) (s.1 ++ decodeFrom s.2 bs) := by
      intro part s hsettles
      rw [List.append_cons]
      cases hsettles with
      | whole h => rw [h]; exact .char _ ih.1
      | begun h => exact ih.2 _ _ h
    have hfirst : Reads (b :: bs) (decodeFrom none (b :: bs)) := by
      rw [decodeFrom, step]
      rcases settles_first b with hsettles | ⟨hstray, hstep⟩
      · exact hgo [] _ hsettles
      · rw [hstep]
        exact .stray hstray ih.1
    refine ⟨hfirst, fun p part h => ?_⟩
    rcases h.settles_next b with hsettles | ⟨hstuck, -⟩
    · exact hgo part _ hsettles
    · have hstuck' : ∀ d ∈ (b :: bs).head?, ¬ Begins (part ++ [d]) := by
        rintro _ ⟨⟩
        exact hstuck
      rw [h.decodeFrom_of_stuck hstuck']
      exact .broken h.nonempty h.unfinished hstuck' hfirst

/-- The decoder comes through every beginning of a character to what is left of it. -/
theorem exists_after {part : Bytes} (hpart : part ≠ []) (h : ∃ b, Begins (part ++ [b])) :
    ∃ p, Pending.After p part ∧ ∀ bs, decodeFrom none (part ++ bs) = decodeFrom (some p) bs := by
  induction part using List.reverseRecOn with
  | nil => exact absurd rfl hpart
  | append_singleton part b ih =>
    have hbegins : Begins (part ++ [b]) := h.choose_spec.of_append
    by_cases hempty : part = []
    · subst hempty
      rcases settles_first b with hsettles | ⟨hstray, -⟩
      · obtain ⟨p, hstep, hp⟩ := hsettles.after_of_unfinished h
        refine ⟨p, hp, fun bs => ?_⟩
        rw [List.nil_append, List.singleton_append, decodeFrom, step, hstep, List.nil_append]
      · exact absurd hbegins hstray
    · obtain ⟨p, hp, hdecode⟩ := ih hempty ⟨b, hbegins⟩
      rcases hp.settles_next b with hsettles | ⟨hstuck, -⟩
      · obtain ⟨q, hstep, hq⟩ := hsettles.after_of_unfinished h
        refine ⟨q, hq, fun bs => ?_⟩
        rw [List.append_assoc, hdecode, List.singleton_append, decodeFrom, step, hstep,
          List.nil_append]
      · exact absurd hbegins hstuck

/-- Bytes read as one text only, and that is what they are decoded as. -/
theorem reads_iff {bs : Bytes} {cs : List Char} : Reads bs cs ↔ decode bs = cs := by
  constructor
  · intro h
    induction h with
    | nil => rfl
    | char c rest ih => rw [decode, decodeFrom_encodeChar, ← decode, ih]
    | broken nonempty unfinished stuck rest ih =>
      obtain ⟨p, hp, hdecode⟩ := exists_after nonempty unfinished
      rw [decode, hdecode, hp.decodeFrom_of_stuck stuck, ← decode, ih]
    | stray hstray rest ih =>
      rcases settles_first _ with hsettles | ⟨-, hstep⟩
      · exact absurd hsettles.begins hstray
      · rw [decode, decodeFrom, step, hstep, ← ih]
        rfl
  · rintro rfl
    exact (reads_decodeFrom bs).1

end ConsoleOnline.Text.Utf8
