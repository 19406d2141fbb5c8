import ConsoleOnline.Decimal
import ConsoleOnline.Hex
import Mathlib.Data.List.Forall2
import Mathlib.Data.List.Induction

/-!
Digits are what their value is written with. In a fixed number of places, `Digits.fixed` writes
every list of digits. Without leading zeros, a numeral is what `Digits.atLeast` writes for its value,
and nothing else is: a digit zero begins it only where it is the whole numeral. Where a least number of
digits is asked for, zeros fill it up and are worth nothing. In base sixteen every digit has a case of
letter of its own, and digits in any cases spell their number.
-/
namespace ConsoleOnline

/-- Every place has its result, or there is none. -/
theorem mapM_eq_some_iff {f : α → Option β} {as : List α} {bs : List β} :
    as.mapM f = some bs ↔ List.Forall₂ (fun a b => f a = some b) as bs := by
  induction as generalizing bs with
  | nil => cases bs <;> simp
  | cons a as ih =>
    rw [List.mapM_cons]
    constructor
    · intro h
      obtain ⟨b, hb, hrest⟩ := Option.bind_eq_some_iff.mp h
      obtain ⟨bs', hbs, hcons⟩ := Option.bind_eq_some_iff.mp hrest
      obtain rfl := Option.some.inj hcons
      exact .cons hb (ih.mp hbs)
    · rintro (_ | ⟨hb, hbs⟩)
      rw [hb, ih.mpr hbs]
      rfl

namespace Digits

variable {b : Nat}

theorem value_lt {ds : List Nat} (hlt : ∀ d ∈ ds, d < b) : value b ds < Nat.pow b ds.length := by
  induction ds using List.reverseRecOn with
  | nil => exact Nat.one_pos
  | append_singleton init d ih =>
    have hd : d < b := hlt d (by simp)
    have hinit := ih fun e he => hlt e (by simp [he])
    have hpow : Nat.pow b (init.length + 1) = Nat.pow b init.length * b := rfl
    have hmul : (value b init + 1) * b ≤ Nat.pow b init.length * b := Nat.mul_le_mul_right b hinit
    rw [Nat.add_mul] at hmul
    rw [value_concat, List.length_append, List.length_singleton, hpow]
    omega

/-- In as many places as there are digits, a number is written with them. -/
theorem fixed_value {ds : List Nat} (hlt : ∀ d ∈ ds, d < b) :
    fixed b ds.length (value b ds) = ds := by
  induction ds using List.reverseRecOn with
  | nil => rfl
  | append_singleton init d ih =>
    have hd : d < b := hlt d (by simp)
    have hdiv : (value b init * b + d) / b = value b init := by
      rw [Nat.mul_comm, Nat.mul_add_div (by omega), Nat.div_eq_of_lt hd, Nat.add_zero]
    have hmod : (value b init * b + d) % b = d := by
      rw [Nat.mul_comm, Nat.mul_add_mod, Nat.mod_eq_of_lt hd]
    rw [List.length_append, List.length_singleton, fixed, value_concat, hdiv, hmod,
      ih fun e he => hlt e (by simp [he])]

theorem one_le_count (b n : Nat) : 1 ≤ count b n := by
  rw [count]
  split <;> omega

/-- The last digit is split off. -/
theorem atLeast_one (hb : 2 ≤ b) (n : Nat) :
    atLeast b 1 n = if n < b then [n] else atLeast b 1 (n / b) ++ [n % b] := by
  have hmax : ∀ m, max 1 (count b m) = count b m := fun m => Nat.max_eq_right (one_le_count b m)
  rw [atLeast, atLeast, hmax, hmax, count]
  by_cases h : n < b
  · rw [dif_pos (.inr h), if_pos h]
    simp [fixed, Nat.mod_eq_of_lt h]
  · rw [dif_neg (by omega), if_neg h, fixed]

theorem atLeast_ne_nil (hb : 2 ≤ b) (n : Nat) : atLeast b 1 n ≠ [] := by
  rw [atLeast_one hb]
  split <;> simp

theorem value_atLeast (hb : 2 ≤ b) (n : Nat) : value b (atLeast b 1 n) = n := by
  induction n using Nat.strongRecOn with
  | ind n ih =>
    rw [atLeast_one hb]
    by_cases h : n < b
    · simp [if_pos h, value]
    · rw [if_neg h, value_concat, ih (n / b) (Nat.div_lt_self (by omega) hb)]
      exact Nat.div_add_mod' n b

theorem mem_atLeast_lt {width n d : Nat} (hb : 0 < b) (h : d ∈ atLeast b width n) : d < b :=
  mem_fixed_lt hb h

/-- Positive numbers are written with a positive first digit. -/
theorem head_atLeast (hb : 2 ≤ b) {n : Nat} (hn : 0 < n) : (atLeast b 1 n).head? ≠ some 0 := by
  induction n using Nat.strongRecOn with
  | ind n ih =>
    rw [atLeast_one hb]
    by_cases h : n < b
    · rw [if_pos h, List.head?_cons, Ne, Option.some.injEq]
      omega
    · rw [if_neg h, List.head?_append_of_ne_nil _ (atLeast_ne_nil hb (n / b))]
      exact ih (n / b) (Nat.div_lt_self (by omega) hb) (Nat.div_pos (by omega) (by omega))

theorem length_atLeast_le (hb : 2 ≤ b) {n k : Nat} (h : n < Nat.pow b (k + 1)) :
    (atLeast b 1 n).length ≤ k + 1 := by
  induction k generalizing n with
  | zero =>
    have hlt : n < b := Nat.mul_one b ▸ Nat.mul_comm b 1 ▸ h
    simp [atLeast_one hb, hlt]
  | succ k ih =>
    rw [atLeast_one hb]
    split
    · simp
    · have hmul : n < b * Nat.pow b (k + 1) := Nat.mul_comm _ b ▸ h
      simpa using ih (Nat.div_lt_of_lt_mul hmul)

theorem atLeast_zero (hb : 2 ≤ b) : atLeast b 1 0 = [0] := by
  rw [atLeast_one hb, if_pos (by omega)]

theorem length_atLeast (b width n : Nat) : (atLeast b width n).length = max width (count b n) :=
  length_fixed ..

theorem length_atLeast_one (b n : Nat) : (atLeast b 1 n).length = count b n := by
  rw [length_atLeast, Nat.max_eq_right (one_le_count b n)]

/-- There is room for a number in as many places as it needs. -/
theorem lt_pow_count (hb : 2 ≤ b) (n : Nat) : n < Nat.pow b (count b n) := by
  have hdigits : ∀ d ∈ atLeast b 1 n, d < b := fun d hd => mem_atLeast_lt (by omega) hd
  have hlt := value_lt hdigits
  rwa [value_atLeast hb, length_atLeast_one] at hlt

/-- Leading zeros are worth nothing. -/
theorem value_padded (hb : 2 ≤ b) (width n : Nat) : value b (atLeast b width n) = n := by
  have hroom : Nat.pow b (count b n) ≤ Nat.pow b (max width (count b n)) :=
    Nat.pow_le_pow_right (by omega) (Nat.le_max_right ..)
  rw [atLeast, value_fixed, Nat.mod_eq_of_lt (Nat.lt_of_lt_of_le (lt_pow_count hb n) hroom)]

/-- Where there are more digits than asked for, all of them are needed. -/
theorem head_padded (hb : 2 ≤ b) {width n : Nat} (hwidth : 1 ≤ width)
    (h : width < (atLeast b width n).length) : (atLeast b width n).head? ≠ some 0 := by
  rw [length_atLeast] at h
  have hcount : max width (count b n) = max 1 (count b n) := by omega
  have hpos : 0 < n := by
    refine Nat.pos_of_ne_zero ?_
    rintro rfl
    have hzero := length_atLeast_one b 0
    rw [atLeast_zero hb, List.length_singleton] at hzero
    omega
  rw [atLeast, hcount, ← atLeast]
  exact head_atLeast hb hpos

/-- A numeral without leading zeros is the one that its value is written with. -/
theorem atLeast_value (hb : 2 ≤ b) {ds : List Nat} (hne : ds ≠ []) (hlt : ∀ d ∈ ds, d < b)
    (hhead : ds.head? = some 0 → ds = [0]) : atLeast b 1 (value b ds) = ds := by
  induction ds using List.reverseRecOn with
  | nil => exact absurd rfl hne
  | append_singleton init d ih =>
    have hd : d < b := hlt d (by simp)
    rw [value_concat, atLeast_one hb]
    by_cases hinit : init = []
    · simp [hinit, hd]
    · have hhead' : init.head? ≠ some 0 := by
        intro h
        have hlength := congrArg List.length (hhead (by rw [List.head?_append, h, Option.some_or]))
        simp [hinit] at hlength
      have hrec := ih hinit (fun e he => hlt e (by simp [he])) (fun h => absurd h hhead')
      -- a positive beginning makes the value too great for one digit
      have hpos : 0 < value b init := by
        refine Nat.pos_of_ne_zero fun h => hhead' ?_
        rw [← hrec, h, atLeast_zero hb, List.head?_cons]
      have hge : b ≤ value b init * b := Nat.le_mul_of_pos_left b hpos
      have hdiv : (value b init * b + d) / b = value b init := by
        rw [Nat.mul_comm, Nat.mul_add_div (by omega), Nat.div_eq_of_lt hd, Nat.add_zero]
      have hmod : (value b init * b + d) % b = d := by
        rw [Nat.mul_comm, Nat.mul_add_mod, Nat.mod_eq_of_lt hd]
      rw [if_neg (by omega), hdiv, hmod, hrec]

end Digits

namespace Decimal

theorem digit?_digitChar {d : Nat} (h : d < 10) : digit? (digitChar d) = some d := by
  have all : ∀ d : Fin 10, digit? (digitChar d.val) = some d.val := by decide
  exact all ⟨d, h⟩

theorem digit?_eq_some_iff {c : Char} {d : Nat} : digit? c = some d ↔ d < 10 ∧ c = digitChar d := by
  constructor
  · intro h
    rw [digit?] at h
    split at h
    · next hc =>
      obtain ⟨hlow, hhigh⟩ : 48 ≤ c.toNat ∧ c.toNat ≤ 57 := hc
      obtain rfl := Option.some.inj h
      have hzero : '0'.toNat = 48 := rfl
      refine ⟨by omega, ?_⟩
      rw [digitChar, show '0'.toNat + (c.toNat - '0'.toNat) = c.toNat by omega, Char.ofNat_toNat]
    · cases h
  · rintro ⟨hd, rfl⟩
    exact digit?_digitChar hd

theorem mapM_digit?_eq_some_iff {cs : List Char} {ds : List Nat} :
    cs.mapM digit? = some ds ↔ (∀ d ∈ ds, d < 10) ∧ cs = ds.map digitChar := by
  rw [mapM_eq_some_iff, ← List.forall₂_eq_eq_eq, List.forall₂_map_right_iff]
  simp only [digit?_eq_some_iff]
  constructor
  · intro h
    exact (List.forall₂_and_left ds cs).mp h.flip |>.imp_right List.Forall₂.flip
  · rintro ⟨hlt, h⟩
    exact ((List.forall₂_and_left ds cs).mpr ⟨hlt, h.flip⟩).flip

theorem mapM_digit?_natural (n : Nat) :
    (natural 1 n).mapM digit? = some (Digits.atLeast 10 1 n) :=
  mapM_digit?_eq_some_iff.mpr ⟨fun _ => Digits.mem_atLeast_lt (by decide), rfl⟩

/-- Only the zero begins with a zero. -/
theorem natural_of_head {n : Nat} (h : (natural 1 n).head? = some '0') : natural 1 n = ['0'] := by
  have hn : n = 0 := by
    refine Nat.eq_zero_of_not_pos fun hpos => Digits.head_atLeast (b := 10) (by decide) hpos ?_
    obtain ⟨d, hd, h0⟩ := Option.map_eq_some_iff.mp (List.head?_map ▸ h)
    have hdigit := digit?_digitChar (Digits.mem_atLeast_lt (by decide) (List.mem_of_mem_head? hd))
    rw [h0] at hdigit
    rw [hd, ← hdigit]
    rfl
  rw [hn, natural, Digits.atLeast_zero (by decide)]
  rfl

theorem not_mem_natural {c : Char} (hc : digit? c = none) (width n : Nat) :
    c ∉ natural width n := by
  intro h
  obtain ⟨d, hd, rfl⟩ := List.mem_map.mp h
  rw [digit?_digitChar (Digits.mem_atLeast_lt (by decide) hd)] at hc
  cases hc

end Decimal

namespace Hex

/-- The characters of digits, each in a case of its own. -/
def spell (ds : List (LetterCase × Fin 16)) : List Char := ds.map fun d => digit d.1 d.2

/-- The number that digits are worth, in whatever case. -/
def worth (ds : List (LetterCase × Fin 16)) : Nat := Digits.value 16 (ds.map fun d => d.2.val)

@[simp] theorem length_spell (ds : List (LetterCase × Fin 16)) : (spell ds).length = ds.length :=
  List.length_map _

theorem lt_of_mem_values (ds : List (LetterCase × Fin 16)) :
    ∀ n ∈ ds.map (fun d => d.2.val), n < 16 := by
  intro n hn
  obtain ⟨d, -, rfl⟩ := List.mem_map.mp hn
  exact d.2.isLt

theorem worth_lt (ds : List (LetterCase × Fin 16)) : worth ds < Nat.pow 16 ds.length := by
  simpa [worth] using Digits.value_lt (lt_of_mem_values ds)

theorem forall_mem_spell {p : Char → Prop}
    (h : ∀ d : Fin 16, p (digit .lower d) ∧ p (digit .upper d)) (ds : List (LetterCase × Fin 16)) :
    ∀ c ∈ spell ds, p c := by
  intro c hc
  obtain ⟨⟨k, d⟩, -, rfl⟩ := List.mem_map.mp hc
  cases k with
  | lower => exact (h d).1
  | upper => exact (h d).2

theorem digit_sub_zero {c : Char} (h : '0' ≤ c ∧ c ≤ '9') (k : LetterCase) :
    digit k (c.toNat - '0'.toNat) = c := by
  obtain ⟨hlow, hhigh⟩ : 48 ≤ c.toNat ∧ c.toNat ≤ 57 := h
  have hzero : '0'.toNat = 48 := rfl
  rw [digit, if_pos (by omega), show '0'.toNat + (c.toNat - '0'.toNat) = c.toNat by omega,
    Char.ofNat_toNat]

theorem digit_sub_ten {c : Char} {k : LetterCase} (h : k.ten.toNat ≤ c.toNat) :
    digit k (c.toNat - k.ten.toNat + 10) = c := by
  rw [digit, if_neg (by omega), Nat.add_sub_cancel,
    show k.ten.toNat + (c.toNat - k.ten.toNat) = c.toNat by omega, Char.ofNat_toNat]

theorem digit?_eq_some_iff {c : Char} {n : Nat} :
    digit? c = some n ↔ ∃ d : LetterCase × Fin 16, c = digit d.1 d.2 ∧ n = d.2 := by
  constructor
  · intro h
    rw [digit?] at h
    split at h
    · next hc =>
      have hhigh : c.toNat ≤ 57 := hc.2
      have hzero : '0'.toNat = 48 := rfl
      obtain rfl := Option.some.inj h
      exact ⟨(.lower, ⟨_, by omega⟩), (digit_sub_zero hc .lower).symm, rfl⟩
    · split at h
      · next hc =>
        obtain ⟨hlow, hhigh⟩ : 97 ≤ c.toNat ∧ c.toNat ≤ 102 := hc
        have hten : LetterCase.lower.ten.toNat = 97 := rfl
        obtain rfl := Option.some.inj h
        exact ⟨(.lower, ⟨_, by omega⟩), (digit_sub_ten (k := .lower) hlow).symm, rfl⟩
      · split at h
        · next hc =>
          obtain ⟨hlow, hhigh⟩ : 65 ≤ c.toNat ∧ c.toNat ≤ 70 := hc
          have hten : LetterCase.upper.ten.toNat = 65 := rfl
          obtain rfl := Option.some.inj h
          exact ⟨(.upper, ⟨_, by omega⟩), (digit_sub_ten (k := .upper) hlow).symm, rfl⟩
        · cases h
  · rintro ⟨d, rfl, rfl⟩
    exact digit?_digit d.1 d.2.isLt

theorem mapM_digit?_eq_some_iff {cs : List Char} {ns : List Nat} :
    cs.mapM digit? = some ns ↔
      ∃ ds : List (LetterCase × Fin 16), cs = spell ds ∧ ns = ds.map fun d => d.2.val := by
  rw [mapM_eq_some_iff]
  simp only [digit?_eq_some_iff]
  constructor
  · intro h
    induction h with
    | nil => exact ⟨[], rfl, rfl⟩
    | cons hd _ ih =>
      obtain ⟨d, rfl, rfl⟩ := hd
      obtain ⟨ds, rfl, rfl⟩ := ih
      exact ⟨d :: ds, rfl, rfl⟩
  · rintro ⟨ds, rfl, rfl⟩
    rw [spell, List.forall₂_map_left_iff, List.forall₂_map_right_iff, List.forall₂_same]
    exact fun d _ => ⟨d, rfl, rfl⟩

theorem value?_eq_some_iff {cs : List Char} {n : Nat} :
    value? cs = some n ↔ ∃ ds : List (LetterCase × Fin 16), cs = spell ds ∧ n = worth ds := by
  rw [value?, Option.map_eq_some_iff]
  constructor
  · rintro ⟨ns, hns, rfl⟩
    obtain ⟨ds, rfl, rfl⟩ := mapM_digit?_eq_some_iff.mp hns
    exact ⟨ds, rfl, rfl⟩
  · rintro ⟨ds, rfl, rfl⟩
    exact ⟨_, mapM_digit?_eq_some_iff.mpr ⟨ds, rfl, rfl⟩, rfl⟩

theorem forall_mem_atLeast {p : Char → Prop} {k : LetterCase} (h : ∀ d : Fin 16, p (digit k d))
    (width n : Nat) : ∀ c ∈ atLeast k width n, p c :=
  forall_mem_fixed h _ n

theorem value?_atLeast (k : LetterCase) (width n : Nat) : value? (atLeast k width n) = some n := by
  have hdigits : ∀ d ∈ Digits.atLeast 16 width n, d < 16 := fun d hd =>
    Digits.mem_atLeast_lt (by decide) hd
  rw [value?, atLeast, mapM_digit?_map_digit k hdigits, Option.map_some,
    Digits.value_padded (by decide)]

theorem head_atLeast (k : LetterCase) {width n : Nat} (hwidth : 1 ≤ width)
    (h : width < (atLeast k width n).length) : (atLeast k width n).head? ≠ some '0' := by
  rw [atLeast, List.length_map] at h
  rw [atLeast, List.head?_map]
  intro hhead
  obtain ⟨d, hd, hzero⟩ := Option.map_eq_some_iff.mp hhead
  have hdigit := digit?_digit k (Digits.mem_atLeast_lt (by decide) (List.mem_of_mem_head? hd))
  obtain rfl : 0 = d := Option.some.inj ((congrArg digit? hzero).symm.trans hdigit)
  exact Digits.head_padded (by decide) hwidth h hd

/-- A hexadecimal digit that is no lower-case letter. -/
def IsUpperDigit (c : Char) : Prop := c.isHexDigit ∧ c.toUpper = c

theorem isUpperDigit_digit : ∀ d : Fin 16, IsUpperDigit (digit .upper d) := by
  unfold IsUpperDigit
  decide

/-- The digits are those of the number, upper-case, and at least `width` of them. Beyond this width
there are no leading zeros. -/
structure Numeral (width n : Nat) (digits : List Char) : Prop where
  upper : ∀ c ∈ digits, IsUpperDigit c
  value : value? digits = some n
  wide : width ≤ digits.length
  shortest : width < digits.length → digits.head? ≠ some '0'

theorem numeral_atLeast {width : Nat} (hwidth : 1 ≤ width) (n : Nat) :
    Numeral width n (atLeast .upper width n) where
  upper := forall_mem_atLeast isUpperDigit_digit width n
  value := value?_atLeast .upper width n
  wide := by
    rw [atLeast, List.length_map, Digits.length_atLeast]
    exact Nat.le_max_left ..
  shortest := head_atLeast .upper hwidth

/-- In a fixed number of places, digits of one case spell the number as far as it fits. -/
theorem exists_spell_fixed (k : LetterCase) (width n : Nat) :
    ∃ ds, fixed k width n = spell ds ∧ (∀ d ∈ ds, d.1 = k) ∧ worth ds = n % Nat.pow 16 width := by
  have hlt : ∀ m ∈ Digits.fixed 16 width n, m < 16 :=
    fun m hm => Digits.mem_fixed_lt (by decide) hm
  refine ⟨(Digits.fixed 16 width n).pmap (fun m hm => (k, ⟨m, hm⟩)) hlt, ?_, ?_, ?_⟩
  · simp only [fixed, spell, List.map_pmap, List.pmap_eq_map]
  · intro d hd
    obtain ⟨m, -, rfl⟩ := List.mem_pmap.mp hd
    rfl
  · simp only [worth, List.map_pmap, List.pmap_eq_map, List.map_id', Digits.value_fixed]

/-- Digits of one case are those that their number is written with in as many places. -/
theorem fixed_worth {k : LetterCase} {ds : List (LetterCase × Fin 16)} (h : ∀ d ∈ ds, d.1 = k) :
    fixed k ds.length (worth ds) = spell ds := by
  have hfixed := Digits.fixed_value (lt_of_mem_values ds)
  rw [List.length_map] at hfixed
  rw [fixed, worth, hfixed, spell, List.map_map]
  exact List.map_congr_left fun d hd => by rw [Function.comp_apply, h d hd]

end Hex

end ConsoleOnline
