import ConsoleOnline.Text.RoundTrip
import Mathlib.Data.List.Basic

/-!
Text cut to the room there is. Of the beginnings of a text that fit, each begins the longer ones, so
one of them is the longest. In UTF-8, `Utf8.fitting` finds it. UTF-16 units that are cut at any place
read as the longest beginning that fits, and as one U+FFFD more where the cut goes through a pair.
-/
namespace ConsoleOnline.Text

/-- The room that characters of the given widths take together. -/
def extent (width : Char → Nat) : List Char → Nat
  | [] => 0
  | c :: cs => width c + extent width cs

@[simp] theorem extent_nil (width : Char → Nat) : extent width [] = 0 := rfl

@[simp] theorem extent_cons (width : Char → Nat) (c : Char) (cs : List Char) :
    extent width (c :: cs) = width c + extent width cs := rfl

/-- Of the beginnings of a text that take no more than `room`, the longest. -/
structure LongestFit (width : Char → Nat) (room : Nat) (text kept : List Char) : Prop where
  begins : kept <+: text
  extent_le : extent width kept ≤ room
  longest : ∀ cs, cs <+: text → extent width cs ≤ room → cs <+: kept

namespace LongestFit

variable {width : Char → Nat} {room : Nat} {text kept : List Char}

theorem nil (width : Char → Nat) (room : Nat) : LongestFit width room [] [] :=
  ⟨List.prefix_rfl, Nat.zero_le room, fun _ h _ => h⟩

theorem cons {c : Char} (hc : width c ≤ room) (h : LongestFit width (room - width c) text kept) :
    LongestFit width room (c :: text) (c :: kept) where
  begins := (List.prefix_cons_inj c).mpr h.begins
  extent_le := by
    have hextent := h.extent_le
    rw [extent_cons]
    omega
  longest cs hcs hfits := by
    cases cs with
    | nil => exact List.nil_prefix
    | cons d cs =>
      obtain ⟨rfl, hrest⟩ := List.cons_prefix_cons.mp hcs
      rw [extent_cons] at hfits
      exact (List.prefix_cons_inj d).mpr (h.longest cs hrest (by omega))

/-- Nothing is kept in front of a first character that does not fit. -/
theorem stop {c : Char} (hc : room < width c) (text : List Char) :
    LongestFit width room (c :: text) [] where
  begins := List.nil_prefix
  extent_le := Nat.zero_le room
  longest cs hcs hfits := by
    cases cs with
    | nil => exact List.prefix_rfl
    | cons d cs =>
      obtain ⟨rfl, -⟩ := List.cons_prefix_cons.mp hcs
      rw [extent_cons] at hfits
      omega

theorem eq_self_iff (h : LongestFit width room text kept) :
    kept = text ↔ extent width text ≤ room := by
  constructor
  · rintro rfl
    exact h.extent_le
  · intro hfits
    exact h.begins.eq_of_length_le (h.longest text List.prefix_rfl hfits).length_le

/-- There is one longest beginning. -/
theorem unique {kept' : List Char} (h : LongestFit width room text kept)
    (h' : LongestFit width room text kept') : kept = kept' :=
  (h'.longest kept h.begins h.extent_le).eq_of_length_le
    (h.longest kept' h'.begins h'.extent_le).length_le

end LongestFit

/-! ### UTF-8 -/

theorem Utf8.length_encode (cs : List Char) : (encode cs).length = extent Char.utf8Size cs := by
  induction cs with
  | nil => rfl
  | cons c cs ih => rw [encode_cons, List.length_append, length_encodeChar, ih, extent_cons]

theorem Utf8.longestFit_fitting (room : Nat) (cs : List Char) :
    LongestFit Char.utf8Size room cs (fitting room cs) := by
  induction cs generalizing room with
  | nil => exact .nil _ room
  | cons c cs ih =>
    rw [fitting]
    split
    · next hc => exact .cons hc (ih (room - c.utf8Size))
    · next hc => exact .stop (Nat.lt_of_not_le hc) cs

/-! ### UTF-16 -/

namespace Utf16

/-- How many units a character has. -/
def width (c : Char) : Nat := if c.toNat < 0x10000 then 1 else 2

theorem length_encodeChar (c : Char) : (encodeChar c).length = width c := by
  rw [encodeChar, width]
  split <;> rfl

theorem length_encode (cs : List Char) : (encode cs).length = extent width cs := by
  induction cs with
  | nil => rfl
  | cons c cs ih => rw [encode_cons, List.length_append, length_encodeChar, ih, extent_cons]

/-- The first half of a pair reads as U+FFFD when the second is cut off. -/
theorem decode_take_encodeChar {c : Char} {room : Nat} (hc : room < width c) (us : List UInt16) :
    decode ((encodeChar c ++ us).take room) = if room = 1 then [Utf8.replacement] else [] := by
  rw [width] at hc
  match room, hc with
  | 0, _ => rfl
  | 1, hc =>
    have hpair : ¬ c.toNat < 0x10000 := by
      intro h
      rw [if_pos h] at hc
      omega
    rw [encodeChar, if_neg hpair]
    change [single (.ofNat (0xD800 + (c.toNat - 0x10000) / 0x400))] = _
    rw [single, isHigh_half (Utf8.char_bounds c).2]
    rfl
  | room + 2, hc =>
    split at hc <;> omega

/-- Units cut after `room` of them. The cut goes through a pair if the characters that are kept
whole leave room for one unit, and the text goes on. -/
theorem decode_take_encode (room : Nat) (cs : List Char) :
    ∃ kept, LongestFit width room cs kept ∧
      decode ((encode cs).take room) =
        kept ++ if (encode kept).length + 1 = room ∧ kept ≠ cs then [Utf8.replacement] else [] := by
  induction cs generalizing room with
  | nil => exact ⟨[], .nil _ room, by simp [decode]⟩
  | cons c cs ih =>
    rw [encode_cons]
    by_cases hc : width c ≤ room
    · obtain ⟨kept, hkept, hdecode⟩ := ih (room - width c)
      refine ⟨c :: kept, hkept.cons hc, ?_⟩
      have hcut : (encodeChar c ++ encode cs).take room =
          encodeChar c ++ (encode cs).take (room - width c) := by
        rw [List.take_append, length_encodeChar, List.take_of_length_le (by rwa [length_encodeChar])]
      have hroom : (encode (c :: kept)).length + 1 = room ↔
          (encode kept).length + 1 = room - width c := by
        rw [encode_cons, List.length_append, length_encodeChar]
        omega
      simp only [hcut, decode_encodeChar, hdecode, hroom, List.cons_append, ne_eq, List.cons.injEq,
        true_and]
    · refine ⟨[], .stop (Nat.lt_of_not_le hc) cs, ?_⟩
      rw [decode_take_encodeChar (Nat.lt_of_not_le hc)]
      simp [eq_comm]

end Utf16

end ConsoleOnline.Text
