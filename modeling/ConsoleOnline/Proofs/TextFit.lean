import ConsoleOnline.Proofs.Gamertag
import ConsoleOnline.RichPresence

/-!
What is kept of a text that does not fit, and what is told of the rest. A gamertag has the longest
beginning that fits into its bytes. Rich presence is cut between units, so it reads as the longest
beginning that fits, and as one U+FFFD more if half a character is left. Neither is cut again when
it is stored once more.
-/
namespace ConsoleOnline

namespace TextFit

variable {kept total : Nat}

theorem ofCounts_eq_exact_iff : ofCounts kept total = exact ↔ total ≤ kept := by
  rw [ofCounts]
  split
  · next h => exact iff_of_true rfl h
  · next h => exact iff_of_false (fun h' => by cases h') h

theorem ofCounts_of_lt (h : kept < total) :
    ofCounts kept total = truncated kept (total - kept) :=
  if_neg (Nat.not_le_of_lt h)

end TextFit

/-! ### Gamertags -/

namespace Gamertag

/-- A gamertag made of a text, and what is told of how the text fits. Of a text with characters, at
least one is kept. -/
structure MadeOf (text : String) (g : Gamertag) (fit : TextFit) : Prop where
  longest : Text.LongestFit Char.utf8Size 15 text.toList g.text.toList
  exact_iff : fit = .exact ↔ g.text = text
  truncated : g.text ≠ text →
    ∃ dropped, fit = .truncated g.text.length dropped ∧ g.text.length + dropped = text.length
  isEmpty_iff : g.isEmpty ↔ text = ""
  again : ofText g.text = g ∧ Gamertag.fit g.text = .exact

theorem length_ofText_le (text : String) : (ofText text).text.length ≤ text.length := by
  rw [← String.length_toList, ← String.length_toList]
  exact (longestFit_ofText text).begins.length_le

theorem fit_eq (text : String) : fit text = .ofCounts (ofText text).text.length text.length := by
  rw [fit, String.length_toList, String.length_toList]

theorem fit_eq_exact_iff {text : String} : fit text = .exact ↔ (ofText text).text = text := by
  rw [fit, TextFit.ofCounts_eq_exact_iff]
  constructor
  · intro h
    exact String.toList_injective ((longestFit_ofText text).begins.eq_of_length_le h)
  · intro h
    rw [h]

/-- Of every text, a gamertag keeps the longest run of whole characters that 15 bytes have room
for, and tells how many characters it kept and how many it dropped. -/
theorem made_of_text (text : String) : MadeOf text (ofText text) (fit text) where
  longest := longestFit_ofText text
  exact_iff := fit_eq_exact_iff
  truncated h := by
    have hlt : (ofText text).text.length < text.length := by
      refine Nat.lt_of_le_of_ne (length_ofText_le text) fun hlength => h ?_
      rw [← fit_eq_exact_iff, fit_eq, TextFit.ofCounts_eq_exact_iff, hlength]
    refine ⟨text.length - (ofText text).text.length, ?_, by omega⟩
    rw [fit_eq, TextFit.ofCounts_of_lt hlt]
  isEmpty_iff := isEmpty_ofText
  again := ⟨ofText_text _, fit_eq_exact_iff.mpr (congrArg Gamertag.text (ofText_text _))⟩

/-- The eighth character would need bytes 15 and 16. -/
example : fit "ééééééééé" = .truncated 7 2 := by decide +kernel

end Gamertag

/-! ### Rich presence -/

namespace RichPresence

open Text (LongestFit)
open Text.Utf16 (encode width)

/-- Rich presence made of a text, and what is told of how the text fits. It reads as whole
characters of the text, and as one U+FFFD more if these leave one unit to half a character. -/
structure MadeOf (text : String) (r : RichPresence) (fit : TextFit) : Prop where
  units_eq : r.units = (encode text.toList).take (min (encode text.toList).length 100)
  exact_iff : fit = .exact ↔ (encode text.toList).length ≤ 100
  truncated : 100 < (encode text.toList).length →
    fit = .truncated 100 ((encode text.toList).length - 100)
  reads : ∃ kept, LongestFit width 100 text.toList kept ∧
    r.text.toList =
      kept ++ if (encode kept).length = 99 ∧ kept ≠ text.toList then ['\uFFFD'] else []
  unchanged : (encode text.toList).length ≤ 100 → r.text = text
  again : RichPresence.fit r.text = .exact ∧ (ofText r.text).text = r.text

variable {text : String}

theorem fit_eq (text : String) :
    fit text = .ofCounts (min 100 (encode text.toList).length) (encode text.toList).length := by
  rw [fit, fitUnits, ofUnits, List.length_take, capacity]

theorem fit_eq_exact_iff : fit text = .exact ↔ (encode text.toList).length ≤ 100 := by
  rw [fit_eq, TextFit.ofCounts_eq_exact_iff]
  omega

theorem text_ofText_of_le (h : (encode text.toList).length ≤ 100) : (ofText text).text = text := by
  have hunits : (ofText text).units = encode text.toList := List.take_of_length_le h
  rw [RichPresence.text, hunits, Text.Utf16.decode_encode, String.ofList_toList]

theorem reads_ofText (text : String) : ∃ kept, LongestFit width 100 text.toList kept ∧
    (ofText text).text.toList =
      kept ++ if (encode kept).length = 99 ∧ kept ≠ text.toList then ['\uFFFD'] else [] := by
  obtain ⟨kept, hkept, hdecode⟩ := Text.Utf16.decode_take_encode 100 text.toList
  have hroom : (encode kept).length + 1 = 100 ↔ (encode kept).length = 99 := Nat.succ_inj
  simp only [hroom] at hdecode
  refine ⟨kept, hkept, ?_⟩
  rw [RichPresence.text, String.toList_ofList]
  exact hdecode

/-- What stored units read as fits: U+FFFD has one unit, as the half that it stands for. -/
theorem length_encode_text_le (text : String) : (encode (ofText text).text.toList).length ≤ 100 := by
  obtain ⟨kept, hkept, htext⟩ := reads_ofText text
  have hle : (encode kept).length ≤ 100 := by
    rw [Text.Utf16.length_encode]
    exact hkept.extent_le
  rw [htext]
  split
  · next h =>
    rw [encode, List.flatMap_append, List.length_append, ← encode, h.1]
    decide
  · rwa [List.append_nil]

/-- Of every text, rich presence keeps the first 100 units and tells how many it kept and how many
it dropped. -/
theorem made_of_units (text : String) : MadeOf text (ofText text) (fit text) where
  units_eq := by
    rw [Nat.min_comm, ← List.take_eq_take_min]
    rfl
  exact_iff := fit_eq_exact_iff
  truncated h := by
    rw [fit_eq, Nat.min_eq_left (Nat.le_of_lt h), TextFit.ofCounts_of_lt h]
  reads := reads_ofText text
  unchanged := text_ofText_of_le
  again := ⟨fit_eq_exact_iff.mpr (length_encode_text_le text),
    text_ofText_of_le (length_encode_text_le text)⟩

/-- The cut goes through the pair after 99 letters. -/
example : Text.Utf16.decode ((encode (List.replicate 99 'a' ++ ['😀', 'b'])).take 100) =
    List.replicate 99 'a' ++ ['\uFFFD'] := by decide +kernel

end RichPresence

end ConsoleOnline
