import ConsoleOnline.Proofs.Image.Records
import ConsoleOnline.Proofs.Text.Reading

/-!
Gamertags and the fields of guest memory. Whatever bytes a field consists of, it reads as a gamertag
that its own field reads as again. A field may cut a character in two, and every ill-formed part of it
grows to the three bytes of U+FFFD, so what was read may have to be cut once more.
-/
namespace ConsoleOnline.Gamertag

open Text.Utf8 (encode Reads)

/-- A field is read up to its first zero byte, and no further than byte 15. Of the text that these
bytes read as, the gamertag has what fits. It has no zero character, and it is read from the field
that it is written to. -/
structure ReadFrom (field : Bytes) (g : Gamertag) : Prop where
  cut : ∃ text : String,
    Reads ((field.take 15).takeWhile (· ≠ 0)) text.toList ∧ g.CutOf text
  length_le : (encode g.text.toList).length ≤ 15
  nul_not_mem : '\x00' ∉ g.text.toList
  again : ofField g.toField.toList = g

/-- The text of a gamertag has room in a field of 16 bytes and leaves a zero byte at its end. What is
read from the field is the text before its first zero character, so it is all of the text just if it
has none. -/
structure Held (g : Gamertag) : Prop where
  written : (Writer.mk (List.replicate 16 0) 0).put? (encode g.text.toList) =
    some ⟨g.toField.toList, (encode g.text.toList).length⟩
  terminated : g.toField[15] = 0
  read : (ofField g.toField.toList).text.toList = g.text.toList.takeWhile (· ≠ '\x00')
  read_iff : ofField g.toField.toList = g ↔ '\x00' ∉ g.text.toList

theorem readFrom_ofField (field : Bytes) : ReadFrom field (ofField field) where
  cut := by
    refine ⟨.ofList (Text.Utf8.decode ((field.take 15).takeWhile (· ≠ 0))), ?_, cutOf_iff.mpr rfl⟩
    rw [String.toList_ofList, Text.Utf8.reads_iff]
  length_le := (ofField field).fits
  nul_not_mem := nul_not_mem_ofField field
  again := by rw [ofField_toField, beforeNul_eq_self (nul_not_mem_ofField field)]

theorem held (g : Gamertag) : g.Held where
  written := g.put?_text
  terminated := g.toField_last
  read := by rw [ofField_toField, beforeNul, String.toList_ofList]
  read_iff := by
    constructor
    · intro h
      exact h ▸ nul_not_mem_ofField g.toField.toList
    · intro h
      rw [ofField_toField, beforeNul_eq_self h]

/-- Fields of any bytes are read as gamertags, and gamertags of any text are held by their fields. -/
theorem fields_read_and_held :
    (∀ field : Bytes, ReadFrom field (ofField field)) ∧ ∀ text : String, (ofText text).Held :=
  ⟨readFrom_ofField, fun text => held (ofText text)⟩

/-- Byte 15 cuts the last character in two, and U+FFFD for its first half does not fit. -/
example : (ofField (List.replicate 14 0x41 ++ [0xC3, 0xA9])).toField.toList =
    List.replicate 14 0x41 ++ [0, 0] := by decide +kernel

end ConsoleOnline.Gamertag
