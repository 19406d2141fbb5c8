import ConsoleOnline.Gamertag
import ConsoleOnline.Proofs.Text.Decoding
import ConsoleOnline.Proofs.Text.LongestFit

/-!
Gamertags and their fields. A gamertag is cut nowhere, since it fits already. Its field ends with a
zero byte and reads as the gamertag up to the first zero character in it: of all characters only that
one has a zero byte in its encoding.
-/
namespace ConsoleOnline

/-- The entries of a list in a longer vector, filled up with one value. -/
theorem toList_ofFn_getD {xs : List α} {n : Nat} (h : xs.length ≤ n) (d : α) :
    (Vector.ofFn fun i : Fin n => xs.getD i d).toList = xs ++ List.replicate (n - xs.length) d := by
  refine List.ext_getElem (by simp; omega) fun i h₁ h₂ => ?_
  by_cases hi : i < xs.length
  · simp [hi]
  · simp [List.getElem_append_right (Nat.le_of_not_lt hi), Nat.le_of_not_lt hi]

theorem Bytes.takeWhile_append_zeros (bs : Bytes) (n : Nat) :
    (bs ++ List.replicate n 0).takeWhile (· ≠ 0) = bs.takeWhile (· ≠ 0) := by
  induction bs with
  | nil => cases n <;> rfl
  | cons b bs ih =>
    by_cases hb : b = 0
    · rw [List.cons_append, List.takeWhile_cons_of_neg (by simpa using hb),
        List.takeWhile_cons_of_neg (by simpa using hb)]
    · rw [List.cons_append, List.takeWhile_cons_of_pos (by simpa using hb), ih,
        List.takeWhile_cons_of_pos (by simpa using hb)]

namespace Text.Utf8

theorem ofNat_ne_zero {n : Nat} (h : n % 0x100 ≠ 0) : UInt8.ofNat n ≠ 0 := by
  intro h0
  have hn := congrArg UInt8.toNat h0
  rw [UInt8.toNat_ofNat'] at hn
  exact h hn

/-- Every byte of a longer encoding is at least 0x80. -/
theorem ne_zero_of_mem_encodeChar {c : Char} (hc : c ≠ '\x00') : ∀ b ∈ encodeChar c, b ≠ 0 := by
  have hbounds := char_bounds c
  have hpos : c.toNat ≠ 0 := by
    intro h
    exact hc ((Char.ofNat_toNat c).symm.trans (congrArg Char.ofNat h))
  intro b hb
  simp only [encodeChar] at hb
  split at hb
  · obtain rfl := List.mem_singleton.mp hb
    exact ofNat_ne_zero (by omega)
  · split at hb
    · rcases List.mem_pair.mp hb with rfl | rfl <;> exact ofNat_ne_zero (by omega)
    · split at hb
      · simp only [List.mem_cons, List.not_mem_nil, or_false] at hb
        rcases hb with rfl | rfl | rfl <;> exact ofNat_ne_zero (by omega)
      · simp only [List.mem_cons, List.not_mem_nil, or_false] at hb
        rcases hb with rfl | rfl | rfl | rfl <;> exact ofNat_ne_zero (by omega)

theorem takeWhile_encode (cs : List Char) :
    (encode cs).takeWhile (· ≠ 0) = encode (cs.takeWhile (· ≠ '\x00')) := by
  induction cs with
  | nil => rfl
  | cons c cs ih =>
    by_cases hc : c = '\x00'
    · subst hc
      rfl
    · rw [encode_cons, List.takeWhile_append_of_pos (by simpa using ne_zero_of_mem_encodeChar hc), ih,
        List.takeWhile_cons_of_pos (by simpa using hc), encode_cons]

theorem length_encode_takeWhile_le (p : Char → Bool) (cs : List Char) :
    (encode (cs.takeWhile p)).length ≤ (encode cs).length := by
  have h := congrArg (fun ds => (encode ds).length) (List.takeWhile_append_dropWhile (p := p) (l := cs))
  simp only [encode, List.flatMap_append, List.length_append] at h
  simp only [encode]
  omega

end Text.Utf8

namespace Gamertag

open Text.Utf8 (encode)

theorem eq_of_text {g g' : Gamertag} (h : g.text = g'.text) : g = g' := by
  cases g
  cases g'
  congr

theorem longestFit_ofText (text : String) :
    Text.LongestFit Char.utf8Size capacity text.toList (ofText text).text.toList := by
  rw [ofText, String.toList_ofList]
  exact Text.Utf8.longestFit_fitting capacity text.toList

@[simp] theorem ofText_text (g : Gamertag) : ofText g.text = g := by
  have hfits : Text.extent Char.utf8Size g.text.toList ≤ capacity := by
    rw [← Text.Utf8.length_encode]
    exact g.fits
  exact eq_of_text (String.toList_injective ((longestFit_ofText g.text).eq_self_iff.mpr hfits))

/-- A gamertag has the longest beginning of a text that fits. -/
structure CutOf (text : String) (g : Gamertag) : Prop where
  begins : g.text.toList <+: text.toList
  longest : ∀ cs, cs <+: text.toList → (encode cs).length ≤ capacity → cs <+: g.text.toList

theorem cutOf_iff_longestFit {text : String} {g : Gamertag} :
    g.CutOf text ↔ Text.LongestFit Char.utf8Size capacity text.toList g.text.toList := by
  constructor
  · intro h
    refine ⟨h.begins, ?_, fun cs hcs hfits => h.longest cs hcs ?_⟩
    · rw [← Text.Utf8.length_encode]
      exact g.fits
    · rwa [Text.Utf8.length_encode]
  · intro h
    refine ⟨h.begins, fun cs hcs hfits => h.longest cs hcs ?_⟩
    rwa [← Text.Utf8.length_encode]

theorem cutOf_iff {text : String} {g : Gamertag} : g.CutOf text ↔ g = ofText text := by
  rw [cutOf_iff_longestFit]
  constructor
  · intro h
    exact eq_of_text (String.toList_injective (h.unique (longestFit_ofText text)))
  · rintro rfl
    exact longestFit_ofText text

/-- Any one character fits. -/
theorem isEmpty_ofText {text : String} : (ofText text).isEmpty ↔ text = "" := by
  rw [isEmpty, ofText, String.toList_ofList, List.isEmpty_iff, ← String.toList_eq_nil_iff]
  cases text.toList with
  | nil => simp [Text.Utf8.fitting]
  | cons c cs =>
    have hsize : c.utf8Size ≤ capacity := Nat.le_trans c.utf8Size_le_four (by decide)
    simp [Text.Utf8.fitting, hsize]

theorem eq_empty {g : Gamertag} (h : g.isEmpty) : g = {} := by
  rw [isEmpty, List.isEmpty_iff, String.toList_eq_nil_iff] at h
  exact eq_of_text h

/-- The gamertag up to its first zero character. -/
def beforeNul (g : Gamertag) : Gamertag where
  text := .ofList (g.text.toList.takeWhile (· ≠ '\x00'))
  fits := by
    rw [String.toList_ofList]
    exact Nat.le_trans (Text.Utf8.length_encode_takeWhile_le _ _) g.fits

theorem beforeNul_eq_iff {g g' : Gamertag} :
    g.beforeNul = g' ↔ g'.text.toList = g.text.toList.takeWhile (· ≠ '\x00') := by
  constructor
  · rintro rfl
    exact String.toList_ofList
  · intro h
    cases g'
    simp only [beforeNul, ← h, String.ofList_toList]

theorem nul_not_mem_beforeNul (g : Gamertag) : '\x00' ∉ g.beforeNul.text.toList := by
  intro h
  rw [beforeNul_eq_iff.mp rfl] at h
  simpa using List.mem_takeWhile_imp h

theorem toList_toField (g : Gamertag) :
    g.toField.toList = encode g.text.toList ++
      List.replicate (fieldSize - (encode g.text.toList).length) 0 :=
  toList_ofFn_getD (Nat.le_succ_of_le g.fits) 0

theorem toField_last (g : Gamertag) : g.toField[capacity] = 0 := by
  have hpast : capacity - (encode g.text.toList).length < fieldSize - (encode g.text.toList).length :=
    Nat.sub_lt_sub_right g.fits (Nat.lt_succ_self capacity)
  have hlast : g.toField.toList[capacity]? = some 0 := by
    rw [toList_toField, List.getElem?_append_right g.fits, List.getElem?_replicate, if_pos hpast]
  obtain ⟨hlt, hzero⟩ := List.getElem?_eq_some_iff.mp hlast
  rwa [Vector.getElem_toList] at hzero

theorem ofField_toField (g : Gamertag) : ofField g.toField.toList = g.beforeNul := by
  have hread : (g.toField.toList.take capacity).takeWhile (· ≠ 0) =
      encode (g.text.toList.takeWhile (· ≠ '\x00')) := by
    rw [toList_toField, List.take_append, List.take_of_length_le g.fits, List.take_replicate,
      Bytes.takeWhile_append_zeros, Text.Utf8.takeWhile_encode]
  rw [ofField, hread, Text.Utf8.decode_encode]
  exact ofText_text g.beforeNul

theorem beforeNul_eq_self {g : Gamertag} (h : '\x00' ∉ g.text.toList) : g.beforeNul = g := by
  have hall : g.text.toList.takeWhile (· ≠ '\x00') = g.text.toList := by
    refine List.takeWhile_eq_self_iff.mpr fun c hc => ?_
    have hne : c ≠ '\x00' := fun hnul => h (hnul ▸ hc)
    simpa using hne
  cases g
  simp only [beforeNul, hall, String.ofList_toList]

/-- What is read from a field is cut at its first zero byte, and so it has no zero character. -/
theorem nul_not_mem_ofField (field : Bytes) : '\x00' ∉ (ofField field).text.toList := by
  have hbytes : ∀ b ∈ (field.take capacity).takeWhile (· ≠ 0), b ≠ 0 :=
    fun b hb => by simpa using List.mem_takeWhile_imp hb
  have hcut : (ofField field).CutOf
      (.ofList (Text.Utf8.decode ((field.take capacity).takeWhile (· ≠ 0)))) := cutOf_iff.mpr rfl
  have hbegins := hcut.begins
  rw [String.toList_ofList] at hbegins
  exact fun h => Text.Utf8.nul_not_mem_decode hbytes (hbegins.subset h)

end Gamertag

end ConsoleOnline
