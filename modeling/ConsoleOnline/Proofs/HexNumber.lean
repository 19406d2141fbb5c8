import ConsoleOnline.HexNumber
import ConsoleOnline.Proofs.Numerals
import ConsoleOnline.Proofs.Text.Trim

/-!
What is read as a number in hexadecimal. A rendering puts blanks around the digits of a number, and a
marker in front of them if it likes. Every rendering is read as its number. One more kind of text is
read: a plus sign may take the place of one of the 16 digits.
-/
namespace ConsoleOnline.HexNumber

/-- What may stand between the blanks and the sign. -/
def markers : List (List Char) := [[], ['0', 'x'], ['0', 'X']]

/-- A way to write a number in 1 to 16 places, of which those before the digits hold the sign. -/
structure Rendering (sign : List Char) where
  before : List Char
  marker : List Char
  digits : List (Hex.LetterCase × Fin 16)
  after : List Char
  blank_before : ∀ c ∈ before, Text.isBlank c
  blank_after : ∀ c ∈ after, Text.isBlank c
  marker_mem : marker ∈ markers
  digits_ne_nil : digits ≠ []
  room : sign.length + digits.length ≤ 16

namespace Rendering

variable {sign : List Char}

def text (r : Rendering sign) : String :=
  .ofList (r.before ++ (r.marker ++ (sign ++ Hex.spell r.digits)) ++ r.after)

def value (r : Rendering sign) : Nat := Hex.worth r.digits

theorem value_lt (r : Rendering sign) : r.value < UInt64.size := by
  have hroom : r.digits.length ≤ 16 := Nat.le_trans (Nat.le_add_left _ _) r.room
  exact Nat.lt_of_lt_of_le (Hex.worth_lt r.digits) (Nat.pow_le_pow_right (by decide) hroom)

end Rendering

/-- The text renders the number with this sign. -/
def Renders (sign : List Char) (text : String) (n : Nat) : Prop :=
  ∃ r : Rendering sign, r.text = text ∧ r.value = n

/-! ### Markers and signs -/

/-- The signs that are read: none and plus. -/
def signs : List (List Char) := [[], ['+']]

theorem exists_marker (cs : List Char) : ∃ marker ∈ markers, cs = marker ++ dropMarker cs := by
  rw [dropMarker.eq_def]
  split
  · exact ⟨['0', 'x'], by simp [markers], rfl⟩
  · exact ⟨['0', 'X'], by simp [markers], rfl⟩
  · exact ⟨[], by simp [markers], rfl⟩

theorem dropMarker_append {marker cs : List Char} (hmarker : marker ∈ markers)
    (h : ∀ c ∈ cs, c ≠ 'x' ∧ c ≠ 'X') : dropMarker (marker ++ cs) = cs := by
  simp only [markers, List.mem_cons, List.not_mem_nil, or_false] at hmarker
  rcases hmarker with rfl | rfl | rfl
  · -- without a marker, what follows must not begin like one
    rw [List.nil_append, dropMarker.eq_def]
    split
    · next rest => exact absurd rfl (h 'x' (by simp)).1
    · next rest => exact absurd rfl (h 'X' (by simp)).2
    · rfl
  · rfl
  · rfl

theorem exists_sign {cs : List Char} (h : cs ≠ []) :
    ∃ sign ∈ signs, cs = sign ++ dropPlus cs ∧ dropPlus cs ≠ [] := by
  rw [dropPlus.eq_def]
  split
  · next c rest => exact ⟨['+'], by simp [signs], rfl, List.cons_ne_nil c rest⟩
  · exact ⟨[], by simp [signs], rfl, h⟩

theorem dropPlus_append {sign cs : List Char} (hsign : sign ∈ signs) (hne : cs ≠ [])
    (h : ∀ c ∈ cs, c ≠ '+') : dropPlus (sign ++ cs) = cs := by
  simp only [signs, List.mem_cons, List.not_mem_nil, or_false] at hsign
  rcases hsign with rfl | rfl
  · rw [List.nil_append, dropPlus.eq_def]
    split
    · next c rest => exact absurd rfl (h '+' (by simp))
    · rfl
  · obtain ⟨c, rest, rfl⟩ := List.exists_cons_of_ne_nil hne
    rfl

/-! ### The characters of a rendering -/

theorem forall_mem_marker {p : Char → Prop} {marker : List Char} (hmarker : marker ∈ markers)
    (hzero : p '0') (hlower : p 'x') (hupper : p 'X') : ∀ c ∈ marker, p c := by
  simp only [markers, List.mem_cons, List.not_mem_nil, or_false] at hmarker
  rcases hmarker with rfl | rfl | rfl
  · exact fun c hc => absurd hc List.not_mem_nil
  · simp [hzero, hlower]
  · simp [hzero, hupper]

/-- What holds of the digits in both cases, and of plus, holds of what is left without the marker. -/
theorem forall_mem_signed {p : Char → Prop} {sign : List Char} (hsign : sign ∈ signs)
    (hplus : p '+') (h : ∀ d : Fin 16, p (Hex.digit .lower d) ∧ p (Hex.digit .upper d))
    (ds : List (Hex.LetterCase × Fin 16)) : ∀ c ∈ sign ++ Hex.spell ds, p c := by
  intro c hc
  rcases List.mem_append.mp hc with hc | hc
  · simp only [signs, List.mem_cons, List.not_mem_nil, or_false] at hsign
    rcases hsign with rfl | rfl
    · cases hc
    · rwa [List.mem_singleton.mp hc]
  · exact Hex.forall_mem_spell h ds c hc

theorem length_encode_signed {sign : List Char} (hsign : sign ∈ signs)
    (ds : List (Hex.LetterCase × Fin 16)) :
    (Text.Utf8.encode (sign ++ Hex.spell ds)).length = sign.length + ds.length := by
  have hascii := forall_mem_signed (p := fun c => c.toNat < 0x80) hsign (by decide) (by decide) ds
  rw [Text.Utf8.encode_ascii hascii, List.length_map, List.length_append, Hex.length_spell]

namespace Rendering

variable {sign : List Char}

theorem trim_text (r : Rendering sign) (hsign : sign ∈ signs) :
    Text.trim r.text.toList = r.marker ++ (sign ++ Hex.spell r.digits) := by
  have hmarker := forall_mem_marker (p := fun c => Text.isBlank c = false) r.marker_mem
    (by decide) (by decide) (by decide)
  have hsigned := forall_mem_signed (p := fun c => Text.isBlank c = false) hsign (by decide)
    (by decide) r.digits
  rw [text, String.toList_ofList, Text.trim_between r.blank_before _ r.blank_after]
  exact fun c hc => (List.mem_append.mp hc).elim (hmarker c) (hsigned c)

theorem dropMarker_trim_text (r : Rendering sign) (hsign : sign ∈ signs) :
    dropMarker (Text.trim r.text.toList) = sign ++ Hex.spell r.digits := by
  rw [r.trim_text hsign]
  have hletters := forall_mem_signed (p := fun c => c ≠ 'x' ∧ c ≠ 'X') hsign (by decide) (by decide)
    r.digits
  exact dropMarker_append r.marker_mem hletters

theorem dropPlus_signed (r : Rendering sign) (hsign : sign ∈ signs) :
    dropPlus (sign ++ Hex.spell r.digits) = Hex.spell r.digits := by
  refine dropPlus_append hsign ?_ ?_
  · simpa [Hex.spell] using r.digits_ne_nil
  · exact Hex.forall_mem_spell (by decide) r.digits

theorem parse_text (r : Rendering sign) (hsign : sign ∈ signs) :
    parse r.text = .ok (.ofNat r.value) := by
  have hvalue : Hex.value? (Hex.spell r.digits) = some r.value :=
    Hex.value?_eq_some_iff.mpr ⟨r.digits, rfl, rfl⟩
  simp only [parse, r.dropMarker_trim_text hsign, r.dropPlus_signed hsign, hvalue,
    length_encode_signed hsign]
  rw [if_neg]
  rintro (hnil | hlong)
  · exact r.digits_ne_nil (by simpa [Hex.spell] using (List.append_eq_nil_iff.mp hnil).2)
  · exact absurd r.room (Nat.not_le_of_lt hlong)

end Rendering

/-- No number that has a rendering is too great. -/
theorem parse_of_renders {sign : List Char} {text : String} {n : Nat} (hsign : sign ∈ signs)
    (h : Renders sign text n) : ∃ v, parse text = .ok v ∧ v.toNat = n := by
  obtain ⟨r, rfl, rfl⟩ := h
  refine ⟨_, r.parse_text hsign, ?_⟩
  rw [UInt64.toNat_ofNat']
  exact Nat.mod_eq_of_lt r.value_lt

/-- What is read is taken apart from the outside: blanks, marker, sign. The rest spells digits. -/
theorem exists_rendering {text : String} {v : UInt64} (h : parse text = .ok v) :
    ∃ sign ∈ signs, ∃ r : Rendering sign, r.text = text := by
  obtain ⟨before, after, htext, hbefore, hafter⟩ := Text.exists_trim text.toList
  obtain ⟨marker, hmarker, htrim⟩ := exists_marker (Text.trim text.toList)
  simp only [parse] at h
  split at h
  · cases h
  · next hplaces =>
    obtain ⟨hne, hroom⟩ := not_or.mp hplaces
    obtain ⟨sign, hsign, hsigned, hdigits⟩ := exists_sign hne
    split at h
    · next n hn =>
      obtain ⟨ds, hds, rfl⟩ := Hex.value?_eq_some_iff.mp hn
      rw [hds] at hsigned hdigits
      rw [hsigned, length_encode_signed hsign] at hroom
      have hne' : ds ≠ [] := by
        rintro rfl
        exact hdigits rfl
      refine ⟨sign, hsign,
        ⟨before, marker, ds, after, hbefore, hafter, hmarker, hne', Nat.le_of_not_lt hroom⟩, ?_⟩
      rw [Rendering.text, ← hsigned, ← htrim, ← htext, String.ofList_toList]
    · cases h

theorem parse_eq_ok_iff {text : String} {v : UInt64} :
    parse text = .ok v ↔ ∃ sign ∈ signs, Renders sign text v.toNat := by
  constructor
  · intro h
    obtain ⟨sign, hsign, r, rfl⟩ := exists_rendering h
    obtain ⟨v', hv', hvalue⟩ := parse_of_renders hsign ⟨r, rfl, rfl⟩
    obtain rfl := Except.ok.inj (h.symm.trans hv')
    exact ⟨sign, hsign, r, rfl, hvalue.symm⟩
  · rintro ⟨sign, hsign, hrenders⟩
    obtain ⟨v', hv', hvalue⟩ := parse_of_renders hsign hrenders
    rwa [UInt64.toNat_inj.mp hvalue] at hv'

/-- Digits of one case in a fixed number of places need nothing around them. -/
theorem renders_fixed (k : Hex.LetterCase) {width : Nat} (hw : 1 ≤ width ∧ width ≤ 16) (n : Nat) :
    Renders [] (.ofList (Hex.fixed k width n)) (n % Nat.pow 16 width) := by
  obtain ⟨ds, hfixed, -, hworth⟩ := Hex.exists_spell_fixed k width n
  have hlength : ds.length = width := by
    rw [← Hex.length_spell, ← hfixed, Hex.length_fixed]
  have hne : ds ≠ [] := List.length_pos_iff.mp (hlength ▸ hw.1)
  have hroom : ([] : List Char).length + ds.length ≤ 16 := by simpa [hlength] using hw.2
  refine ⟨⟨[], [], ds, [], by simp, by simp, by simp [markers], hne, hroom⟩, ?_, hworth⟩
  rw [Rendering.text, hfixed]
  simp

/-! ### Texts with a plus sign -/

theorem Rendering.plus_mem_iff {sign : List Char} (r : Rendering sign) :
    '+' ∈ r.text.toList ↔ '+' ∈ sign := by
  have hblank : ∀ cs : List Char, (∀ c ∈ cs, Text.isBlank c) → '+' ∉ cs :=
    fun cs hcs h => absurd (hcs '+' h) (by decide)
  have hmarker : '+' ∉ r.marker := fun h =>
    forall_mem_marker (p := fun c => c ≠ '+') r.marker_mem (by decide) (by decide) (by decide) '+' h rfl
  have hdigits : '+' ∉ Hex.spell r.digits := fun h =>
    Hex.forall_mem_spell (p := fun c => c ≠ '+') (by decide) r.digits '+' h rfl
  rw [text, String.toList_ofList]
  simp [hblank _ r.blank_before, hblank _ r.blank_after, hmarker, hdigits]

/-- A text is read just if it renders a number in digits alone, or with a plus sign in front of them,
and it is read as this number. So the first condition alone is exact for a text just if the second
does not hold of it. -/
theorem read_iff_rendered (text : String) :
    (∀ v, parse text = .ok v ↔ Renders [] text v.toNat ∨ Renders ['+'] text v.toNat) ∧
      ((∀ v, parse text = .ok v ↔ Renders [] text v.toNat) ↔ ¬ ∃ n, Renders ['+'] text n) := by
  have hread : ∀ v, parse text = .ok v ↔ Renders [] text v.toNat ∨ Renders ['+'] text v.toNat := by
    intro v
    rw [parse_eq_ok_iff]
    simp [signs]
  refine ⟨hread, ?_, ?_⟩
  · rintro h ⟨n, r, rfl, rfl⟩
    obtain ⟨v, hv, -⟩ := parse_of_renders (by simp [signs]) ⟨r, rfl, rfl⟩
    obtain ⟨r', htext, -⟩ := (h v).mp hv
    have hplus := r.plus_mem_iff.mpr (by simp)
    rw [← htext, r'.plus_mem_iff] at hplus
    cases hplus
  · intro h v
    rw [hread v]
    exact or_iff_left fun hplus => h ⟨_, hplus⟩

/-- One digit after a plus sign. -/
theorem digit_read_behind_plus :
    ¬ ∀ (text : String) (v : UInt64), parse text = .ok v → Renders [] text v.toNat := by
  intro h
  obtain ⟨r, htext, -⟩ := h "+1" 1 (by decide +kernel)
  have hplus := r.plus_mem_iff.not.mpr (List.not_mem_nil)
  rw [htext] at hplus
  exact hplus (by decide)

end ConsoleOnline.HexNumber
