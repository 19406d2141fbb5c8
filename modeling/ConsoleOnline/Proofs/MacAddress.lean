import ConsoleOnline.HostAddress
import ConsoleOnline.Proofs.Numerals

/-!
Hardware addresses as texts. The bytes of an address are spelled by twelve digits, two for each. A
text is read as the address exactly if these digits, in any cases, are what colons and dashes leave
of it; in lower case they are the text that is written for the address.
-/
namespace ConsoleOnline

namespace Hex

theorem isSome_digit?_iff {c : Char} : (digit? c).isSome ↔ c.isHexDigit := by
  simp only [digit?, Char.isHexDigit, Char.isDigit, Char.le_def]
  grind

/-- Letters of both cases are the same digit. -/
theorem digit?_toLower (c : Char) : digit? c.toLower = digit? c := by
  by_cases h : 65 ≤ c.toNat ∧ c.toNat ≤ 90
  · have capital : ∀ i : Fin 26,
        digit? (Char.ofNat (65 + i)).toLower = digit? (Char.ofNat (65 + i)) := by decide
    have hc := capital ⟨c.toNat - 65, by omega⟩
    rwa [show 65 + (c.toNat - 65) = c.toNat by omega, Char.ofNat_toNat] at hc
  · have hsame : c.toLower = c := dif_neg h
    rw [hsame]

theorem toLower_digit (k : LetterCase) : ∀ d : Fin 16, (digit k d).toLower = digit .lower d := by
  cases k <;> decide

theorem exists_spell {cs : List Char} (h : ∀ c ∈ cs, (digit? c).isSome) :
    ∃ ds, cs = spell ds := by
  induction cs with
  | nil => exact ⟨[], rfl⟩
  | cons c cs ih =>
    obtain ⟨hc, hcs⟩ := List.forall_mem_cons.mp h
    obtain ⟨n, hn⟩ := Option.isSome_iff_exists.mp hc
    obtain ⟨d, rfl, -⟩ := digit?_eq_some_iff.mp hn
    obtain ⟨ds, rfl⟩ := ih hcs
    exact ⟨d :: ds, rfl⟩

/-- The digits of bytes, two for each. -/
def nibbles (bs : Bytes) : List Nat := bs.flatMap fun b => [b.toNat / 16, b.toNat % 16]

theorem nibbles_cons (b : UInt8) (bs : Bytes) :
    nibbles (b :: bs) = b.toNat / 16 :: b.toNat % 16 :: nibbles bs := rfl

theorem length_nibbles (bs : Bytes) : (nibbles bs).length = 2 * bs.length := by
  induction bs with
  | nil => rfl
  | cons b bs ih =>
    rw [nibbles_cons, List.length_cons, List.length_cons, List.length_cons, ih]
    omega

theorem ofNat_eq_iff {d e : Fin 16} {b : UInt8} :
    UInt8.ofNat (d * 16 + e) = b ↔ d = b.toNat / 16 ∧ e = b.toNat % 16 := by
  rw [← UInt8.toNat_inj, UInt8.toNat_ofNat']
  omega

theorem toBytes?_digits (k l : LetterCase) (d e : Fin 16) (cs : List Char) :
    toBytes? (digit k d :: digit l e :: cs) =
      (toBytes? cs).map (UInt8.ofNat (d * 16 + e) :: ·) := by
  rw [toBytes?, digit?_digit k d.isLt, digit?_digit l e.isLt]
  cases toBytes? cs <;> rfl

/-- Digits in any cases are read as the bytes whose digits they are. -/
theorem toBytes?_spell_iff {ds : List (LetterCase × Fin 16)} {bs : Bytes} :
    toBytes? (spell ds) = some bs ↔ ds.map (fun d => d.2.val) = nibbles bs := by
  induction bs generalizing ds with
  | nil =>
    match ds with
    | [] => simp [spell, toBytes?, nibbles]
    | [_] => simp [spell, toBytes?, nibbles]
    | d :: e :: ds => simp [spell, toBytes?_digits, nibbles]
  | cons b bs ih =>
    match ds with
    | [] => simp [spell, toBytes?, nibbles]
    | [_] => simp [spell, toBytes?, nibbles]
    | d :: e :: ds =>
      have hstep : toBytes? (spell (d :: e :: ds)) = _ := toBytes?_digits d.1 e.1 d.2 e.2 (spell ds)
      rw [hstep, Option.map_eq_some_iff, nibbles_cons, List.map_cons, List.map_cons]
      simp only [List.cons.injEq, ofNat_eq_iff, ← ih]
      constructor
      · rintro ⟨_, hrest, ⟨hd, he⟩, rfl⟩
        exact ⟨hd, he, hrest⟩
      · rintro ⟨hd, he, hrest⟩
        exact ⟨bs, hrest, ⟨hd, he⟩, rfl⟩

theorem ofBytes_eq_map_nibbles (k : LetterCase) (bs : Bytes) :
    ofBytes k bs = (nibbles bs).map (digit k) := by
  induction bs with
  | nil => rfl
  | cons b bs ih =>
    have hhigh : b.toNat / 16 % 16 = b.toNat / 16 := by
      have hlt : b.toNat < 256 := b.toNat_lt
      omega
    rw [ofBytes, List.flatMap_cons, ← ofBytes, ih, nibbles_cons, List.map_cons, List.map_cons,
      ← hhigh]
    rfl

theorem mem_nibbles_lt {bs : Bytes} {n : Nat} (h : n ∈ nibbles bs) : n < 16 := by
  obtain ⟨b, -, hb⟩ := List.mem_flatMap.mp h
  have hlt : b.toNat < 256 := b.toNat_lt
  simp only [List.mem_cons, List.not_mem_nil, or_false] at hb
  omega

theorem exists_bytes {ds : List (LetterCase × Fin 16)} {n : Nat} (h : ds.length = 2 * n) :
    ∃ bs : Bytes, bs.length = n ∧ ds.map (fun d => d.2.val) = nibbles bs := by
  induction n generalizing ds with
  | zero => exact ⟨[], rfl, by rw [List.length_eq_zero_iff.mp h]; rfl⟩
  | succ n ih =>
    match ds, h with
    | d :: e :: ds, h =>
      have hrest : ds.length = 2 * n := by
        simp only [List.length_cons] at h
        omega
      obtain ⟨bs, hlength, hds⟩ := ih hrest
      have hbyte := ofNat_eq_iff.mp (rfl : UInt8.ofNat (d.2 * 16 + e.2) = _)
      refine ⟨.ofNat (d.2 * 16 + e.2) :: bs, by rw [List.length_cons, hlength], ?_⟩
      rw [List.map_cons, List.map_cons, hds, nibbles_cons, ← hbyte.1, ← hbyte.2]

end Hex

namespace Text.Utf8

/-- Longer encodings end with a byte that is no character of its own. -/
theorem exists_mem_encodeChar {c : Char} (h : 0x80 ≤ c.toNat) :
    ∃ b ∈ encodeChar c, 0x80 ≤ b.toNat := by
  refine ⟨.ofNat (0x80 + c.toNat % 0x40), ?_, ?_⟩
  · rw [encodeChar, if_neg (by omega)]
    split
    · simp
    · split <;> simp
  · rw [UInt8.toNat_ofNat']
    omega

theorem ascii_of_encode {cs : List Char} (h : ∀ b ∈ encode cs, b.toNat < 0x80) :
    ∀ c ∈ cs, c.toNat < 0x80 := by
  intro c hc
  by_contra hlong
  obtain ⟨b, hb, hbyte⟩ := exists_mem_encodeChar (Nat.le_of_not_lt hlong)
  exact Nat.not_lt_of_le hbyte (h b (List.mem_flatMap.mpr ⟨c, hc, hb⟩))

end Text.Utf8

theorem Bytes.window_toList {n : Nat} (v : Vector UInt8 n) : window n v.toList = v := by
  apply Vector.ext
  intro i hi
  simp [window]

namespace MacAddress

/-- What colons and dashes leave of a text. -/
def bare (s : String) : List Char := s.toList.filter fun c => c ≠ ':' ∧ c ≠ '-'

theorem badDigit?_eq_none_iff {bs : Bytes} :
    badDigit? bs = none ↔ ∀ b ∈ bs, (Hex.digit? (Char.ofNat b.toNat)).isSome := by
  rw [badDigit?, List.find?_eq_none]
  constructor
  · intro h b hb
    obtain ⟨i, hi, rfl⟩ := List.getElem_of_mem hb
    have hmem : (bs[i], i) ∈ bs.zipIdx :=
      List.mk_mem_zipIdx_iff_getElem?.mpr (List.getElem?_eq_getElem hi)
    simpa [Option.isSome_iff_ne_none] using h _ hmem
  · intro h b hb
    simpa [Option.isSome_iff_ne_none] using h b.1 (List.fst_mem_of_mem_zipIdx hb)

/-- The bytes of a text are digits exactly if its characters are. -/
theorem badDigit?_encode_eq_none_iff {cs : List Char} :
    badDigit? (Text.Utf8.encode cs) = none ↔ ∀ c ∈ cs, (Hex.digit? c).isSome := by
  have hbyte : ∀ n : Fin 256, (Hex.digit? (Char.ofNat n)).isSome → n.val < 0x80 := by
    decide +kernel
  have hchar : ∀ c : Char, c.toNat < 0x80 → Char.ofNat (UInt8.ofNat c.toNat).toNat = c := by
    intro c hc
    rw [UInt8.toNat_ofNat', Nat.mod_eq_of_lt (by omega), Char.ofNat_toNat]
  rw [badDigit?_eq_none_iff]
  constructor
  · intro h
    have hascii := Text.Utf8.ascii_of_encode fun b hb => hbyte ⟨b.toNat, b.toNat_lt⟩ (h b hb)
    rw [Text.Utf8.encode_ascii hascii] at h
    intro c hc
    rw [← hchar c (hascii c hc)]
    exact h _ (List.mem_map_of_mem hc)
  · intro h
    obtain ⟨ds, rfl⟩ := Hex.exists_spell h
    have hascii := Hex.forall_mem_spell (p := fun c => c.toNat < 0x80) (by decide) ds
    rw [Text.Utf8.encode_ascii hascii]
    intro b hb
    obtain ⟨c, hc, rfl⟩ := List.mem_map.mp hb
    rw [hchar c (hascii c hc)]
    exact h c hc

/-- The digits, in whatever cases, are those of the bytes of the address. -/
def Spells (digits : List Char) (m : MacAddress) : Prop :=
  ∃ ds : List (Hex.LetterCase × Fin 16),
    digits = Hex.spell ds ∧ ds.map (fun d => d.2.val) = Hex.nibbles m.octets.toList

theorem parse_of_spells {s : String} {m : MacAddress} (h : Spells (bare s) m) :
    parse s = .ok m := by
  obtain ⟨ds, hbare, hds⟩ := h
  have hlength : ds.length = 12 := by
    rw [← List.length_map (f := fun d => d.2.val), hds, Hex.length_nibbles, Vector.length_toList]
  have hascii := Hex.forall_mem_spell (p := fun c => c.toNat < 0x80) (by decide) ds
  have hdigits := Hex.forall_mem_spell (p := fun c => (Hex.digit? c).isSome) (by decide) ds
  have hencode : (Text.Utf8.encode (Hex.spell ds)).length = 12 := by
    rw [Text.Utf8.encode_ascii hascii, List.length_map, Hex.length_spell, hlength]
  rw [bare] at hbare
  simp only [parse, hbare, hencode, badDigit?_encode_eq_none_iff.mpr hdigits,
    Hex.toBytes?_spell_iff.mpr hds, Option.getD_some, Bytes.window_toList]
  rw [if_neg (by decide), if_neg (by decide)]

theorem exists_spells {cs : List Char} (hlength : cs.length = 12)
    (h : ∀ c ∈ cs, (Hex.digit? c).isSome) : ∃ m, Spells cs m := by
  obtain ⟨ds, rfl⟩ := Hex.exists_spell h
  have hcount : ds.length = 2 * 6 := Hex.length_spell ds ▸ hlength
  obtain ⟨bs, hbs, hds⟩ := Hex.exists_bytes hcount
  exact ⟨⟨⟨bs.toArray, by simpa using hbs⟩⟩, ds, rfl, by simpa using hds⟩

theorem digits_of_parse {s : String} {m : MacAddress} (h : parse s = .ok m) :
    (bare s).length = 12 ∧ ∀ c ∈ bare s, (Hex.digit? c).isSome := by
  simp only [parse] at h
  split at h
  · cases h
  · split at h
    · cases h
    · next hlength =>
      split at h
      · cases h
      · next hgood =>
        have hdigits := badDigit?_encode_eq_none_iff.mp hgood
        obtain ⟨ds, hds⟩ := Hex.exists_spell hdigits
        have hascii := Hex.forall_mem_spell (p := fun c => c.toNat < 0x80) (by decide) ds
        rw [Decidable.not_not, hds, Text.Utf8.encode_ascii hascii, List.length_map, ← hds] at hlength
        exact ⟨hlength, hdigits⟩

theorem parse_eq_ok_iff {s : String} {m : MacAddress} :
    parse s = .ok m ↔ Spells (bare s) m := by
  refine ⟨fun h => ?_, parse_of_spells⟩
  obtain ⟨hlength, hdigits⟩ := digits_of_parse h
  obtain ⟨m', hm'⟩ := exists_spells hlength hdigits
  obtain rfl := Except.ok.inj ((parse_of_spells hm').symm.trans h)
  exact hm'

theorem toList_text (m : MacAddress) :
    m.text.toList = (Hex.nibbles m.octets.toList).map (Hex.digit .lower) := by
  rw [text, String.toList_ofList, Hex.ofBytes_eq_map_nibbles]

theorem spells_iff_toLower {cs : List Char} {m : MacAddress} :
    Spells cs m ↔ cs.map Char.toLower = m.text.toList := by
  rw [toList_text]
  constructor
  · rintro ⟨ds, rfl, hds⟩
    rw [← hds, Hex.spell, List.map_map, List.map_map]
    exact List.map_congr_left fun d _ => Hex.toLower_digit d.1 d.2
  · intro h
    have hvalues : cs.mapM Hex.digit? = some (Hex.nibbles m.octets.toList) := by
      calc cs.mapM Hex.digit?
          = (cs.map Char.toLower).mapM Hex.digit? := by
            rw [List.mapM_map]
            exact congrArg (cs.mapM ·) (funext fun c => (Hex.digit?_toLower c).symm)
        _ = some (Hex.nibbles m.octets.toList) := by
            rw [h]
            exact Hex.mapM_digit?_map_digit .lower fun _ => Hex.mem_nibbles_lt
    obtain ⟨ds, hcs, hds⟩ := Hex.mapM_digit?_eq_some_iff.mp hvalues
    exact ⟨ds, hcs, hds.symm⟩

/-- A lower-case hexadecimal digit. -/
def IsLowerDigit (c : Char) : Prop := c.isHexDigit ∧ c.toLower = c

theorem bare_of_digits {s : String} (h : ∀ c ∈ s.toList, c.isHexDigit) : bare s = s.toList := by
  rw [bare, List.filter_eq_self]
  intro c hc
  have hdigit := h c hc
  have hcolon : c ≠ ':' := by
    rintro rfl
    cases hdigit
  have hdash : c ≠ '-' := by
    rintro rfl
    cases hdigit
  simp [hcolon, hdash]

theorem isLowerDigit_of_mem_text {m : MacAddress} {c : Char} (h : c ∈ m.text.toList) :
    IsLowerDigit c := by
  have all : ∀ d : Fin 16, (Hex.digit .lower d).isHexDigit ∧
      (Hex.digit .lower d).toLower = Hex.digit .lower d := by decide
  rw [toList_text] at h
  obtain ⟨n, hn, rfl⟩ := List.mem_map.mp h
  exact all ⟨n, Hex.mem_nibbles_lt hn⟩

theorem length_text (m : MacAddress) : m.text.toList.length = 12 := by
  rw [text, String.toList_ofList, Hex.length_ofBytes, Vector.length_toList]

/-- In lower case and without separators, the text that is written is the only one that is read. -/
theorem parse_lower_iff {s : String} {m : MacAddress} (h : ∀ c ∈ s.toList, IsLowerDigit c) :
    parse s = .ok m ↔ s = m.text := by
  have hlower : s.toList.map Char.toLower = s.toList :=
    (List.map_congr_left fun c hc => (h c hc).2).trans (List.map_id _)
  rw [parse_eq_ok_iff, spells_iff_toLower, bare_of_digits fun c hc => (h c hc).1, hlower,
    String.toList_inj]

theorem parse_text (m : MacAddress) : parse m.text = .ok m :=
  (parse_lower_iff fun _ => isLowerDigit_of_mem_text).mpr rfl

theorem exists_parse_iff {s : String} :
    (∃ m, parse s = .ok m) ↔ (bare s).length = 12 ∧ ∀ c ∈ bare s, c.isHexDigit := by
  simp only [← Hex.isSome_digit?_iff]
  constructor
  · rintro ⟨m, h⟩
    exact digits_of_parse h
  · rintro ⟨hlength, hdigits⟩
    obtain ⟨m, hm⟩ := exists_spells hlength hdigits
    exact ⟨m, parse_of_spells hm⟩

/-- A text is read as an address exactly if colons and dashes leave twelve digits of it, and the
digits, in any cases, are those of the bytes of the address. In lower case they are its text, which
is the only text of lower-case digits that is read as the address. -/
theorem read_by_its_digits (s : String) :
    ((∃ m, parse s = .ok m) ↔ (bare s).length = 12 ∧ ∀ c ∈ bare s, c.isHexDigit) ∧
      ∀ m, (parse s = .ok m ↔ Spells (bare s) m) ∧
        (parse s = .ok m ↔ (bare s).map Char.toLower = m.text.toList) ∧
        (s.toList.length = 12 ∧ (∀ c ∈ s.toList, IsLowerDigit c) ∧ parse s = .ok m ↔ s = m.text) := by
  refine ⟨exists_parse_iff, fun m => ⟨parse_eq_ok_iff, ?_, ?_⟩⟩
  · rw [parse_eq_ok_iff, spells_iff_toLower]
  · constructor
    · rintro ⟨-, hlower, hparse⟩
      exact (parse_lower_iff hlower).mp hparse
    · rintro rfl
      exact ⟨length_text m, fun _ => isLowerDigit_of_mem_text, parse_text m⟩

end MacAddress

end ConsoleOnline
