import ConsoleOnline.HostAddress
import ConsoleOnline.Ids
import ConsoleOnline.Proofs.HexNumber

/-!
IPv4 addresses and identifiers are read back from their texts. An address has no other text, so
`IPv4.parse?` accepts exactly what `IPv4.text` writes.
-/
namespace ConsoleOnline

namespace IPv4

/-- An octet is its decimal number without leading zeros. -/
theorem octet?_eq_some_iff {cs : List Char} {o : UInt8} :
    octet? cs = some o ↔ cs = Decimal.natural 1 o.toNat := by
  constructor
  · intro h
    obtain ⟨ds, hds, h⟩ := Option.bind_eq_some_iff.mp h
    obtain ⟨hlt, rfl⟩ := Decimal.mapM_digit?_eq_some_iff.mp hds
    simp only at h
    split at h
    · cases h
    · next hc =>
      obtain rfl := Option.some.inj h
      simp only [not_or, not_and] at hc
      obtain ⟨hne, hlead, -, hmax⟩ := hc
      have hvalue : (UInt8.ofNat (Digits.value 10 ds)).toNat = Digits.value 10 ds := by
        rw [UInt8.toNat_ofNat']
        exact Nat.mod_eq_of_lt (by omega)
      rw [hvalue, Decimal.natural, Digits.atLeast_value (by decide) (by simpa using hne) hlt]
      intro hhead
      cases ds with
      | nil => cases hhead
      | cons d rest =>
        obtain rfl := Option.some.inj hhead
        cases rest with
        | nil => rfl
        | cons e rest => exact absurd rfl (hlead (by simp))
  · rintro rfl
    have hlt : o.toNat < 256 := o.toNat_lt
    have hvalue := Digits.value_atLeast (b := 10) (by decide) o.toNat
    have hlength : (Decimal.natural 1 o.toNat).length ≤ 3 := by
      rw [Decimal.natural, List.length_map]
      exact Digits.length_atLeast_le (by decide) (Nat.lt_trans hlt (by decide))
    rw [octet?, Decimal.mapM_digit?_natural]
    simp only [bind, Option.bind_some, hvalue]
    rw [if_neg]
    · simp
    · rintro (hempty | ⟨hlong, hhead⟩ | hlong | hbig)
      · rw [List.isEmpty_iff, Decimal.natural, List.map_eq_nil_iff] at hempty
        exact Digits.atLeast_ne_nil (by decide) _ hempty
      · rw [Decimal.natural_of_head hhead] at hlong
        exact absurd hlong (by decide)
      · omega
      · omega

theorem exists_octets (a : IPv4) : ∃ p q r o, a = ⟨#v[p, q, r, o]⟩ := by
  obtain ⟨⟨⟨octets⟩, hsize⟩⟩ := a
  match octets, hsize with
  | [p, q, r, o], hsize => exact ⟨p, q, r, o, rfl⟩

theorem parse?_eq_some_iff {s : String} {a : IPv4} : parse? s = some a ↔ s = a.text := by
  constructor
  · intro h
    rw [parse?] at h
    split at h
    · next w x y z hsplit =>
      simp only [Option.bind_eq_bind, Option.bind_eq_some_iff, octet?_eq_some_iff, pure,
        Option.some.injEq] at h
      obtain ⟨p, rfl, q, rfl, r, rfl, o, rfl, rfl⟩ := h
      have hjoin : ['.'].intercalate (s.toList.splitOn '.') = s.toList :=
        List.intercalate_splitOn '.'
      rw [hsplit] at hjoin
      rw [text, chars, ← String.ofList_toList (s := s), ← hjoin]
      rfl
    · cases h
  · rintro rfl
    obtain ⟨p, q, r, o, rfl⟩ := exists_octets a
    let parts := [p, q, r, o].map fun o => Decimal.natural 1 o.toNat
    have hdot : ∀ l ∈ parts, '.' ∉ l := by
      intro l hl
      obtain ⟨n, -, rfl⟩ := List.mem_map.mp hl
      exact Decimal.not_mem_natural (by decide) 1 _
    have hsplit : (text ⟨#v[p, q, r, o]⟩).toList.splitOn '.' = parts := by
      rw [text, String.toList_ofList]
      exact List.splitOn_intercalate '.' hdot (by simp)
    have hoctet : ∀ o : UInt8, octet? (Decimal.natural 1 o.toNat) = some o :=
      fun o => octet?_eq_some_iff.mpr rfl
    rw [parse?, hsplit]
    simp only [parts, List.map_cons, List.map_nil, hoctet]
    rfl

end IPv4

/-! ### Texts of hexadecimal digits -/

namespace HexNumber

/-- Digits that nothing is put around are read as they stand. -/
theorem parse_fixed (k : Hex.LetterCase) {width : Nat} (hw : 1 ≤ width ∧ width ≤ 16) (n : Nat) :
    parse (.ofList (Hex.fixed k width n)) = .ok (.ofNat (n % Nat.pow 16 width)) := by
  obtain ⟨v, hv, hvalue⟩ := parse_of_renders (by simp [signs]) (renders_fixed k hw n)
  rw [hv, ← hvalue, UInt64.ofNat_toNat]

/-- Sixteen digits have room for every identifier. -/
theorem parse_word (k : Hex.LetterCase) (v : UInt64) :
    parse (.ofList (Hex.fixed k 16 v.toNat)) = .ok v := by
  have hlt : v.toNat < Nat.pow 16 16 := v.toNat_lt
  rw [parse_fixed k (by decide), Nat.mod_eq_of_lt hlt, UInt64.ofNat_toNat]

end HexNumber

theorem SessionId.parse_text (id : SessionId) : HexNumber.parse id.text = .ok id.raw :=
  HexNumber.parse_word .upper id.raw

theorem Xuid.parse_text (x : Xuid) : parse x.text = .ok x := by
  rw [parse, text, HexNumber.parse_word]
  rfl

end ConsoleOnline
