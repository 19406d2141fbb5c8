import ConsoleOnline.Proofs.Results
import ConsoleOnline.Proofs.Spelling

/-!
Identifiers as texts. Each kind of identifier has a width, and one text for every number that has
room in it: as many upper-case digits. Every rendering of the number is read as the identifier, and
renderings of greater numbers are refused.
-/
namespace ConsoleOnline

namespace Hex

/-- The text has exactly `width` digits, the first one worth most, and the letters among them are
upper-case. -/
def Canonical (width : Nat) (text : String) (n : Nat) : Prop :=
  ∃ ds : List (LetterCase × Fin 16), text.toList = spell ds ∧ (∀ d ∈ ds, d.1 = .upper) ∧
    ds.length = width ∧ worth ds = n

theorem canonical_iff {width n : Nat} {text : String} :
    Canonical width text n ↔ n < Nat.pow 16 width ∧ text = .ofList (fixed .upper width n) := by
  constructor
  · rintro ⟨ds, htext, hupper, rfl, rfl⟩
    rw [fixed_worth hupper, ← htext, String.ofList_toList]
    exact ⟨worth_lt ds, rfl⟩
  · rintro ⟨hlt, rfl⟩
    obtain ⟨ds, hfixed, hupper, hworth⟩ := exists_spell_fixed .upper width n
    refine ⟨ds, ?_, hupper, ?_, ?_⟩
    · rw [String.toList_ofList, hfixed]
    · rw [← length_spell, ← hfixed, length_fixed]
    · rw [hworth, Nat.mod_eq_of_lt hlt]

end Hex

/-! ### Kinds of identifiers -/

/-- How identifiers of `width` digits are written and read. One text is canonical for each, and it is
the one that is written. All renderings of its number are read as the identifier; renderings of other
numbers that have no room are refused. Whatever was read is read again from what is written for it. -/
structure WrittenAndRead (width : Nat) (number : α → Nat) (text : α → String)
    (parse : String → Except OnlineError α) : Prop where
  canonical_iff : ∀ (t : String) (a : α), Hex.Canonical width t (number a) ↔ t = text a
  reads : ∀ (t : String) (a : α), HexNumber.Renders [] t (number a) → parse t = .ok a
  accepted_iff : ∀ (t : String) (n : Nat), HexNumber.Renders [] t n →
    ((∃ a, parse t = .ok a) ↔ n < Nat.pow 16 width)
  again : ∀ (t : String) (a : α), parse t = .ok a → parse (text a) = .ok a

section

variable {α : Type} {width : Nat} {number : α → Nat} {text : α → String}
  {parse : String → Except OnlineError α}

/-- An identifier is read where its number is, and in a fixed number of places it is written. -/
theorem WrittenAndRead.of_parse_iff (hwidth : 1 ≤ width ∧ width ≤ 16)
    (hlt : ∀ a, number a < Nat.pow 16 width) (honto : ∀ n < Nat.pow 16 width, ∃ a, number a = n)
    (htext : ∀ a, text a = .ofList (Hex.fixed .upper width (number a)))
    (hparse : ∀ t a, parse t = .ok a ↔ ∃ v, HexNumber.parse t = .ok v ∧ v.toNat = number a) :
    WrittenAndRead width number text parse := by
  have hreads : ∀ t a, HexNumber.Renders [] t (number a) → parse t = .ok a :=
    fun t a h => (hparse t a).mpr (HexNumber.parse_of_renders (by simp [HexNumber.signs]) h)
  have hrenders : ∀ a, HexNumber.Renders [] (text a) (number a) := by
    intro a
    have h := HexNumber.renders_fixed .upper hwidth (number a)
    rwa [Nat.mod_eq_of_lt (hlt a), ← htext] at h
  refine ⟨fun t a => ?_, hreads, fun t n hn => ?_, fun t a _ => hreads _ a (hrenders a)⟩
  · rw [Hex.canonical_iff, htext]
    exact and_iff_right (hlt a)
  · constructor
    · rintro ⟨a, ha⟩
      obtain ⟨v, hv, hnumber⟩ := (hparse t a).mp ha
      obtain ⟨v', hv', rfl⟩ := HexNumber.parse_of_renders (by simp [HexNumber.signs]) hn
      obtain rfl := Except.ok.inj (hv.symm.trans hv')
      exact hnumber ▸ hlt a
    · intro hroom
      obtain ⟨a, rfl⟩ := honto n hroom
      exact ⟨a, hreads t a hn⟩

end

theorem Xuid.parse_iff {t : String} {x : Xuid} :
    parse t = .ok x ↔ ∃ v, HexNumber.parse t = .ok v ∧ v.toNat = x.value.toNat := by
  cases x
  simp only [parse, map_eq_ok_iff, mk.injEq, UInt64.toNat_inj]

theorem SessionId.parse_iff {t : String} {id : SessionId} :
    parse t = .ok id ↔ ∃ v, HexNumber.parse t = .ok v ∧ v.toNat = id.raw.toNat := by
  cases id
  simp only [parse, map_eq_ok_iff, mk.injEq, UInt64.toNat_inj]

theorem TitleId.ofNumber?_eq_some_iff {n : UInt64} {title : TitleId} :
    ofNumber? n = some title ↔ n.toNat = title.value.toNat := by
  have hlt : title.value.toNat < UInt32.size := title.value.toNat_lt
  rw [ofNumber?]
  constructor
  · intro h
    split at h
    · next hn =>
      obtain rfl := Option.some.inj h
      exact (UInt32.toNat_ofNat_of_lt' hn).symm
    · cases h
  · intro h
    rw [h, if_pos hlt, UInt32.ofNat_toNat]

theorem TitleId.parse_iff {t : String} {title : TitleId} :
    parse t = .ok title ↔ ∃ v, HexNumber.parse t = .ok v ∧ v.toNat = title.value.toNat := by
  rw [parse, bind_eq_ok_iff]
  refine exists_congr fun v => and_congr_right fun _ => ?_
  rw [← ofNumber?_eq_some_iff]
  cases ofNumber? v <;> simp

/-- Users and sessions are written with 16 digits, and so the renderings of all numbers are read.
Titles are written with 8 digits, and of the renderings only those of 32 bits are read. -/
theorem identifiers_written_and_read :
    WrittenAndRead 16 (fun x => x.value.toNat) Xuid.text Xuid.parse ∧
      WrittenAndRead 16 (fun id => id.raw.toNat) SessionId.text SessionId.parse ∧
      WrittenAndRead 8 (fun title => title.value.toNat) TitleId.text TitleId.parse := by
  refine ⟨.of_parse_iff (by decide) (fun x => x.value.toNat_lt) (fun n hn => ?_) (fun _ => rfl)
      fun _ _ => Xuid.parse_iff,
    .of_parse_iff (by decide) (fun id => id.raw.toNat_lt) (fun n hn => ?_) (fun _ => rfl)
      fun _ _ => SessionId.parse_iff,
    .of_parse_iff (by decide) (fun title => title.value.toNat_lt) (fun n hn => ?_) (fun _ => rfl)
      fun _ _ => TitleId.parse_iff⟩
  · exact ⟨⟨.ofNat n⟩, UInt64.toNat_ofNat_of_lt' hn⟩
  · exact ⟨⟨.ofNat n⟩, UInt64.toNat_ofNat_of_lt' hn⟩
  · exact ⟨⟨.ofNat n⟩, UInt32.toNat_ofNat_of_lt' hn⟩

end ConsoleOnline
