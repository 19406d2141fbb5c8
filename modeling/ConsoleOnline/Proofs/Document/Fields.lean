import ConsoleOnline.Document.HexField
import ConsoleOnline.Proofs.Results

/-!
What may stand in a field of a document, and what it then stands for.
-/
namespace ConsoleOnline

/-- A count is a whole number below the bound, and zero where the field is absent. -/
inductive CountField (bound : Nat) : Option Json.Value → Nat → Prop where
  | absent : CountField bound none 0
  | number {n : UInt64} (h : n.toNat < bound) :
    CountField bound (some (.number (.natural n))) n.toNat

theorem countField_none_iff {bound n : Nat} : CountField bound none n ↔ n = 0 := by
  constructor
  · rintro ⟨⟩
    rfl
  · rintro rfl
    exact .absent

theorem CountField.lt {bound : Nat} (hb : 0 < bound) {v : Option Json.Value} {n : Nat}
    (h : CountField bound v n) : n < bound := by
  cases h with
  | absent => exact hb
  | number h => exact h

/-- An identifier is a number, or a hexadecimal text. -/
inductive IdField : Json.Value → UInt64 → Prop where
  | number (n : UInt64) : IdField (.number (.natural n)) n
  | hex {text : String} {n : UInt64} (h : HexNumber.parse text = .ok n) : IdField (.string text) n

theorem hexNumber?_eq_some_iff {v : Json.Value} {n : UInt64} :
    v.hexNumber? = some n ↔ IdField v n := by
  constructor
  · intro h
    rw [Json.Value.hexNumber?.eq_def] at h
    split at h
    · next text =>
      cases hp : HexNumber.parse text with
      | ok m =>
        rw [hp] at h
        obtain rfl := Option.some.inj h
        exact .hex hp
      | error e => rw [hp] at h; cases h
    · obtain rfl := Option.some.inj h
      exact .number _
    · cases h
  · intro h
    cases h with
    | number => rfl
    | hex h => rw [Json.Value.hexNumber?, h]; rfl

theorem wholeBelow_eq_ok_iff {bound : Nat} {expected : String} {v : Json.Value} {n : Nat} :
    v.wholeBelow bound expected = .ok n ↔ CountField bound (some v) n := by
  constructor
  · intro h
    rw [Json.Value.wholeBelow.eq_def] at h
    split at h
    · split at h
      · next hlt =>
        obtain rfl := Except.ok.inj h
        exact .number hlt
      · cases h
    · cases h
    · cases h
  · intro h
    cases h with
    | number h => rw [Json.Value.wholeBelow, if_pos h]

/-- A count as a word, of whatever width. -/
theorem word_eq_ok_iff {bound : Nat} {expected : String} {wrap : Nat → β} {toNat : β → Nat}
    (hwrap : ∀ n < bound, toNat (wrap n) = n) (htoNat : ∀ b, wrap (toNat b) = b) {v : Json.Value}
    {b : β} :
    (v.wholeBelow bound expected).map wrap = .ok b ↔ CountField bound (some v) (toNat b) := by
  simp only [map_eq_ok_iff, wholeBelow_eq_ok_iff]
  constructor
  · rintro ⟨n, hn, rfl⟩
    have hlt : n < bound := by
      cases hn with
      | number h => exact h
    rwa [hwrap n hlt]
  · exact fun h => ⟨toNat b, h, htoNat b⟩

/-- An identifier that cannot be read, or is too large, is taken as zero. -/
inductive LimitedIdField (bound : Nat) (v : Json.Value) : Nat → Prop where
  | read {n : UInt64} (h : IdField v n) (hlt : n.toNat < bound) : LimitedIdField bound v n.toNat
  | unread (h : ∀ n, IdField v n → bound ≤ n.toNat) : LimitedIdField bound v 0

/-- What was read, where it is below the bound, and else zero. -/
def limited (bound : Nat) : Option UInt64 → Nat
  | some n => if n.toNat < bound then n.toNat else 0
  | none => 0

theorem limitedIdField_iff {bound : Nat} {v : Json.Value} {n : Nat} :
    LimitedIdField bound v n ↔ limited bound v.hexNumber? = n := by
  constructor
  · intro h
    cases h with
    | read h hlt => rw [hexNumber?_eq_some_iff.mpr h, limited, if_pos hlt]
    | unread h =>
      cases hv : v.hexNumber? with
      | none => rfl
      | some m => rw [limited, if_neg (Nat.not_lt.mpr (h m (hexNumber?_eq_some_iff.mp hv)))]
  · rintro rfl
    cases hv : v.hexNumber? with
    | none =>
      refine .unread fun m hm => ?_
      rw [hexNumber?_eq_some_iff.mpr hm] at hv
      cases hv
    | some m =>
      rw [limited]
      split
      · next hlt => exact .read (hexNumber?_eq_some_iff.mp hv) hlt
      · next hlt =>
        refine .unread fun m' hm' => ?_
        rw [hexNumber?_eq_some_iff.mpr hm'] at hv
        obtain rfl := Option.some.inj hv
        exact Nat.not_lt.mp hlt

/-- Every number that can be read is below the bound. -/
theorem wordIdField_iff {v : Json.Value} {n : UInt64} :
    LimitedIdField UInt64.size v n.toNat ↔ v.hexNumber?.getD 0 = n := by
  rw [limitedIdField_iff, ← UInt64.toNat_inj]
  cases v.hexNumber? with
  | none => rfl
  | some m =>
    rw [limited, if_pos m.toNat_lt]
    rfl

/-- A text is empty where it is null. -/
inductive TextField : Json.Value → String → Prop where
  | null : TextField .null ""
  | given (text : String) : TextField (.string text) text

theorem textField_iff {v : Json.Value} {text : String} :
    TextField v text ↔
      ∃ text?, (Json.Value.optional Json.Value.toText v).toOption = some text? ∧
        text?.getD "" = text := by
  simp only [toOption_eq_some_iff]
  constructor
  · intro h
    cases h with
    | null => exact ⟨none, rfl, rfl⟩
    | given text => exact ⟨some text, rfl, rfl⟩
  · rintro ⟨text?, h, rfl⟩
    cases v with
    | null =>
      obtain rfl := Except.ok.inj h
      exact .null
    | string text =>
      obtain rfl := Except.ok.inj h
      exact .given text
    | bool _ => cases h
    | number _ => cases h
    | array _ => cases h
    | object _ => cases h

/-- What is written in the named fields of a record, null where nothing is. The fields of an object
are found by name, those of an array by position, and it has no items beyond them. -/
inductive RecordFields (names : List String) : Json.Value → List Json.Value → Prop where
  | object (fields : List (String × Json.Value)) :
    RecordFields names (.object fields)
      (names.map fun name => (Json.Value.field? name fields).getD .null)
  | array {items : List Json.Value} (h : items.length ≤ names.length) :
    RecordFields names (.array items)
      (items ++ List.replicate (names.length - items.length) .null)

theorem record?_eq_some_iff {names : List String} {record : Json.Value} {vs : List Json.Value} :
    record.record? names = some vs ↔ RecordFields names record vs := by
  constructor
  · intro h
    cases record with
    | object fields =>
      obtain rfl := Option.some.inj h
      exact .object fields
    | array items =>
      by_cases hlen : items.length ≤ names.length
      · obtain rfl := Option.some.inj ((if_pos hlen).symm.trans h)
        exact .array hlen
      · cases (if_neg hlen).symm.trans h
    | null => cases h
    | bool _ => cases h
    | number _ => cases h
    | string _ => cases h
  · intro h
    cases h with
    | object fields => rfl
    | array hlen => exact if_pos hlen

end ConsoleOnline
