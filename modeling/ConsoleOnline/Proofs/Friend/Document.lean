import ConsoleOnline.Document.Friends
import ConsoleOnline.Proofs.Document.Fields
import ConsoleOnline.Proofs.Friend.Refresh
import ConsoleOnline.Proofs.Gamertag

/-!
What the friends list takes from an answer of the service. Which of the records in it report on a
user, and what they report, is said field by field.
-/
namespace ConsoleOnline

/-! ### Fields -/

/-- What a field holds, where null is nothing. -/
def given? : Json.Value → Option Json.Value
  | .null => none
  | v => some v

theorem optional_eq (read : Json.Value → Except Json.Mismatch α) (v : Json.Value) :
    Json.Value.optional read v = match given? v with
      | none => .ok none
      | some v => (read v).map some := by
  cases v <;> rfl

theorem optionalWord_iff {bound : Nat} {expected : String} {wrap : Nat → β} {toNat : β → Nat}
    {zero : β} (hwrap : ∀ n < bound, toNat (wrap n) = n) (htoNat : ∀ b, wrap (toNat b) = b)
    (hzero : toNat zero = 0) {v : Json.Value} {b : β} :
    CountField bound (given? v) (toNat b) ↔
      ∃ b?, (Json.Value.optional (fun v => (v.wholeBelow bound expected).map wrap) v).toOption =
        some b? ∧ b?.getD zero = b := by
  simp only [toOption_eq_some_iff, optional_eq]
  cases given? v with
  | none =>
    rw [countField_none_iff]
    constructor
    · intro hb
      refine ⟨none, rfl, ?_⟩
      rw [Option.getD_none, ← htoNat b, ← htoNat zero, hb, hzero]
    · rintro ⟨b?, h, rfl⟩
      obtain rfl := Except.ok.inj h
      exact hzero
  | some v =>
    rw [← word_eq_ok_iff hwrap htoNat]
    constructor
    · intro h
      exact ⟨some b, map_eq_ok_iff.mpr ⟨b, h, rfl⟩, rfl⟩
    · rintro ⟨b?, h, rfl⟩
      obtain ⟨b, hb, rfl⟩ := map_eq_ok_iff.mp h
      exact hb

theorem stateField_iff {v : Json.Value} {n : UInt32} :
    CountField UInt32.size (given? v) n.toNat ↔
      ∃ n?, (Json.Value.optional Json.Value.toUInt32 v).toOption = some n? ∧ n?.getD 0 = n :=
  optionalWord_iff (fun _ h => UInt32.toNat_ofNat_of_lt h) (fun _ => UInt32.ofNat_toNat) rfl

theorem timeField_iff {v : Json.Value} {n : UInt64} :
    CountField UInt64.size (given? v) n.toNat ↔
      ∃ n?, (Json.Value.optional Json.Value.toUInt64 v).toOption = some n? ∧ n?.getD 0 = n :=
  optionalWord_iff (fun _ h => UInt64.toNat_ofNat_of_lt h) (fun _ => UInt64.ofNat_toNat) rfl

theorem titleField_iff {v : Json.Value} {t : TitleId} :
    LimitedIdField UInt32.size v t.value.toNat ↔
      (v.hexNumber?.bind TitleId.ofNumber?).getD {} = t := by
  have hvalue : ∀ s : TitleId, s = t ↔ s.value.toNat = t.value.toNat := by
    rintro ⟨n⟩
    rw [UInt32.toNat_inj]
    cases t
    simp
  rw [limitedIdField_iff, hvalue]
  cases v.hexNumber? with
  | none => rfl
  | some m =>
    rw [Option.bind_some, TitleId.ofNumber?, limited]
    split
    · next hlt =>
      have hwrap : (UInt32.ofNat m.toNat).toNat = m.toNat := UInt32.toNat_ofNat_of_lt hlt
      rw [Option.getD_some, hwrap]
    · rfl

/-! ### Records -/

/-- What is written in the fields of a record of a presence, null where nothing is. -/
structure PresenceFields where
  xuid : Json.Value
  gamertag : Json.Value
  state : Json.Value
  sessionId : Json.Value
  titleId : Json.Value
  time : Json.Value
  rich : Json.Value

/-- The fields of an object are found by name, those of an array by position. -/
inductive PresenceFields.Of : Json.Value → PresenceFields → Prop where
  | object (fields : List (String × Json.Value)) :
    Of (.object fields)
      { xuid := (Json.Value.field? "xuid" fields).getD .null
        gamertag := (Json.Value.field? "gamertag" fields).getD .null
        state := (Json.Value.field? "state" fields).getD .null
        sessionId := (Json.Value.field? "sessionId" fields).getD .null
        titleId := (Json.Value.field? "titleId" fields).getD .null
        time := (Json.Value.field? "stateChangeTime" fields).getD .null
        rich := (Json.Value.field? "richPresence" fields).getD .null }
  | array {items : List Json.Value} (h : items.length ≤ 7) :
    Of (.array items)
      { xuid := items.getD 0 .null
        gamertag := items.getD 1 .null
        state := items.getD 2 .null
        sessionId := items.getD 3 .null
        titleId := items.getD 4 .null
        time := items.getD 5 .null
        rich := items.getD 6 .null }

/-- The presence that the fields of a record report. -/
structure Reports (v : PresenceFields) (p : Presence) : Prop where
  xuid : IdField v.xuid p.xuid.value
  gamertag : ∃ text, TextField v.gamertag text ∧ p.gamertag.CutOf text ∧
    (p.gamertag.isEmpty ↔ text = "")
  state : CountField UInt32.size (given? v.state) p.state.bits.toNat
  sessionId : LimitedIdField UInt64.size v.sessionId p.sessionId.raw.toNat
  titleId : LimitedIdField UInt32.size v.titleId p.titleId.value.toNat
  stateTime : CountField UInt64.size (given? v.time) p.stateTime.ticks.toNat
  rich : ∃ text, TextField v.rich text ∧ p.rich = .ofText text

/-- A record reports on a user where its fields hold what they may, and the identifier is one. -/
def Usable (record : Json.Value) (p : Presence) : Prop :=
  ∃ v, PresenceFields.Of record v ∧ Reports v p

theorem presenceFields_iff {record : Json.Value} {vs : List Json.Value} :
    record.record? ["xuid", "gamertag", "state", "sessionId", "titleId", "stateChangeTime",
        "richPresence"] = some vs ↔
      ∃ v, PresenceFields.Of record v ∧
        [v.xuid, v.gamertag, v.state, v.sessionId, v.titleId, v.time, v.rich] = vs := by
  constructor
  · intro h
    cases record?_eq_some_iff.mp h with
    | object fields => exact ⟨_, .object fields, rfl⟩
    | array hlen => exact ⟨_, .array hlen, toList_ofFn_getD hlen .null⟩
  · rintro ⟨v, hv, rfl⟩
    cases hv with
    | object fields => rfl
    | array hlen => exact (if_pos hlen).trans (congrArg some (toList_ofFn_getD hlen .null).symm)

theorem ofRecord?_of {record : Json.Value} {v : PresenceFields} (hv : PresenceFields.Of record v)
    {p : Presence} : Presence.ofRecord? record = some p ↔ Reports v p := by
  have hfields := presenceFields_iff.mpr ⟨v, hv, rfl⟩
  simp only [Presence.ofRecord?, hfields, bind, Option.bind_some, Option.bind_eq_some_iff, pure,
    Option.some.injEq]
  constructor
  · rintro ⟨gamertag, hgamertag, state, hstate, time, htime, rich, hrich, xuid, hxuid, rfl⟩
    exact
      { xuid := hexNumber?_eq_some_iff.mp hxuid
        gamertag := ⟨_, textField_iff.mpr ⟨gamertag, hgamertag, rfl⟩, Gamertag.cutOf_iff.mpr rfl,
          Gamertag.isEmpty_ofText⟩
        state := stateField_iff.mpr ⟨state, hstate, rfl⟩
        sessionId := wordIdField_iff.mpr rfl
        titleId := titleField_iff.mpr rfl
        stateTime := timeField_iff.mpr ⟨time, htime, rfl⟩
        rich := ⟨_, textField_iff.mpr ⟨rich, hrich, rfl⟩, rfl⟩ }
  · intro h
    obtain ⟨text, htext, hcut, -⟩ := h.gamertag
    obtain ⟨gamertag, hgamertag, rfl⟩ := textField_iff.mp htext
    obtain ⟨state, hstate, hbits⟩ := stateField_iff.mp h.state
    obtain ⟨time, htime, hticks⟩ := timeField_iff.mp h.stateTime
    obtain ⟨said, hsaid, hfit⟩ := h.rich
    obtain ⟨rich, hrich, rfl⟩ := textField_iff.mp hsaid
    have hraw := wordIdField_iff.mp h.sessionId
    have htitle := titleField_iff.mp h.titleId
    have htag := Gamertag.cutOf_iff.mp hcut
    refine ⟨gamertag, hgamertag, state, hstate, time, htime, rich, hrich, p.xuid.value,
      hexNumber?_eq_some_iff.mpr h.xuid, ?_⟩
    rw [hbits, hticks, hraw, htitle, ← htag, ← hfit]

theorem ofRecord?_eq_some_iff {record : Json.Value} {p : Presence} :
    Presence.ofRecord? record = some p ↔ Usable record p := by
  constructor
  · intro h
    obtain ⟨vs, hvs, -⟩ := Option.bind_eq_some_iff.mp h
    obtain ⟨v, hv, -⟩ := presenceFields_iff.mp hvs
    exact ⟨v, hv, (ofRecord?_of hv).mp h⟩
  · rintro ⟨v, hv, hp⟩
    exact (ofRecord?_of hv).mpr hp

/-- What a list of records reports, in its order. -/
inductive ReportsOf : List Json.Value → List Presence → Prop where
  | nil : ReportsOf [] []
  | usable {record : Json.Value} {records : List Json.Value} {p : Presence} {reports : List Presence}
    (h : Usable record p) (rest : ReportsOf records reports) :
    ReportsOf (record :: records) (p :: reports)
  | passedOver {record : Json.Value} {records : List Json.Value} {reports : List Presence}
    (h : ∀ p, ¬ Usable record p) (rest : ReportsOf records reports) :
    ReportsOf (record :: records) reports

theorem ofRecord?_eq_none_iff {record : Json.Value} :
    Presence.ofRecord? record = none ↔ ∀ p, ¬ Usable record p := by
  simp only [Option.eq_none_iff_forall_ne_some, ne_eq, ofRecord?_eq_some_iff]

theorem reportsOf_iff {records : List Json.Value} {reports : List Presence} :
    ReportsOf records reports ↔ records.filterMap Presence.ofRecord? = reports := by
  constructor
  · intro h
    induction h with
    | nil => rfl
    | usable h _ ih => rw [List.filterMap_cons_some (ofRecord?_eq_some_iff.mpr h), ih]
    | passedOver h _ ih => rw [List.filterMap_cons_none (ofRecord?_eq_none_iff.mpr h), ih]
  · rintro rfl
    induction records with
    | nil => exact .nil
    | cons record records ih =>
      cases h : Presence.ofRecord? record with
      | some p =>
        rw [List.filterMap_cons_some h]
        exact .usable (ofRecord?_eq_some_iff.mp h) ih
      | none =>
        rw [List.filterMap_cons_none h]
        exact .passedOver (ofRecord?_eq_none_iff.mp h) ih

namespace FriendList

theorem run_receive_of_not_array (l : FriendList) {document : Json.Value}
    (h : ∀ records, document ≠ .array records) :
    (receive document).run l = .error (.malformed (.notAList "friends presence")) l := by
  rw [receive, Document.items_of_not_array h]
  rfl

/-- A list without two friends of one identifier takes from a list of records what the usable ones
report, each of which tells what its fields hold. Of any other document it takes nothing. -/
theorem refreshed_by_reports {l : FriendList} (hl : l.xuids.Nodup) :
    (∀ records, ∃ reports next, ReportsOf records reports ∧
      (receive (.array records)).run l = .ok () next ∧ Refreshed l reports next) ∧
    ∀ document, (∀ records, document ≠ .array records) →
      (receive document).run l = .error (.malformed (.notAList "friends presence")) l := by
  refine ⟨fun records => ?_, fun document h => run_receive_of_not_array l h⟩
  have hrun : (receive (.array records)).run l =
      .ok () ((records.filterMap Presence.ofRecord?).foldl refresh l) := rfl
  exact ⟨_, _, reportsOf_iff.mpr rfl, hrun, refreshed_foldl hl _⟩

/-- A friend that is reported twice is not listed twice, and a record without an identifier lists
none. -/
theorem refreshed_by_repeated_report :
    (FriendList.mk [.new ⟨7⟩ "Ann"]).xuids.Nodup ∧ ∃ next,
      (receive (.array
        [.object [("xuid", .string "8")], .object [("gamertag", .string "Ghost")],
          .object [("xuid", .number (.natural 7))], .object [("xuid", .string "0x8")]])).run
        ⟨[.new ⟨7⟩ "Ann"]⟩ = .ok () next ∧ next.xuids = [⟨7⟩, ⟨8⟩] := by
  have hl : (FriendList.mk [.new ⟨7⟩ "Ann"]).xuids.Nodup := by decide
  obtain ⟨reports, next, hreports, hrun, hnext⟩ := (refreshed_by_reports hl).1
    [.object [("xuid", .string "8")], .object [("gamertag", .string "Ghost")],
      .object [("xuid", .number (.natural 7))], .object [("xuid", .string "0x8")]]
  refine ⟨hl, next, hrun, ?_⟩
  rw [hnext.xuids, ← reportsOf_iff.mp hreports]
  decide +kernel

end FriendList

end ConsoleOnline
