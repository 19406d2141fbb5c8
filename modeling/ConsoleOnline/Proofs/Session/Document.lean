import ConsoleOnline.Document.Session
import ConsoleOnline.Proofs.Document.Fields
import ConsoleOnline.Proofs.Session.Operations
import ConsoleOnline.Proofs.Spelling

/-!
Which documents a session is received from, and which session that is. Every field is said on its
own: what may stand in it, and what it then stands for. The fields are independent but for the slot
counters, which have to leave `Room` in each category.
-/
namespace ConsoleOnline

/-! ### Fields -/

/-- An address that is absent, null or empty is the unset one, and else it is spelled. -/
inductive AddressField (spells : String → α → Prop) (unset : α) : Option Json.Value → α → Prop where
  | absent : AddressField spells unset none unset
  | null : AddressField spells unset (some .null) unset
  | empty : AddressField spells unset (some (.string "")) unset
  | spelled {text : String} {a : α} (h : spells text a) :
    AddressField spells unset (some (.string text)) a

abbrev HostField : Option Json.Value → IPv4 → Prop :=
  AddressField (fun text a => text = a.text) {}

abbrev MacField : Option Json.Value → MacAddress → Prop :=
  AddressField (fun text m => MacAddress.parse text = .ok m) {}

namespace SessionDocument

variable {fields : List (String × Json.Value)} {name : String}

/-- A count as a word, of whatever width. -/
theorem count_iff {bound : Nat} {expected : String} {wrap : Nat → β} {toNat : β → Nat} {zero : β}
    (hwrap : ∀ n < bound, toNat (wrap n) = n) (htoNat : ∀ b, wrap (toNat b) = b)
    (hzero : toNat zero = 0) {b : β} :
    field fields name (fun v => (v.wholeBelow bound expected).map wrap) zero = .ok b ↔
      CountField bound (Json.Value.field? name fields) (toNat b) := by
  rw [field]
  cases Json.Value.field? name fields with
  | none =>
    rw [countField_none_iff]
    constructor
    · intro h
      rw [← Except.ok.inj h, hzero]
    · intro hb
      simp only
      rw [← htoNat b, ← htoNat zero, hb, hzero]
  | some v => exact word_eq_ok_iff hwrap htoNat

theorem word_iff {n : UInt32} :
    field fields name Json.Value.toUInt32 0 = .ok n ↔
      CountField UInt32.size (Json.Value.field? name fields) n.toNat :=
  count_iff (fun _ h => UInt32.toNat_ofNat_of_lt h) (fun _ => UInt32.ofNat_toNat) rfl

theorem port_iff {n : UInt16} :
    field fields name Json.Value.toUInt16 0 = .ok n ↔
      CountField UInt16.size (Json.Value.field? name fields) n.toNat :=
  count_iff (fun _ h => UInt16.toNat_ofNat_of_lt h) (fun _ => UInt16.ofNat_toNat) rfl

/-- An address, by what its reader makes of a text and of none. -/
theorem address_iff {read : Option String → Except DocumentError α} {unset a : α}
    {spells : String → α → Prop}
    (hread : ∀ text a, read (some text) = .ok a ↔ text = "" ∧ a = unset ∨ spells text a)
    (hnone : read none = .ok unset) :
    (∃ text, field fields name (Json.Value.optional Json.Value.toText) none = .ok text ∧
      read text = .ok a) ↔
      AddressField spells unset (Json.Value.field? name fields) a := by
  rw [field]
  constructor
  · rintro ⟨text, htext, ha⟩
    have hunset : text = none → a = unset := by
      rintro rfl
      exact Except.ok.inj (ha.symm.trans hnone)
    cases hv : Json.Value.field? name fields with
    | none =>
      rw [hv] at htext
      rw [hunset (Except.ok.inj htext).symm]
      exact .absent
    | some v =>
      rw [hv] at htext
      cases v with
      | null =>
        rw [hunset (Except.ok.inj htext).symm]
        exact .null
      | string t =>
        rw [← Except.ok.inj htext, hread] at ha
        rcases ha with ⟨rfl, rfl⟩ | ha
        · exact .empty
        · exact .spelled ha
      | bool _ => cases htext
      | number _ => cases htext
      | array _ => cases htext
      | object _ => cases htext
  · intro h
    cases hv : Json.Value.field? name fields with
    | none =>
      rw [hv] at h
      cases h
      exact ⟨none, rfl, hnone⟩
    | some v =>
      rw [hv] at h
      cases h with
      | null => exact ⟨none, rfl, hnone⟩
      | empty => exact ⟨some "", rfl, (hread _ _).mpr (.inl ⟨rfl, rfl⟩)⟩
      | spelled h => exact ⟨_, rfl, (hread _ _).mpr (.inr h)⟩

theorem unless_empty_iff {text : String} {unset a : α} {r : Except ε α} {p : Prop}
    (hr : r = .ok a ↔ p) (hp : text = "" → ¬ p) :
    (if text.isEmpty then .ok unset else r) = .ok a ↔ text = "" ∧ a = unset ∨ p := by
  by_cases h : text = ""
  · have hne := hp h
    rw [if_pos (String.isEmpty_iff.mpr h), Except.ok.injEq]
    exact ⟨fun ha => .inl ⟨h, ha.symm⟩, fun ha => (ha.resolve_right hne).2.symm⟩
  · rw [if_neg (mt String.isEmpty_iff.mp h), hr]
    exact ⟨.inr, fun hor => hor.resolve_left fun ha => h ha.1⟩

theorem readHost_iff (text : String) (a : IPv4) :
    readHost (some text) = .ok a ↔ text = "" ∧ a = {} ∨ text = a.text := by
  refine unless_empty_iff ?_ ?_
  · rw [← IPv4.parse?_eq_some_iff]
    cases IPv4.parse? text <;> simp
  · rintro rfl h
    have hnone : IPv4.parse? "" = none := by decide
    rw [IPv4.parse?_eq_some_iff.mpr h] at hnone
    cases hnone

theorem readMac_iff (text : String) (m : MacAddress) :
    readMac (some text) = .ok m ↔ text = "" ∧ m = {} ∨ MacAddress.parse text = .ok m := by
  refine unless_empty_iff mapError_eq_ok_iff ?_
  rintro rfl h
  have herror : MacAddress.parse "" = .error (.text "" (.macAddress .wrongLength)) := by decide
  rw [herror] at h
  cases h

theorem host_iff {a : IPv4} :
    (∃ text, field fields name (Json.Value.optional Json.Value.toText) none = .ok text ∧
      readHost text = .ok a) ↔ HostField (Json.Value.field? name fields) a :=
  address_iff readHost_iff rfl

theorem mac_iff {m : MacAddress} :
    (∃ text, field fields name (Json.Value.optional Json.Value.toText) none = .ok text ∧
      readMac text = .ok m) ↔ MacField (Json.Value.field? name fields) m :=
  address_iff readMac_iff rfl

theorem ofFields_eq_ok_iff {d : SessionDocument} :
    ofFields fields = .ok d ↔
      Json.Value.field? "sessionId" fields = some d.sessionId ∧
      field fields "flags" Json.Value.toUInt32 0 = .ok d.flags ∧
      field fields "hostAddress" (Json.Value.optional Json.Value.toText) none = .ok d.hostAddress ∧
      field fields "macAddress" (Json.Value.optional Json.Value.toText) none = .ok d.macAddress ∧
      field fields "port" Json.Value.toUInt16 0 = .ok d.port ∧
      field fields "publicSlotsCount" Json.Value.toUInt32 0 = .ok d.publicSlots.max ∧
      field fields "openPublicSlotsCount" Json.Value.toUInt32 0 = .ok d.publicSlots.vacant ∧
      field fields "filledPublicSlotsCount" Json.Value.toUInt32 0 = .ok d.publicSlots.filled ∧
      field fields "privateSlotsCount" Json.Value.toUInt32 0 = .ok d.privateSlots.max ∧
      field fields "openPrivateSlotsCount" Json.Value.toUInt32 0 = .ok d.privateSlots.vacant ∧
      field fields "filledPrivateSlotsCount" Json.Value.toUInt32 0 = .ok d.privateSlots.filled := by
  simp only [ofFields, bind_eq_ok_iff]
  constructor
  · rintro ⟨filledPrivate, hfilledPrivate, filledPublic, hfilledPublic, flags, hflags, host, hhost,
      mac, hmac, openPrivate, hopenPrivate, openPublic, hopenPublic, port, hport, maxPrivate,
      hmaxPrivate, maxPublic, hmaxPublic, h⟩
    cases hid : Json.Value.field? "sessionId" fields with
    | none => rw [hid] at h; cases h
    | some sessionId =>
      rw [hid] at h
      obtain rfl := Except.ok.inj h
      exact ⟨rfl, hflags, hhost, hmac, hport, hmaxPublic, hopenPublic, hfilledPublic, hmaxPrivate,
        hopenPrivate, hfilledPrivate⟩
  · rintro ⟨hid, hflags, hhost, hmac, hport, hmaxPublic, hopenPublic, hfilledPublic, hmaxPrivate,
      hopenPrivate, hfilledPrivate⟩
    refine ⟨_, hfilledPrivate, _, hfilledPublic, _, hflags, _, hhost, _, hmac, _, hopenPrivate, _,
      hopenPublic, _, hport, _, hmaxPrivate, _, hmaxPublic, ?_⟩
    rw [hid]
    rfl

end SessionDocument

namespace Session

/-- A session in the lobby without members: what a document can say of `s`. -/
def listed (s : Session) : Session where
  id := s.id
  flags := s.flags
  host := .direct s.host.inaOnline s.host.portOnline s.host.mac
  publicSlots := s.publicSlots
  privateSlots := s.privateSlots

/-- Without members, the counters of a category need only leave room. -/
theorem run_setCounts_of_no_members {s : Session} (hs : s.members = []) (category : SlotCategory)
    {x : Slots} (hx : x.max = (s.slots category).max) :
    (setCounts category x.vacant x.filled).run s =
      if x.Room then .ok () (s.withSlots category x)
      else .error (.capacity category x.vacant x.filled x.max) s := by
  have hcount : s.memberCount category = 0 := by
    rw [memberCount, membersOf, hs]
    rfl
  have hnot : ¬ x.filled < s.memberCount category := by
    rw [hcount]
    exact UInt32.not_lt_zero
  have hwrite : (setCounts category x.vacant x.filled).run s =
      (writeCounts category x.vacant x.filled).run s := by
    simp only [setCounts, EStateM.run_bind, EStateM.run_get, if_neg hnot]
  rw [hwrite, run_writeCounts, ← hx]
  rfl

end Session

namespace SessionDocument

theorem run_count {d : SessionDocument} {s t : Session} (hs : s.members = [])
    (hpublic : d.publicSlots.max = s.publicSlots.max)
    (hprivate : d.privateSlots.max = s.privateSlots.max) :
    d.count.run s = .ok () t ↔ d.publicSlots.Room ∧ d.privateSlots.Room ∧
      t = { s with publicSlots := d.publicSlots, privateSlots := d.privateSlots } := by
  have hfirst := Session.run_setCounts_of_no_members hs .publicSlot hpublic
  -- the other category is still as it was when its turn comes
  have hsecond := Session.run_setCounts_of_no_members
    (s := s.withSlots .publicSlot d.publicSlots) hs .privateSlot hprivate
  rw [count, EStateM.run_bind, hfirst]
  by_cases hx : d.publicSlots.Room
  · simp only [if_pos hx, hsecond]
    by_cases hy : d.privateSlots.Room
    · simp [hx, hy, Session.withSlots, eq_comm]
    · simp [hy]
  · simp [hx]

theorem readId_iff {v : Json.Value} {id : SessionId} :
    readId v = .ok id ↔ IdField v id.raw ∧ id.isValid := by
  rw [readId, ← hexNumber?_eq_some_iff]
  cases v.hexNumber? with
  | none => simp
  | some raw =>
    rw [mapError_eq_ok_iff, SessionId.ofRaw, Option.some.injEq]
    by_cases hvalid : SessionId.isValid ⟨raw⟩
    · rw [if_pos hvalid]
      constructor
      · intro h
        obtain rfl := Except.ok.inj h
        exact ⟨rfl, hvalid⟩
      · rintro ⟨rfl, -⟩
        rfl
    · rw [if_neg hvalid]
      constructor
      · intro h
        cases h
      · rintro ⟨rfl, h⟩
        exact absurd h hvalid

theorem session_eq_ok_iff {d : SessionDocument} {s : Session} :
    d.session = .ok s ↔
      readId d.sessionId = .ok s.id ∧ readHost d.hostAddress = .ok s.host.inaOnline ∧
      readMac d.macAddress = .ok s.host.mac ∧ d.flags = s.flags.bits ∧
      d.port = s.host.portOnline ∧ d.publicSlots = s.publicSlots ∧
      d.privateSlots = s.privateSlots ∧ s.publicSlots.Room ∧ s.privateSlots.Room ∧
      s.listed = s := by
  simp only [session, bind_eq_ok_iff, mapError_eq_ok_iff, Session.Action.result_eq_ok_iff]
  constructor
  · rintro ⟨id, hid, host, hhost, mac, hmac, h⟩
    obtain ⟨hpublic, hprivate, rfl⟩ := (run_count rfl rfl rfl).mp h
    exact ⟨hid, hhost, hmac, rfl, rfl, rfl, rfl, hpublic, hprivate, rfl⟩
  · rintro ⟨hid, hhost, hmac, hflags, hport, hpublicSlots, hprivateSlots, hpublic, hprivate, hs⟩
    refine ⟨_, hid, _, hhost, _, hmac, (run_count rfl rfl rfl).mpr ⟨?_, ?_, ?_⟩⟩
    · rwa [hpublicSlots]
    · rwa [hprivateSlots]
    · rw [← hs, hflags, hport, hpublicSlots, hprivateSlots]
      rfl

end SessionDocument

/-! ### Documents -/

/-- The fields of these names are the counters of a category, which leave it room. -/
structure SlotFields (fields : List (String × Json.Value)) (maxName vacantName filledName : String)
    (x : Slots) : Prop where
  max : CountField UInt32.size (Json.Value.field? maxName fields) x.max.toNat
  vacant : CountField UInt32.size (Json.Value.field? vacantName fields) x.vacant.toNat
  filled : CountField UInt32.size (Json.Value.field? filledName fields) x.filled.toNat
  room : x.Room

def PublicFields (fields : List (String × Json.Value)) (x : Slots) : Prop :=
  SlotFields fields "publicSlotsCount" "openPublicSlotsCount" "filledPublicSlotsCount" x

def PrivateFields (fields : List (String × Json.Value)) (x : Slots) : Prop :=
  SlotFields fields "privateSlotsCount" "openPrivateSlotsCount" "filledPrivateSlotsCount" x

/-- Each field says something, and the identifier is there and worth something. -/
structure Receivable (fields : List (String × Json.Value)) : Prop where
  sessionId : ∃ v n, Json.Value.field? "sessionId" fields = some v ∧ IdField v n ∧
    SessionId.isValid ⟨n⟩
  flags : ∃ n, CountField UInt32.size (Json.Value.field? "flags" fields) n
  hostAddress : ∃ a, HostField (Json.Value.field? "hostAddress" fields) a
  macAddress : ∃ m, MacField (Json.Value.field? "macAddress" fields) m
  port : ∃ n, CountField UInt16.size (Json.Value.field? "port" fields) n
  publicSlots : ∃ x, PublicFields fields x
  privateSlots : ∃ x, PrivateFields fields x

/-- The session is the one in the lobby with what the fields say, and with nothing else. -/
structure Describes (fields : List (String × Json.Value)) (s : Session) : Prop where
  sessionId : ∃ v, Json.Value.field? "sessionId" fields = some v ∧ IdField v s.id.raw
  valid : s.id.isValid
  flags : CountField UInt32.size (Json.Value.field? "flags" fields) s.flags.bits.toNat
  hostAddress : HostField (Json.Value.field? "hostAddress" fields) s.host.inaOnline
  macAddress : MacField (Json.Value.field? "macAddress" fields) s.host.mac
  port : CountField UInt16.size (Json.Value.field? "port" fields) s.host.portOnline.toNat
  publicSlots : PublicFields fields s.publicSlots
  privateSlots : PrivateFields fields s.privateSlots
  listed : s.listed = s

theorem receivable_iff {fields : List (String × Json.Value)} :
    Receivable fields ↔ ∃ s, Describes fields s := by
  constructor
  · rintro ⟨⟨v, id, hv, hid, hvalid⟩, ⟨flags, hflags⟩, ⟨host, hhost⟩, ⟨mac, hmac⟩, ⟨port, hport⟩,
      ⟨x, hx⟩, y, hy⟩
    let s : Session :=
      { id := ⟨id⟩, flags := ⟨.ofNat flags⟩, host := .direct host (.ofNat port) mac
        publicSlots := x, privateSlots := y }
    have hword : s.flags.bits.toNat = flags := UInt32.toNat_ofNat_of_lt (hflags.lt (by decide))
    have hnumber : s.host.portOnline.toNat = port := UInt16.toNat_ofNat_of_lt (hport.lt (by decide))
    exact ⟨s, ⟨v, hv, hid⟩, hvalid, hword.symm ▸ hflags, hhost, hmac, hnumber.symm ▸ hport, hx, hy,
      rfl⟩
  · rintro ⟨s, h⟩
    obtain ⟨v, hv, hid⟩ := h.sessionId
    exact ⟨⟨v, _, hv, hid, h.valid⟩, ⟨_, h.flags⟩, ⟨_, h.hostAddress⟩, ⟨_, h.macAddress⟩,
      ⟨_, h.port⟩, ⟨_, h.publicSlots⟩, ⟨_, h.privateSlots⟩⟩

namespace Session

theorem ofDocument_eq_ok_iff {d : Json.Value} {s : Session} :
    ofDocument d = .ok s ↔ ∃ fields, d = .object fields ∧ Describes fields s := by
  have hobject : ∀ fields, ofDocument (.object fields) = .ok s ↔
      ∃ d : SessionDocument, SessionDocument.ofFields fields = .ok d ∧ d.session = .ok s := by
    intro fields
    simp only [ofDocument, bind_eq_ok_iff, mapError_eq_ok_iff]
  constructor
  · intro h
    cases d with
    | object fields =>
      obtain ⟨⟨id, flags, host, mac, port, x, y⟩, hfields, hsession⟩ := (hobject fields).mp h
      obtain ⟨hid, hflags, hhost, hmac, hport, hxMax, hxVacant, hxFilled, hyMax, hyVacant,
        hyFilled⟩ := SessionDocument.ofFields_eq_ok_iff.mp hfields
      obtain ⟨hreadId, hreadHost, hreadMac, rfl, rfl, rfl, rfl, hx, hy, hlisted⟩ :=
        SessionDocument.session_eq_ok_iff.mp hsession
      obtain ⟨hnumber, hvalid⟩ := SessionDocument.readId_iff.mp hreadId
      refine ⟨fields, rfl, ?_⟩
      exact {
        sessionId := ⟨id, hid, hnumber⟩
        valid := hvalid
        flags := SessionDocument.word_iff.mp hflags
        hostAddress := SessionDocument.host_iff.mp
          ⟨host, hhost, hreadHost⟩
        macAddress := SessionDocument.mac_iff.mp
          ⟨mac, hmac, hreadMac⟩
        port := SessionDocument.port_iff.mp hport
        publicSlots := ⟨SessionDocument.word_iff.mp hxMax, SessionDocument.word_iff.mp hxVacant,
          SessionDocument.word_iff.mp hxFilled, hx⟩
        privateSlots := ⟨SessionDocument.word_iff.mp hyMax, SessionDocument.word_iff.mp hyVacant,
          SessionDocument.word_iff.mp hyFilled, hy⟩
        listed := hlisted }
    | null => cases h
    | bool _ => cases h
    | number _ => cases h
    | string _ => cases h
    | array _ => cases h
  · rintro ⟨fields, rfl, h⟩
    obtain ⟨id, hid, hnumber⟩ := h.sessionId
    obtain ⟨host, hhost, hreadHost⟩ :=
      SessionDocument.host_iff.mpr h.hostAddress
    obtain ⟨mac, hmac, hreadMac⟩ :=
      SessionDocument.mac_iff.mpr h.macAddress
    let d : SessionDocument :=
      { sessionId := id, flags := s.flags.bits, hostAddress := host, macAddress := mac
        port := s.host.portOnline, publicSlots := s.publicSlots, privateSlots := s.privateSlots }
    refine (hobject fields).mpr ⟨d, SessionDocument.ofFields_eq_ok_iff.mpr ?_,
      SessionDocument.session_eq_ok_iff.mpr ?_⟩
    · exact ⟨hid, SessionDocument.word_iff.mpr h.flags, hhost, hmac,
        SessionDocument.port_iff.mpr h.port, SessionDocument.word_iff.mpr h.publicSlots.max,
        SessionDocument.word_iff.mpr h.publicSlots.vacant,
        SessionDocument.word_iff.mpr h.publicSlots.filled,
        SessionDocument.word_iff.mpr h.privateSlots.max,
        SessionDocument.word_iff.mpr h.privateSlots.vacant,
        SessionDocument.word_iff.mpr h.privateSlots.filled⟩
    · exact ⟨SessionDocument.readId_iff.mpr ⟨hnumber, h.valid⟩, hreadHost, hreadMac, rfl, rfl, rfl,
        rfl, h.publicSlots.room, h.privateSlots.room, h.listed⟩

theorem run_receive (d : Json.Value) (held : Session) :
    (receive d).run held = match ofDocument d with
      | .ok s => .ok () s
      | .error e => .error e held := by
  simp only [receive, EStateM.run_bind, EStateM.run_ofExcept]
  cases ofDocument d <;> rfl

theorem run_receiveText (text : String) (held : Session) :
    (receiveText text).run held = match Json.Value.read? text with
      | some d => (receive d).run held
      | none => .error (.malformed .notJson) held := by
  simp only [receiveText, EStateM.run_bind, EStateM.run_ofExcept, Document.parse]
  cases Json.Value.read? text <;> rfl

theorem receive_eq_ok_iff {d : Json.Value} {held s : Session} :
    (receive d).run held = .ok () s ↔ ∃ fields, d = .object fields ∧ Describes fields s := by
  rw [run_receive, ← ofDocument_eq_ok_iff]
  cases ofDocument d <;> simp

/-- A document is received just when each of its fields says something, and then as the session
that the fields describe, whatever was held before. Otherwise the held session stays, also where
a text is no document at all. -/
theorem received_as_described (held : Session) :
    (∀ d, (∃ s, (receive d).run held = .ok () s) ↔
      ∃ fields, d = .object fields ∧ Receivable fields) ∧
    (∀ d s, (receive d).run held = .ok () s ↔ ∃ fields, d = .object fields ∧ Describes fields s) ∧
    (∀ d, (∃ s, (receive d).run held = .ok () s) ∨ ∃ e, (receive d).run held = .error e held) ∧
    (∀ text, (receiveText text).run held = match Json.Value.read? text with
      | some d => (receive d).run held
      | none => .error (.malformed .notJson) held) := by
  refine ⟨fun d => ?_, fun d s => receive_eq_ok_iff, fun d => ?_,
    fun text => run_receiveText text held⟩
  · simp only [receive_eq_ok_iff, receivable_iff]
    constructor
    · rintro ⟨s, fields, hd, h⟩
      exact ⟨fields, hd, s, h⟩
    · rintro ⟨fields, hd, s, h⟩
      exact ⟨s, fields, hd, h⟩
  · rw [run_receive]
    cases ofDocument d with
    | ok s => exact .inl ⟨s, rfl⟩
    | error e => exact .inr ⟨e, rfl⟩

end Session

end ConsoleOnline
