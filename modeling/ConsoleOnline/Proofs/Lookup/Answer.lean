import ConsoleOnline.Document.Users
import ConsoleOnline.Proofs.Document.Fields
import ConsoleOnline.Proofs.Image.FindUsers

/-!
The answer to a lookup of users, from the document of the service to guest memory. Each place of the
answer depends on the item at that place alone, so what is wrong with one item moves no other.
-/
namespace ConsoleOnline

/-- An item of which nothing is taken: it is no record of the two fields, or its gamertag is neither
a text nor null. -/
def Malformed (item : Json.Value) : Prop :=
  ∀ xuid gamertag, RecordFields ["xuid", "gamertag"] item [xuid, gamertag] →
    ∀ text, ¬ TextField gamertag text

/-- What guest memory tells of the user in an item. A gamertag is cut where it has no more room, and
then where it has a zero character. -/
inductive Tells : Json.Value → FindUserInfo → Prop where
  | record {item xuid gamertag : Json.Value} {n : Xuid} {text : String} {g : Gamertag}
    (of : RecordFields ["xuid", "gamertag"] item [xuid, gamertag])
    (known : LimitedIdField UInt64.size xuid n.value.toNat) (named : TextField gamertag text)
    (cut : g.CutOf text) : Tells item ⟨n, g.beforeNul⟩
  | malformed {item : Json.Value} (h : Malformed item) : Tells item {}

namespace LookupEntry

variable {item : Json.Value}

/-- The entry of a record with these fields. -/
def ofFields (xuid : Json.Value) (text? : Option String) : LookupEntry where
  xuid := xuid.hexNumber?.map Xuid.mk
  gamertag := text?.map .ofText

theorem info_ofFields (xuid : Json.Value) (text? : Option String) :
    (ofFields xuid text?).info = ⟨⟨xuid.hexNumber?.getD 0⟩, .ofText (text?.getD "")⟩ := by
  have hxuid : (xuid.hexNumber?.map Xuid.mk).getD {} = ⟨xuid.hexNumber?.getD 0⟩ := by
    cases xuid.hexNumber? <;> rfl
  have htext : (text?.map Gamertag.ofText).getD {} = .ofText (text?.getD "") := by
    cases text? with
    | none => exact (Gamertag.ofText_text {}).symm
    | some text => rfl
  rw [info, ofFields, hxuid, htext]

theorem ofRecord?_eq_some_iff {e : LookupEntry} :
    ofRecord? item = some e ↔ ∃ xuid gamertag text?,
      RecordFields ["xuid", "gamertag"] item [xuid, gamertag] ∧
        (Json.Value.optional Json.Value.toText gamertag).toOption = some text? ∧
          ofFields xuid text? = e := by
  constructor
  · intro h
    obtain ⟨vs, hvs, h⟩ := Option.bind_eq_some_iff.mp h
    split at h
    · next xuid gamertag =>
      obtain ⟨text?, htext, h⟩ := Option.bind_eq_some_iff.mp h
      exact ⟨xuid, gamertag, text?, record?_eq_some_iff.mp hvs, htext, Option.some.inj h⟩
    · cases h
  · rintro ⟨xuid, gamertag, text?, hfields, htext, rfl⟩
    rw [ofRecord?, record?_eq_some_iff.mpr hfields]
    simp only [bind, Option.bind_some, htext]
    rfl

theorem ofRecord?_eq_none_iff : ofRecord? item = none ↔ Malformed item := by
  constructor
  · intro h xuid gamertag hfields text htext
    obtain ⟨text?, htext?, -⟩ := textField_iff.mp htext
    have hsome := ofRecord?_eq_some_iff.mpr ⟨xuid, gamertag, text?, hfields, htext?, rfl⟩
    rw [h] at hsome
    cases hsome
  · intro h
    refine Option.eq_none_iff_forall_ne_some.mpr fun e he => ?_
    obtain ⟨xuid, gamertag, text?, hfields, htext?, -⟩ := ofRecord?_eq_some_iff.mp he
    exact h xuid gamertag hfields _ (textField_iff.mpr ⟨text?, htext?, rfl⟩)

/-- What guest memory tells of an item is one thing. -/
theorem tells_iff {i : FindUserInfo} :
    Tells item i ↔ ((ofRecord? item).getD {}).info.imaged = i := by
  constructor
  · intro h
    cases h with
    | record hfields hknown hnamed hcut =>
      obtain ⟨text?, htext?, rfl⟩ := textField_iff.mp hnamed
      rw [ofRecord?_eq_some_iff.mpr ⟨_, _, text?, hfields, htext?, rfl⟩, Option.getD_some,
        info_ofFields, wordIdField_iff.mp hknown, ← Gamertag.cutOf_iff.mp hcut]
      rfl
    | malformed h =>
      rw [ofRecord?_eq_none_iff.mpr h]
      rfl
  · rintro rfl
    cases h : ofRecord? item with
    | some e =>
      obtain ⟨xuid, gamertag, text?, hfields, htext?, rfl⟩ := ofRecord?_eq_some_iff.mp h
      rw [Option.getD_some, info_ofFields]
      exact .record hfields (wordIdField_iff.mpr rfl) (textField_iff.mpr ⟨text?, htext?, rfl⟩)
        (Gamertag.cutOf_iff.mpr rfl)
    | none => exact .malformed (ofRecord?_eq_none_iff.mp h)

end LookupEntry

namespace UserLookup

/-- The bytes of an answer at `base` to a list of items: a header, and the image of an entry for
every item in its place. -/
structure Answers (base : UInt32) (items : List Json.Value) (image : Bytes) : Prop where
  length : image.length = 8 + 0x18 * items.length
  header : ∃ h, GuestImage.ofBytes FindUsersHeader image = .ok h ∧
    h.count.toNat = items.length ∧ h.address.toNat = (base.toNat + 8) % UInt32.size
  told : ∀ (i : Nat) (h : i < items.length),
    ∃ info, GuestImage.ofBytes FindUserInfo (FindUsersResponse.slice i image) = .ok info ∧
      ∀ other, Tells items[i] other ↔ info = other
  blank : ∀ (i : Nat) (h : i < items.length),
    Malformed items[i] → FindUsersResponse.slice i image = List.replicate 0x18 0

/-- The entries that are received for a list of items. -/
def entries (items : List Json.Value) : List LookupEntry :=
  items.map fun item => (LookupEntry.ofRecord? item).getD {}

theorem entries_responseImage (base : UInt32) (items : List Json.Value) :
    (responseImage base (entries items)).entries =
      items.map fun item => ((LookupEntry.ofRecord? item).getD {}).info := by
  rw [responseImage, FindUsersResponse.placed, entries, List.map_map]
  rfl

theorem slice_responseImage (base : UInt32) {items : List Json.Value} {i : Nat}
    (hi : i < items.length) :
    FindUsersResponse.slice i (responseImage base (entries items)).toBytes =
      GuestImage.toBytes ((LookupEntry.ofRecord? items[i]).getD {}).info := by
  have hplace : i < (responseImage base (entries items)).entries.length := by
    rwa [entries_responseImage, List.length_map]
  simp only [FindUsersResponse.slice_toBytes _ hplace, entries_responseImage, List.getElem_map]

theorem answers_responseImage {items : List Json.Value} (hcount : items.length < UInt32.size)
    (base : UInt32) : Answers base items (responseImage base (entries items)).toBytes where
  length := by
    rw [FindUsersResponse.length_toBytes, entries_responseImage, List.length_map]
  header := by
    refine ⟨_, FindUsersResponse.ofBytes_header _, ?_, UInt32.toNat_add base 8⟩
    simp only [responseImage, FindUsersResponse.placed, entries, List.length_map]
    exact UInt32.toNat_ofNat_of_lt hcount
  told i hi := by
    have hread := FindUserInfo.ofBytes_toBytes ((LookupEntry.ofRecord? items[i]).getD {}).info
    rw [← slice_responseImage base hi] at hread
    exact ⟨_, hread, fun _ => LookupEntry.tells_iff⟩
  blank i hi h := by
    rw [slice_responseImage base hi, LookupEntry.ofRecord?_eq_none_iff.mpr h]
    exact FindUserInfo.toBytes_blank

theorem run_receive_of_not_array {document : Json.Value} (h : ∀ items, document ≠ .array items)
    (l : UserLookup) :
    (receive document).run l = .error (.malformed (.notAList "user resolution")) l := by
  rw [receive, Document.items_of_not_array h]
  rfl

/-- A list of items is taken in place of the previous answer, and goes to guest memory place by
place. Of any other document nothing is taken. -/
theorem answered_in_places :
    (∀ items : List Json.Value, items.length < UInt32.size → ∃ response,
      (∀ l, (receive (.array items)).run l = .ok () { l with response }) ∧
        ∀ base, Answers base items (responseImage base response).toBytes) ∧
    ∀ document, (∀ items, document ≠ .array items) → ∀ l,
      (receive document).run l = .error (.malformed (.notAList "user resolution")) l :=
  ⟨fun items hcount => ⟨entries items, fun _ => rfl, answers_responseImage hcount⟩,
    fun _ h l => run_receive_of_not_array h l⟩

/-- A text where a record belongs leaves its place blank, and the record after it keeps its own. -/
theorem answered_after_blank_place : ∃ response,
    (receive (.array [.string "garbage", .object [("xuid", .string "nothex"),
      ("gamertag", .string "NoXuid")]])).run {} = .ok () { response } ∧
    FindUsersResponse.slice 0 (responseImage 0x1000 response).toBytes = List.replicate 0x18 0 ∧
    GuestImage.ofBytes FindUserInfo
      (FindUsersResponse.slice 1 (responseImage 0x1000 response).toBytes) =
        .ok ⟨{}, .ofText "NoXuid"⟩ := by
  obtain ⟨response, hrun, hanswers⟩ := answered_in_places.1
    [.string "garbage", .object [("xuid", .string "nothex"), ("gamertag", .string "NoXuid")]]
    (by decide)
  have hanswers := hanswers 0x1000
  obtain ⟨info, hread, htold⟩ := hanswers.told 1 (by decide)
  have hgarbage : Malformed (.string "garbage") := LookupEntry.ofRecord?_eq_none_iff.mp rfl
  refine ⟨response, hrun {}, hanswers.blank 0 (by decide) hgarbage, ?_⟩
  rw [hread, (htold ⟨{}, .ofText "NoXuid"⟩).mp (LookupEntry.tells_iff.mpr (by decide +kernel))]

end UserLookup

end ConsoleOnline
