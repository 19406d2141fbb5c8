import ConsoleOnline.Proofs.Image.Records

/-!
Images that the console hands over, loaded into a record and laid out again. Games leave in them
counts that are larger than the field, units past the count, and gamertags that are not terminated or
no text. Loading puts all of this in order at once, and leaves everything else as it was.
-/
namespace ConsoleOnline

/-- The image of the record that an image is loaded into. -/
def Presence.reload (image : Bytes) : Except TooShort Bytes :=
  (GuestImage.ofBytes PresenceImage image).map fun i => GuestImage.toBytes (ofImage i).image

def Friend.reload (image : Bytes) : Except TooShort Bytes :=
  (GuestImage.ofBytes FriendImage image).map fun i => GuestImage.toBytes (ofImage i).image

/-! ### Rich presence -/

namespace RichField

/-- The count of units, which stands before the field. -/
def countAt (start : Nat) (image : Bytes) : Nat := Bytes.ofBigEndian (image.extract start (start + 4))

/-- The bytes of one unit of the field. -/
def unitAt (start k : Nat) (image : Bytes) : Bytes :=
  image.extract (start + 4 + 2 * k) (start + 4 + 2 * k + 2)

/-- Of a count at `start` and the field behind it, the count is at most 64, the units below it are
kept, and those from it on are zero. -/
structure Tidied (start : Nat) (image tidied : Bytes) : Prop where
  count : countAt start tidied = min (countAt start image) 64
  kept : ∀ k < countAt start tidied, unitAt start k tidied = unitAt start k image
  cleared : ∀ k, countAt start tidied ≤ k → k < 64 → unitAt start k tidied = [0, 0]

/-- The bytes of a count and its field. -/
def counted (length : UInt32) (rich : RichField) : Bytes :=
  Layout.uint32.write length ++ Layout.richField.write rich

variable {start : Nat} {front : Bytes} {length : UInt32} {rich : RichField}

theorem countAt_append (hfront : front.length = start) :
    countAt start (front ++ counted length rich) = length.toNat := by
  have hcount : (Layout.uint32.write length).length = 4 := Layout.Lawful.uint32.length_write length
  rw [countAt, counted, Bytes.extract_middle hfront (by rw [hcount])]
  exact (Bytes.ofBigEndian_bigEndian 4 length.toNat).trans (Nat.mod_eq_of_lt length.toNat_lt)

theorem unitAt_append (hfront : front.length = start) {k : Nat} (hk : k < 64) :
    unitAt start k (front ++ counted length rich) = Layout.uint16.write rich[k] := by
  have hcount : (Layout.uint32.write length).length = 4 := Layout.Lawful.uint32.length_write length
  have hunit : (Layout.uint16.write rich[k]).length = 2 := Layout.Lawful.uint16.length_write rich[k]
  have hbefore : (front ++ Layout.uint32.write length).length = start + 4 := by
    rw [List.length_append, hfront, hcount]
  have hplace : k < rich.toList.length := by rwa [Vector.length_toList]
  obtain ⟨after, hdrop⟩ :=
    Layout.drop_flatMap_write Layout.Lawful.uint16.length_write hplace []
  rw [List.append_nil, Vector.getElem_toList] at hdrop
  have hrich : (Layout.richField.write rich).drop (2 * k) = Layout.uint16.write rich[k] ++ after := by
    rw [Nat.mul_comm]
    exact hdrop
  rw [unitAt, counted, List.extract_eq_take_drop, ← List.append_assoc, ← hbefore,
    List.drop_length_add_append, hrich, Nat.add_sub_cancel_left, List.take_left' hunit]

theorem length_take (length : UInt32) (rich : RichField) :
    (rich.toList.take length.toNat).length = min length.toNat RichPresence.sentCapacity := by
  rw [List.length_take, Vector.length_toList]

theorem length_take_le (length : UInt32) (rich : RichField) :
    (rich.toList.take length.toNat).length ≤ RichPresence.sentCapacity :=
  length_take length rich ▸ Nat.min_le_right _ _

/-- Only the units that count are laid out again. -/
theorem tidied_append {front' : Bytes} (hfront : front.length = start)
    (hfront' : front'.length = start) {us : List UInt16}
    (hus : us = rich.toList.take length.toNat) :
    Tidied start (front ++ counted length rich)
      (front' ++ counted (.ofNat us.length) (ofUnits us)) := by
  have hlength : us.length = min length.toNat 64 := hus ▸ length_take length rich
  have hle : us.length ≤ 64 := hus ▸ length_take_le length rich
  have hcount := toNat_length hle
  -- the units that count stand at the same places in both fields
  have hunits : ∀ (k : Nat) (hk : k < 64), k < us.length → (ofUnits us)[k] = rich[k] := by
    intro k hk hcounted
    have hplace : k < length.toNat := Nat.lt_of_lt_of_le hcounted (hlength ▸ Nat.min_le_left _ _)
    have hunit : rich[k]? = some rich[k] := Vector.getElem?_eq_getElem hk
    simp [ofUnits, hus, List.getElem?_take_of_lt hplace, Vector.getElem?_toList, hunit]
  constructor
  case count => rw [countAt_append hfront, countAt_append hfront', hcount, hlength]
  case kept =>
    intro k hk
    rw [countAt_append hfront', hcount] at hk
    have hfield : k < 64 := Nat.lt_of_lt_of_le hk hle
    rw [unitAt_append hfront hfield, unitAt_append hfront' hfield, hunits k hfield hk]
  case cleared =>
    intro k hpast hk
    rw [countAt_append hfront'] at hpast
    rw [unitAt_append hfront' hk, (padded_ofUnits hle).zero_past k hk hpast]
    rfl

end RichField

namespace RichPresence

theorem sent_onlySent (r : RichPresence) : r.onlySent.sent = r.sent :=
  List.take_of_length_le r.length_sent_le

theorem sent_ofUnits {us : List UInt16} (h : us.length ≤ sentCapacity) : (ofUnits us).sent = us := by
  have hcapacity : us.length ≤ capacity := Nat.le_trans h (by decide)
  have hunits : (ofUnits us).units = us := List.take_of_length_le hcapacity
  rw [sent, hunits, List.take_of_length_le h]

end RichPresence

/-! ### Gamertags -/

/-- The gamertag is what one field is read as, and another holds it: up to the first zero byte, and
no further than byte 15, the first holds the bytes of a text, each ill-formed part of it standing for
U+FFFD. The gamertag has of this text what fits, and fills up its field with zeros. -/
structure Gamertag.Tidied (field tidied : Bytes) (g : Gamertag) : Prop where
  cut : g.CutOf (.ofList (Text.Utf8.decode ((field.take 15).takeWhile (· ≠ 0))))
  nul_not_mem : '\x00' ∉ g.text.toList
  padded : tidied = Text.Utf8.encode g.text.toList ++
    List.replicate (16 - (Text.Utf8.encode g.text.toList).length) 0

theorem Gamertag.tidied_ofField (field : Bytes) :
    Tidied field (ofField field).toField.toList (ofField field) where
  cut := cutOf_iff.mpr rfl
  nul_not_mem := nul_not_mem_ofField field
  padded := (ofField field).toList_toField

/-! ### Images -/

namespace PresenceImage

/-- The xuid, the state, the session, the title and the time. -/
def front (i : PresenceImage) : Bytes :=
  Layout.xuid.write i.xuid ++ Layout.uint32.write i.state ++ Layout.sessionId.write i.sessionId ++
    Layout.titleId.write i.titleId ++ Layout.fileTime.write i.stateTime

theorem length_front (i : PresenceImage) : i.front.length = 0x20 := by
  simp only [front, List.length_append, Layout.Lawful.xuid.length_write,
    Layout.Lawful.uint32.length_write, Layout.Lawful.sessionId.length_write,
    Layout.Lawful.titleId.length_write, Layout.Lawful.fileTime.length_write]
  rfl

theorem toBytes_eq (i : PresenceImage) :
    GuestImage.toBytes i = i.front ++ RichField.counted i.richLength i.rich := by
  simp only [front, List.append_assoc]
  rfl

/-- The second image of a presence is the first in order. In its first 0x20 bytes stand the xuid, the
state, the session, the title and the time. -/
structure Tidied (image tidied : Bytes) : Prop where
  size : tidied.length = 0xA4
  front : tidied.take 0x20 = image.take 0x20
  rich : RichField.Tidied 0x20 image tidied

end PresenceImage

namespace FriendImage

/-- The state, the session, the title and its time, and the invite's session and time. -/
def middle (i : FriendImage) : Bytes :=
  Layout.uint32.write i.state ++ Layout.sessionId.write i.sessionId ++
    Layout.titleId.write i.titleId ++ Layout.fileTime.write i.stateTime ++
    Layout.sessionId.write i.inviteSession ++ Layout.fileTime.write i.inviteTime

/-- All that stands before the count. -/
def front (i : FriendImage) : Bytes := Layout.xuid.write i.xuid ++ (i.gamertag.toList ++ i.middle)

theorem length_xuid (i : FriendImage) : (Layout.xuid.write i.xuid).length = 8 :=
  Layout.Lawful.xuid.length_write i.xuid

theorem length_middle (i : FriendImage) : i.middle.length = 0x28 := by
  simp only [middle, List.length_append, Layout.Lawful.uint32.length_write,
    Layout.Lawful.sessionId.length_write, Layout.Lawful.titleId.length_write,
    Layout.Lawful.fileTime.length_write]
  rfl

theorem length_front (i : FriendImage) : i.front.length = 0x40 := by
  rw [front, List.length_append, List.length_append, length_xuid, Vector.length_toList, length_middle]
  rfl

theorem toBytes_eq (i : FriendImage) :
    GuestImage.toBytes i = i.front ++ RichField.counted i.richLength i.rich := by
  simp only [front, middle, List.append_assoc]
  rfl

theorem take_xuid (i : FriendImage) : (GuestImage.toBytes i).take 8 = Layout.xuid.write i.xuid := by
  rw [toBytes_eq, front, List.append_assoc, List.take_left' i.length_xuid]

theorem extract_gamertag (i : FriendImage) :
    (GuestImage.toBytes i).extract 8 0x18 = i.gamertag.toList := by
  rw [toBytes_eq, front, List.append_assoc, List.append_assoc]
  exact Bytes.extract_middle i.length_xuid (by rw [Vector.length_toList]; rfl)

theorem extract_middle (i : FriendImage) : (GuestImage.toBytes i).extract 0x18 0x40 = i.middle := by
  have hbefore : (Layout.xuid.write i.xuid ++ i.gamertag.toList).length = 0x18 := by
    rw [List.length_append, length_xuid, Vector.length_toList]
    rfl
  rw [toBytes_eq, front, ← List.append_assoc, List.append_assoc]
  exact Bytes.extract_middle hbefore (by rw [length_middle])

/-- The second image of a friend is the first in order. The xuid stands before the gamertag. After
it stand the state, the session, the title and its time, and the invite's session and time. -/
structure Tidied (image tidied : Bytes) : Prop where
  size : tidied.length = 0xC4
  xuid : tidied.take 8 = image.take 8
  gamertag : ∃ g, Gamertag.Tidied (image.extract 8 0x18) (tidied.extract 8 0x18) g
  middle : tidied.extract 0x18 0x40 = image.extract 0x18 0x40
  rich : RichField.Tidied 0x40 image tidied

end FriendImage

/-! ### Loading and laying out -/

namespace Presence

theorem image_ofImage (i : PresenceImage) :
    (ofImage i).image = { i with richLength := .ofNat i.units.length, rich := .ofUnits i.units } := by
  rw [image, ofImage, PresenceImage.units,
    RichPresence.sent_ofUnits (RichField.length_take_le i.richLength i.rich)]

theorem image_imaged (p : Presence) : p.imaged.image = p.image := by
  rw [image, imaged, RichPresence.sent_onlySent]
  rfl

theorem reload_toBytes (i : PresenceImage) :
    reload (GuestImage.toBytes i) = .ok (GuestImage.toBytes (ofImage i).image) := by
  rw [reload, GuestImage.ofBytes_toBytes_alone .presence i]
  rfl

/-- The image of a record is in order. -/
theorem reload_image (p : Presence) :
    reload (GuestImage.toBytes p.image) = .ok (GuestImage.toBytes p.image) := by
  rw [reload_toBytes, ofImage_image, image_imaged]

theorem tidied_image (i : PresenceImage) :
    PresenceImage.Tidied (GuestImage.toBytes i) (GuestImage.toBytes (ofImage i).image) := by
  have hsize : (GuestImage.toBytes (ofImage i).image).length = 0xA4 := (ofImage i).wellFormed_image.size
  rw [image_ofImage] at hsize ⊢
  constructor
  case size => exact hsize
  case front =>
    rw [PresenceImage.toBytes_eq, PresenceImage.toBytes_eq, List.take_left' i.length_front]
    exact List.take_left' i.length_front
  case rich =>
    rw [PresenceImage.toBytes_eq, PresenceImage.toBytes_eq]
    exact RichField.tidied_append i.length_front i.length_front rfl

end Presence

namespace Friend

theorem image_ofImage (i : FriendImage) :
    (ofImage i).image =
      { i with
        gamertag := (Gamertag.ofField i.gamertag.toList).toField
        richLength := .ofNat i.units.length
        rich := .ofUnits i.units } := by
  rw [image, ofImage, FriendImage.units,
    RichPresence.sent_ofUnits (RichField.length_take_le i.richLength i.rich)]
  rfl

theorem image_imaged {f : Friend} (h : '\x00' ∉ f.gamertag.text.toList) :
    f.imaged.image = f.image := by
  rw [image, imaged, RichPresence.sent_onlySent, Gamertag.beforeNul_eq_self h]
  rfl

theorem reload_toBytes (i : FriendImage) :
    reload (GuestImage.toBytes i) = .ok (GuestImage.toBytes (ofImage i).image) := by
  rw [reload, GuestImage.ofBytes_toBytes_alone .friend i]
  rfl

/-- The image of a record is in order, if its gamertag has no zero character. -/
theorem reload_image {f : Friend} (h : '\x00' ∉ f.gamertag.text.toList) :
    reload (GuestImage.toBytes f.image) = .ok (GuestImage.toBytes f.image) := by
  rw [reload_toBytes, ofImage_image, image_imaged h]

theorem tidied_image (i : FriendImage) :
    FriendImage.Tidied (GuestImage.toBytes i) (GuestImage.toBytes (ofImage i).image) := by
  have hsize : (GuestImage.toBytes (ofImage i).image).length = 0xC4 := (ofImage i).wellFormed_image.size
  rw [image_ofImage] at hsize ⊢
  constructor
  case size => exact hsize
  case xuid => rw [FriendImage.take_xuid, FriendImage.take_xuid]
  case gamertag =>
    refine ⟨Gamertag.ofField i.gamertag.toList, ?_⟩
    rw [FriendImage.extract_gamertag, FriendImage.extract_gamertag]
    exact Gamertag.tidied_ofField i.gamertag.toList
  case middle =>
    rw [FriendImage.extract_middle, FriendImage.extract_middle]
    rfl
  case rich =>
    rw [FriendImage.toBytes_eq, FriendImage.toBytes_eq]
    exact RichField.tidied_append i.length_front (FriendImage.length_front _) rfl

end Friend

/-- Whatever bytes an image consists of, loading it into a record and laying the record out puts it
in order, and does nothing more when it is done again. -/
theorem images_tidied_on_reload :
    (∀ image : Bytes, image.length = 0xA4 → ∃ tidied,
      Presence.reload image = .ok tidied ∧ PresenceImage.Tidied image tidied ∧
        Presence.reload tidied = .ok tidied) ∧
    (∀ image : Bytes, image.length = 0xC4 → ∃ tidied,
      Friend.reload image = .ok tidied ∧ FriendImage.Tidied image tidied ∧
        Friend.reload tidied = .ok tidied) := by
  -- bytes of the right number are the image of some value, and the fields of that are compared
  constructor
  · intro image hsize
    have hfaithful : GuestImage.Faithful PresenceImage 0xA4 id :=
      GuestImage.faithful .presence Layout.Exact.presence
    obtain ⟨i, -, rfl⟩ := hfaithful.toBytes_ofBytes image hsize
    exact ⟨_, Presence.reload_toBytes i, Presence.tidied_image i, Presence.reload_image _⟩
  · intro image hsize
    have hfaithful : GuestImage.Faithful FriendImage 0xC4 id :=
      GuestImage.faithful .friend Layout.Exact.friend
    obtain ⟨i, -, rfl⟩ := hfaithful.toBytes_ofBytes image hsize
    exact ⟨_, Friend.reload_toBytes i, Friend.tidied_image i,
      Friend.reload_image (Gamertag.nul_not_mem_ofField i.gamertag.toList)⟩

/-- Images of ones only. Of the gamertag, fifteen bytes that begin no character, five times U+FFFD
are kept. -/
theorem images_of_ones_tidied :
    (∃ tidied, Presence.reload (List.replicate 0xA4 0xFF) = .ok tidied ∧
      RichField.countAt 0x20 tidied = 64) ∧
    (∃ tidied, Friend.reload (List.replicate 0xC4 0xFF) = .ok tidied ∧
      RichField.countAt 0x40 tidied = 64 ∧
      tidied.extract 8 0x18 =
        [0xEF, 0xBF, 0xBD, 0xEF, 0xBF, 0xBD, 0xEF, 0xBF, 0xBD, 0xEF, 0xBF, 0xBD, 0xEF, 0xBF, 0xBD, 0] ∧
      Friend.reload tidied = .ok tidied) := by
  obtain ⟨presence, hpresence, tidiedPresence, -⟩ :=
    images_tidied_on_reload.1 (List.replicate 0xA4 0xFF) List.length_replicate
  obtain ⟨friend, hfriend, tidiedFriend, hagain⟩ :=
    images_tidied_on_reload.2 (List.replicate 0xC4 0xFF) List.length_replicate
  obtain ⟨g, hg⟩ := tidiedFriend.gamertag
  have hfield : friend.extract 8 0x18 = g.toField.toList := hg.padded.trans g.toList_toField.symm
  refine ⟨⟨presence, hpresence, ?_⟩, friend, hfriend, ?_, ?_, hagain⟩
  · rw [tidiedPresence.rich.count]
    decide
  · rw [tidiedFriend.rich.count]
    decide
  · rw [hfield, Gamertag.cutOf_iff.mp hg.cut]
    decide +kernel

end ConsoleOnline
