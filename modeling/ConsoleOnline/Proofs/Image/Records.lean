import ConsoleOnline.Friend
import ConsoleOnline.Proofs.Gamertag
import ConsoleOnline.Proofs.Image.Fieldwise

/-!
Presences and friends through their images. What is put into an image has room there, the rest of
each field is zero, and a record that is made of the image again is the same but for what the image
does not tell: `Presence.imaged` and `Friend.imaged`.
-/
namespace ConsoleOnline

namespace RichPresence

/-- The part that is sent. -/
def onlySent (r : RichPresence) : RichPresence where
  units := r.sent
  fits := Nat.le_trans (List.length_take_le' _ _) r.fits

theorem length_sent_le (r : RichPresence) : r.sent.length ≤ sentCapacity := List.length_take_le _ _

theorem ofUnits_sent (r : RichPresence) : ofUnits r.sent = r.onlySent := by
  have h : r.sent.take capacity = r.sent := List.take_of_length_le r.onlySent.fits
  simp only [ofUnits, h, onlySent]

end RichPresence

namespace RichField

/-- The count has room in the field, and from there on the field is zero. -/
structure Padded (length : UInt32) (rich : RichField) : Prop where
  length_le : length.toNat ≤ 64
  zero_past : ∀ (i : Nat) (h : i < 64), length.toNat ≤ i → rich[i] = 0

variable {us : List UInt16}

theorem toNat_length (h : us.length ≤ RichPresence.sentCapacity) :
    (UInt32.ofNat us.length).toNat = us.length :=
  UInt32.toNat_ofNat_of_lt' (Nat.lt_of_le_of_lt h (by decide))

theorem take_ofUnits (h : us.length ≤ RichPresence.sentCapacity) :
    (ofUnits us).toList.take (UInt32.ofNat us.length).toNat = us := by
  have hfield : (ofUnits us).toList = us ++ _ := toList_ofFn_getD h 0
  rw [toNat_length h, hfield, List.take_left]

theorem padded_ofUnits (h : us.length ≤ RichPresence.sentCapacity) :
    Padded (.ofNat us.length) (ofUnits us) where
  length_le := by
    rw [toNat_length h]
    exact h
  zero_past i hi hpast := by
    rw [toNat_length h] at hpast
    simp [ofUnits, List.getElem?_eq_none hpast]

end RichField

/-! ### Images -/

theorem Gamertag.put?_text (g : Gamertag) :
    (Writer.mk (List.replicate fieldSize 0) 0).put? (Text.Utf8.encode g.text.toList) =
      some ⟨g.toField.toList, (Text.Utf8.encode g.text.toList).length⟩ := by
  have hroom : (Text.Utf8.encode g.text.toList).length ≤ fieldSize := Nat.le_succ_of_le g.fits
  simp [Writer.put?, Writer.hasRoom, Writer.overwrite, hroom, toList_toField]

/-- The image of a presence has its size. Into a buffer of this size all of its fields are written,
none of them out of bounds, and nothing is left of what was there. What the rich presence leaves of
its own field is zero. -/
structure PresenceImage.WellFormed (i : PresenceImage) : Prop where
  size : (GuestImage.toBytes i).length = 0xA4
  written : ∀ front : Bytes, front.length = 0xA4 →
    (Fieldwise.put i).run ⟨front, 0⟩ = some ((), ⟨GuestImage.toBytes i, 0xA4⟩)
  rich : RichField.Padded i.richLength i.rich

/-- The same of the image of a friend. Its gamertag ends with a zero byte. -/
structure FriendImage.WellFormed (i : FriendImage) : Prop where
  size : (GuestImage.toBytes i).length = 0xC4
  written : ∀ front : Bytes, front.length = 0xC4 →
    (Fieldwise.put i).run ⟨front, 0⟩ = some ((), ⟨GuestImage.toBytes i, 0xC4⟩)
  terminated : i.gamertag[15] = 0
  rich : RichField.Padded i.richLength i.rich

/-- What its image tells of a presence. -/
def Presence.imaged (p : Presence) : Presence := { p with gamertag := {}, rich := p.rich.onlySent }

/-- What its image tells of a friend. -/
def Friend.imaged (f : Friend) : Friend :=
  { f with
    presence :=
      { f.presence with gamertag := f.gamertag.beforeNul, rich := f.presence.rich.onlySent }
    inviter := none
    invitee := none }

theorem Presence.wellFormed_image (p : Presence) : p.image.WellFormed where
  size := Layout.Lawful.presence.length_write p.image
  written _ hfront := Fieldwise.Agrees.presence.run_put p.image hfront
  rich := RichField.padded_ofUnits p.rich.length_sent_le

theorem Friend.wellFormed_image (f : Friend) : f.image.WellFormed where
  size := Layout.Lawful.friend.length_write f.image
  written _ hfront := Fieldwise.Agrees.friend.run_put f.image hfront
  terminated := f.gamertag.toField_last
  rich := RichField.padded_ofUnits f.presence.rich.length_sent_le

theorem Presence.units_image (p : Presence) : p.image.units = p.rich.sent :=
  RichField.take_ofUnits p.rich.length_sent_le

theorem Presence.ofImage_image (p : Presence) : ofImage p.image = p.imaged := by
  rw [ofImage, p.units_image, RichPresence.ofUnits_sent]
  rfl

theorem Friend.ofImage_image (f : Friend) : ofImage f.image = f.imaged := by
  have hunits : f.image.units = f.presence.rich.sent :=
    RichField.take_ofUnits f.presence.rich.length_sent_le
  have hgamertag : Gamertag.ofField f.image.gamertag.toList = f.gamertag.beforeNul :=
    f.gamertag.ofField_toField
  rw [ofImage, hunits, hgamertag, RichPresence.ofUnits_sent]
  rfl

/-- The images of presences and friends are well formed, whatever their texts, states and times. The
bytes of an image are read as a record that differs from the original only where the image is
silent: it has the first 64 units of the rich presence, no gamertag of a presence, the gamertag of a
friend up to its first zero character, and not between whom an invite stands. -/
theorem records_through_images (p : Presence) (f : Friend) :
    p.image.WellFormed ∧ f.image.WellFormed ∧
      (Writer.mk (List.replicate 16 0) 0).put? (Text.Utf8.encode f.gamertag.text.toList) =
        some ⟨f.image.gamertag.toList, (Text.Utf8.encode f.gamertag.text.toList).length⟩ ∧
      (GuestImage.ofBytes PresenceImage (GuestImage.toBytes p.image)).map Presence.ofImage =
        .ok p.imaged ∧
      (GuestImage.ofBytes FriendImage (GuestImage.toBytes f.image)).map Friend.ofImage =
        .ok f.imaged := by
  have hpresence : GuestImage.ofBytes PresenceImage (GuestImage.toBytes p.image) = .ok p.image := by
    simpa using GuestImage.ofBytes_toBytes .presence p.image []
  have hfriend : GuestImage.ofBytes FriendImage (GuestImage.toBytes f.image) = .ok f.image := by
    simpa using GuestImage.ofBytes_toBytes .friend f.image []
  refine ⟨p.wellFormed_image, f.wellFormed_image, f.gamertag.put?_text, ?_, ?_⟩
  · rw [hpresence, ← Presence.ofImage_image]
    rfl
  · rw [hfriend, ← Friend.ofImage_image]
    rfl

end ConsoleOnline
