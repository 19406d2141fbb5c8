import ConsoleOnline.Proofs.Image.RoundTrip
import ConsoleOnline.Proofs.Session.Reachable
import ConsoleOnline.Session.Details

/-!
What the image of a session tells of it. Everything but the number of members is read back as it is.
That number is a word, while both categories together may have room for more members than a word
counts: from there on the image counts them anew from zero.
-/
namespace ConsoleOnline

namespace LocalDetails

/-- The parts before the information for joining consoles. -/
def front (d : LocalDetails) : Bytes :=
  Layout.uint32.write d.hostUserIndex ++ Layout.uint32.write d.gameType ++
    Layout.uint32.write d.gameMode ++ Layout.uint32.write d.flags ++
    Layout.uint32.write d.maxPublic ++ Layout.uint32.write d.maxPrivate ++
    Layout.uint32.write d.vacantPublic ++ Layout.uint32.write d.vacantPrivate ++
    Layout.uint32.write d.actualMembers ++ Layout.uint32.write d.returnedMembers ++
    Layout.uint32.write d.state ++ List.replicate 4 0 ++ Layout.uint64.write d.nonce

theorem length_front (d : LocalDetails) : d.front.length = 0x38 := by
  simp only [front, List.length_append, Layout.Lawful.uint32.length_write,
    Layout.Lawful.uint64.length_write, List.length_replicate]
  rfl

theorem toBytes_eq (d : LocalDetails) :
    GuestImage.toBytes d = d.front ++ (GuestImage.toBytes d.info ++
      (Layout.sessionId.write d.arbitrationId ++ Layout.uint32.write d.membersAddress)) := by
  simp only [front, List.append_assoc]
  rfl

theorem extract_info (d : LocalDetails) :
    (GuestImage.toBytes d).extract 0x38 0x74 = GuestImage.toBytes d.info := by
  have hinfo : (GuestImage.toBytes d.info).length = 0x3C :=
    Layout.Lawful.sessionInfo.length_write d.info
  rw [toBytes_eq]
  exact Bytes.extract_middle d.length_front (by rw [hinfo])

end LocalDetails

namespace Session

/-- What the details tell of a session besides its members: their values are the session's own, their
code is that of its state, and in neither category are there more slots vacant than there are. -/
structure ShownAs (s : Session) (membersAddress : UInt32) (d : LocalDetails) : Prop where
  hostUserIndex : d.hostUserIndex = s.hostUserIndex
  gameType : d.gameType = s.gameType
  gameMode : d.gameMode = s.gameMode
  flags : d.flags = s.flags.bits
  maxPublic : d.maxPublic = (s.slots .publicSlot).max
  maxPrivate : d.maxPrivate = (s.slots .privateSlot).max
  vacantPublic : d.vacantPublic = (s.slots .publicSlot).vacant
  vacantPrivate : d.vacantPrivate = (s.slots .privateSlot).vacant
  roomPublic : d.vacantPublic ≤ d.maxPublic
  roomPrivate : d.vacantPrivate ≤ d.maxPrivate
  state : SessionState.ofCode? d.state = some s.state
  nonce : d.nonce = s.nonce
  arbitrationId : d.arbitrationId = s.arbitrationId
  membersAddress : d.membersAddress = membersAddress

theorem Accounted.vacant_le_max {s : Session} (h : Accounted s) (category : SlotCategory) :
    (s.slots category).vacant ≤ (s.slots category).max := by
  have hroom := h.room category
  simp only [Slots.Room] at hroom
  rw [UInt32.le_iff_toNat_le]
  omega

theorem Accounted.shownAs_details {s : Session} (h : Accounted s) (membersAddress : UInt32) :
    s.ShownAs membersAddress (s.details membersAddress) where
  hostUserIndex := rfl
  gameType := rfl
  gameMode := rfl
  flags := rfl
  maxPublic := rfl
  maxPrivate := rfl
  vacantPublic := rfl
  vacantPrivate := rfl
  roomPublic := h.vacant_le_max .publicSlot
  roomPrivate := h.vacant_le_max .privateSlot
  state := SessionState.ofCode?_code s.state
  nonce := rfl
  arbitrationId := rfl
  membersAddress := rfl

/-- The image of a session that can come about is read back with all that it is to tell, and holds
the image for joining consoles from byte 0x38 on. Both counts of its members are right exactly if a
word can count them. -/
theorem details_read_back {s : Session} (h : Reachable s) (membersAddress : UInt32) :
    (GuestImage.toBytes (s.details membersAddress)).length = 0x80 ∧
      (GuestImage.toBytes (s.details membersAddress)).extract 0x38 0x74 =
        GuestImage.toBytes s.info ∧
      ∃ d, GuestImage.ofBytes LocalDetails (GuestImage.toBytes (s.details membersAddress)) = .ok d ∧
        s.ShownAs membersAddress d ∧ d.info = s.info ∧
        (d.actualMembers.toNat = s.members.length ∧ d.returnedMembers.toNat = s.members.length ↔
          s.members.length < UInt32.size) := by
  refine ⟨Layout.Lawful.localDetails.length_write _, LocalDetails.extract_info _,
    s.details membersAddress, ?_, h.accounted.shownAs_details membersAddress, rfl, ?_⟩
  · exact GuestImage.ofBytes_toBytes_alone .localDetails (s.details membersAddress)
  · simp only [details, and_self, UInt32.toNat_ofNat']
    exact Nat.mod_eq_iff_lt (by decide)

/-- A session with a member of each category, one of whom has joined twice. -/
theorem details_read_back_after_joins :
    Reachable (((new ⟨0xAE00000000000001⟩ .host 3 1).step (.join [⟨1⟩, ⟨1⟩] .publicSlot)).step
        (.join [⟨2⟩] .privateSlot)) ∧
      ∃ d, GuestImage.ofBytes LocalDetails (GuestImage.toBytes
          ((((new ⟨0xAE00000000000001⟩ .host 3 1).step (.join [⟨1⟩, ⟨1⟩] .publicSlot)).step
            (.join [⟨2⟩] .privateSlot)).details 0x80001000)) = .ok d ∧
        d.actualMembers.toNat = 3 ∧ d.vacantPublic = 1 ∧ d.membersAddress = 0x80001000 := by
  have hs : Reachable (((new ⟨0xAE00000000000001⟩ .host 3 1).step
      (.join [⟨1⟩, ⟨1⟩] .publicSlot)).step (.join [⟨2⟩] .privateSlot)) :=
    .step _ (.step _ (.new _ _ _ _))
  obtain ⟨-, -, d, hread, hshown, -, hcount⟩ := details_read_back hs 0x80001000
  exact ⟨hs, d, hread, (hcount.mpr (by decide)).1, hshown.vacantPublic, hshown.membersAddress⟩

/-! ### More members than a word counts -/

theorem Accounted.join_step {s : Session} (h : Accounted s) (xuids : List Xuid)
    (category : SlotCategory) (hroom : xuids.length ≤ (s.slots category).vacant.toNat) :
    (s.step (.join xuids category)).members.length = s.members.length + xuids.length ∧
      ∀ other, other ≠ category → (s.step (.join xuids category)).slots other = s.slots other := by
  have heffect : Effect s _ (.join xuids category) := h.effect_step hroom
  obtain ⟨x, -, hstep⟩ := heffect
  rw [hstep]
  refine ⟨by rw [List.length_append, List.length_map], fun other hother => ?_⟩
  exact (slots_withSlots s category other x).trans (if_neg hother)

/-- There may be as many members of each category as a word counts. -/
theorem exists_reachable_of_members {xs ys : List Xuid} (hxs : xs.length < UInt32.size)
    (hys : ys.length < UInt32.size) :
    ∃ s, Reachable s ∧ s.members.length = xs.length + ys.length := by
  have hempty := accounted_new ⟨0xAE00000000000001⟩ .host 0xFFFFFFFF 0xFFFFFFFF
  have hword : ∀ category, ((new ⟨0xAE00000000000001⟩ .host 0xFFFFFFFF 0xFFFFFFFF).slots
      category).vacant.toNat + 1 = UInt32.size := fun category => by cases category <;> rfl
  have hpublic := hword .publicSlot
  have hprivate := hword .privateSlot
  obtain ⟨hfirst, hslots⟩ := hempty.join_step xs .publicSlot (by omega)
  rw [← hslots _ (by decide)] at hprivate
  obtain ⟨hsecond, -⟩ :=
    (hempty.step (.join xs .publicSlot)).join_step ys .privateSlot (by omega)
  refine ⟨_, .step _ (.step _ (.new _ _ _ _)), hsecond.trans ?_⟩
  rw [hfirst]
  exact congrArg (· + ys.length) (Nat.zero_add _)

/-- With half as many members of each category as a word counts, the image tells of none. -/
theorem members_beyond_a_word :
    ¬ ∀ (s : Session) (membersAddress : UInt32), Reachable s →
      ∃ d, GuestImage.ofBytes LocalDetails (GuestImage.toBytes (s.details membersAddress)) = .ok d ∧
        d.actualMembers.toNat = s.members.length ∧ d.returnedMembers.toNat = s.members.length := by
  intro h
  have hhalf : (List.replicate 0x80000000 (⟨1⟩ : Xuid)).length < UInt32.size := by
    rw [List.length_replicate]
    decide
  obtain ⟨s, hs, hlength⟩ := exists_reachable_of_members hhalf hhalf
  obtain ⟨d, hread, hcount, -⟩ := h s 0 hs
  have hlt := d.actualMembers.toNat_lt_size
  rw [hcount, hlength, List.length_replicate] at hlt
  exact absurd hlt (by decide)

end Session

end ConsoleOnline
