import ConsoleOnline.Image.FindUsers
import ConsoleOnline.Image.Presence
import ConsoleOnline.Image.SessionDetails
import ConsoleOnline.Proofs.Numerals

/-!
Values and images stand for each other. That a value comes back from its image is `Layout.Lawful`.
The other way round, `Layout.Exact` says that an image comes back from the value read from it, so a
layout loses no byte and misplaces none. Padding is lost: `Layout.ExactBut` says where.
-/
namespace ConsoleOnline

namespace Bytes

/-- The bytes with zeros for the `n` of them from place `start` on. -/
def blank (start n : Nat) (bs : Bytes) : Bytes :=
  bs.take start ++ List.replicate n 0 ++ bs.drop (start + n)

theorem append_blank {xs : Bytes} {k : Nat} (hk : xs.length = k) (start n : Nat) (ys : Bytes) :
    (xs ++ ys).blank (k + start) n = xs ++ ys.blank start n := by
  subst hk
  rw [blank, Nat.add_assoc, List.take_length_add_append, List.drop_length_add_append, blank]
  simp

/-- What stands between two other parts. -/
theorem extract_middle {xs ys zs : Bytes} {start stop : Nat} (hstart : xs.length = start)
    (hstop : start + ys.length = stop) : (xs ++ (ys ++ zs)).extract start stop = ys := by
  rw [List.extract_eq_take_drop, List.drop_left' hstart, List.take_left' (by omega)]

theorem toList_window {n : Nat} {bs : Bytes} (h : n ≤ bs.length) :
    (window n bs).toList = bs.take n := by
  refine List.ext_getElem (by simp; omega) fun i h₁ h₂ => ?_
  have hi : i < bs.length := by simp at h₁; omega
  simp [window, List.getElem?_eq_getElem hi]

theorem forall_mem_map_toNat (bs : Bytes) : ∀ d ∈ bs.map UInt8.toNat, d < 256 := by
  intro d hd
  obtain ⟨b, -, rfl⟩ := List.mem_map.mp hd
  exact b.toNat_lt

theorem ofBigEndian_lt (bs : Bytes) : ofBigEndian bs < Nat.pow 256 bs.length := by
  have h := Digits.value_lt (forall_mem_map_toNat bs)
  rwa [List.length_map] at h

theorem bigEndian_ofBigEndian (bs : Bytes) : bigEndian bs.length (ofBigEndian bs) = bs := by
  have h := Digits.fixed_value (forall_mem_map_toNat bs)
  rw [List.length_map] at h
  rw [bigEndian, ofBigEndian, h, List.map_map]
  simp [Function.comp_def]

end Bytes

namespace Layout

/-- What is read from an image is written as that image. -/
def Exact (l : Layout α) : Prop :=
  ∀ bs : Bytes, l.size ≤ bs.length → l.write (l.read bs) = bs.take l.size

/-- What is read from an image is written as that image, but for `n` bytes from place `start` on,
which are zero. -/
def ExactBut (l : Layout α) (start n : Nat) : Prop :=
  ∀ bs : Bytes, l.size ≤ bs.length → l.write (l.read bs) = Bytes.blank start n (bs.take l.size)

variable {a : Layout α} {b : Layout β}

/-- Two images side by side are cut where the first one ends. -/
theorem write_read_pair (ha : a.Exact) {bs : Bytes} (h : (a.pair b).size ≤ bs.length) :
    (a.pair b).write ((a.pair b).read bs) = bs.take a.size ++ b.write (b.read (bs.drop a.size)) := by
  have hsize : a.size + b.size ≤ bs.length := h
  change a.write (a.read bs) ++ _ = _
  rw [ha bs (by omega)]
  rfl

theorem Exact.pair (ha : a.Exact) (hb : b.Exact) : (a.pair b).Exact := by
  intro bs h
  have hsize : a.size + b.size ≤ bs.length := h
  have hrest : b.size ≤ (bs.drop a.size).length := by
    rw [List.length_drop]
    omega
  rw [write_read_pair ha h, hb _ hrest]
  exact List.take_add.symm

theorem ExactBut.pair (ha : a.Exact) {start n : Nat} (hb : b.ExactBut start n) :
    (a.pair b).ExactBut (a.size + start) n := by
  intro bs h
  have hsize : a.size + b.size ≤ bs.length := h
  have hrest : b.size ≤ (bs.drop a.size).length := by
    rw [List.length_drop]
    omega
  have hfront : (bs.take a.size).length = a.size := by
    rw [List.length_take]
    omega
  have htake : bs.take (a.pair b).size = bs.take a.size ++ (bs.drop a.size).take b.size :=
    List.take_add
  rw [write_read_pair ha h, hb _ hrest, htake, Bytes.append_blank hfront]

theorem ExactBut.padding (n : Nat) (hb : b.Exact) : ((padding n).pair b).ExactBut 0 n := by
  intro bs h
  have hsize : n + b.size ≤ bs.length := h
  have hrest : b.size ≤ (bs.drop n).length := by
    rw [List.length_drop]
    omega
  change List.replicate n 0 ++ b.write (b.read (bs.drop n)) = Bytes.blank 0 n (bs.take (n + b.size))
  rw [hb _ hrest, Bytes.blank, List.take_zero, List.nil_append, Nat.zero_add, List.drop_take]
  simp

theorem Exact.map {l : Layout α} (h : l.Exact) {wrap : α → β} {unwrap : β → α}
    (unwrap_wrap : ∀ v, unwrap (wrap v) = v) : (l.map wrap unwrap).Exact := by
  intro bs hbs
  change l.write (unwrap (wrap (l.read bs))) = _
  rw [unwrap_wrap]
  exact h bs hbs

theorem ExactBut.map {l : Layout α} {start n : Nat} (h : l.ExactBut start n) {wrap : α → β}
    {unwrap : β → α} (unwrap_wrap : ∀ v, unwrap (wrap v) = v) :
    (l.map wrap unwrap).ExactBut start n := by
  intro bs hbs
  change l.write (unwrap (wrap (l.read bs))) = _
  rw [unwrap_wrap]
  exact h bs hbs

theorem Exact.bytes (n : Nat) : (bytes n).Exact :=
  fun _ h => Bytes.toList_window h

theorem Exact.number {width : Nat} {toNat : α → Nat} {ofNat : Nat → α}
    (toNat_ofNat : ∀ n < Nat.pow 256 width, toNat (ofNat n) = n) :
    (number width toNat ofNat).Exact := by
  intro bs h
  have hsize : width ≤ bs.length := h
  have hlength : (bs.take width).length = width := by
    rw [List.length_take]
    omega
  have hlt := Bytes.ofBigEndian_lt (bs.take width)
  have hback := Bytes.bigEndian_ofBigEndian (bs.take width)
  rw [hlength] at hlt hback
  simp only [Layout.number, Bytes.toList_window hsize]
  rw [toNat_ofNat _ hlt, hback]

theorem Exact.uint16 : uint16.Exact := .number fun _ h => UInt16.toNat_ofNat_of_lt' h

theorem Exact.uint32 : uint32.Exact := .number fun _ h => UInt32.toNat_ofNat_of_lt' h

theorem Exact.uint64 : uint64.Exact := .number fun _ h => UInt64.toNat_ofNat_of_lt' h

/-- The image at place `i` begins after `i` images. -/
theorem Exact.array {l : Layout α} (n : Nat) (h : l.Exact) : (array n l).Exact := by
  intro bs
  simp only [Layout.array, Vector.toList_ofFn]
  induction n generalizing bs with
  | zero => simp
  | succ n ih =>
    intro hbs
    have hsize : l.size + n * l.size ≤ bs.length := by
      rw [Nat.succ_mul] at hbs
      omega
    have hrest := ih (bs.drop l.size) (by rw [List.length_drop]; omega)
    have hdrop : ∀ i : Fin n, (bs.drop l.size).drop (i * l.size) = bs.drop (i.succ * l.size) := by
      intro i
      rw [List.drop_drop, Fin.val_succ, Nat.succ_mul, Nat.add_comm]
    simp only [hdrop] at hrest
    rw [List.ofFn_succ, List.flatMap_cons, hrest, Fin.val_zero, Nat.zero_mul, List.drop_zero,
      h bs (by omega), ← List.take_add, Nat.succ_mul, Nat.add_comm]

/-! ### Fields and records -/

theorem Exact.xuid : xuid.Exact := .map .uint64 fun _ => rfl

theorem Exact.titleId : titleId.Exact := .map .uint32 fun _ => rfl

theorem Exact.sessionId : sessionId.Exact := .map .uint64 fun _ => rfl

theorem Exact.fileTime : fileTime.Exact :=
  .map (.pair .uint32 .uint32) fun (high, low) =>
    Prod.ext (FileTime.high_ofParts high low) (FileTime.low_ofParts high low)

theorem Exact.exchangeKey : exchangeKey.Exact := .map (.bytes 16) fun _ => rfl

theorem Exact.hostAddress : hostAddress.Exact :=
  .map (.pair (.map (.bytes 4) fun _ => rfl) <| .pair (.map (.bytes 4) fun _ => rfl) <|
    .pair .uint16 <| .pair (.map (.bytes 6) fun _ => rfl) (.bytes 20)) fun _ => rfl

theorem Exact.sessionInfo : sessionInfo.Exact :=
  .map (.pair .hostAddress <| .pair .sessionId .exchangeKey) fun _ => rfl

/-- Eleven words stand before the padding. -/
theorem ExactBut.localDetails : localDetails.ExactBut 0x2C 4 :=
  .map (.pair .uint32 <| .pair .uint32 <| .pair .uint32 <| .pair .uint32 <| .pair .uint32 <|
    .pair .uint32 <| .pair .uint32 <| .pair .uint32 <| .pair .uint32 <| .pair .uint32 <|
    .pair .uint32 <| .padding 4 <| .pair .uint64 <| .pair .sessionInfo <|
    .pair .sessionId .uint32) fun _ => rfl

theorem Exact.richField : richField.Exact := .array _ .uint16

theorem Exact.presence : presence.Exact :=
  .map (.pair .xuid <| .pair .uint32 <| .pair .sessionId <| .pair .titleId <| .pair .fileTime <|
    .pair .uint32 .richField) fun _ => rfl

theorem Exact.friend : friend.Exact :=
  .map (.pair .xuid <| .pair (.bytes _) <| .pair .uint32 <| .pair .sessionId <| .pair .titleId <|
    .pair .fileTime <| .pair .sessionId <| .pair .fileTime <| .pair .uint32 .richField) fun _ => rfl

theorem Exact.findUsersHeader : findUsersHeader.Exact := .map (.pair .uint32 .uint32) fun _ => rfl

end Layout

/-! ### Images -/

namespace GuestImage

variable {α : Type} [GuestImage α]

theorem ofBytes_of_le {buffer : Bytes} (h : size α ≤ buffer.length) :
    ofBytes α buffer = .ok (layout.read buffer) := by
  rw [ofBytes, check, if_neg (by omega)]
  rfl

theorem writeTo_of_le {buffer : Bytes} (h : size α ≤ buffer.length) (v : α) :
    writeTo v buffer = .ok (toBytes v ++ buffer.drop (size α)) := by
  rw [writeTo, check, if_neg (by omega)]
  rfl

theorem ofBytes_toBytes (h : (layout (α := α)).Lawful) (v : α) (rest : Bytes) :
    ofBytes α (toBytes v ++ rest) = .ok v := by
  have hlength : (toBytes v).length = size α := h.length_write v
  rw [ofBytes_of_le (by rw [List.length_append]; omega)]
  exact congrArg _ (h.read_write v rest)

theorem ofBytes_toBytes_alone (h : (layout (α := α)).Lawful) (v : α) :
    ofBytes α (toBytes v) = .ok v := by
  simpa using ofBytes_toBytes h v []

/-- Values and images of so many bytes stand for each other. Of an image that is read and written
again, `clear` is what comes back. -/
structure Faithful (α : Type) [GuestImage α] (size : Nat) (clear : Bytes → Bytes) : Prop where
  size_eq : GuestImage.size α = size
  length_toBytes : ∀ v : α, (toBytes v).length = size
  ofBytes_toBytes : ∀ (v : α) (rest : Bytes), ofBytes α (toBytes v ++ rest) = .ok v
  toBytes_ofBytes : ∀ bs : Bytes, bs.length = size →
    ∃ v : α, ofBytes α bs = .ok v ∧ toBytes v = clear bs
  injective : Function.Injective (toBytes : α → Bytes)

theorem faithful {clear : Bytes → Bytes} (hlawful : (layout (α := α)).Lawful)
    (hclear : ∀ bs : Bytes, size α ≤ bs.length →
      layout.write ((layout (α := α)).read bs) = clear (bs.take (size α))) :
    Faithful α (size α) clear := by
  have hback : ∀ (v : α) (rest : Bytes), ofBytes α (toBytes v ++ rest) = .ok v :=
    ofBytes_toBytes hlawful
  refine ⟨rfl, hlawful.length_write, hback, fun bs hbs => ?_, fun v w hvw => ?_⟩
  · refine ⟨layout.read bs, ofBytes_of_le (Nat.le_of_eq hbs.symm), ?_⟩
    have h := hclear bs (Nat.le_of_eq hbs.symm)
    rwa [← hbs, List.take_length] at h
  · have hv := hback v []
    rw [hvw, hback w []] at hv
    exact (Except.ok.inj hv).symm

theorem Faithful.hostAddress : Faithful HostAddress 0x24 id :=
  faithful .hostAddress Layout.Exact.hostAddress

theorem Faithful.sessionInfo : Faithful SessionInfo 0x3C id :=
  faithful .sessionInfo Layout.Exact.sessionInfo

theorem Faithful.localDetails : Faithful LocalDetails 0x80 (Bytes.blank 0x2C 4) :=
  faithful .localDetails Layout.ExactBut.localDetails

theorem Faithful.presence : Faithful PresenceImage 0xA4 id :=
  faithful .presence Layout.Exact.presence

theorem Faithful.friend : Faithful FriendImage 0xC4 id := faithful .friend Layout.Exact.friend

theorem Faithful.findUsersHeader : Faithful FindUsersHeader 0x8 id :=
  faithful .findUsersHeader Layout.Exact.findUsersHeader

/-- Six structures of guest memory: every value comes back from its image, whatever follows it, and
every image from the value that it is read as, except that the padding before the nonce of
`LocalDetails` comes back as zeros. -/
theorem values_correspond_to_images :
    Faithful HostAddress 0x24 id ∧ Faithful SessionInfo 0x3C id ∧
      Faithful LocalDetails 0x80 (Bytes.blank 0x2C 4) ∧ Faithful PresenceImage 0xA4 id ∧
      Faithful FriendImage 0xC4 id ∧ Faithful FindUsersHeader 0x8 id :=
  ⟨.hostAddress, .sessionInfo, .localDetails, .presence, .friend, .findUsersHeader⟩

end GuestImage

end ConsoleOnline
