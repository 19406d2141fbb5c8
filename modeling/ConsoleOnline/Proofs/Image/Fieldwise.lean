import ConsoleOnline.Image.Fieldwise
import ConsoleOnline.Proofs.Image.FindUsers

/-!
Images written and read one field after another. `Put.Writes` and `Take.Reads` tell what a sequence
of fields comes to wherever there is room for it, and follow the sequence field by field. A whole
image then fills exactly the bytes that are set aside for it, and nothing of what these bytes held
before is left. What is known of images as a whole is so known of their fields in a row: a value
comes back from them, and they from a value.
-/
namespace ConsoleOnline

/-! ### Writing -/

namespace Writer

theorem overwrite_overwrite {w : Writer} {xs : Bytes}
    (h : w.position + xs.length ≤ w.buffer.length) (ys : Bytes) :
    (w.overwrite xs).overwrite ys = w.overwrite (xs ++ ys) := by
  have hfront : (w.buffer.take w.position ++ xs).length = w.position + xs.length := by
    rw [List.length_append, List.length_take]
    omega
  have htake : (w.overwrite xs).buffer.take (w.position + xs.length) =
      w.buffer.take w.position ++ xs := List.take_left' hfront
  have hdrop : (w.overwrite xs).buffer.drop (w.position + xs.length + ys.length) =
      w.buffer.drop (w.position + xs.length + ys.length) := by
    rw [overwrite, ← hfront, List.drop_length_add_append, List.drop_drop, hfront]
  have hbuffer : ((w.overwrite xs).overwrite ys).buffer = (w.overwrite (xs ++ ys)).buffer := by
    calc
      _ = (w.overwrite xs).buffer.take (w.position + xs.length) ++ ys ++
          (w.overwrite xs).buffer.drop (w.position + xs.length + ys.length) := rfl
      _ = w.buffer.take w.position ++ (xs ++ ys) ++
          w.buffer.drop (w.position + (xs ++ ys).length) := by
        rw [htake, hdrop, List.length_append, List.append_assoc (w.buffer.take _) xs, Nat.add_assoc]
  have hposition : ((w.overwrite xs).overwrite ys).position = (w.overwrite (xs ++ ys)).position := by
    simp only [overwrite, List.length_append, Nat.add_assoc]
  exact (mk.injEq ..).mpr ⟨hbuffer, hposition⟩

theorem length_overwrite {w : Writer} {bs : Bytes}
    (h : w.position + bs.length ≤ w.buffer.length) :
    (w.overwrite bs).buffer.length = w.buffer.length := by
  simp only [overwrite, List.length_append, List.length_take, List.length_drop]
  omega

theorem overwrite_nil (w : Writer) : w.overwrite [] = w := by
  rw [overwrite, List.append_nil, List.length_nil, Nat.add_zero, List.take_append_drop]

/-- Of a buffer that is written over from end to end nothing is left. -/
theorem overwrite_all {front bs : Bytes} (h : front.length = bs.length) :
    (Writer.mk front 0).overwrite bs = ⟨bs, bs.length⟩ := by
  simp [overwrite, ← h]

theorem put?_eq {w : Writer} {bs : Bytes} (h : w.position + bs.length ≤ w.buffer.length) :
    w.put? bs = some (w.overwrite bs) := by
  rw [put?, hasRoom, if_pos (decide_eq_true h)]

end Writer

namespace Put

/-- Where there is room for these bytes, they are what is written. -/
def Writes (p : Put) (bs : Bytes) : Prop :=
  ∀ w : Writer, w.position + bs.length ≤ w.buffer.length → p.run w = some ((), w.overwrite bs)

variable {p q : Put} {xs ys : Bytes}

theorem Writes.value {l : Layout α} {v : α} : (value l v).Writes (l.write v) := by
  intro w h
  change (w.put? (l.write v)).map ((), ·) = _
  rw [Writer.put?_eq h, Option.map_some]

theorem Writes.bytes (v : Vector UInt8 n) : (Put.value (.bytes n) v).Writes v.toList := .value

theorem Writes.skip {n : Nat} : (skip n).Writes (List.replicate n 0) := by
  intro w h
  rw [List.length_replicate] at h
  change (w.skip? n).map ((), ·) = _
  rw [Writer.skip?, Writer.hasRoom, if_pos (decide_eq_true h), Option.map_some]

theorem Writes.seq (hp : p.Writes xs) (hq : q.Writes ys) : Writes (do p; q) (xs ++ ys) := by
  intro w h
  rw [List.length_append] at h
  have hxs : w.position + xs.length ≤ w.buffer.length := by omega
  have hys : (w.overwrite xs).position + ys.length ≤ (w.overwrite xs).buffer.length := by
    rw [Writer.length_overwrite hxs]
    exact Nat.add_assoc .. ▸ h
  calc (do p; q : Put).run w
      = (p.run w).bind fun a => q.run a.2 := rfl
    _ = q.run (w.overwrite xs) := by rw [hp w hxs, Option.bind_some]
    _ = some ((), w.overwrite (xs ++ ys)) := by
      rw [hq _ hys, Writer.overwrite_overwrite hxs]

theorem Writes.forM {f : α → Put} {write : α → Bytes} (hf : ∀ v, (f v).Writes (write v))
    (vs : List α) : Writes (vs.forM f) (vs.flatMap write) := by
  induction vs with
  | nil =>
    intro w _
    rw [List.flatMap_nil, Writer.overwrite_nil]
    rfl
  | cons v vs ih => exact (hf v).seq ih

/-- A part that fills a buffer of its own is written like any other bytes. -/
theorem Writes.nested {size : Nat} (hp : p.Writes xs) (hsize : xs.length = size) :
    (nested size p).Writes xs := by
  intro w h
  subst hsize
  have hpart : ((w.buffer.drop w.position).take xs.length).length = xs.length := by
    rw [List.length_take, List.length_drop]
    omega
  have hrun : p.run ⟨(w.buffer.drop w.position).take xs.length, 0⟩ = some ((), ⟨xs, xs.length⟩) := by
    rw [hp _ (by rw [hpart, Nat.zero_add]), Writer.overwrite_all hpart]
  change (if w.hasRoom xs.length then _ else none) = _
  rw [Writer.hasRoom, if_pos (decide_eq_true h), hrun]
  rfl

end Put

/-! ### Reading -/

namespace Take

/-- Where `n` bytes are left, they are passed, and this is what is read from the place. -/
def Reads (t : Take α) (n : Nat) (read : Bytes → α) : Prop :=
  ∀ r : Reader, r.position + n ≤ r.buffer.length →
    t.run r = some (read (r.buffer.drop r.position), { r with position := r.position + n })

variable {t : Take α} {n m : Nat} {read : Bytes → α}

theorem Reads.value {l : Layout α} : (value l).Reads l.size l.read := by
  intro r h
  change r.value? l = _
  rw [Reader.value?, if_pos h]

theorem Reads.skip {n : Nat} : (skip n).Reads n fun _ => () := fun _ _ => rfl

theorem Reads.pure {v : α} : Reads (pure v) 0 fun _ => v := fun _ _ => rfl

theorem Reads.bind (ht : t.Reads n read) {k : α → Take β} {next : α → Bytes → β}
    (hk : ∀ v, (k v).Reads m (next v)) :
    (t >>= k).Reads (n + m) fun bs => next (read bs) (bs.drop n) := by
  intro r h
  have hn : r.position + n ≤ r.buffer.length := by omega
  calc (t >>= k).run r
      = (t.run r).bind fun a => (k a.1).run a.2 := rfl
    _ = (k (read (r.buffer.drop r.position))).run { r with position := r.position + n } := by
      rw [ht r hn, Option.bind_some]
    _ = _ := by
      rw [hk _ _ (Nat.add_assoc .. ▸ h)]
      simp only [List.drop_drop, Nat.add_assoc]

theorem Reads.of_eq {read' : Bytes → α} (h : t.Reads n read) (hn : n = m)
    (hread : ∀ bs, read bs = read' bs) : t.Reads m read' := by
  obtain rfl := hn
  obtain rfl : read = read' := funext hread
  exact h

theorem Reads.ofFnM (ht : t.Reads n read) (count : Nat) :
    Reads (Vector.ofFnM fun _ : Fin count => t) (count * n)
      fun bs => .ofFn fun i => read (bs.drop (i * n)) := by
  induction count with
  | zero =>
    rw [Vector.ofFnM_zero]
    exact Reads.of_eq .pure (Nat.zero_mul n).symm fun _ => rfl
  | succ count ih =>
    rw [Vector.ofFnM_succ]
    refine Reads.of_eq (ih.bind fun _ => ht.bind fun _ => .pure) (Nat.succ_mul ..).symm fun bs => ?_
    rw [Vector.ofFn_succ]
    rfl

/-- A part that is read from its own bytes only is read like any other. -/
theorem Reads.nested (ht : t.Reads n read) (hread : ∀ bs, read (bs.take n) = read bs) :
    (nested n t).Reads n read := by
  intro r h
  have hpart : ((r.buffer.drop r.position).take n).length = n := by
    rw [List.length_take, List.length_drop]
    omega
  have hrun : t.run ⟨(r.buffer.drop r.position).take n, 0⟩ =
      some (read (r.buffer.drop r.position), ⟨(r.buffer.drop r.position).take n, n⟩) := by
    rw [ht _ (by rw [hpart, Nat.zero_add]), List.drop_zero, hread, Nat.zero_add]
  change (if r.position + n ≤ r.buffer.length then _ else none) = _
  rw [if_pos h, hrun]
  rfl

end Take

/-! ### Layouts that look at their own bytes only -/

namespace Layout

/-- What comes after the size of the layout is not looked at. -/
def Local (l : Layout α) : Prop := ∀ bs : Bytes, l.read (bs.take l.size) = l.read bs

theorem window_take {k n : Nat} (h : k ≤ n) (bs : Bytes) :
    Bytes.window k (bs.take n) = Bytes.window k bs := by
  refine Vector.ext fun i hi => ?_
  simp [Bytes.window, List.getElem?_take_of_lt (Nat.lt_of_lt_of_le hi h)]

theorem Local.bytes {n : Nat} : (bytes n).Local := window_take (Nat.le_refl n)

theorem Local.number {width : Nat} {toNat : α → Nat} {ofNat : Nat → α} :
    (number width toNat ofNat).Local := by
  intro bs
  simp only [Layout.number, window_take (Nat.le_refl width)]

theorem Local.padding {n : Nat} : (padding n).Local := fun _ => rfl

theorem Local.map {l : Layout α} (h : l.Local) {wrap : α → β} {unwrap : β → α} :
    (l.map wrap unwrap).Local := fun bs => congrArg wrap (h bs)

/-- More than the size does no harm either. -/
theorem Local.read_take {l : Layout α} (h : l.Local) {n : Nat} (hn : l.size ≤ n) (bs : Bytes) :
    l.read (bs.take n) = l.read bs := by
  rw [← h (bs.take n), List.take_take, Nat.min_eq_left hn, h bs]

theorem Local.pair {a : Layout α} {b : Layout β} (ha : a.Local) (hb : b.Local) :
    (a.pair b).Local := by
  intro bs
  have hfirst : a.read (bs.take (a.size + b.size)) = a.read bs :=
    ha.read_take (Nat.le_add_right ..) bs
  have hsecond : b.read ((bs.take (a.size + b.size)).drop a.size) = b.read (bs.drop a.size) := by
    rw [List.drop_take, Nat.add_sub_cancel_left, hb]
  exact Prod.ext hfirst hsecond

theorem Local.array {l : Layout α} (n : Nat) (h : l.Local) : (array n l).Local := by
  intro bs
  refine Vector.ext fun i hi => ?_
  have hroom : l.size ≤ n * l.size - i * l.size := by
    rw [← Nat.sub_mul]
    exact Nat.le_mul_of_pos_left _ (by omega)
  simp only [Layout.array, Vector.getElem_ofFn, List.drop_take, h.read_take hroom]

theorem Local.uint32 : uint32.Local := .number

theorem Local.sessionId : sessionId.Local := .map .number

theorem Local.fileTime : fileTime.Local := .map (.pair .uint32 .uint32)

theorem Local.richField : richField.Local := .array _ .number

theorem Local.hostAddress : hostAddress.Local :=
  .map (.pair (.map .bytes) <| .pair (.map .bytes) <| .pair .number <|
    .pair (.map .bytes) .bytes)

theorem Local.sessionInfo : sessionInfo.Local :=
  .map (.pair .hostAddress <| .pair .sessionId (.map .bytes))

theorem Local.localDetails : localDetails.Local :=
  .map (.pair .uint32 <| .pair .uint32 <| .pair .uint32 <| .pair .uint32 <| .pair .uint32 <|
    .pair .uint32 <| .pair .uint32 <| .pair .uint32 <| .pair .uint32 <| .pair .uint32 <|
    .pair .uint32 <| .pair .padding <| .pair .number <| .pair .sessionInfo <|
    .pair .sessionId .uint32)

theorem Local.presence : presence.Local :=
  .map (.pair (.map .number) <| .pair .uint32 <| .pair .sessionId <|
    .pair (.map .uint32) <| .pair .fileTime <| .pair .uint32 .richField)

theorem Local.friend : friend.Local :=
  .map (.pair (.map .number) <| .pair .bytes <| .pair .uint32 <| .pair .sessionId <|
    .pair (.map .uint32) <| .pair .fileTime <| .pair .sessionId <| .pair .fileTime <|
    .pair .uint32 .richField)

theorem Local.findUserInfo : findUserInfo.Local :=
  .map (.pair (.map .number) (.map .bytes))

theorem Local.findUsersHeader : findUsersHeader.Local := .map (.pair .uint32 .uint32)

end Layout

/-! ### The fields of images -/

theorem Put.Writes.fileTime (t : FileTime) : (Put.fileTime t).Writes (Layout.fileTime.write t) :=
  .seq .value .value

theorem Put.Writes.richField (rich : RichField) :
    (Put.richField rich).Writes (Layout.richField.write rich) :=
  .forM (fun _ => .value) rich.toList

theorem Put.Writes.gamertag (g : Gamertag) :
    (Put.value (.bytes Gamertag.fieldSize) g.toField).Writes (Layout.gamertag.write g) := by
  rw [Layout.write_gamertag]
  exact .bytes g.toField

theorem Take.Reads.fileTime : Take.fileTime.Reads Layout.fileTime.size Layout.fileTime.read :=
  .of_eq (.bind .value fun _ => .bind .value fun _ => .pure) rfl fun _ => rfl

theorem Take.Reads.richField : Take.richField.Reads Layout.richField.size Layout.richField.read :=
  .ofFnM .value _

/-- The fields of a type of values, one after the other, are what its layout says. -/
structure Fieldwise.Agrees (α : Type) [GuestImage α] [Fieldwise α] : Prop where
  size_eq : Fieldwise.size α = GuestImage.size α
  writes : ∀ v : α, (Fieldwise.put v).Writes (GuestImage.toBytes v)
  reads : (Fieldwise.take (α := α)).Reads (GuestImage.size α) (GuestImage.layout (α := α)).read
  length_toBytes : ∀ v : α, (GuestImage.toBytes v).length = GuestImage.size α
  localRead : (GuestImage.layout (α := α)).Local

namespace Fieldwise.Agrees

-- One step for each field, in the order of the sequence. That the sizes of the steps add up to the
-- stated one, and that their values are put together as the layout does, is computed by `rfl`.
theorem hostAddress : Agrees HostAddress where
  size_eq := rfl
  writes _ := .seq .value <| .seq .value <| .seq .value <| .seq .value .value
  reads := .of_eq (.bind .value fun _ => .bind .value fun _ => .bind .value fun _ =>
    .bind .value fun _ => .bind .value fun _ => .pure) rfl fun _ => rfl
  length_toBytes := Layout.Lawful.hostAddress.length_write
  localRead := .hostAddress

theorem sessionInfo : Agrees SessionInfo where
  size_eq := rfl
  writes i :=
    .seq (.nested (hostAddress.writes i.host) (hostAddress.length_toBytes i.host)) <|
      .seq .value .value
  reads := .of_eq (.bind (.nested hostAddress.reads hostAddress.localRead) fun _ =>
    .bind .value fun _ => .bind .value fun _ => .pure) rfl fun _ => rfl
  length_toBytes := Layout.Lawful.sessionInfo.length_write
  localRead := .sessionInfo

theorem localDetails : Agrees LocalDetails where
  size_eq := rfl
  writes d :=
    .seq .value <| .seq .value <| .seq .value <| .seq .value <| .seq .value <| .seq .value <|
      .seq .value <| .seq .value <| .seq .value <| .seq .value <| .seq .value <| .seq .skip <|
      .seq .value <| .seq (.nested (sessionInfo.writes d.info) (sessionInfo.length_toBytes d.info)) <|
      .seq .value .value
  reads := .of_eq (.bind .value fun _ => .bind .value fun _ => .bind .value fun _ =>
    .bind .value fun _ => .bind .value fun _ => .bind .value fun _ => .bind .value fun _ =>
    .bind .value fun _ => .bind .value fun _ => .bind .value fun _ => .bind .value fun _ =>
    .bind .skip fun _ => .bind .value fun _ =>
    .bind (.nested sessionInfo.reads sessionInfo.localRead) fun _ =>
    .bind .value fun _ => .bind .value fun _ => .pure) rfl fun _ => rfl
  length_toBytes := Layout.Lawful.localDetails.length_write
  localRead := .localDetails

theorem presence : Agrees PresenceImage where
  size_eq := rfl
  writes p :=
    .seq .value <| .seq .value <| .seq .value <| .seq .value <| .seq (.fileTime p.stateTime) <|
      .seq .value (.richField p.rich)
  reads := .of_eq (.bind .value fun _ => .bind .value fun _ => .bind .value fun _ =>
    .bind .value fun _ => .bind .fileTime fun _ => .bind .value fun _ =>
    .bind .richField fun _ => .pure) rfl fun _ => rfl
  length_toBytes := Layout.Lawful.presence.length_write
  localRead := .presence

theorem friend : Agrees FriendImage where
  size_eq := rfl
  writes f :=
    .seq .value <| .seq .value <| .seq .value <| .seq .value <| .seq .value <|
      .seq (.fileTime f.stateTime) <| .seq .value <| .seq (.fileTime f.inviteTime) <|
      .seq .value (.richField f.rich)
  reads := .of_eq (.bind .value fun _ => .bind .value fun _ => .bind .value fun _ =>
    .bind .value fun _ => .bind .value fun _ => .bind .fileTime fun _ => .bind .value fun _ =>
    .bind .fileTime fun _ => .bind .value fun _ => .bind .richField fun _ => .pure) rfl fun _ => rfl
  length_toBytes := Layout.Lawful.friend.length_write
  localRead := .friend

theorem findUserInfo : Agrees FindUserInfo where
  size_eq := rfl
  writes i := .seq .value (.gamertag i.gamertag)
  reads := .of_eq (.bind .value fun _ => .bind .value fun _ => .pure) rfl fun _ => rfl
  length_toBytes := Layout.length_write_findUserInfo
  localRead := .findUserInfo

theorem findUsersHeader : Agrees FindUsersHeader where
  size_eq := rfl
  writes _ := .seq .value .value
  reads := .of_eq (.bind .value fun _ => .bind .value fun _ => .pure) rfl fun _ => rfl
  length_toBytes := Layout.Lawful.findUsersHeader.length_write
  localRead := .findUsersHeader

end Fieldwise.Agrees

/-! ### Images at the front of buffers -/

namespace Fieldwise

variable {α : Type} [GuestImage α] [Fieldwise α]

/-- Whatever the bytes held before, the image takes their place. -/
theorem Agrees.run_put (h : Agrees α) (v : α) {front : Bytes}
    (hfront : front.length = GuestImage.size α) :
    (put v).run ⟨front, 0⟩ = some ((), ⟨GuestImage.toBytes v, GuestImage.size α⟩) := by
  have hlength := h.length_toBytes v
  rw [h.writes v _ (by rw [Nat.zero_add, hlength, hfront]),
    Writer.overwrite_all (hfront.trans hlength.symm), hlength]

theorem Agrees.run_take (h : Agrees α) {front : Bytes} (hfront : front.length = GuestImage.size α) :
    (take (α := α)).run ⟨front, 0⟩ =
      some (GuestImage.layout.read front, ⟨front, GuestImage.size α⟩) := by
  rw [h.reads _ (by rw [Nat.zero_add, hfront]), List.drop_zero, Nat.zero_add]

theorem Agrees.toBytes?_eq (h : Agrees α) (v : α) : toBytes? v = some (GuestImage.toBytes v) := by
  rw [toBytes?, h.size_eq, h.run_put v List.length_replicate, Option.map_some]

theorem Agrees.writeTo?_eq (h : Agrees α) (v : α) (buffer : Bytes) :
    writeTo? v buffer = some (
      if buffer.length < GuestImage.size α then
        (.error ⟨GuestImage.name α, GuestImage.size α, buffer.length⟩, buffer)
      else (.ok (GuestImage.size α), GuestImage.toBytes v ++ buffer.drop (GuestImage.size α))) := by
  rw [writeTo?, h.size_eq]
  by_cases hshort : buffer.length < GuestImage.size α
  · rw [if_pos hshort, if_pos hshort]
  · have hfront : (buffer.take (GuestImage.size α)).length = GuestImage.size α :=
      List.length_take_of_le (Nat.le_of_not_lt hshort)
    rw [if_neg hshort, if_neg hshort, h.run_put v hfront]
    change (guard (GuestImage.size α = GuestImage.size α) : Option Unit).bind _ = _
    rw [guard, if_pos rfl]
    rfl

theorem Agrees.readFrom?_eq (h : Agrees α) (buffer : Bytes) :
    readFrom? α buffer = some (
      if buffer.length < GuestImage.size α then
        .error ⟨GuestImage.name α, GuestImage.size α, buffer.length⟩
      else .ok (GuestImage.layout.read (buffer.take (GuestImage.size α)))) := by
  rw [readFrom?, h.size_eq]
  by_cases hshort : buffer.length < GuestImage.size α
  · rw [if_pos hshort, if_pos hshort]
  · have hfront : (buffer.take (GuestImage.size α)).length = GuestImage.size α :=
      List.length_take_of_le (Nat.le_of_not_lt hshort)
    rw [if_neg hshort, if_neg hshort, h.run_take hfront]
    change (guard (GuestImage.size α = GuestImage.size α) : Option Unit).bind _ = _
    rw [guard, if_pos rfl]
    rfl

/-- Field by field, an image is read as its layout reads the buffer at once. -/
theorem Agrees.readFrom?_eq_ofBytes (h : Agrees α) (buffer : Bytes) :
    readFrom? α buffer = some (GuestImage.ofBytes α buffer) := by
  rw [h.readFrom?_eq, GuestImage.ofBytes, GuestImage.check]
  split
  · rfl
  · exact congrArg (some <| Except.ok ·) (h.localRead buffer)

theorem Agrees.writeTo?_eq_writeTo (h : Agrees α) (v : α) (buffer : Bytes) :
    writeTo? v buffer = some (
      match GuestImage.writeTo v buffer with
      | .error e => (.error e, buffer)
      | .ok buffer' => (.ok (GuestImage.size α), buffer')) := by
  rw [h.writeTo?_eq, GuestImage.writeTo, GuestImage.check]
  split <;> rfl

/-- Images of so many bytes at the front of buffers. Writing one puts it in place of whatever these
bytes held, reading one looks at these bytes only, and a buffer that is too short is refused as it
is. The fields end where the image ends, and none of them is refused on the way there. -/
structure KeepsToSize (α : Type) [GuestImage α] [Fieldwise α] (size : Nat) : Prop where
  size_eq : Fieldwise.size α = size
  length_toBytes : ∀ v : α, (GuestImage.toBytes v).length = size
  toBytes?_eq : ∀ v : α, toBytes? v = some (GuestImage.toBytes v)
  run_put : ∀ (v : α) (front : Bytes), front.length = size →
    (put v).run ⟨front, 0⟩ = some ((), ⟨GuestImage.toBytes v, size⟩)
  run_take : ∀ front : Bytes, front.length = size →
    (take (α := α)).run ⟨front, 0⟩ = some (GuestImage.layout.read front, ⟨front, size⟩)
  writeTo?_eq : ∀ (v : α) (buffer : Bytes), writeTo? v buffer = some (
    if buffer.length < size then (.error ⟨GuestImage.name α, size, buffer.length⟩, buffer)
    else (.ok size, GuestImage.toBytes v ++ buffer.drop size))
  readFrom?_eq : ∀ buffer : Bytes, readFrom? α buffer = some (
    if buffer.length < size then .error ⟨GuestImage.name α, size, buffer.length⟩
    else .ok (GuestImage.layout.read (buffer.take size)))

theorem Agrees.keepsToSize (h : Agrees α) : KeepsToSize α (GuestImage.size α) where
  size_eq := h.size_eq
  length_toBytes := h.length_toBytes
  toBytes?_eq := h.toBytes?_eq
  run_put v _ hfront := h.run_put v hfront
  run_take _ hfront := h.run_take hfront
  writeTo?_eq := h.writeTo?_eq
  readFrom?_eq := h.readFrom?_eq

/-- All structures of guest memory, of which one has padding and two hold others. -/
theorem images_keep_to_size :
    KeepsToSize HostAddress 0x24 ∧ KeepsToSize SessionInfo 0x3C ∧ KeepsToSize LocalDetails 0x80 ∧
      KeepsToSize PresenceImage 0xA4 ∧ KeepsToSize FriendImage 0xC4 ∧
      KeepsToSize FindUserInfo 0x18 ∧ KeepsToSize FindUsersHeader 0x8 :=
  ⟨Agrees.hostAddress.keepsToSize, Agrees.sessionInfo.keepsToSize, Agrees.localDetails.keepsToSize,
    Agrees.presence.keepsToSize, Agrees.friend.keepsToSize, Agrees.findUserInfo.keepsToSize,
    Agrees.findUsersHeader.keepsToSize⟩

example : writeTo? (⟨1, 2⟩ : FindUsersHeader) (List.replicate 9 0xFF) =
    some (.ok 8, [0, 0, 0, 1, 0, 0, 0, 2, 0xFF]) := by
  rfl

/-! ### Values and images -/

/-- Put and taken field by field, values and images of so many bytes stand for each other, and what
is written over the front of a buffer is read from it. Of an image that is read and written again,
`clear` is what comes back. -/
structure Faithful (α : Type) [GuestImage α] [Fieldwise α] (size : Nat) (clear : Bytes → Bytes) :
    Prop where
  readFrom?_toBytes? : ∀ v : α, ∃ image, toBytes? v = some image ∧ image.length = size ∧
    ∀ rest, readFrom? α (image ++ rest) = some (.ok v)
  toBytes?_readFrom? : ∀ image : Bytes, image.length = size →
    ∃ v : α, readFrom? α image = some (.ok v) ∧ toBytes? v = some (clear image)
  readFrom?_writeTo? : ∀ (v : α) (buffer : Bytes), size ≤ buffer.length →
    ∃ after, writeTo? v buffer = some (.ok size, after) ∧ readFrom? α after = some (.ok v)

/-- What the layout keeps is kept by the fields in their order. -/
theorem Agrees.faithful (h : Agrees α) {size : Nat} {clear : Bytes → Bytes}
    (hlayout : GuestImage.Faithful α size clear) : Faithful α size clear where
  readFrom?_toBytes? v := by
    refine ⟨GuestImage.toBytes v, h.toBytes?_eq v, hlayout.length_toBytes v, fun rest => ?_⟩
    rw [h.readFrom?_eq_ofBytes, hlayout.ofBytes_toBytes]
  toBytes?_readFrom? image himage := by
    obtain ⟨v, hread, hback⟩ := hlayout.toBytes_ofBytes image himage
    refine ⟨v, ?_, ?_⟩
    · rw [h.readFrom?_eq_ofBytes, hread]
    · rw [h.toBytes?_eq, hback]
  readFrom?_writeTo? v buffer hroom := by
    refine ⟨GuestImage.toBytes v ++ buffer.drop size, ?_, ?_⟩
    · rw [h.writeTo?_eq_writeTo, GuestImage.writeTo_of_le (hlayout.size_eq ▸ hroom),
        hlayout.size_eq]
    · rw [h.readFrom?_eq_ofBytes, hlayout.ofBytes_toBytes]

/-- The structures that hold all of their images but for padding, which comes back as zeros. -/
theorem values_come_back_from_fields :
    Faithful HostAddress 0x24 id ∧ Faithful SessionInfo 0x3C id ∧
      Faithful LocalDetails 0x80 (Bytes.blank 0x2C 4) ∧ Faithful PresenceImage 0xA4 id ∧
      Faithful FriendImage 0xC4 id ∧ Faithful FindUsersHeader 0x8 id :=
  ⟨Agrees.hostAddress.faithful .hostAddress, Agrees.sessionInfo.faithful .sessionInfo,
    Agrees.localDetails.faithful .localDetails, Agrees.presence.faithful .presence,
    Agrees.friend.faithful .friend, Agrees.findUsersHeader.faithful .findUsersHeader⟩

end Fieldwise

end ConsoleOnline
