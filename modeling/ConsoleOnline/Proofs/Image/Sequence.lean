import ConsoleOnline.Proofs.Image.Fieldwise

/-!
Sequences of fields of any kinds, whole structures and skipped bytes among them. Where a buffer has
room for all of them, a writer puts their bytes at its front one after another, and a reader that
is told the kinds finds the same values there and ends at the same place.
-/
namespace ConsoleOnline

/-! ### Kinds of fields -/

/-- Writes a value as a structure of its own. -/
def Put.image [Fieldwise α] (v : α) : Put := Put.nested (Fieldwise.size α) (Fieldwise.put v)

def Take.image (α : Type) [Fieldwise α] : Take α := Take.nested (Fieldwise.size α) Fieldwise.take

inductive FieldKind where
  | uint16
  | uint32
  | uint64
  | bytes (n : Nat)
  | skip (n : Nat)
  | hostAddress
  | sessionInfo
  | localDetails
  | presence
  | friend
  | findUsersHeader
  deriving DecidableEq, Repr

namespace FieldKind

/-- What stands in a field. In skipped bytes there is nothing to be told. -/
abbrev Value : FieldKind → Type
  | uint16 => UInt16
  | uint32 => UInt32
  | uint64 => UInt64
  | bytes n => Vector UInt8 n
  | skip _ => Unit
  | hostAddress => HostAddress
  | sessionInfo => SessionInfo
  | localDetails => LocalDetails
  | presence => PresenceImage
  | friend => FriendImage
  | findUsersHeader => FindUsersHeader

def size : FieldKind → Nat
  | uint16 => 2
  | uint32 => 4
  | uint64 => 8
  | bytes n | skip n => n
  | hostAddress => 0x24
  | sessionInfo => 0x3C
  | localDetails => 0x80
  | presence => 0xA4
  | friend => 0xC4
  | findUsersHeader => 0x8

def put : (k : FieldKind) → k.Value → Put
  | uint16, v => Put.value .uint16 v
  | uint32, v => Put.value .uint32 v
  | uint64, v => Put.value .uint64 v
  | bytes n, v => Put.value (.bytes n) v
  | skip n, _ => Put.skip n
  | hostAddress, v => Put.image v
  | sessionInfo, v => Put.image v
  | localDetails, v => Put.image v
  | presence, v => Put.image v
  | friend, v => Put.image v
  | findUsersHeader, v => Put.image v

def take : (k : FieldKind) → Take k.Value
  | uint16 => Take.value .uint16
  | uint32 => Take.value .uint32
  | uint64 => Take.value .uint64
  | bytes n => Take.value (.bytes n)
  | skip n => Take.skip n
  | hostAddress => Take.image HostAddress
  | sessionInfo => Take.image SessionInfo
  | localDetails => Take.image LocalDetails
  | presence => Take.image PresenceImage
  | friend => Take.image FriendImage
  | findUsersHeader => Take.image FindUsersHeader

def layout : (k : FieldKind) → Layout k.Value
  | uint16 => .uint16
  | uint32 => .uint32
  | uint64 => .uint64
  | bytes n => .bytes n
  | skip n => .padding n
  | hostAddress => .hostAddress
  | sessionInfo => .sessionInfo
  | localDetails => .localDetails
  | presence => .presence
  | friend => .friend
  | findUsersHeader => .findUsersHeader

theorem size_layout (k : FieldKind) : k.layout.size = k.size := by
  cases k <;> rfl

theorem lawful_layout : (k : FieldKind) → k.layout.Lawful
  | uint16 => .uint16
  | uint32 => .uint32
  | uint64 => .uint64
  | bytes n => .bytes n
  | skip n => .padding n
  | hostAddress => .hostAddress
  | sessionInfo => .sessionInfo
  | localDetails => .localDetails
  | presence => .presence
  | friend => .friend
  | findUsersHeader => .findUsersHeader

end FieldKind

/-- Bytes of one kind, with what stands in them. -/
structure ImageField where
  kind : FieldKind
  value : kind.Value

def ImageField.bytes (f : ImageField) : Bytes := f.kind.layout.write f.value

/-- Writes fields in order. -/
def Put.fields (fs : List ImageField) : Put := fs.forM fun f => f.kind.put f.value

/-- Reads fields of these kinds in order. -/
def Take.fields (ks : List FieldKind) : Take (List ImageField) :=
  ks.mapM fun k => do return ⟨k, ← k.take⟩

/-- The bytes that fields of these kinds take up together. -/
def FieldKind.extent : List FieldKind → Nat
  | [] => 0
  | k :: ks => k.size + extent ks

/-! ### One field -/

theorem Put.Writes.image [GuestImage α] [Fieldwise α] (h : Fieldwise.Agrees α) (v : α) :
    (Put.image v).Writes (GuestImage.toBytes v) :=
  .nested (h.writes v) ((h.length_toBytes v).trans h.size_eq.symm)

theorem Take.Reads.image [GuestImage α] [Fieldwise α] (h : Fieldwise.Agrees α) :
    (Take.image α).Reads (GuestImage.size α) (GuestImage.layout (α := α)).read := by
  rw [Take.image, h.size_eq]
  exact .nested h.reads h.localRead

theorem ImageField.writes (f : ImageField) : (f.kind.put f.value).Writes f.bytes :=
  match f with
  | ⟨.uint16, _⟩ | ⟨.uint32, _⟩ | ⟨.uint64, _⟩ | ⟨.bytes _, _⟩ => .value
  | ⟨.skip _, _⟩ => .skip
  | ⟨.hostAddress, v⟩ => .image .hostAddress v
  | ⟨.sessionInfo, v⟩ => .image .sessionInfo v
  | ⟨.localDetails, v⟩ => .image .localDetails v
  | ⟨.presence, v⟩ => .image .presence v
  | ⟨.friend, v⟩ => .image .friend v
  | ⟨.findUsersHeader, v⟩ => .image .findUsersHeader v

theorem FieldKind.reads : (k : FieldKind) → k.take.Reads k.size k.layout.read
  | uint16 | uint32 | uint64 | bytes _ => .value
  | skip _ => .skip
  | hostAddress => .image .hostAddress
  | sessionInfo => .image .sessionInfo
  | localDetails => .image .localDetails
  | presence => .image .presence
  | friend => .image .friend
  | findUsersHeader => .image .findUsersHeader

theorem ImageField.length_bytes (f : ImageField) : f.bytes.length = f.kind.size :=
  (f.kind.lawful_layout.length_write f.value).trans f.kind.size_layout

/-- Where these bytes come next, they are passed, and this is what is read. -/
def Take.Finds (t : Take α) (bs : Bytes) (v : α) : Prop :=
  ∀ before after : Bytes, t.run ⟨before ++ (bs ++ after), before.length⟩ =
    some (v, ⟨before ++ (bs ++ after), before.length + bs.length⟩)

namespace Take

variable {t : Take α} {xs ys : Bytes} {v : α}

theorem Finds.pure : Finds (pure v : Take α) [] v := fun _ _ => rfl

theorem Finds.bind {k : α → Take β} {u : β} (ht : t.Finds xs v) (hk : (k v).Finds ys u) :
    (t >>= k).Finds (xs ++ ys) u := by
  intro before after
  have hbuffer : before ++ (xs ++ ys ++ after) = (before ++ xs) ++ (ys ++ after) := by
    simp only [List.append_assoc]
  have hplace : before.length + xs.length = (before ++ xs).length := List.length_append.symm
  calc (t >>= k).run ⟨before ++ (xs ++ ys ++ after), before.length⟩
      = (t.run ⟨before ++ (xs ++ (ys ++ after)), before.length⟩).bind fun a => (k a.1).run a.2 := by
        rw [List.append_assoc xs ys after]
        rfl
    _ = (k v).run ⟨(before ++ xs) ++ (ys ++ after), (before ++ xs).length⟩ := by
        rw [ht, Option.bind_some, hplace, List.append_assoc before xs]
    _ = _ := by
        rw [hk, hbuffer, ← hplace, List.length_append, Nat.add_assoc]

theorem Reads.finds {n : Nat} {read : Bytes → α} (h : t.Reads n read) (hxs : xs.length = n)
    (hread : ∀ after, read (xs ++ after) = v) : t.Finds xs v := by
  intro before after
  have hroom : before.length + n ≤ (before ++ (xs ++ after)).length := by
    simp only [List.length_append]
    omega
  rw [h ⟨before ++ (xs ++ after), before.length⟩ hroom, List.drop_left, hread, hxs]

end Take

theorem ImageField.finds (f : ImageField) : f.kind.take.Finds f.bytes f.value :=
  f.kind.reads.finds f.length_bytes (f.kind.lawful_layout.read_write f.value)

/-! ### Sequences -/

theorem Put.Writes.fields (fs : List ImageField) :
    (Put.fields fs).Writes (fs.flatMap ImageField.bytes) :=
  .forM ImageField.writes fs

theorem Take.Finds.fields (fs : List ImageField) :
    (Take.fields (fs.map ImageField.kind)).Finds (fs.flatMap ImageField.bytes) fs := by
  induction fs with
  | nil => exact .pure
  | cons f fs ih =>
    rw [List.map_cons, Take.fields, List.mapM_cons, List.flatMap_cons]
    refine .bind (v := f) ?_ ?_
    · rw [← List.append_nil f.bytes]
      exact .bind f.finds .pure
    · rw [← List.append_nil (fs.flatMap ImageField.bytes)]
      exact .bind ih .pure

theorem length_flatMap_bytes (fs : List ImageField) :
    (fs.flatMap ImageField.bytes).length = FieldKind.extent (fs.map ImageField.kind) := by
  induction fs with
  | nil => rfl
  | cons f fs ih =>
    rw [List.flatMap_cons, List.length_append, ih, f.length_bytes]
    rfl

/-- The writer has put the fields, and nothing else, over the front of the buffer: it stands behind
them, skipped bytes are zero, later bytes are as they were, and the fields are read back. -/
structure Carries (w : Writer) (fs : List ImageField) (buffer : Bytes) : Prop where
  position_eq : w.position = FieldKind.extent (fs.map ImageField.kind)
  length_buffer : w.buffer.length = buffer.length
  drop_buffer : w.buffer.drop w.position = buffer.drop w.position
  skipped : ∀ before n after, fs = before ++ ⟨.skip n, ()⟩ :: after →
    (w.buffer.drop (FieldKind.extent (before.map ImageField.kind))).take n = List.replicate n 0
  read_back : (Take.fields (fs.map ImageField.kind)).run ⟨w.buffer, 0⟩ =
    some (fs, ⟨w.buffer, w.position⟩)

theorem carries_overwrite {fs : List ImageField} {buffer : Bytes}
    (h : FieldKind.extent (fs.map ImageField.kind) ≤ buffer.length) :
    Carries (Writer.overwrite ⟨buffer, 0⟩ (fs.flatMap ImageField.bytes)) fs buffer where
  position_eq := by
    rw [Writer.overwrite, Nat.zero_add, length_flatMap_bytes]
  length_buffer := Writer.length_overwrite (by rwa [Nat.zero_add, length_flatMap_bytes])
  drop_buffer := by
    simp only [Writer.overwrite, Nat.zero_add, List.take_zero, List.nil_append, List.drop_left]
  skipped := by
    rintro before n after rfl
    have hskip : ImageField.bytes ⟨.skip n, ()⟩ = List.replicate n 0 := rfl
    simp only [Writer.overwrite, List.take_zero, List.nil_append, List.flatMap_append,
      List.flatMap_cons, hskip, List.append_assoc]
    rw [List.drop_left' (length_flatMap_bytes before), List.take_left' List.length_replicate]
  read_back := by
    have hfinds := Take.Finds.fields fs [] (buffer.drop (fs.flatMap ImageField.bytes).length)
    simpa [Writer.overwrite] using hfinds

theorem Put.run_fields_of_le {fs : List ImageField} {buffer : Bytes}
    (h : FieldKind.extent (fs.map ImageField.kind) ≤ buffer.length) :
    (Put.fields fs).run ⟨buffer, 0⟩ =
      some ((), Writer.overwrite ⟨buffer, 0⟩ (fs.flatMap ImageField.bytes)) :=
  Put.Writes.fields fs ⟨buffer, 0⟩ (by rwa [Nat.zero_add, length_flatMap_bytes])

/-- Fields that the buffer has room for are written, and read back in order. -/
theorem fields_read_back_as_written (fs : List ImageField) (buffer : Bytes)
    (h : FieldKind.extent (fs.map ImageField.kind) ≤ buffer.length) :
    ∃ w, (Put.fields fs).run ⟨buffer, 0⟩ = some ((), w) ∧ Carries w fs buffer :=
  ⟨_, Put.run_fields_of_le h, carries_overwrite h⟩

/-- A structure between skipped bytes, in a buffer of ones that is longer. -/
theorem fields_read_back_amid_ones :
    FieldKind.extent [.skip 3, .hostAddress, .uint16, .skip 1] ≤ (List.replicate 50 0xFF).length ∧
      ∃ w, (Put.fields [⟨.skip 3, ()⟩, ⟨.hostAddress, { portOnline := 3074 }⟩, ⟨.uint16, 0x102⟩,
          ⟨.skip 1, ()⟩]).run ⟨List.replicate 50 0xFF, 0⟩ = some ((), w) ∧
        Carries w [⟨.skip 3, ()⟩, ⟨.hostAddress, { portOnline := 3074 }⟩, ⟨.uint16, 0x102⟩,
          ⟨.skip 1, ()⟩] (List.replicate 50 0xFF) :=
  ⟨by decide, fields_read_back_as_written _ _ (by decide)⟩

end ConsoleOnline
