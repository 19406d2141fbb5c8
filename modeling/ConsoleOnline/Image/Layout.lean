import ConsoleOnline.Bytes

/-!
Layouts of fixed size. A layout writes a value into a number of bytes that is the same for all
values, and reads one from the front of any bytes, zeros standing for those that are missing.
Layouts of records are put together from those of their fields.
-/
namespace ConsoleOnline

structure Layout (α : Type) where
  size : Nat
  write : α → Bytes
  read : Bytes → α

namespace Layout

/-- Every image has the size of the layout, and reading one gives the value back, whatever bytes
come after it. -/
structure Lawful (l : Layout α) : Prop where
  length_write : ∀ v, (l.write v).length = l.size
  read_write : ∀ v rest, l.read (l.write v ++ rest) = v

/-- A number of `width` bytes. -/
def number (width : Nat) (toNat : α → Nat) (ofNat : Nat → α) : Layout α where
  size := width
  write v := Bytes.bigEndian width (toNat v)
  read bs := ofNat (Bytes.ofBigEndian (Bytes.window width bs).toList)

def uint16 : Layout UInt16 := number 2 UInt16.toNat UInt16.ofNat

def uint32 : Layout UInt32 := number 4 UInt32.toNat UInt32.ofNat

def uint64 : Layout UInt64 := number 8 UInt64.toNat UInt64.ofNat

def bytes (n : Nat) : Layout (Vector UInt8 n) where
  size := n
  write v := v.toList
  read := Bytes.window n

/-- Bytes of no meaning, written as zeros. -/
def padding (n : Nat) : Layout Unit where
  size := n
  write _ := List.replicate n 0
  read _ := ()

/-- One value, then another. -/
def pair (a : Layout α) (b : Layout β) : Layout (α × β) where
  size := a.size + b.size
  write v := a.write v.1 ++ b.write v.2
  read bs := (a.read bs, b.read (bs.drop a.size))

/-- `n` values of one kind. -/
def array (n : Nat) (l : Layout α) : Layout (Vector α n) where
  size := n * l.size
  write v := v.toList.flatMap l.write
  read bs := .ofFn fun i => l.read (bs.drop (i * l.size))

/-- The same image, read as values of another type. -/
def map (l : Layout α) (wrap : α → β) (unwrap : β → α) : Layout β where
  size := l.size
  write v := l.write (unwrap v)
  read bs := wrap (l.read bs)

theorem Lawful.pair {a : Layout α} {b : Layout β} (ha : a.Lawful) (hb : b.Lawful) :
    (a.pair b).Lawful where
  length_write v := by simp [Layout.pair, ha.length_write, hb.length_write]
  read_write v rest := by
    have h := ha.length_write v.1
    simp [Layout.pair, List.append_assoc, ha.read_write, ← h, hb.read_write]

theorem Lawful.map {l : Layout α} (h : l.Lawful) {wrap : α → β} {unwrap : β → α}
    (wrap_unwrap : ∀ v, wrap (unwrap v) = v) : (l.map wrap unwrap).Lawful where
  length_write v := h.length_write (unwrap v)
  read_write v rest := by simp [Layout.map, h.read_write, wrap_unwrap]

theorem Lawful.padding (n : Nat) : (padding n).Lawful where
  length_write _ := by simp [Layout.padding]
  read_write _ _ := rfl

theorem window_append_of_length {n : Nat} {bs rest : Bytes} (h : bs.length = n) :
    (Bytes.window n (bs ++ rest)).toList = bs := by
  subst h
  refine List.ext_getElem (by simp) fun i h₁ h₂ => ?_
  simp [Bytes.window, List.getElem?_append_left h₂, List.getElem?_eq_getElem h₂]

theorem Lawful.bytes (n : Nat) : (bytes n).Lawful where
  length_write v := by simp [Layout.bytes]
  read_write v rest := by
    apply Vector.toList_inj.1
    exact window_append_of_length (Vector.length_toList)

theorem length_flatMap_write {l : Layout α} (h : ∀ v, (l.write v).length = l.size) (vs : List α) :
    (vs.flatMap l.write).length = vs.length * l.size := by
  simp [List.length_flatMap, h, List.map_const']

/-- The image of the value at place `i` begins after `i` images. -/
theorem drop_flatMap_write {l : Layout α} (h : ∀ v, (l.write v).length = l.size) {vs : List α}
    {i : Nat} (hi : i < vs.length) (rest : Bytes) :
    ∃ after, (vs.flatMap l.write ++ rest).drop (i * l.size) = l.write vs[i] ++ after := by
  induction vs generalizing i with
  | nil => simp at hi
  | cons v vs ih =>
    cases i with
    | zero => exact ⟨vs.flatMap l.write ++ rest, by simp⟩
    | succ i =>
      obtain ⟨after, e⟩ := ih (Nat.lt_of_succ_lt_succ hi)
      have hs : (i + 1) * l.size = (l.write v).length + i * l.size := by
        rw [h, Nat.succ_mul, Nat.add_comm]
      refine ⟨after, ?_⟩
      rw [List.flatMap_cons, List.append_assoc, hs, List.drop_append, List.getElem_cons_succ, ← e]
      simp

theorem Lawful.array {l : Layout α} (n : Nat) (h : l.Lawful) : (array n l).Lawful where
  length_write v := by
    have hlength := length_flatMap_write h.length_write v.toList
    rwa [Vector.length_toList] at hlength
  read_write v rest := by
    refine Vector.ext fun i hi => ?_
    have hl : i < v.toList.length := by simpa using hi
    obtain ⟨after, e⟩ := drop_flatMap_write h.length_write hl rest
    simp only [Layout.array, Vector.getElem_ofFn, e, h.read_write]
    simp

theorem Lawful.number {width : Nat} {toNat : α → Nat} {ofNat : Nat → α}
    (ofNat_toNat : ∀ v, ofNat (toNat v) = v) (bound : ∀ v, toNat v < Nat.pow 256 width) :
    (number width toNat ofNat).Lawful where
  length_write v := by simp [Layout.number]
  read_write v rest := by
    simp only [Layout.number]
    rw [window_append_of_length (by simp), Bytes.ofBigEndian_bigEndian,
      Nat.mod_eq_of_lt (bound v), ofNat_toNat]

theorem Lawful.uint16 : uint16.Lawful :=
  .number (fun _ => UInt16.ofNat_toNat) fun v => v.toNat_lt

theorem Lawful.uint32 : uint32.Lawful :=
  .number (fun _ => UInt32.ofNat_toNat) fun v => v.toNat_lt

theorem Lawful.uint64 : uint64.Lawful :=
  .number (fun _ => UInt64.ofNat_toNat) fun v => v.toNat_lt

end Layout

end ConsoleOnline
