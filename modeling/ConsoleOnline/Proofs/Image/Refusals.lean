import ConsoleOnline.Proofs.Image.Sequence
import Mathlib.Data.List.DropRight

/-!
What is refused for want of room. A writer refuses every sequence of fields that is longer than the
buffer. A reader looks at the end of the buffer only where it reads a value: skips carry it past the
end, and with nothing to read after them they are not refused. So the two differ on the sequences
that only the skips at their end make too long, and on no others. All of this is about sequences whose
end is a place that a word can tell: on these no position is too great for a word on the way.
-/
namespace ConsoleOnline

/-! ### One field -/

/-- Refused wherever there is room for fewer bytes. -/
def Put.NeedsRoom (p : Put) (n : Nat) : Prop :=
  ∀ w : Writer, w.buffer.length < w.position + n → p.run w = none

/-- Refused wherever fewer bytes are left. -/
def Take.NeedsRoom (t : Take α) (n : Nat) : Prop :=
  ∀ r : Reader, r.buffer.length < r.position + n → t.run r = none

theorem Writer.hasRoom_eq_false {w : Writer} {n : Nat} (h : w.buffer.length < w.position + n) :
    w.hasRoom n = false :=
  decide_eq_false (Nat.not_le_of_lt h)

theorem Put.NeedsRoom.value (l : Layout α) (v : α) :
    (Put.value l v).NeedsRoom (l.write v).length := by
  intro w h
  change (w.put? (l.write v)).map ((), ·) = none
  rw [Writer.put?, Writer.hasRoom_eq_false h]
  rfl

theorem Put.NeedsRoom.skip (n : Nat) : (Put.skip n).NeedsRoom n := by
  intro w h
  change (w.skip? n).map ((), ·) = none
  rw [Writer.skip?, Writer.hasRoom_eq_false h]
  rfl

theorem Put.NeedsRoom.nested (size : Nat) (p : Put) : (Put.nested size p).NeedsRoom size := by
  intro w h
  change (if w.hasRoom size then _ else none) = none
  rw [Writer.hasRoom_eq_false h]
  rfl

theorem Take.NeedsRoom.value (l : Layout α) : (Take.value l).NeedsRoom l.size := by
  intro r h
  change r.value? l = none
  rw [Reader.value?, if_neg (Nat.not_le_of_lt h)]

theorem Take.NeedsRoom.nested (size : Nat) (t : Take α) : (Take.nested size t).NeedsRoom size := by
  intro r h
  change (if r.position + size ≤ r.buffer.length then _ else none) = none
  rw [if_neg (Nat.not_le_of_lt h)]

theorem ImageField.needsRoom (f : ImageField) : (f.kind.put f.value).NeedsRoom f.kind.size := by
  rw [← f.length_bytes]
  match f with
  | ⟨.uint16, v⟩ => exact .value .uint16 v
  | ⟨.uint32, v⟩ => exact .value .uint32 v
  | ⟨.uint64, v⟩ => exact .value .uint64 v
  | ⟨.bytes n, v⟩ => exact .value (.bytes n) v
  | ⟨.skip n, _⟩ =>
    rw [ImageField.length_bytes]
    exact .skip n
  | ⟨.hostAddress, _⟩ | ⟨.sessionInfo, _⟩ | ⟨.localDetails, _⟩ | ⟨.presence, _⟩ | ⟨.friend, _⟩
  | ⟨.findUsersHeader, _⟩ =>
    rw [ImageField.length_bytes]
    exact .nested _ _

namespace FieldKind

def isSkip : FieldKind → Bool
  | skip _ => true
  | _ => false

theorem needsRoom {k : FieldKind} (h : k.isSkip = false) : k.take.NeedsRoom k.size :=
  match k with
  | uint16 => .value .uint16
  | uint32 => .value .uint32
  | uint64 => .value .uint64
  | bytes n => .value (.bytes n)
  | skip _ => nomatch h
  | hostAddress | sessionInfo | localDetails | presence | friend | findUsersHeader => .nested _ _

/-- A skip is never refused. -/
theorem run_take_of_isSkip {k : FieldKind} (h : k.isSkip) (r : Reader) :
    ∃ v, k.take.run r = some (v, { r with position := r.position + k.size }) :=
  match k with
  | skip _ => ⟨(), rfl⟩

/-! ### Sequences -/

/-- Less the skips at the end. -/
def dropSkips (ks : List FieldKind) : List FieldKind := ks.rdropWhile isSkip

theorem extent_append (ks js : List FieldKind) : extent (ks ++ js) = extent ks + extent js := by
  induction ks with
  | nil => exact (Nat.zero_add _).symm
  | cons k ks ih => rw [List.cons_append, extent, ih, extent, Nat.add_assoc]

theorem extent_concat (ks : List FieldKind) (k : FieldKind) :
    extent (ks ++ [k]) = extent ks + k.size :=
  extent_append ks [k]

theorem dropSkips_of_isSkip {ks : List FieldKind} {k : FieldKind} (h : k.isSkip) :
    dropSkips (ks ++ [k]) = dropSkips ks :=
  List.rdropWhile_concat_pos isSkip ks k h

theorem dropSkips_of_not_isSkip {ks : List FieldKind} {k : FieldKind} (h : k.isSkip = false) :
    dropSkips (ks ++ [k]) = ks ++ [k] :=
  List.rdropWhile_concat_neg isSkip ks k (by simp [h])

theorem extent_dropSkips_le (ks : List FieldKind) : extent (dropSkips ks) ≤ extent ks := by
  induction ks using List.reverseRecOn with
  | nil => exact Nat.le_refl 0
  | append_singleton ks k ih =>
    cases h : k.isSkip with
    | true =>
      rw [dropSkips_of_isSkip h, extent_concat]
      exact Nat.le_trans ih (Nat.le_add_right ..)
    | false => rw [dropSkips_of_not_isSkip h]

end FieldKind

open FieldKind (extent dropSkips)

theorem Put.run_fields_concat (fs : List ImageField) (f : ImageField) (w : Writer) :
    (Put.fields (fs ++ [f])).run w =
      ((Put.fields fs).run w).bind fun a => (f.kind.put f.value).run a.2 := by
  induction fs generalizing w with
  | nil => simp [Put.fields]
  | cons g gs ih =>
    change ((g.kind.put g.value).run w).bind (fun a => (Put.fields (gs ++ [f])).run a.2) = _
    simp only [ih, ← Option.bind_assoc]
    rfl

theorem Take.run_fields_concat (ks : List FieldKind) (k : FieldKind) (r : Reader) :
    (Take.fields (ks ++ [k])).run r =
      ((Take.fields ks).run r).bind fun a =>
        (k.take.run a.2).map fun b => (a.1 ++ [⟨k, b.1⟩], b.2) := by
  simp [Take.fields, List.mapM_append]

variable {fs : List ImageField} {ks : List FieldKind} {buffer : Bytes}

theorem Put.run_fields_of_lt (h : buffer.length < extent (fs.map ImageField.kind)) :
    (Put.fields fs).run ⟨buffer, 0⟩ = none := by
  induction fs using List.reverseRecOn with
  | nil => exact absurd h (Nat.not_lt_zero _)
  | append_singleton fs f ih =>
    rw [Put.run_fields_concat]
    rcases Nat.lt_or_ge buffer.length (extent (fs.map ImageField.kind)) with hlt | hle
    · rw [ih hlt, Option.bind_none]
    · -- The fields before fit, and the last one does not.
      have hw := carries_overwrite hle
      rw [Put.run_fields_of_le hle, Option.bind_some]
      refine f.needsRoom _ ?_
      rwa [hw.length_buffer, hw.position_eq, ← FieldKind.extent_concat, ← List.map_singleton,
        ← List.map_append]

theorem Take.run_fields_of_le (h : extent (dropSkips ks) ≤ buffer.length) :
    ∃ fs, (Take.fields ks).run ⟨buffer, 0⟩ = some (fs, ⟨buffer, extent ks⟩) := by
  induction ks using List.reverseRecOn with
  | nil => exact ⟨[], rfl⟩
  | append_singleton ks k ih =>
    simp only [Take.run_fields_concat, FieldKind.extent_concat]
    cases hk : k.isSkip with
    | true =>
      rw [FieldKind.dropSkips_of_isSkip hk] at h
      obtain ⟨fs, hfs⟩ := ih h
      obtain ⟨v, hv⟩ := FieldKind.run_take_of_isSkip hk ⟨buffer, extent ks⟩
      exact ⟨fs ++ [⟨k, v⟩], by rw [hfs, Option.bind_some, hv, Option.map_some]⟩
    | false =>
      rw [FieldKind.dropSkips_of_not_isSkip hk, FieldKind.extent_concat] at h
      have hbefore : extent ks ≤ buffer.length := Nat.le_of_add_right_le h
      obtain ⟨fs, hfs⟩ := ih (Nat.le_trans (FieldKind.extent_dropSkips_le ks) hbefore)
      exact ⟨_, by rw [hfs, Option.bind_some, k.reads ⟨buffer, extent ks⟩ h, Option.map_some]⟩

theorem Take.run_fields_of_lt (h : buffer.length < extent (dropSkips ks)) :
    (Take.fields ks).run ⟨buffer, 0⟩ = none := by
  induction ks using List.reverseRecOn with
  | nil => exact absurd h (Nat.not_lt_zero _)
  | append_singleton ks k ih =>
    rw [Take.run_fields_concat]
    cases hk : k.isSkip with
    | true =>
      rw [FieldKind.dropSkips_of_isSkip hk] at h
      rw [ih h, Option.bind_none]
    | false =>
      rw [FieldKind.dropSkips_of_not_isSkip hk, FieldKind.extent_concat] at h
      rcases Nat.lt_or_ge buffer.length (extent (dropSkips ks)) with hlt | hle
      · rw [ih hlt, Option.bind_none]
      · obtain ⟨fs, hfs⟩ := Take.run_fields_of_le hle
        rw [hfs, Option.bind_some, FieldKind.needsRoom hk ⟨buffer, extent ks⟩ h, Option.map_none]

theorem Put.run_fields_eq_none_iff : (Put.fields fs).run ⟨buffer, 0⟩ = none ↔
    buffer.length < extent (fs.map ImageField.kind) := by
  refine ⟨fun h => Nat.lt_of_not_le fun hle => ?_, Put.run_fields_of_lt⟩
  rw [Put.run_fields_of_le hle] at h
  nomatch h

theorem Take.run_fields_eq_none_iff : (Take.fields ks).run ⟨buffer, 0⟩ = none ↔
    buffer.length < extent (dropSkips ks) := by
  refine ⟨fun h => Nat.lt_of_not_le fun hle => ?_, Take.run_fields_of_lt⟩
  obtain ⟨fs, hfs⟩ := Take.run_fields_of_le hle
  rw [hfs] at h
  nomatch h

/-- What has been written leaves the writer behind all of the fields, inside the buffer. -/
theorem Put.writer_of_run_fields {w : Writer}
    (h : (Put.fields fs).run ⟨buffer, 0⟩ = some ((), w)) :
    w.position = extent (fs.map ImageField.kind) ∧ w.position ≤ w.buffer.length := by
  rcases Nat.lt_or_ge buffer.length (extent (fs.map ImageField.kind)) with hlt | hle
  · rw [Put.run_fields_of_lt hlt] at h
    nomatch h
  · have hw := carries_overwrite hle
    rw [Put.run_fields_of_le hle] at h
    cases h
    refine ⟨hw.position_eq, ?_⟩
    rwa [hw.length_buffer, hw.position_eq]

/-- What has been read leaves the reader behind all of the fields, wherever that is. -/
theorem Take.reader_of_run_fields {vs : List ImageField} {r : Reader}
    (h : (Take.fields ks).run ⟨buffer, 0⟩ = some (vs, r)) : r = ⟨buffer, extent ks⟩ := by
  rcases Nat.lt_or_ge buffer.length (extent (dropSkips ks)) with hlt | hle
  · rw [Take.run_fields_of_lt hlt] at h
    nomatch h
  · obtain ⟨fs, hfs⟩ := Take.run_fields_of_le hle
    rw [hfs] at h
    cases h
    rfl

/-- Behind each of the fields is a place that a word can tell. -/
theorem lt_size_of_split (h : extent (fs.map ImageField.kind) < UInt64.size)
    {before after : List ImageField} {f : ImageField} (hfs : fs = before ++ f :: after) :
    extent (before.map ImageField.kind) + f.kind.size < UInt64.size := by
  rw [hfs, List.map_append, List.map_cons, FieldKind.extent_append, extent] at h
  omega

/-- When these fields are refused at the front of this buffer, and where one stands when they are
not. Skips at the end count for the writer alone, so a reader can be left past the end; the two part
in just the buffers between the two lengths. On the way, the place behind the next field always has
room in a word, so these are the positions of words too. -/
structure Refusals (fs : List ImageField) (buffer : Bytes) : Prop where
  writer_iff : (Put.fields fs).run ⟨buffer, 0⟩ = none ↔
    buffer.length < extent (fs.map ImageField.kind)
  writer_inside : ∀ w, (Put.fields fs).run ⟨buffer, 0⟩ = some ((), w) →
    w.position ≤ w.buffer.length
  writer_fits : ∀ before f after, fs = before ++ f :: after → ∀ w,
    (Put.fields before).run ⟨buffer, 0⟩ = some ((), w) → w.position + f.kind.size < UInt64.size
  reader_iff : (Take.fields (fs.map ImageField.kind)).run ⟨buffer, 0⟩ = none ↔
    buffer.length < extent (dropSkips (fs.map ImageField.kind))
  reader_inside_iff : ∀ vs r,
    (Take.fields (fs.map ImageField.kind)).run ⟨buffer, 0⟩ = some (vs, r) →
      (r.position ≤ r.buffer.length ↔ extent (fs.map ImageField.kind) ≤ buffer.length)
  reader_fits : ∀ before f after, fs = before ++ f :: after → ∀ vs r,
    (Take.fields (before.map ImageField.kind)).run ⟨buffer, 0⟩ = some (vs, r) →
      r.position + f.kind.size < UInt64.size
  alike_iff : ((Take.fields (fs.map ImageField.kind)).run ⟨buffer, 0⟩ = none ↔
      (Put.fields fs).run ⟨buffer, 0⟩ = none) ↔
    ¬(extent (dropSkips (fs.map ImageField.kind)) ≤ buffer.length ∧
      buffer.length < extent (fs.map ImageField.kind))

/-- Writing and reading the same fields are refused alike, unless only skips at the end of them lack
room. The end of the fields is a place that a word can tell. -/
theorem fields_refused_alike_iff (fs : List ImageField) (buffer : Bytes)
    (h : extent (fs.map ImageField.kind) < UInt64.size) : Refusals fs buffer where
  writer_iff := Put.run_fields_eq_none_iff
  writer_inside _ hw := (Put.writer_of_run_fields hw).2
  writer_fits before f after hfs w hw := by
    rw [(Put.writer_of_run_fields hw).1]
    exact lt_size_of_split h hfs
  reader_iff := Take.run_fields_eq_none_iff
  reader_inside_iff := by
    intro vs r hr
    rw [Take.reader_of_run_fields hr]
  reader_fits before f after hfs vs r hr := by
    rw [Take.reader_of_run_fields hr]
    exact lt_size_of_split h hfs
  alike_iff := by
    have hle := FieldKind.extent_dropSkips_le (fs.map ImageField.kind)
    rw [Take.run_fields_eq_none_iff, Put.run_fields_eq_none_iff]
    omega

/-- The longest skip that may follow a number of two bytes. -/
theorem fields_refused_alike_at_greatest_skip :
    extent (([⟨.uint16, 0x102⟩, ⟨.skip (UInt64.size - 3), ()⟩] : List ImageField).map
        ImageField.kind) < UInt64.size ∧
      Refusals [⟨.uint16, 0x102⟩, ⟨.skip (UInt64.size - 3), ()⟩] (List.replicate 4 0xFF) :=
  ⟨by decide, fields_refused_alike_iff _ _ (by decide)⟩

/-- A skip in an empty buffer is not written, and is read: it leaves the reader past the end. -/
theorem skip_read_past_end :
    (Put.fields [⟨.skip 1, ()⟩]).run ⟨[], 0⟩ = none ∧
      (Take.fields [.skip 1]).run ⟨[], 0⟩ = some ([⟨.skip 1, ()⟩], ⟨[], 1⟩) :=
  ⟨rfl, rfl⟩

end ConsoleOnline
