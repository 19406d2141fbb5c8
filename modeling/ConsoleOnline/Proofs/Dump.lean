import ConsoleOnline.Inspect.Dump
import ConsoleOnline.Proofs.Numerals
import Mathlib.Algebra.Order.Floor.Div
import Mathlib.Data.List.DropRight

/-!
What a dump tells. Under the heading, the bytes stand in rows of sixteen, each behind the offset of
its first byte, and what is left stands in a last row; so they can be read off the lines again. The
label may be any text, with line feeds and made-up rows in it. A heading ends with a bracket and no
row has one, so the bytes can be read off an output that ends with the dump even by one who does not
know the label.
-/
namespace ConsoleOnline.Inspect

/-! ### Bytes in rows -/

/-- No byte is lost in the rows, and none is moved. -/
theorem flatten_chunks (bs : Bytes) : (chunks bs).flatten = bs := by
  fun_induction chunks bs with
  | case1 => rfl
  | case2 b bs ih => rw [List.flatten_cons, ih, List.take_append_drop]

/-- A row for every sixteen bytes, and one for what is left. -/
theorem length_chunks (bs : Bytes) : (chunks bs).length = bs.length ⌈/⌉ 16 := by
  fun_induction chunks bs with
  | case1 => rfl
  | case2 b bs ih =>
    rw [List.length_cons, ih, List.length_drop, List.length_cons, rowSize,
      Nat.ceilDiv_eq_add_pred_div, Nat.ceilDiv_eq_add_pred_div]
    omega

/-- A row has what is left from its offset on, as far as there is room. -/
theorem length_getElem_chunks {bs : Bytes} {k : Nat} (h : k < (chunks bs).length) :
    (chunks bs)[k].length = min 16 (bs.length - 16 * k) := by
  fun_induction chunks bs generalizing k with
  | case1 => exact absurd h (Nat.not_lt_zero k)
  | case2 b bs ih =>
    cases k with
    | zero => rw [List.getElem_cons_zero, List.length_take, rowSize, Nat.mul_zero, Nat.sub_zero]
    | succ k =>
      rw [List.getElem_cons_succ, ih (Nat.lt_of_succ_lt_succ h), List.length_drop, rowSize,
        Nat.sub_sub, Nat.mul_succ, Nat.add_comm]

/-- No row begins behind the end of the bytes. -/
theorem lt_length_of_lt_length_chunks {bs : Bytes} {k : Nat} (h : k < (chunks bs).length) :
    16 * k < bs.length := by
  rw [length_chunks, Nat.ceilDiv_eq_add_pred_div] at h
  omega

theorem length_rows (bs : Bytes) : (rows bs).length = (chunks bs).length := by
  rw [rows, List.length_map, List.length_zipIdx]

/-! ### One row -/

/-- The digits of a row stand behind its colon and a blank. -/
def rowDigits (line : List Char) : List Char := (line.dropWhile (· ≠ ':')).drop 2

/-- The line is a row with these bytes: two upper-case digits for each, behind the offset of the
first of them in at least four digits. -/
structure IsRow (offset : Nat) (held : Bytes) (line : List Char) : Prop where
  layout : ∃ number, Hex.Numeral 4 offset number ∧
    line = [' ', ' '] ++ number ++ [':', ' '] ++ rowDigits line
  upper : ∀ c ∈ rowDigits line, Hex.IsUpperDigit c
  bytes : Hex.toBytes? (rowDigits line) = some held

theorem rowDigits_row (k : Nat) (held : Bytes) :
    rowDigits (row k held) = Hex.ofBytes .upper held := by
  have hnumber := Hex.forall_mem_atLeast (p := fun c => c ≠ ':') (k := .upper) (by decide) 4
    (k * rowSize)
  have hbefore : ∀ c ∈ [' ', ' '] ++ Hex.atLeast .upper 4 (k * rowSize), decide (c ≠ ':') := by
    intro c hc
    rcases List.mem_append.mp hc with hc | hc
    · simp only [List.mem_cons, List.not_mem_nil, or_false, or_self] at hc
      rw [hc]
      rfl
    · exact decide_eq_true (hnumber c hc)
  rw [rowDigits, row, List.append_assoc _ [':', ' '], List.dropWhile_append_of_pos hbefore]
  rfl

theorem isRow_row (k : Nat) (held : Bytes) : IsRow (16 * k) held (row k held) where
  layout := by
    refine ⟨Hex.atLeast .upper 4 (k * rowSize), ?_, ?_⟩
    · rw [Nat.mul_comm 16, rowSize]
      exact Hex.numeral_atLeast (by decide) _
    · rw [rowDigits_row, row]
  upper := by
    rw [rowDigits_row]
    exact Hex.forall_mem_ofBytes Hex.isUpperDigit_digit _
  bytes := by rw [rowDigits_row, Hex.toBytes?_ofBytes]

theorem forall_mem_row {p : Char → Prop} (hblank : p ' ') (hcolon : p ':')
    (h : ∀ d : Fin 16, p (Hex.digit .upper d)) (k : Nat) (held : Bytes) :
    ∀ c ∈ row k held, p c := by
  have hnumber := Hex.forall_mem_atLeast h 4 (k * rowSize)
  have hdigits := Hex.forall_mem_ofBytes h held
  simp only [row, List.forall_mem_append, List.forall_mem_cons]
  exact ⟨⟨⟨⟨hblank, hblank, by simp⟩, hnumber⟩, hcolon, hblank, by simp⟩, hdigits⟩

/-! ### The lines of a dump -/

/-- The heading has the label and the number of bytes in it. -/
def IsHeading (label : String) (size : Nat) (line : String) : Prop :=
  ∃ number, Hex.Numeral 1 size number ∧
    line.toList = label.toList ++ " (0x".toList ++ number ++ " bytes)".toList

/-- The lines are rows that hold the bytes in order. Every row but the last is full, and the last one
is not empty. -/
structure Holds (bs : Bytes) (lines : List String) : Prop where
  length_eq : lines.length = bs.length ⌈/⌉ 16
  row : ∀ (k : Nat) (h : k < lines.length), ∃ held, IsRow (16 * k) held lines[k].toList ∧
    0 < held.length ∧ held.length ≤ 16 ∧ (k + 1 < lines.length → held.length = 16)
  bytes : Hex.toBytes? (lines.flatMap fun line => rowDigits line.toList) = some bs

theorem isHeading_heading (label : String) (bs : Bytes) :
    IsHeading label bs.length (.ofList (heading label bs)) :=
  ⟨_, Hex.numeral_atLeast (by decide) bs.length, String.toList_ofList⟩

/-- What the rows have behind their colons are the digits of all bytes. -/
theorem flatMap_rowDigits (bs : Bytes) : (rows bs).flatMap rowDigits = Hex.ofBytes .upper bs := by
  calc (rows bs).flatMap rowDigits
      = (chunks bs).zipIdx.flatMap fun place => Hex.ofBytes .upper place.1 := by
        simp only [rows, List.flatMap_map, rowDigits_row]
    _ = (chunks bs).flatMap (Hex.ofBytes .upper) := by
        rw [← List.flatMap_map Prod.fst, List.zipIdx_map_fst]
    _ = Hex.ofBytes .upper ((chunks bs).flatMap id) := List.flatMap_assoc.symm
    _ = Hex.ofBytes .upper bs := by rw [List.flatMap_id, flatten_chunks]

theorem holds_rows (bs : Bytes) : Holds bs ((rows bs).map .ofList) where
  length_eq := by rw [List.length_map, length_rows, length_chunks]
  row := by
    intro k h
    rw [List.length_map, length_rows] at h
    have hline : ((rows bs).map String.ofList)[k].toList = row k (chunks bs)[k] := by simp [rows]
    have hbegun := lt_length_of_lt_length_chunks h
    refine ⟨(chunks bs)[k], hline ▸ isRow_row k _, ?_, ?_, fun hnext => ?_⟩
    · rw [length_getElem_chunks]
      omega
    · rw [length_getElem_chunks]
      omega
    · -- the row after this one has begun, too
      rw [List.length_map, length_rows] at hnext
      have hfull := lt_length_of_lt_length_chunks hnext
      rw [length_getElem_chunks]
      omega
  bytes := by
    rw [List.flatMap_map]
    simp only [String.toList_ofList, flatMap_rowDigits, Hex.toBytes?_ofBytes]

/-! ### The output -/

/-- What is printed: every line is ended by a line feed. -/
def printed (lines : List String) : List Char := lines.flatMap fun line => line.toList ++ ['\n']

/-- The bytes shown by an output that ends with a dump: behind the last closing bracket there is
nothing but rows. -/
def shown? (output : List Char) : Option Bytes :=
  Hex.toBytes? (((output.rtakeWhile (· ≠ ')')).splitOn '\n').flatMap rowDigits)

theorem printed_cons (line : String) (lines : List String) :
    printed (line :: lines) = line.toList ++ '\n' :: printed lines := by
  rw [printed, List.flatMap_cons, List.append_assoc]
  rfl

theorem forall_mem_printed {p : Char → Prop} (hfeed : p '\n') {lines : List String}
    (h : ∀ line ∈ lines, ∀ c ∈ line.toList, p c) : ∀ c ∈ printed lines, p c := by
  intro c hc
  obtain ⟨line, hline, hc⟩ := List.mem_flatMap.mp hc
  rcases List.mem_append.mp hc with hc | hc
  · exact h line hline c hc
  · rwa [List.mem_singleton.mp hc]

theorem splitOn_printed {lines : List String} (h : ∀ line ∈ lines, '\n' ∉ line.toList) :
    (printed lines).splitOn '\n' = lines.map String.toList ++ [[]] := by
  induction lines with
  | nil => rfl
  | cons line lines ih =>
    obtain ⟨hline, hlines⟩ := List.forall_mem_cons.mp h
    have hfeed : ∀ c ∈ line.toList, (c == '\n') = false := fun c hc =>
      beq_eq_false_iff_ne.mpr fun he => hline (he ▸ hc)
    rw [printed_cons, List.splitOn_eq_splitOnP,
      List.splitOnP_append_cons_of_forall_mem hfeed '\n' rfl, ← List.splitOn_eq_splitOnP, ih hlines,
      List.map_cons, List.cons_append]

/-- What stands behind the last character of a kind is found from the end. -/
theorem rtakeWhile_ne_behind {x : Char} {after : List Char} (h : ∀ c ∈ after, c ≠ x)
    (before : List Char) : (before ++ x :: after).rtakeWhile (· ≠ x) = after := by
  have hafter : ∀ c ∈ after.reverse, decide (c ≠ x) := fun c hc =>
    decide_eq_true (h c (List.mem_reverse.mp hc))
  rw [List.rtakeWhile, List.reverse_append, List.reverse_cons, List.append_assoc,
    List.takeWhile_append_of_pos hafter]
  simp

/-- The rows, below an empty line. -/
def bareRows (bs : Bytes) : List String := "" :: (rows bs).map .ofList

theorem forall_mem_bareRows {p : Char → Prop} (hblank : p ' ') (hcolon : p ':')
    (h : ∀ d : Fin 16, p (Hex.digit .upper d)) (bs : Bytes) :
    ∀ line ∈ bareRows bs, ∀ c ∈ line.toList, p c := by
  refine List.forall_mem_cons.mpr ⟨by simp, fun line hline => ?_⟩
  obtain ⟨_, hrow, rfl⟩ := List.mem_map.mp hline
  obtain ⟨⟨held, k⟩, -, rfl⟩ := List.mem_map.mp hrow
  rw [String.toList_ofList]
  exact forall_mem_row hblank hcolon h k held

/-- The bracket of the heading is the last one, whatever is printed before the dump. -/
theorem rtakeWhile_printed_dump (before : List Char) (label : String) (bs : Bytes) :
    (before ++ printed (dump label bs)).rtakeWhile (· ≠ ')') = printed (bareRows bs) := by
  obtain ⟨text, hheading⟩ : ∃ text, heading label bs = text ++ [')'] :=
    ⟨_, (List.append_assoc _ " bytes".toList [')']).symm⟩
  have hrows : ∀ c ∈ printed (bareRows bs), c ≠ ')' := by
    refine forall_mem_printed (by decide) ?_
    exact forall_mem_bareRows (by decide) (by decide) (by decide) bs
  rw [dump, List.map_cons, printed_cons, String.toList_ofList, hheading, List.append_assoc text,
    ← List.append_assoc before]
  exact rtakeWhile_ne_behind hrows (before ++ text)

theorem flatMap_rowDigits_bareRows (bs : Bytes) :
    ((bareRows bs).map String.toList ++ [[]]).flatMap rowDigits = Hex.ofBytes .upper bs := by
  have hlines : (bareRows bs).map String.toList = [] :: rows bs := by simp [bareRows]
  rw [hlines, List.flatMap_append, List.flatMap_cons, flatMap_rowDigits]
  simp [rowDigits]

theorem shown?_printed (before : List Char) (label : String) (bs : Bytes) :
    shown? (before ++ printed (dump label bs)) = some bs := by
  have hfeed : ∀ line ∈ bareRows bs, '\n' ∉ line.toList := fun line hline hc =>
    forall_mem_bareRows (p := (· ≠ '\n')) (by decide) (by decide) (by decide) bs line hline _ hc rfl
  rw [shown?, rtakeWhile_printed_dump, splitOn_printed hfeed, flatMap_rowDigits_bareRows,
    Hex.toBytes?_ofBytes]

/-- Whatever the label, a dump is a heading with it and rows that hold the bytes, one for every
sixteen of them and one for what is left. So the lines tell the bytes, and so does every output that
ends with them, whatever the label and the output before it have in them. -/
theorem dump_holds_bytes (label : String) (bs : Bytes) :
    ∃ heading rows, dump label bs = heading :: rows ∧ IsHeading label bs.length heading ∧
      Holds bs rows ∧ ∀ before, shown? (before ++ printed (dump label bs)) = some bs :=
  ⟨_, _, rfl, isHeading_heading label bs, holds_rows bs, fun before => shown?_printed before label bs⟩

/-- A label that looks like a dump of another byte. -/
example : shown? (printed (dump "A (0x1 bytes)\n  0000: FF\nB" [0x2A])) = some [0x2A] := by
  decide +kernel

end ConsoleOnline.Inspect
