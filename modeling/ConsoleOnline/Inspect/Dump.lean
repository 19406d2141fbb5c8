import ConsoleOnline.Hex

/-!
Dumps of images: a heading with a label and the size, then rows of 16 bytes, each behind the
offset of its first byte.
-/
namespace ConsoleOnline.Inspect

def rowSize : Nat := 16

/-- The bytes of each row. The last row may be shorter than the others. -/
def chunks : Bytes → List Bytes
  | [] => []
  | b :: bs => (b :: bs).take rowSize :: chunks ((b :: bs).drop rowSize)
termination_by bs => bs.length
decreasing_by
  rw [List.length_drop]
  exact Nat.sub_lt (Nat.succ_pos _) (by decide)

/-- Offsets have at least four digits. -/
def row (k : Nat) (held : Bytes) : List Char :=
  [' ', ' '] ++ Hex.atLeast .upper 4 (k * rowSize) ++ [':', ' '] ++ Hex.ofBytes .upper held

def heading (label : String) (bs : Bytes) : List Char :=
  label.toList ++ [' ', '(', '0', 'x'] ++ Hex.atLeast .upper 1 bs.length ++ " bytes)".toList

def rows (bs : Bytes) : List (List Char) := (chunks bs).zipIdx.map fun (held, k) => row k held

def dump (label : String) (bs : Bytes) : List String :=
  (heading label bs :: rows bs).map .ofList

end ConsoleOnline.Inspect
