import ConsoleOnline.Json.Reader
import ConsoleOnline.Json.Writer

/-!
Values that are stored as JSON. They are restored from JSON as it was written, not from its value,
because of a record only the known fields are looked at: what is written in the others need not
have a value. A known field must not be written twice.
-/
namespace ConsoleOnline.Json

class Stored (α : Type) where
  store : α → Value
  restore? : Written → Option α

namespace Written

/-- Restores from the value alone. -/
def scalar? (read : Value → Except Mismatch α) (w : Written) : Option α := do
  (read (← w.value? maxDepth)).toOption

/-- The known fields of a record. A record may be written as an array of its first fields. -/
def record? (names : List String) : Written → Option (List (Option Written))
  | .array items =>
    if items.length ≤ names.length then
      some (items.map some ++ List.replicate (names.length - items.length) none)
    else none
  | .object entries => do
    let fields ← entries.mapM fun (key, w) => (Piece.text? key).map fun cs => (String.ofList cs, w)
    names.mapM fun name =>
      match fields.filter fun field => field.1 = name with
      | [] => some none
      | [field] => some (some field.2)
      | _ => none
  | _ => none

/-- One of several cases: its name alone, or an object with its name and its content. -/
def case? : Written → Option (String × Option Written)
  | .string ps => (Piece.text? ps).map fun cs => (.ofList cs, none)
  | .object [(key, w)] => (Piece.text? key).map fun cs => (.ofList cs, some w)
  | _ => none

/-- One of several cases without content. -/
def plainCase? (cases : List (String × α)) (w : Written) : Option α := do
  match ← w.case? with
  | (name, none) | (name, some .null) => cases.lookup name
  | _ => none

end Written

namespace Stored

def restoreText? (α : Type) [Stored α] (text : String) : Option α :=
  Written.ofChars? text.toList >>= restore?

/-- The text of what another text restores. -/
def recode? (α : Type) [Stored α] (text : String) : Option String :=
  (restoreText? α text).map fun v => (store v).text

instance : Stored UInt8 where
  store n := .ofNat n.toNat
  restore? := Written.scalar? fun v => (v.wholeBelow UInt8.size "u8").map .ofNat

instance : Stored UInt16 where
  store n := .ofNat n.toNat
  restore? := Written.scalar? Value.toUInt16

instance : Stored UInt32 where
  store n := .ofNat n.toNat
  restore? := Written.scalar? Value.toUInt32

instance : Stored UInt64 where
  store n := .ofNat n.toNat
  restore? := Written.scalar? Value.toUInt64

instance : Stored String where
  store := .string
  restore? := Written.scalar? Value.toText

/-- Cases without content, each under its name. -/
@[reducible] def ofCases (cases : List α) (name : α → String) : Stored α where
  store a := .string (name a)
  restore? := Written.plainCase? (cases.map fun a => (name a, a))

/-- Stored as another value is. -/
@[reducible] def via [Stored β] (unwrap : α → β) (wrap? : β → Option α) : Stored α where
  store a := store (unwrap a)
  restore? w := restore? w >>= wrap?

end Stored

end ConsoleOnline.Json
