import ConsoleOnline.Decimal
import ConsoleOnline.Text.Quoted

/-!
JSON values. Whole numbers are kept exactly between -2^63 and 2^64 - 1, every other number as a
double. An object keeps its fields as they came; of two fields with one name the last counts.
-/
namespace ConsoleOnline.Json

inductive Number where
  | natural (n : UInt64)
  | negative (n : Int64)
  | real (x : Float)
  deriving Repr

inductive Value where
  | null
  | bool (b : Bool)
  | number (n : Number)
  | string (s : String)
  | array (items : List Value)
  | object (fields : List (String × Value))
  deriving Repr, Inhabited

/-- Doubles have a point or an exponent: positional from `0.00001` to sixteen whole digits. -/
def Number.layout : Decimal.Layout where
  least := -5
  most := 15

def Number.chars : Number → List Char
  | .natural n => Decimal.natural 1 n.toNat
  | .negative n => '-' :: Decimal.natural 1 n.toInt.natAbs
  | .real x =>
    let magnitude := if x == 0 then ['0', '.', '0'] else (Binary.ofFloat x).shortest.text layout
    if x.toBits < 0x8000000000000000 then magnitude else '-' :: magnitude

namespace Value

/-- A natural number, where it fits 64 bits. -/
def ofNat (n : Nat) : Value := .number (.natural (.ofNat n))

def ofChars (cs : List Char) : Value := .string (.ofList cs)

/-- The last field of this name. -/
def field? (name : String) : List (String × Value) → Option Value
  | [] => none
  | (k, v) :: rest =>
    match field? name rest with
    | some w => some w
    | none => if k = name then some v else none

/-- The named fields of a record, null where one is absent. A record is an object, or an array of
at most as many items as there are names, in their order. -/
def record? (names : List String) : Value → Option (List Value)
  | .object fields => some (names.map fun name => (field? name fields).getD .null)
  | .array items =>
    if items.length ≤ names.length then
      some (items ++ List.replicate (names.length - items.length) .null)
    else none
  | _ => none

/-- How a diagnostic names a value that it did not expect. -/
def description : Value → String
  | .null => "null"
  | .bool b => "boolean `" ++ (if b then "true" else "false") ++ "`"
  | .number (.real x) => "floating point `" ++ .ofList (Number.real x).chars ++ "`"
  | .number n => "integer `" ++ .ofList n.chars ++ "`"
  | .string s => "string " ++ .ofList (Text.quoted '"' s.toList)
  | .array _ => "sequence"
  | .object _ => "map"

end Value

/-- Why a value is not what its place asks for. -/
inductive Mismatch where
  | wrongType (found : Value) (expected : String)
  | outOfRange (found : Number) (expected : String)
  | missing (field : String)
  deriving Repr

def Mismatch.message : Mismatch → String
  | .wrongType found expected => "invalid type: " ++ found.description ++ ", expected " ++ expected
  | .outOfRange found expected =>
    "invalid value: " ++ (Value.number found).description ++ ", expected " ++ expected
  | .missing field => "missing field `" ++ field ++ "`"

namespace Value

/-- A whole number from zero up to, and without, `bound`. -/
def wholeBelow (bound : Nat) (expected : String) : Value → Except Mismatch Nat
  | .number (.natural n) =>
    if n.toNat < bound then .ok n.toNat else .error (.outOfRange (.natural n) expected)
  | .number (.negative n) => .error (.outOfRange (.negative n) expected)
  | v => .error (.wrongType v expected)

def toUInt16 (v : Value) : Except Mismatch UInt16 := (wholeBelow UInt16.size "u16" v).map .ofNat

def toUInt32 (v : Value) : Except Mismatch UInt32 := (wholeBelow UInt32.size "u32" v).map .ofNat

def toUInt64 (v : Value) : Except Mismatch UInt64 := (wholeBelow UInt64.size "u64" v).map .ofNat

def toText : Value → Except Mismatch String
  | .string s => .ok s
  | v => .error (.wrongType v "a string")

/-- Null is no value. -/
def optional (read : Value → Except Mismatch α) : Value → Except Mismatch (Option α)
  | .null => .ok none
  | v => (read v).map some

end Value

end ConsoleOnline.Json
