import ConsoleOnline.Json.Value
import ConsoleOnline.Json.Written
import ConsoleOnline.Text.Utf16

/-!
The value of written JSON. Not all that is well written has one: a surrogate must be in a pair,
a number must not exceed the doubles, and arrays and objects nest at most `maxDepth` deep.
-/
namespace ConsoleOnline.Json

def maxDepth : Nat := 127

/-- The text that pieces spell. -/
def Piece.text? : List Piece → Option (List Char)
  | [] => some []
  | .char c :: rest => (text? rest).map (c :: ·)
  | .unit u :: .unit v :: rest =>
    if Text.Utf16.isHigh u then
      if Text.Utf16.isLow v then (text? rest).map (Text.Utf16.pair u v :: ·) else none
    else if Text.Utf16.isLow u then none
    else (text? (.unit v :: rest)).map (Text.Utf16.single u :: ·)
  | .unit u :: rest =>
    if Text.Utf16.isHigh u || Text.Utf16.isLow u then none
    else (text? rest).map (Text.Utf16.single u :: ·)

namespace Numeral

/-- Takes digits into a significand while it stays below 2^64, and gives the digits left over. -/
def gather (significand : Nat) : List Nat → Nat × List Nat
  | [] => (significand, [])
  | d :: ds =>
    if significand * 10 + d < UInt64.size then gather (significand * 10 + d) ds
    else (significand, d :: ds)

def tenTo (k : Nat) : Float := .ofScientific 1 false k

/-- The product with `10 ^ k`, none above the doubles. -/
def enlarge (x : Float) (k : Nat) : Option Float :=
  if k ≤ 308 then
    let y := x * tenTo k
    if y.isInf then none else some y
  else if x == 0 then some x
  else none

/-- The quotient by `10 ^ k`, taken in steps that are doubles themselves. -/
def reduce (x : Float) (k : Nat) : Float :=
  if k ≤ 308 then x / tenTo k
  else if x == 0 then x
  else reduce (x / tenTo 308) (k - 308)
termination_by k

/-- A double near the number: its significand rounded, then scaled. -/
def real? (negative : Bool) (significand : Nat) (exponent : Int) : Option Float :=
  let x := (UInt64.ofNat significand).toFloat
  let scaled := if 0 ≤ exponent then enlarge x exponent.toNat else some (reduce x (-exponent).toNat)
  scaled.map fun y => if negative then -y else y

/-- A numeral without fraction and exponent is a whole number if 64 bits hold it. The zero with a
minus sign is a double. -/
def number? (n : Numeral) : Option Number :=
  let (whole, dropped) := gather 0 n.whole
  let (significand, unused) := gather whole n.fraction
  let shift : Int := dropped.length - (n.fraction.length - unused.length : Nat)
  match n.fraction, n.exponent, dropped with
  | [], none, [] =>
    if !n.negative then some (.natural (.ofNat whole))
    else if 0 < whole ∧ whole ≤ 0x8000000000000000 then some (.negative (.ofInt (-whole)))
    else (real? true whole 0).map .real
  | _, none, _ => (real? n.negative significand shift).map .real
  | _, some (minus, ds), _ =>
    let e : Int := Digits.value 10 ds
    (real? n.negative significand (if minus then shift - e else shift + e)).map .real

end Numeral

namespace Written

mutual

/-- The value, if arrays and objects are at most `room` deep in it. -/
def value? (room : Nat) : Written → Option Value
  | .null => some .null
  | .bool b => some (.bool b)
  | .number n => n.number?.map .number
  | .string ps => (Piece.text? ps).map .ofChars
  | .array items =>
    match room with
    | 0 => none
    | room + 1 => (values? room items).map .array
  | .object entries =>
    match room with
    | 0 => none
    | room + 1 => (fields? room entries).map .object

def values? (room : Nat) : List Written → Option (List Value)
  | [] => some []
  | w :: rest => do
    let v ← value? room w
    let vs ← values? room rest
    pure (v :: vs)

def fields? (room : Nat) : List (List Piece × Written) → Option (List (String × Value))
  | [] => some []
  | (key, w) :: rest => do
    let name ← Piece.text? key
    let v ← value? room w
    let fields ← fields? room rest
    pure ((.ofList name, v) :: fields)

end

end Written

namespace Value

/-- The value that a text writes. -/
def read? (text : String) : Option Value :=
  Written.ofChars? text.toList >>= Written.value? maxDepth

end Value

end ConsoleOnline.Json
