import ConsoleOnline.Decimal
import ConsoleOnline.OnlineError
import ConsoleOnline.Text.Utf8

/-!
Where the host of a session is reached: its addresses on the local network and as the online
service sees it, its port and its hardware address.
-/
namespace ConsoleOnline

structure IPv4 where
  octets : Vector UInt8 4 := .replicate 4 0
  deriving DecidableEq, Repr

namespace IPv4

instance : Inhabited IPv4 := ⟨{}⟩

def isUnset (a : IPv4) : Bool := a = {}

/-- Four decimal numbers with points between them. -/
def chars (a : IPv4) : List Char :=
  ['.'].intercalate (a.octets.toList.map fun o => Decimal.natural 1 o.toNat)

def text (a : IPv4) : String := .ofList a.chars

/-- A number below 256, without leading zeros. -/
def octet? (cs : List Char) : Option UInt8 := do
  let ds ← cs.mapM Decimal.digit?
  let n := Digits.value 10 ds
  if cs.isEmpty ∨ (1 < cs.length ∧ cs.head? = some '0') ∨ 3 < cs.length ∨ 255 < n then none
  else some (.ofNat n)

def parse? (s : String) : Option IPv4 :=
  match s.toList.splitOn '.' with
  | [a, b, c, d] => do
    pure ⟨#v[← octet? a, ← octet? b, ← octet? c, ← octet? d]⟩
  | _ => none

end IPv4

structure MacAddress where
  octets : Vector UInt8 6 := .replicate 6 0
  deriving DecidableEq, Repr

namespace MacAddress

instance : Inhabited MacAddress := ⟨{}⟩

def text (m : MacAddress) : String := .ofList (Hex.ofBytes .lower m.octets.toList)

/-- The first of the bytes that is no hexadecimal digit, with its position. -/
def badDigit? (bs : Bytes) : Option (UInt8 × Nat) :=
  bs.zipIdx.find? fun b => (Hex.digit? (Char.ofNat b.1.toNat)).isNone

/-- Twelve hexadecimal digits, with colons and dashes anywhere among them. -/
def parse (s : String) : Except OnlineError MacAddress :=
  let digits := s.toList.filter fun c => c ≠ ':' ∧ c ≠ '-'
  let encoded := Text.Utf8.encode digits
  let refuse fault := .error (.text s (.macAddress fault))
  if encoded.length % 2 = 1 then refuse .oddLength
  else if encoded.length ≠ 12 then refuse .wrongLength
  else
    match badDigit? encoded with
    | some (byte, position) => refuse (.noDigit byte position)
    | none => .ok ⟨Bytes.window 6 ((Hex.toBytes? digits).getD [])⟩

end MacAddress

structure HostAddress where
  ina : IPv4 := {}
  inaOnline : IPv4 := {}
  portOnline : UInt16 := 0
  mac : MacAddress := {}
  onlineId : Vector UInt8 20 := .replicate 20 0
  deriving DecidableEq, Repr

namespace HostAddress

instance : Inhabited HostAddress := ⟨{}⟩

/-- An address that looks the same from the local network and from the online service. -/
def direct (ina : IPv4) (port : UInt16) (mac : MacAddress) : HostAddress :=
  { ina, inaOnline := ina, portOnline := port, mac }

def isUnset (h : HostAddress) : Bool := h.ina.isUnset && h.inaOnline.isUnset

end HostAddress

end ConsoleOnline
