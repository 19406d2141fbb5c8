import ConsoleOnline.HexNumber

/-!
Identifiers of users, titles and sessions. The top byte of a session identifier tells what the
session is for. Any 64 bits can be held, since games hand over whatever is in their memory;
`SessionId.kind` tells what they are worth.
-/
namespace ConsoleOnline

/-- A user account. -/
structure Xuid where
  value : UInt64 := 0
  deriving DecidableEq, Repr, Inhabited

namespace Xuid

def text (x : Xuid) : String := .ofList (Hex.fixed .upper 16 x.value.toNat)

def parse (s : String) : Except OnlineError Xuid := (HexNumber.parse s).map Xuid.mk

end Xuid

/-- A title, that is a game. -/
structure TitleId where
  value : UInt32 := 0
  deriving DecidableEq, Repr, Inhabited

namespace TitleId

def text (t : TitleId) : String := .ofList (Hex.fixed .upper 8 t.value.toNat)

/-- None above 32 bits. -/
def ofNumber? (n : UInt64) : Option TitleId :=
  if n.toNat < UInt32.size then some ⟨.ofNat n.toNat⟩ else none

def parse (s : String) : Except OnlineError TitleId := do
  let n ← HexNumber.parse s
  match ofNumber? n with
  | some t => .ok t
  | none => .error (.text s .titleRange)

end TitleId

/-- What a session is for. -/
inductive SessionTag where
  | online | systemLink | server
  deriving DecidableEq, Repr

namespace SessionTag

def all : List SessionTag := [online, systemLink, server]

def byte : SessionTag → UInt8
  | online => 0xAE
  | systemLink => 0x00
  | server => 0xC0

def name : SessionTag → String
  | online => "Online"
  | systemLink => "SystemLink"
  | server => "Server"

end SessionTag

/-- What a session identifier is worth: a tag, or none for zero and for unknown top bytes. -/
inductive SessionKind where
  | tagged (tag : SessionTag)
  | invalid
  deriving DecidableEq, Repr

namespace SessionKind

def all : List SessionKind := SessionTag.all.map tagged ++ [invalid]

def tag? : SessionKind → Option SessionTag
  | tagged t => some t
  | invalid => none

def name : SessionKind → String
  | tagged t => t.name
  | invalid => "Invalid"

end SessionKind

structure SessionId where
  raw : UInt64 := 0
  deriving DecidableEq, Repr, Inhabited

namespace SessionId

/-- The identifier of no session. -/
def absent : SessionId := ⟨0⟩

def tagByte (id : SessionId) : UInt8 := (id.raw >>> 56).toUInt8

def kind (id : SessionId) : SessionKind :=
  if id.raw = 0 then .invalid
  else
    match SessionTag.all.find? fun t => t.byte = id.tagByte with
    | some t => .tagged t
    | none => .invalid

def isValid (id : SessionId) : Bool := id.kind ≠ .invalid

def ofRaw (raw : UInt64) : Except OnlineError SessionId :=
  if isValid ⟨raw⟩ then .ok ⟨raw⟩ else .error (.identifier raw)

def text (id : SessionId) : String := .ofList (Hex.fixed .upper 16 id.raw.toNat)

/-- Reads any 64 bits, valid or not. -/
def parse (s : String) : Except OnlineError SessionId := (HexNumber.parse s).map SessionId.mk

/-- The bits below the tag, which are drawn at random. -/
def randomMask : UInt64 := 0x00FFFFFFFFFFFFFF

def ofDraw (tag : SessionTag) (draw : UInt64) : SessionId :=
  ⟨tag.byte.toUInt64 <<< 56 ||| draw &&& randomMask⟩

/-- The identifier that the first draw not leading to zero gives, and the draws after it. -/
def generate (tag : SessionTag) : List UInt64 → Option (SessionId × List UInt64)
  | [] => none
  | draw :: rest =>
    if (ofDraw tag draw).raw ≠ 0 then some (ofDraw tag draw, rest) else generate tag rest

end SessionId

end ConsoleOnline
