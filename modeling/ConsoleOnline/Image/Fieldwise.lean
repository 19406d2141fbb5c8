import ConsoleOnline.Image.Cursor
import ConsoleOnline.Image.FindUsers
import ConsoleOnline.Image.Presence
import ConsoleOnline.Image.SessionDetails

/-!
Images written and read one field after another, at the front of a buffer that the console hands
over. The size of an image and the fields that are written and read are stated one by one; nothing
here makes them agree. A field that would pass the end of the image is refused, and so are fields
that end before it.
-/
namespace ConsoleOnline

/-- What is done with a writer, unless it is refused. -/
abbrev Put := StateT Writer Option Unit

namespace Put

def value (l : Layout α) (v : α) : Put := fun w => (w.putValue? l v).map ((), ·)

def skip (n : Nat) : Put := fun w => (w.skip? n).map ((), ·)

/-- Writes a part of so many bytes as a buffer of its own. The writer stands behind it afterwards. -/
def nested (size : Nat) (fields : Put) : Put := fun w =>
  if w.hasRoom size then
    (fields.run ⟨(w.buffer.drop w.position).take size, 0⟩).map fun (_, part) =>
      ((), { buffer := w.buffer.take w.position ++ part.buffer ++ w.buffer.drop (w.position + size)
             position := w.position + size })
  else none

end Put

/-- What is read by a reader, unless it is refused. -/
abbrev Take (α : Type) := StateT Reader Option α

namespace Take

def value (l : Layout α) : Take α := fun r => r.value? l

def skip (n : Nat) : Take Unit := fun r => some ((), r.skip n)

/-- Reads a part of so many bytes as a buffer of its own. The reader stands behind it afterwards. -/
def nested (size : Nat) (fields : Take α) : Take α := fun r =>
  if r.position + size ≤ r.buffer.length then
    (fields.run ⟨(r.buffer.drop r.position).take size, 0⟩).map fun (v, _) =>
      (v, { r with position := r.position + size })
  else none

end Take

/-- The size of an image, and the fields of a value as they are written and read. -/
class Fieldwise (α : Type) where
  size : Nat
  put : α → Put
  take : Take α

namespace Fieldwise

variable [GuestImage α] [Fieldwise α]

/-- Writes a value over the front of a buffer, and tells how many bytes that took. -/
def writeTo? (v : α) (buffer : Bytes) : Option (Except TooShort Nat × Bytes) :=
  if buffer.length < size α then
    some (.error ⟨GuestImage.name α, size α, buffer.length⟩, buffer)
  else do
    let ((), w) ← (put v).run ⟨buffer.take (size α), 0⟩
    guard (w.position = size α)
    pure (.ok (size α), w.buffer ++ buffer.drop (size α))

/-- Reads a value from the front of a buffer. -/
def readFrom? (α : Type) [GuestImage α] [Fieldwise α] (buffer : Bytes) :
    Option (Except TooShort α) :=
  if buffer.length < size α then
    some (.error ⟨GuestImage.name α, size α, buffer.length⟩)
  else do
    let (v, r) ← (take (α := α)).run ⟨buffer.take (size α), 0⟩
    guard (r.position = size α)
    pure (.ok v)

/-- The fields of a value written over zeros. -/
def toBytes? (v : α) : Option Bytes :=
  ((put v).run ⟨List.replicate (size α) 0, 0⟩).map fun (_, w) => w.buffer

end Fieldwise

/-! ### The fields of images -/

instance : Fieldwise HostAddress where
  size := 4 + 4 + 2 + 6 + 20
  put h := do
    Put.value .ipv4 h.ina
    Put.value .ipv4 h.inaOnline
    Put.value .uint16 h.portOnline
    Put.value .mac h.mac
    Put.value (.bytes 20) h.onlineId
  take := do
    let ina ← Take.value .ipv4
    let inaOnline ← Take.value .ipv4
    let portOnline ← Take.value .uint16
    let mac ← Take.value .mac
    let onlineId ← Take.value (.bytes 20)
    pure { ina, inaOnline, portOnline, mac, onlineId }

instance : Fieldwise SessionInfo where
  size := Fieldwise.size HostAddress + 8 + 16
  put i := do
    Put.nested (Fieldwise.size HostAddress) (Fieldwise.put i.host)
    Put.value .sessionId i.sessionId
    Put.value .exchangeKey i.key
  take := do
    let host ← Take.nested (Fieldwise.size HostAddress) Fieldwise.take
    let sessionId ← Take.value .sessionId
    let key ← Take.value .exchangeKey
    pure { host, sessionId, key }

instance : Fieldwise LocalDetails where
  size := 11 * 4 + 4 + 8 + Fieldwise.size SessionInfo + 8 + 4
  put d := do
    Put.value .uint32 d.hostUserIndex
    Put.value .uint32 d.gameType
    Put.value .uint32 d.gameMode
    Put.value .uint32 d.flags
    Put.value .uint32 d.maxPublic
    Put.value .uint32 d.maxPrivate
    Put.value .uint32 d.vacantPublic
    Put.value .uint32 d.vacantPrivate
    Put.value .uint32 d.actualMembers
    Put.value .uint32 d.returnedMembers
    Put.value .uint32 d.state
    Put.skip 4
    Put.value .uint64 d.nonce
    Put.nested (Fieldwise.size SessionInfo) (Fieldwise.put d.info)
    Put.value .sessionId d.arbitrationId
    Put.value .uint32 d.membersAddress
  take := do
    let hostUserIndex ← Take.value .uint32
    let gameType ← Take.value .uint32
    let gameMode ← Take.value .uint32
    let flags ← Take.value .uint32
    let maxPublic ← Take.value .uint32
    let maxPrivate ← Take.value .uint32
    let vacantPublic ← Take.value .uint32
    let vacantPrivate ← Take.value .uint32
    let actualMembers ← Take.value .uint32
    let returnedMembers ← Take.value .uint32
    let state ← Take.value .uint32
    Take.skip 4
    let nonce ← Take.value .uint64
    let info ← Take.nested (Fieldwise.size SessionInfo) Fieldwise.take
    let arbitrationId ← Take.value .sessionId
    let membersAddress ← Take.value .uint32
    pure
      { hostUserIndex, gameType, gameMode, flags, maxPublic, maxPrivate, vacantPublic,
        vacantPrivate, actualMembers, returnedMembers, state, nonce, info, arbitrationId,
        membersAddress }

def Put.fileTime (t : FileTime) : Put := do
  Put.value .uint32 t.high
  Put.value .uint32 t.low

def Take.fileTime : Take FileTime := do
  let high ← Take.value .uint32
  let low ← Take.value .uint32
  pure (.ofParts high low)

/-- Unit by unit. -/
def Put.richField (rich : RichField) : Put := rich.toList.forM (Put.value .uint16)

def Take.richField : Take RichField := Vector.ofFnM fun _ => Take.value .uint16

instance : Fieldwise PresenceImage where
  size := 8 + 4 + 8 + 4 + 8 + 4 + 2 * RichPresence.sentCapacity
  put p := do
    Put.value .xuid p.xuid
    Put.value .uint32 p.state
    Put.value .sessionId p.sessionId
    Put.value .titleId p.titleId
    Put.fileTime p.stateTime
    Put.value .uint32 p.richLength
    Put.richField p.rich
  take := do
    let xuid ← Take.value .xuid
    let state ← Take.value .uint32
    let sessionId ← Take.value .sessionId
    let titleId ← Take.value .titleId
    let stateTime ← Take.fileTime
    let richLength ← Take.value .uint32
    let rich ← Take.richField
    pure { xuid, state, sessionId, titleId, stateTime, richLength, rich }

instance : Fieldwise FriendImage where
  size := 8 + Gamertag.fieldSize + 4 + 8 + 4 + 8 + 8 + 8 + 4 + 2 * RichPresence.sentCapacity
  put f := do
    Put.value .xuid f.xuid
    Put.value (.bytes Gamertag.fieldSize) f.gamertag
    Put.value .uint32 f.state
    Put.value .sessionId f.sessionId
    Put.value .titleId f.titleId
    Put.fileTime f.stateTime
    Put.value .sessionId f.inviteSession
    Put.fileTime f.inviteTime
    Put.value .uint32 f.richLength
    Put.richField f.rich
  take := do
    let xuid ← Take.value .xuid
    let gamertag ← Take.value (.bytes Gamertag.fieldSize)
    let state ← Take.value .uint32
    let sessionId ← Take.value .sessionId
    let titleId ← Take.value .titleId
    let stateTime ← Take.fileTime
    let inviteSession ← Take.value .sessionId
    let inviteTime ← Take.fileTime
    let richLength ← Take.value .uint32
    let rich ← Take.richField
    pure
      { xuid, gamertag, state, sessionId, titleId, stateTime, inviteSession, inviteTime,
        richLength, rich }

instance : Fieldwise FindUserInfo where
  size := 8 + Gamertag.fieldSize
  put i := do
    Put.value .xuid i.xuid
    Put.value (.bytes Gamertag.fieldSize) i.gamertag.toField
  take := do
    let xuid ← Take.value .xuid
    let field ← Take.value (.bytes Gamertag.fieldSize)
    pure { xuid, gamertag := .ofField field.toList }

instance : Fieldwise FindUsersHeader where
  size := 4 + 4
  put h := do
    Put.value .uint32 h.count
    Put.value .uint32 h.address
  take := do
    let count ← Take.value .uint32
    let address ← Take.value .uint32
    pure { count, address }

end ConsoleOnline
