import ConsoleOnline.Document.Error
import ConsoleOnline.Document.HexField
import ConsoleOnline.Json.Writer
import ConsoleOnline.Session.Details

/-!
The document of a session. It has the identifier, the flags, one address and the slot counters,
and neither state nor members: a session that is read from it is in the lobby and has none.
-/
namespace ConsoleOnline

/-- The fields of a session document, not yet checked against each other. -/
structure SessionDocument where
  sessionId : Json.Value
  flags : UInt32
  hostAddress : Option String
  macAddress : Option String
  port : UInt16
  publicSlots : Slots
  privateSlots : Slots
  deriving Repr

namespace SessionDocument

/-- A field that may be absent, but not null. -/
def field (fields : List (String × Json.Value)) (name : String)
    (read : Json.Value → Except Json.Mismatch α) (absent : α) : Except Json.Mismatch α :=
  match Json.Value.field? name fields with
  | some v => read v
  | none => .ok absent

/-- The fields are read in the order of their names, and the identifier is missed last. -/
def ofFields (fields : List (String × Json.Value)) : Except Json.Mismatch SessionDocument := do
  let word name := field fields name Json.Value.toUInt32 0
  let text name := field fields name (Json.Value.optional Json.Value.toText) none
  let filledPrivate ← word "filledPrivateSlotsCount"
  let filledPublic ← word "filledPublicSlotsCount"
  let flags ← word "flags"
  let hostAddress ← text "hostAddress"
  let macAddress ← text "macAddress"
  let openPrivate ← word "openPrivateSlotsCount"
  let openPublic ← word "openPublicSlotsCount"
  let port ← field fields "port" Json.Value.toUInt16 0
  let maxPrivate ← word "privateSlotsCount"
  let maxPublic ← word "publicSlotsCount"
  match Json.Value.field? "sessionId" fields with
  | none => .error (.missing "sessionId")
  | some sessionId =>
    pure
      { sessionId, flags, hostAddress, macAddress, port
        publicSlots := { max := maxPublic, vacant := openPublic, filled := filledPublic }
        privateSlots := { max := maxPrivate, vacant := openPrivate, filled := filledPrivate } }

def readId (v : Json.Value) : Except DocumentError SessionId :=
  match v.hexNumber? with
  | some raw => (SessionId.ofRaw raw).mapError .content
  | none => .error (.malformed (.noHexNumber "sessionId"))

/-- An address that is absent or empty is the unset one. -/
def readHost : Option String → Except DocumentError IPv4
  | none => .ok {}
  | some text =>
    if text.isEmpty then .ok {}
    else
      match IPv4.parse? text with
      | some a => .ok a
      | none => .error (.malformed (.hostAddress text))

def readMac : Option String → Except DocumentError MacAddress
  | none => .ok {}
  | some text =>
    if text.isEmpty then .ok {}
    else (MacAddress.parse text).mapError fun e => .malformed (.macAddress text e)

/-- Sets the counters of both categories. -/
def count (d : SessionDocument) : Session.Action := do
  Session.setCounts .publicSlot d.publicSlots.vacant d.publicSlots.filled
  Session.setCounts .privateSlot d.privateSlots.vacant d.privateSlots.filled

/-- The session that the fields describe. -/
def session (d : SessionDocument) : Except DocumentError Session := do
  let id ← readId d.sessionId
  let host ← readHost d.hostAddress
  let mac ← readMac d.macAddress
  let blank :=
    (Session.new id ⟨d.flags⟩ d.publicSlots.max d.privateSlots.max).withHost
      (.direct host d.port mac)
  (d.count.result blank).mapError .content

end SessionDocument

namespace Session

/-- Of the two addresses of the host, the document has the one that the service sees. -/
def documentFields (s : Session) : List (String × Json.Value) :=
  let number (n : Nat) := Json.Value.ofNat n
  [("sessionId", .string s.id.text),
   ("flags", number s.flags.bits.toNat),
   ("hostAddress", .string s.host.inaOnline.text),
   ("macAddress", .string s.host.mac.text),
   ("port", number s.host.portOnline.toNat),
   ("publicSlotsCount", number s.publicSlots.max.toNat),
   ("privateSlotsCount", number s.privateSlots.max.toNat),
   ("openPublicSlotsCount", number s.publicSlots.vacant.toNat),
   ("openPrivateSlotsCount", number s.privateSlots.vacant.toNat),
   ("filledPublicSlotsCount", number s.publicSlots.filled.toNat),
   ("filledPrivateSlotsCount", number s.privateSlots.filled.toNat)]

def document (s : Session) : Json.Value := .object s.documentFields

def documentText (s : Session) : String := s.document.text

def ofDocument : Json.Value → Except DocumentError Session
  | .object fields => do
    let d ← (SessionDocument.ofFields fields).mapError fun m => .malformed (.mismatch m)
    d.session
  | _ => .error (.malformed (.notAnObject "session"))

def ofDocumentText (text : String) : Except DocumentError Session := do
  ofDocument (← Document.parse text)

/-- Replaces a session by the one that a document describes. -/
def receive (document : Json.Value) : EStateM DocumentError Session Unit := do
  set (← ofExcept (ofDocument document))

def receiveText (text : String) : EStateM DocumentError Session Unit := do
  receive (← ofExcept (Document.parse text))

end Session

end ConsoleOnline
