import ConsoleOnline.Document.Error
import ConsoleOnline.Json.Writer
import ConsoleOnline.Presence

/-!
The document that publishes presences. It tells of each record the identifier and the rich
presence and nothing else, and it is only ever sent.
-/
namespace ConsoleOnline

/-- Presences to publish, in their order. -/
structure PresenceList where
  records : List Presence := []
  deriving DecidableEq, Repr

namespace PresenceList

instance : Inhabited PresenceList := ⟨{}⟩

def push (record : Presence) (l : PresenceList) : PresenceList := ⟨l.records ++ [record]⟩

def get? (xuid : Xuid) (l : PresenceList) : Option Presence :=
  l.records.find? fun p => p.xuid = xuid

def document (l : PresenceList) : Json.Value :=
  .object [("presence", .array (l.records.map fun p =>
    .object [("xuid", .string p.xuid.text), ("richPresence", .string p.rich.text)]))]

def text (l : PresenceList) : String := l.document.text

/-- No document changes the list, whatever it says. -/
def receive (_document : Json.Value) : EStateM DocumentError PresenceList Unit :=
  throw (.onlySent "presence")

def receiveText (_text : String) : EStateM DocumentError PresenceList Unit :=
  throw (.onlySent "presence")

end PresenceList

end ConsoleOnline
