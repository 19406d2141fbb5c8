import ConsoleOnline.Document.Error
import ConsoleOnline.Document.HexField
import ConsoleOnline.Json.Writer
import ConsoleOnline.UserLookup

/-!
Documents of a user lookup. The request lists pairs of texts, and what is missing in it is sent as
the empty text, so no place is lost. The answer lists records; one that is malformed becomes an
entry without identifier and gamertag, so no place is lost here either.
-/
namespace ConsoleOnline

def LookupEntry.pair (e : LookupEntry) : Json.Value :=
  .array [.string ((e.xuid.map Xuid.text).getD ""), .string ((e.gamertag.map Gamertag.text).getD "")]

def LookupEntry.ofRecord? (record : Json.Value) : Option LookupEntry := do
  match ← record.record? ["xuid", "gamertag"] with
  | [xuid, gamertag] =>
    let gamertag ← (Json.Value.optional Json.Value.toText gamertag).toOption
    pure { xuid := xuid.hexNumber?.map Xuid.mk, gamertag := gamertag.map .ofText }
  | _ => none

namespace UserLookup

def requestDocument (l : UserLookup) : Json.Value :=
  .object [("UsersInfo", .array (l.request.map LookupEntry.pair))]

def requestText (l : UserLookup) : String := l.requestDocument.text

/-- Takes the answer in place of the previous one. -/
def receive (document : Json.Value) : EStateM DocumentError UserLookup Unit := do
  let items ← ofExcept (Document.items "user resolution" document)
  modify fun l =>
    { l with response := items.map fun item => (LookupEntry.ofRecord? item).getD {} }

def receiveText (text : String) : EStateM DocumentError UserLookup Unit := do
  receive (← ofExcept (Document.parse text))

end UserLookup

end ConsoleOnline
