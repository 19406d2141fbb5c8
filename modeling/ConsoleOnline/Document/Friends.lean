import ConsoleOnline.Document.Error
import ConsoleOnline.Document.HexField
import ConsoleOnline.FriendList
import ConsoleOnline.Json.Writer

/-!
Documents of a refresh of the friends list. The request lists identifiers. The answer lists
records of presences; one that is malformed, or whose identifier cannot be read, is passed over.
-/
namespace ConsoleOnline

/-- A presence as the service reports it. What it leaves out is zero or empty. -/
def Presence.ofRecord? (record : Json.Value) : Option Presence := do
  let names := ["xuid", "gamertag", "state", "sessionId", "titleId", "stateChangeTime",
    "richPresence"]
  match ← record.record? names with
  | [xuid, gamertag, state, sessionId, titleId, time, rich] =>
    let gamertag ← (Json.Value.optional Json.Value.toText gamertag).toOption
    let state ← (Json.Value.optional Json.Value.toUInt32 state).toOption
    let time ← (Json.Value.optional Json.Value.toUInt64 time).toOption
    let rich ← (Json.Value.optional Json.Value.toText rich).toOption
    let xuid ← xuid.hexNumber?
    pure
      { xuid := ⟨xuid⟩
        gamertag := .ofText (gamertag.getD "")
        state := ⟨state.getD 0⟩
        sessionId := ⟨sessionId.hexNumber?.getD 0⟩
        titleId := (titleId.hexNumber?.bind TitleId.ofNumber?).getD {}
        stateTime := ⟨time.getD 0⟩
        rich := .ofText (rich.getD "") }
  | _ => none

namespace FriendList

def requestDocument (l : FriendList) : Json.Value :=
  .object [("xuids", .array (l.friends.map fun f => .string f.xuid.text))]

def requestText (l : FriendList) : String := l.requestDocument.text

/-- Merges the reported presences in their order. -/
def receive (document : Json.Value) : EStateM DocumentError FriendList Unit := do
  let items ← ofExcept (Document.items "friends presence" document)
  modify fun l => (items.filterMap Presence.ofRecord?).foldl refresh l

def receiveText (text : String) : EStateM DocumentError FriendList Unit := do
  receive (← ofExcept (Document.parse text))

end FriendList

end ConsoleOnline
