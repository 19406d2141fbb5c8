import ConsoleOnline.Context
import ConsoleOnline.Document.Friends
import ConsoleOnline.Document.Presences
import ConsoleOnline.Document.Session
import ConsoleOnline.Document.Users
import ConsoleOnline.Inspect.Dump
import ConsoleOnline.Inspect.Failure

/-!
Commands of the inspection tool. A command makes session identifiers, tells what one is worth, or
turns a document of the service into the images that the console would get. It gives the lines to
print, or fails and prints nothing.
-/
namespace ConsoleOnline.Inspect

inductive Command where
  | settings
  | sessionId (tag : Option String)
  | classify (text : String)
  | presence (xuid text : String)
  | resolve (source : Source)
  | friends (source : Source)
  | session (source : Source)
  deriving DecidableEq, Repr

/-- What the environment holds for a command: variables, documents and random draws. -/
structure Environment where
  lookup : String → Option String
  read : Source → Except ReadFault String
  draws : List UInt64

def tagNames : List (String × SessionTag) :=
  [("online", .online), ("system-link", .systemLink), ("system_link", .systemLink),
   ("systemlink", .systemLink), ("server", .server)]

/-- The case of ASCII letters does not count. -/
def parseTag (name : String) : Except Failure SessionTag :=
  match tagNames.lookup (.ofList (Text.lowercase name.toList)) with
  | some tag => .ok tag
  | none => .error (.unknownTag name)

namespace Command

def required (what : String) : Option String → Except Failure String
  | some argument => .ok argument
  | none => .error (.missingArgument what)

def ofArguments : List String → Except Failure Command
  | [] => .error .noCommand
  | name :: arguments => do
    let source := (required "file" arguments.head?).map Source.ofArgument
    match name with
    | "settings" => pure .settings
    | "session-id" => pure (.sessionId arguments.head?)
    | "classify" => pure (.classify (← required "hex session id" arguments.head?))
    | "presence" =>
      pure (.presence (← required "xuid" arguments.head?) (" ".intercalate arguments.tail))
    | "resolve" => pure (.resolve (← source))
    | "friends" => pure (.friends (← source))
    | "session" => pure (.session (← source))
    | _ => .error (.unknownCommand name)

/-- The document that the command reads, if it reads one. -/
def source? : Command → Option Source
  | .resolve source | .friends source | .session source => some source
  | _ => none

end Command

def settingsLines (s : Settings) : List String :=
  ["api_address:  " ++ s.apiAddress, "network_mode: " ++ s.networkMode.name,
   "uses_backend: " ++ (if s.networkMode.usesBackend then "true" else "false")]

def sessionIdLines (context : Context) (tag : Option String) (draws : List UInt64) :
    Except Failure (List String) := do
  let generated ← match tag with
    | some name => pure (SessionId.generate (← parseTag name) draws)
    | none => pure (context.generateSessionId draws)
  match generated with
  | some (id, _) => pure [id.text]
  | none => .error .noDraws

def classifyLines (text : String) : Except Failure (List String) := do
  let id ← (SessionId.parse text).mapError .online
  pure [id.text ++ " " ++ id.kind.name]

def presenceLines (xuid text : String) : Except Failure (List String) := do
  let xuid ← (Xuid.parse xuid).mapError .online
  let record := (Presence.new xuid).setRich text
  let list : PresenceList := { records := [record] }
  pure (list.text :: dump "X_ONLINE_PRESENCE" (GuestImage.toBytes record.image))

def lookupLine (e : LookupEntry) : String :=
  let blank : String := .ofList (List.replicate 16 ' ')
  (e.xuid.map Xuid.text).getD blank ++ " " ++ (e.gamertag.map Gamertag.text).getD ""

def resolveLines (document : String) : Except Failure (List String) := do
  let lookup ← (Document.received (UserLookup.receiveText document) {}).mapError
    (.decoding "user lookup response")
  let image := UserLookup.responseImage 0 lookup.response
  pure (lookup.response.map lookupLine ++ dump "FIND_USERS_RESPONSE" image.toBytes)

def friendsLines (document : String) : Except Failure (List String) := do
  let list ← (Document.received (FriendList.receiveText document) {}).mapError
    (.decoding "friends presence response")
  pure (list.friends.flatMap fun f =>
    dump ("X_ONLINE_FRIEND " ++ f.xuid.text ++ " " ++ f.gamertag.text) (GuestImage.toBytes f.image))

def sessionLines (document : String) : Except Failure (List String) := do
  let s ← (Session.ofDocumentText document).mapError (.decoding "session document")
  pure ((s.id.text ++ " " ++ s.id.kind.name ++ " " ++ s.state.name) ::
    dump "XSESSION_LOCAL_DETAILS" (GuestImage.toBytes (s.details 0)))

def Command.lines (context : Context) (environment : Environment) (command : Command) :
    Except Failure (List String) := do
  let document (source : Source) := (environment.read source).mapError (.reading source)
  match command with
  | .settings => pure (settingsLines context.settings)
  | .sessionId tag => sessionIdLines context tag environment.draws
  | .classify text => classifyLines text
  | .presence xuid text => presenceLines xuid text
  | .resolve source => resolveLines (← document source)
  | .friends source => friendsLines (← document source)
  | .session source => sessionLines (← document source)

/-- Settings that cannot be read fail every command, known or not. -/
def run (environment : Environment) (arguments : List String) : Except Failure (List String) := do
  let settings ← (Settings.ofVariables environment.lookup).mapError .settings
  let command ← Command.ofArguments arguments
  command.lines { settings } environment

end ConsoleOnline.Inspect
