import ConsoleOnline.Ids

/-!
Settings of the online service: the address of its interface and how this console reaches other
players. They come from variables, with defaults for those that are not set.
-/
namespace ConsoleOnline

inductive NetworkMode where
  | offline | systemLink | online
  deriving DecidableEq, Repr

namespace NetworkMode

def all : List NetworkMode := [offline, systemLink, online]

def name : NetworkMode → String
  | offline => "offline"
  | systemLink => "system_link"
  | online => "online"

def aliases : List (String × NetworkMode) :=
  [("offline", offline), ("0", offline), ("system_link", systemLink), ("systemlink", systemLink),
   ("lan", systemLink), ("1", systemLink), ("online", online), ("xbox_live", online), ("2", online)]

/-- Blanks around the name and the case of its ASCII letters do not count. -/
def parse (s : String) : Except OnlineError NetworkMode :=
  match aliases.lookup (.ofList (Text.lowercase (Text.trim s.toList))) with
  | some m => .ok m
  | none => .error (.text s .networkMode)

/-- The tag of sessions created in this mode. Games played offline are set up like those on a
local network. -/
def sessionTag : NetworkMode → SessionTag
  | offline | systemLink => .systemLink
  | online => .online

def usesBackend (m : NetworkMode) : Bool := m = online

end NetworkMode

structure Settings where
  apiAddress : String := "http://127.0.0.1:36000/"
  networkMode : NetworkMode := .online
  deriving DecidableEq, Repr

namespace Settings

instance : Inhabited Settings := ⟨{}⟩

def addressVariable : String := "XONLINE_API_ADDRESS"

def modeVariable : String := "XONLINE_NETWORK_MODE"

/-- Drops blanks around the address and sees to a slash at its end. -/
def normalizeAddress (address : String) : String :=
  let trimmed := Text.trim address.toList
  .ofList (if trimmed.getLast? = some '/' then trimmed else trimmed ++ ['/'])

def ofVariables (lookup : String → Option String) : Except OnlineError Settings := do
  let defaults : Settings := {}
  let networkMode ← match lookup modeVariable with
    | some mode => NetworkMode.parse mode
    | none => pure defaults.networkMode
  let apiAddress := (lookup addressVariable).getD defaults.apiAddress
  pure { apiAddress := normalizeAddress apiAddress, networkMode }

/-- The address of a path of the interface. Slashes before the path do not count. -/
def endpoint (s : Settings) (path : String) : String :=
  s.apiAddress ++ .ofList (path.toList.dropWhile (· = '/'))

end Settings

end ConsoleOnline
