import ConsoleOnline.Image.FindUsers

/-!
Lookups of users. A request pairs identifiers with gamertags, either of which may be missing, and
the answer gives such a pair for every place of the request.
-/
namespace ConsoleOnline

structure LookupEntry where
  xuid : Option Xuid := none
  gamertag : Option Gamertag := none
  deriving DecidableEq, Repr

namespace LookupEntry

instance : Inhabited LookupEntry := ⟨{}⟩

def ofXuid (xuid : Xuid) : LookupEntry := { xuid := some xuid }

def ofGamertag (text : String) : LookupEntry := { gamertag := some (.ofText text) }

/-- What is missing is zero or empty in guest memory. -/
def info (e : LookupEntry) : FindUserInfo where
  xuid := e.xuid.getD {}
  gamertag := e.gamertag.getD {}

/-- Zero and the empty gamertag are read as missing. -/
def ofInfo (i : FindUserInfo) : LookupEntry where
  xuid := if i.xuid = {} then none else some i.xuid
  gamertag := if i.gamertag.isEmpty then none else some i.gamertag

end LookupEntry

structure UserLookup where
  request : List LookupEntry := []
  response : List LookupEntry := []
  deriving DecidableEq, Repr

namespace UserLookup

instance : Inhabited UserLookup := ⟨{}⟩

/-- A lookup of what a game asks for, not answered yet. -/
def ofInfos (infos : List FindUserInfo) : UserLookup := { request := infos.map .ofInfo }

def push (entry : LookupEntry) (l : UserLookup) : UserLookup :=
  { l with request := l.request ++ [entry] }

/-- The gamertag of the first entry with this identifier, none if that entry has no gamertag. -/
def gamertagFor (xuid : Xuid) (response : List LookupEntry) : Option Gamertag :=
  (response.find? fun e => e.xuid = some xuid).bind LookupEntry.gamertag

/-- The answer as it is put into guest memory at `base`. -/
def responseImage (base : UInt32) (response : List LookupEntry) : FindUsersResponse :=
  .placed base (response.map LookupEntry.info)

end UserLookup

end ConsoleOnline
