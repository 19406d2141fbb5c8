import ConsoleOnline.Gamertag
import ConsoleOnline.Image.Fields

/-!
Images of a user lookup: one entry for each user asked for, and the answer, which is a header
followed by such entries. The header tells where in guest memory they begin.
-/
namespace ConsoleOnline

structure FindUserInfo where
  xuid : Xuid := {}
  gamertag : Gamertag := {}
  deriving DecidableEq, Repr

structure FindUsersHeader where
  count : UInt32
  address : UInt32
  deriving DecidableEq, Repr

namespace Layout

/-- The text in the field ends at its first zero byte, so different bytes can read the same. -/
def gamertag : Layout Gamertag :=
  (bytes Gamertag.fieldSize).map (fun field => .ofField field.toList) Gamertag.toField

def findUserInfo : Layout FindUserInfo :=
  (xuid.pair gamertag).map (fun (xuid, gamertag) => ⟨xuid, gamertag⟩)
    (fun i => (i.xuid, i.gamertag))

def findUsersHeader : Layout FindUsersHeader :=
  (uint32.pair uint32).map (fun (count, address) => ⟨count, address⟩) (fun h => (h.count, h.address))

theorem Lawful.findUsersHeader : findUsersHeader.Lawful :=
  .map (.pair .uint32 .uint32) fun _ => rfl

end Layout

instance : GuestImage FindUserInfo where
  name := "FIND_USER_INFO"
  layout := .findUserInfo

instance : GuestImage FindUsersHeader where
  name := "FIND_USERS_RESPONSE"
  layout := .findUsersHeader

example : GuestImage.size FindUserInfo = 0x18 := rfl
example : GuestImage.size FindUsersHeader = 0x8 := rfl

structure FindUsersResponse where
  header : FindUsersHeader
  entries : List FindUserInfo
  deriving DecidableEq, Repr

namespace FindUsersResponse

/-- An answer to be put at `base`; its entries follow the header at once. -/
def placed (base : UInt32) (entries : List FindUserInfo) : FindUsersResponse where
  header :=
    { count := .ofNat entries.length
      address := base + .ofNat (GuestImage.size FindUsersHeader) }
  entries

def size (r : FindUsersResponse) : Nat :=
  GuestImage.size FindUsersHeader + r.entries.length * GuestImage.size FindUserInfo

def toBytes (r : FindUsersResponse) : Bytes :=
  GuestImage.toBytes r.header ++ r.entries.flatMap GuestImage.toBytes

end FindUsersResponse

end ConsoleOnline
