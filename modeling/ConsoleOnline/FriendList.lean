import ConsoleOnline.Friend

/-!
The friends of the user at this console, in the order in which they were first seen. Each is found
by its identifier.
-/
namespace ConsoleOnline

structure FriendList where
  friends : List Friend := []
  deriving DecidableEq, Repr

namespace FriendList

instance : Inhabited FriendList := ⟨{}⟩

def xuids (l : FriendList) : List Xuid := l.friends.map Friend.xuid

def contains (xuid : Xuid) (l : FriendList) : Bool := l.friends.any fun f => f.xuid = xuid

def get? (xuid : Xuid) (l : FriendList) : Option Friend := l.friends.find? fun f => f.xuid = xuid

/-- Changes the first friend of this identifier. -/
def updateFirst (xuid : Xuid) (change : Friend → Friend) : List Friend → List Friend
  | [] => []
  | f :: rest => if f.xuid = xuid then change f :: rest else f :: updateFirst xuid change rest

def update (xuid : Xuid) (change : Friend → Friend) (l : FriendList) : FriendList :=
  ⟨updateFirst xuid change l.friends⟩

/-- Lists a friend, so that the next refresh asks for it. One that is listed stays as it is. -/
def add (xuid : Xuid) (gamertag : String) (l : FriendList) : FriendList :=
  if l.contains xuid then l else ⟨l.friends ++ [.new xuid gamertag]⟩

def remove (xuid : Xuid) (l : FriendList) : FriendList :=
  ⟨l.friends.eraseP fun f => f.xuid = xuid⟩

/-- Takes over a newer presence. A friend that is not listed yet begins with it. -/
def refresh (l : FriendList) (snapshot : Presence) : FriendList :=
  if l.contains snapshot.xuid then l.update snapshot.xuid (Friend.refresh snapshot)
  else ⟨l.friends ++ [.ofPresence snapshot]⟩

def images (l : FriendList) : List FriendImage := l.friends.map Friend.image

@[simp] theorem updateFirst_nil (xuid : Xuid) (change : Friend → Friend) :
    updateFirst xuid change [] = [] := rfl

theorem contains_iff {xuid : Xuid} {l : FriendList} : l.contains xuid ↔ xuid ∈ l.xuids := by
  simp [contains, xuids]

end FriendList

end ConsoleOnline
