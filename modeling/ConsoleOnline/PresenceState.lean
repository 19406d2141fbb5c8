/-!
The state word of a user: single bits, and four bits that tell whether the user is online, away
or busy.
-/
namespace ConsoleOnline

structure PresenceState where
  bits : UInt32 := 0
  deriving DecidableEq, Repr, Inhabited

/-- What the four bits tell. Other values of them stand for themselves. -/
inductive UserState where
  | online | away | busy
  | other (bits : UInt32)
  deriving DecidableEq, Repr

namespace PresenceState

def online : PresenceState := ⟨0x1⟩
def sentInvite : PresenceState := ⟨0x04000000⟩
def receivedInvite : PresenceState := ⟨0x08000000⟩
def inviteAccepted : PresenceState := ⟨0x10000000⟩
def inviteRejected : PresenceState := ⟨0x20000000⟩

def userStateMask : UInt32 := 0x000F0000

def union (s t : PresenceState) : PresenceState := ⟨s.bits ||| t.bits⟩

def without (s t : PresenceState) : PresenceState := ⟨s.bits &&& ~~~t.bits⟩

def contains (s t : PresenceState) : Bool := s.bits &&& t.bits = t.bits

def isOnline (s : PresenceState) : Bool := s.contains online

def userState (s : PresenceState) : UserState :=
  let field := s.bits &&& userStateMask
  if field = 0 then .online
  else if field = 0x10000 then .away
  else if field = 0x20000 then .busy
  else .other field

def withUserState (s : PresenceState) (u : UserState) : PresenceState :=
  let field := match u with
    | .online => 0
    | .away => 0x10000
    | .busy => 0x20000
    | .other bits => bits &&& userStateMask
  ⟨s.bits &&& ~~~userStateMask ||| field⟩

/-- The bits that belong to invites. -/
def inviteFlags : List PresenceState := [sentInvite, receivedInvite, inviteAccepted, inviteRejected]

/-- The state with one bit taken from another. -/
def withFlagOf (invite s flag : PresenceState) : PresenceState :=
  if invite.contains flag then (s.without flag).union flag else s.without flag

/-- The state with its invite bits taken from another. -/
def withInviteBits (s invite : PresenceState) : PresenceState :=
  inviteFlags.foldl (withFlagOf invite) s

end PresenceState

end ConsoleOnline
