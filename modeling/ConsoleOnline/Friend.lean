import ConsoleOnline.Presence

/-!
A friend of the user at this console: the friend's presence, and the invite into a session that
stands between the two, if any. Some bits of the state word tell how the invite stands. They
belong to the invite and survive every refresh of the presence.
-/
namespace ConsoleOnline

structure Friend where
  presence : Presence := {}
  inviter : Option Xuid := none
  invitee : Option Xuid := none
  inviteSession : SessionId := .absent
  inviteTime : FileTime := .zero
  deriving DecidableEq, Repr

namespace Friend

instance : Inhabited Friend := ⟨{}⟩

def new (xuid : Xuid) (gamertag : String) : Friend :=
  { presence := (Presence.new xuid).setGamertag gamertag }

def ofPresence (presence : Presence) : Friend := { presence }

def xuid (f : Friend) : Xuid := f.presence.xuid

def gamertag (f : Friend) : Gamertag := f.presence.gamertag

def setGamertag (text : String) (f : Friend) : Friend :=
  { f with presence := f.presence.setGamertag text }

def setRich (text : String) (f : Friend) : Friend :=
  { f with presence := f.presence.setRich text }

/-- Takes over a newer presence, but for an empty gamertag and for the bits of the invite. -/
def refresh (snapshot : Presence) (f : Friend) : Friend :=
  { f with
    presence :=
      { snapshot with
        gamertag := if snapshot.gamertag.isEmpty then f.gamertag else snapshot.gamertag
        state := snapshot.state.withInviteBits f.presence.state } }

/-- Sets the bits of the invite. The time of the last change of state stays. -/
def setInviteBits (bits : PresenceState) (f : Friend) : Friend :=
  { f with
    presence :=
      f.presence.setState (f.presence.state.withInviteBits bits) f.presence.stateTime }

/-- The friend invited `invitee` into a session. -/
def receiveInvite (invitee : Xuid) (session : SessionId) (time : FileTime) (f : Friend) : Friend :=
  { f with
    inviter := some f.xuid
    invitee := some invitee
    inviteSession := session
    inviteTime := time }.setInviteBits .receivedInvite

/-- The friend was invited by `inviter` into a session. -/
def sendInvite (inviter : Xuid) (session : SessionId) (time : FileTime) (f : Friend) : Friend :=
  { f with
    inviter := some inviter
    invitee := some f.xuid
    inviteSession := session
    inviteTime := time }.setInviteBits .sentInvite

def acceptInvite (f : Friend) : Friend := f.setInviteBits .inviteAccepted

def declineInvite (f : Friend) : Friend := f.setInviteBits .inviteRejected

def clearInvite (f : Friend) : Friend :=
  { f with
    inviter := none
    invitee := none
    inviteSession := .absent
    inviteTime := .zero }.setInviteBits {}

def hasPendingInvite (f : Friend) : Bool := f.presence.state.contains .receivedInvite

def image (f : Friend) : FriendImage where
  xuid := f.xuid
  gamertag := f.gamertag.toField
  state := f.presence.state.bits
  sessionId := f.presence.sessionId
  titleId := f.presence.titleId
  stateTime := f.presence.stateTime
  inviteSession := f.inviteSession
  inviteTime := f.inviteTime
  richLength := .ofNat f.presence.rich.sent.length
  rich := .ofUnits f.presence.rich.sent

/-- An image does not tell between whom the invite stands. -/
def ofImage (i : FriendImage) : Friend where
  presence :=
    { xuid := i.xuid
      gamertag := .ofField i.gamertag.toList
      state := ⟨i.state⟩
      sessionId := i.sessionId
      titleId := i.titleId
      stateTime := i.stateTime
      rich := .ofUnits i.units }
  inviteSession := i.inviteSession
  inviteTime := i.inviteTime

end Friend

end ConsoleOnline
