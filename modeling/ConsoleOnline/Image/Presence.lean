import ConsoleOnline.Gamertag
import ConsoleOnline.Image.Fields
import ConsoleOnline.RichPresence

/-!
Images of a user's presence and of an entry of the friends list. Both end in a field of 64 UTF-16
units with a count before it. The count comes from the game and may be larger than the field.
-/
namespace ConsoleOnline

abbrev RichField := Vector UInt16 RichPresence.sentCapacity

/-- The field for some units: what fits of them, then zeros. -/
def RichField.ofUnits (us : List UInt16) : RichField := .ofFn fun i => us.getD i 0

structure PresenceImage where
  xuid : Xuid
  state : UInt32
  sessionId : SessionId
  titleId : TitleId
  stateTime : FileTime
  richLength : UInt32
  rich : RichField
  deriving DecidableEq, Repr

structure FriendImage where
  xuid : Xuid
  gamertag : Vector UInt8 Gamertag.fieldSize
  state : UInt32
  sessionId : SessionId
  titleId : TitleId
  stateTime : FileTime
  inviteSession : SessionId
  inviteTime : FileTime
  richLength : UInt32
  rich : RichField
  deriving DecidableEq, Repr

/-- The units of the field that count. -/
def PresenceImage.units (p : PresenceImage) : List UInt16 := p.rich.toList.take p.richLength.toNat

def FriendImage.units (f : FriendImage) : List UInt16 := f.rich.toList.take f.richLength.toNat

namespace Layout

def richField : Layout RichField := array RichPresence.sentCapacity uint16

def presence : Layout PresenceImage :=
  (xuid.pair <| uint32.pair <| sessionId.pair <| titleId.pair <| fileTime.pair <|
    uint32.pair richField).map
    (fun (xuid, state, sessionId, titleId, stateTime, richLength, rich) =>
      ⟨xuid, state, sessionId, titleId, stateTime, richLength, rich⟩)
    (fun p => (p.xuid, p.state, p.sessionId, p.titleId, p.stateTime, p.richLength, p.rich))

def friend : Layout FriendImage :=
  (xuid.pair <| (bytes Gamertag.fieldSize).pair <| uint32.pair <| sessionId.pair <| titleId.pair <|
    fileTime.pair <| sessionId.pair <| fileTime.pair <| uint32.pair richField).map
    (fun (xuid, gamertag, state, sessionId, titleId, stateTime, inviteSession, inviteTime,
        richLength, rich) =>
      ⟨xuid, gamertag, state, sessionId, titleId, stateTime, inviteSession, inviteTime,
        richLength, rich⟩)
    (fun f => (f.xuid, f.gamertag, f.state, f.sessionId, f.titleId, f.stateTime, f.inviteSession,
      f.inviteTime, f.richLength, f.rich))

theorem Lawful.richField : richField.Lawful := .array _ .uint16

theorem Lawful.presence : presence.Lawful :=
  .map (.pair .xuid <| .pair .uint32 <| .pair .sessionId <| .pair .titleId <| .pair .fileTime <|
    .pair .uint32 .richField) fun _ => rfl

theorem Lawful.friend : friend.Lawful :=
  .map (.pair .xuid <| .pair (.bytes _) <| .pair .uint32 <| .pair .sessionId <| .pair .titleId <|
    .pair .fileTime <| .pair .sessionId <| .pair .fileTime <| .pair .uint32 .richField) fun _ => rfl

end Layout

instance : GuestImage PresenceImage where
  name := "X_ONLINE_PRESENCE"
  layout := .presence

instance : GuestImage FriendImage where
  name := "X_ONLINE_FRIEND"
  layout := .friend

example : GuestImage.size PresenceImage = 0xA4 := rfl
example : GuestImage.size FriendImage = 0xC4 := rfl

end ConsoleOnline
