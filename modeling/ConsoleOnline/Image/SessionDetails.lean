import ConsoleOnline.Image.Fields

/-!
Images of a session: what a console needs to join it, and what a console knows about one that it
is in.
-/
namespace ConsoleOnline

structure SessionInfo where
  host : HostAddress
  sessionId : SessionId
  key : ExchangeKey
  deriving DecidableEq, Repr

structure LocalDetails where
  hostUserIndex : UInt32
  gameType : UInt32
  gameMode : UInt32
  flags : UInt32
  maxPublic : UInt32
  maxPrivate : UInt32
  vacantPublic : UInt32
  vacantPrivate : UInt32
  actualMembers : UInt32
  returnedMembers : UInt32
  state : UInt32
  nonce : UInt64
  info : SessionInfo
  arbitrationId : SessionId
  /-- Where in guest memory the members are listed. -/
  membersAddress : UInt32
  deriving DecidableEq, Repr

namespace Layout

def sessionInfo : Layout SessionInfo :=
  (hostAddress.pair <| sessionId.pair exchangeKey).map
    (fun (host, sessionId, key) => ⟨host, sessionId, key⟩)
    (fun i => (i.host, i.sessionId, i.key))

/-- The nonce starts at a multiple of eight bytes, so four bytes before it are padding. -/
def localDetails : Layout LocalDetails :=
  (uint32.pair <| uint32.pair <| uint32.pair <| uint32.pair <| uint32.pair <| uint32.pair <|
    uint32.pair <| uint32.pair <| uint32.pair <| uint32.pair <| uint32.pair <| (padding 4).pair <|
    uint64.pair <| sessionInfo.pair <| sessionId.pair uint32).map
    (fun (hostUserIndex, gameType, gameMode, flags, maxPublic, maxPrivate, vacantPublic,
        vacantPrivate, actualMembers, returnedMembers, state, (), nonce, info, arbitrationId,
        membersAddress) =>
      { hostUserIndex, gameType, gameMode, flags, maxPublic, maxPrivate, vacantPublic,
        vacantPrivate, actualMembers, returnedMembers, state, nonce, info, arbitrationId,
        membersAddress })
    (fun d => (d.hostUserIndex, d.gameType, d.gameMode, d.flags, d.maxPublic, d.maxPrivate,
      d.vacantPublic, d.vacantPrivate, d.actualMembers, d.returnedMembers, d.state, (), d.nonce,
      d.info, d.arbitrationId, d.membersAddress))

theorem Lawful.sessionInfo : sessionInfo.Lawful :=
  .map (.pair .hostAddress <| .pair .sessionId .exchangeKey) fun _ => rfl

theorem Lawful.localDetails : localDetails.Lawful :=
  .map (.pair .uint32 <| .pair .uint32 <| .pair .uint32 <| .pair .uint32 <| .pair .uint32 <|
    .pair .uint32 <| .pair .uint32 <| .pair .uint32 <| .pair .uint32 <| .pair .uint32 <|
    .pair .uint32 <| .pair (.padding 4) <| .pair .uint64 <| .pair .sessionInfo <|
    .pair .sessionId .uint32) fun _ => rfl

end Layout

instance : GuestImage SessionInfo where
  name := "XSESSION_INFO"
  layout := .sessionInfo

instance : GuestImage LocalDetails where
  name := "XSESSION_LOCAL_DETAILS"
  layout := .localDetails

example : GuestImage.size SessionInfo = 0x3C := rfl
example : GuestImage.size LocalDetails = 0x80 := rfl

end ConsoleOnline
