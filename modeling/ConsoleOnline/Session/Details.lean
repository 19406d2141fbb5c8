import ConsoleOnline.Image.SessionDetails
import ConsoleOnline.Session.Basic

/-!
What a session shows to the console that holds it and to consoles that join it.
-/
namespace ConsoleOnline.Session

def info (s : Session) : SessionInfo := { host := s.host, sessionId := s.id, key := s.key }

/-- All members are returned, so both counts agree. The caller owns the list of members. -/
def details (membersAddress : UInt32) (s : Session) : LocalDetails :=
  let count : UInt32 := .ofNat s.members.length
  { hostUserIndex := s.hostUserIndex
    gameType := s.gameType
    gameMode := s.gameMode
    flags := s.flags.bits
    maxPublic := s.publicSlots.max
    maxPrivate := s.privateSlots.max
    vacantPublic := s.publicSlots.vacant
    vacantPrivate := s.privateSlots.vacant
    actualMembers := count
    returnedMembers := count
    state := s.state.code
    nonce := s.nonce
    info := s.info
    arbitrationId := s.arbitrationId
    membersAddress }

end ConsoleOnline.Session
