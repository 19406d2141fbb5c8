import ConsoleOnline.Image.Presence
import ConsoleOnline.PresenceState

/-!
What one user is doing: state, session, title and rich presence, and when the state last changed.
-/
namespace ConsoleOnline

structure Presence where
  xuid : Xuid := {}
  gamertag : Gamertag := {}
  state : PresenceState := {}
  sessionId : SessionId := .absent
  titleId : TitleId := {}
  stateTime : FileTime := .zero
  rich : RichPresence := {}
  deriving DecidableEq, Repr

namespace Presence

instance : Inhabited Presence := ⟨{}⟩

def new (xuid : Xuid) : Presence := { xuid }

def setGamertag (text : String) (p : Presence) : Presence := { p with gamertag := .ofText text }

def setRich (text : String) (p : Presence) : Presence := { p with rich := .ofText text }

def setRichUnits (units : List UInt16) (p : Presence) : Presence :=
  { p with rich := .ofUnits units }

/-- The time is that of a change: a state that is there already does not move it. -/
def setState (state : PresenceState) (time : FileTime) (p : Presence) : Presence :=
  if p.state = state then p else { p with state, stateTime := time }

/-- Takes a state and its time as they were reported. -/
def restoreState (state : PresenceState) (time : FileTime) (p : Presence) : Presence :=
  { p with state, stateTime := time }

def isOnline (p : Presence) : Bool := p.state.isOnline

def image (p : Presence) : PresenceImage where
  xuid := p.xuid
  state := p.state.bits
  sessionId := p.sessionId
  titleId := p.titleId
  stateTime := p.stateTime
  richLength := .ofNat p.rich.sent.length
  rich := .ofUnits p.rich.sent

/-- An image has no gamertag. -/
def ofImage (i : PresenceImage) : Presence where
  xuid := i.xuid
  state := ⟨i.state⟩
  sessionId := i.sessionId
  titleId := i.titleId
  stateTime := i.stateTime
  rich := .ofUnits i.units

end Presence

end ConsoleOnline
