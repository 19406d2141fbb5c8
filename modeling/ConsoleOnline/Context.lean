import ConsoleOnline.Settings

/-!
What all parts of the console's online layer share: the settings in effect, and the last mismatch
between the versions of this console and the service that nobody has taken note of yet.
-/
namespace ConsoleOnline

structure VersionMismatch where
  localVersion : String
  remoteVersion : String
  deriving DecidableEq, Repr

structure Context where
  settings : Settings := {}
  mismatch : Option VersionMismatch := none
  deriving DecidableEq, Repr

namespace Context

/-- Blanks around a version do not count. -/
def versionsAgree (localVersion remoteVersion : String) : Bool :=
  Text.trim localVersion.toList = Text.trim remoteVersion.toList

/-- Tells whether the versions agree. A mismatch is kept. Versions that agree change nothing, an
earlier mismatch included. -/
def observe (c : Context) (localVersion remoteVersion : String) : Bool × Context :=
  if versionsAgree localVersion remoteVersion then (true, c)
  else (false, { c with mismatch := some { localVersion, remoteVersion } })

/-- Takes the mismatch out of the context. -/
def acknowledge (c : Context) : Option VersionMismatch × Context :=
  (c.mismatch, { c with mismatch := none })

def generateSessionId (c : Context) (draws : List UInt64) : Option (SessionId × List UInt64) :=
  SessionId.generate c.settings.networkMode.sessionTag draws

end Context

end ConsoleOnline
