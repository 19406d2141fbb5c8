/-!
The flag word that a session is created with. Only a few of its bits may change afterwards.
-/
namespace ConsoleOnline

structure SessionFlags where
  bits : UInt32 := 0
  deriving DecidableEq, Repr, Inhabited

namespace SessionFlags

def host : SessionFlags := ⟨0x1⟩

/-- The bits that a modify request may change. -/
def modifiableMask : UInt32 := 0x0F80

def union (f g : SessionFlags) : SessionFlags := ⟨f.bits ||| g.bits⟩

def without (f g : SessionFlags) : SessionFlags := ⟨f.bits &&& ~~~g.bits⟩

def contains (f g : SessionFlags) : Bool := f.bits &&& g.bits = g.bits

def isHost (f : SessionFlags) : Bool := f.contains host

/-- The flags after a modify request. -/
def modified (f requested : SessionFlags) : SessionFlags :=
  ⟨f.bits &&& ~~~modifiableMask ||| requested.bits &&& modifiableMask⟩

end SessionFlags

end ConsoleOnline
