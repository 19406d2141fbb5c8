import ConsoleOnline.OnlineError

/-!
Counters of the slots of one category: how many there are at most, how many are vacant and how
many are filled. Vacant and filled slots together never exceed the maximum; `withCounts` is where
this is checked.
-/
namespace ConsoleOnline

structure Slots where
  max : UInt32 := 0
  vacant : UInt32 := 0
  filled : UInt32 := 0
  deriving DecidableEq, Repr

namespace Slots

/-- All slots vacant. -/
def empty (max : UInt32) : Slots := { max, vacant := max, filled := 0 }

/-- The sum, or the greatest word where the sum is no word. -/
def satAdd (a b : UInt32) : UInt32 := .ofNat (min (UInt32.size - 1) (a.toNat + b.toNat))

def withCounts (category : SlotCategory) (max vacant filled : UInt32) : Except OnlineError Slots :=
  if vacant.toNat + filled.toNat ≤ max.toNat then .ok { max, vacant, filled }
  else .error (.capacity category vacant filled max)

/-- The vacant and the filled count after moving vacant slots to the filled ones. -/
def taken (category : SlotCategory) (count : UInt32) (s : Slots) :
    Except OnlineError (UInt32 × UInt32) :=
  if count ≤ s.vacant then .ok (s.vacant - count, satAdd s.filled count)
  else .error (.capacity category s.vacant (satAdd s.filled count) s.max)

/-- The vacant and the filled count after moving filled slots back. -/
def released (category : SlotCategory) (count : UInt32) (s : Slots) :
    Except OnlineError (UInt32 × UInt32) :=
  if count ≤ s.filled then .ok (satAdd s.vacant count, s.filled - count)
  else .error (.slots (.releaseBeyondFilled category count s.filled))

/-- Another maximum with the same filled slots, and all others vacant. -/
def rescale (category : SlotCategory) (max : UInt32) (s : Slots) : Except OnlineError Slots :=
  if s.filled ≤ max then withCounts category max (max - s.filled) s.filled
  else .error (.capacity category 0 s.filled max)

end Slots

end ConsoleOnline
