import ConsoleOnline.Text.Utf16
import ConsoleOnline.TextFit

/-!
Rich presence, the text in which a game says what its player is doing. It is counted and cut in
UTF-16 units, even between the two halves of a pair. A record keeps up to 100 units, and of these
the first 64 go into guest memory.
-/
namespace ConsoleOnline

/-- How many units a record keeps. -/
def RichPresence.capacity : Nat := 100

structure RichPresence where
  units : List UInt16 := []
  fits : units.length ≤ RichPresence.capacity := by exact Nat.zero_le _
  deriving DecidableEq, Repr

namespace RichPresence

/-- How many units an image in guest memory has room for. -/
def sentCapacity : Nat := 64

instance : Inhabited RichPresence := ⟨{}⟩

def ofUnits (us : List UInt16) : RichPresence where
  units := us.take capacity
  fits := List.length_take_le _ _

def fitUnits (us : List UInt16) : TextFit := .ofCounts (ofUnits us).units.length us.length

def ofText (s : String) : RichPresence := ofUnits (Text.Utf16.encode s.toList)

def fit (s : String) : TextFit := fitUnits (Text.Utf16.encode s.toList)

/-- A surrogate that is in no pair reads as U+FFFD. -/
def text (r : RichPresence) : String := .ofList (Text.Utf16.decode r.units)

/-- The units that are sent. -/
def sent (r : RichPresence) : List UInt16 := r.units.take sentCapacity

def sentFit (r : RichPresence) : TextFit := .ofCounts r.sent.length r.units.length

end RichPresence

end ConsoleOnline
