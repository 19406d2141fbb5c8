/-!
A session counts its public and its private slots separately.
-/
namespace ConsoleOnline

inductive SlotCategory where
  | publicSlot | privateSlot
  deriving DecidableEq, Repr

namespace SlotCategory

def all : List SlotCategory := [publicSlot, privateSlot]

def name : SlotCategory → String
  | publicSlot => "Public"
  | privateSlot => "Private"

end SlotCategory

end ConsoleOnline
