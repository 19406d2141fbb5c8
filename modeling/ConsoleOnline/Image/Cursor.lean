import ConsoleOnline.Image.GuestImage

/-!
Buffers that are written or read piece by piece from their start. A piece that would reach past
the end is refused. Only a reader may be moved past the end, by skipping; from there it reads
nothing more. Positions have no bound here. In guest memory they are words, which is the same as long
as the place behind every piece has room in a word.
-/
namespace ConsoleOnline

structure Writer where
  buffer : Bytes
  position : Nat := 0
  deriving DecidableEq, Repr

namespace Writer

def hasRoom (w : Writer) (n : Nat) : Bool := w.position + n ≤ w.buffer.length

/-- Writes over the bytes at the position. -/
def overwrite (w : Writer) (bs : Bytes) : Writer where
  buffer := w.buffer.take w.position ++ bs ++ w.buffer.drop (w.position + bs.length)
  position := w.position + bs.length

def put? (w : Writer) (bs : Bytes) : Option Writer :=
  if w.hasRoom bs.length then some (w.overwrite bs) else none

def putValue? (w : Writer) (l : Layout α) (v : α) : Option Writer := w.put? (l.write v)

/-- Skipped bytes become zero. -/
def skip? (w : Writer) (n : Nat) : Option Writer :=
  if w.hasRoom n then some (w.overwrite (List.replicate n 0)) else none

end Writer

structure Reader where
  buffer : Bytes
  position : Nat := 0
  deriving DecidableEq, Repr

namespace Reader

def value? (r : Reader) (l : Layout α) : Option (α × Reader) :=
  if r.position + l.size ≤ r.buffer.length then
    some (l.read (r.buffer.drop r.position), { r with position := r.position + l.size })
  else none

/-- The end of the buffer is not looked at, so only the bound on words limits how far this goes. -/
def skip (r : Reader) (n : Nat) : Reader := { r with position := r.position + n }

end Reader

end ConsoleOnline
