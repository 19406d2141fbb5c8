import ConsoleOnline.Image.Layout

/-!
Images in guest memory. A type of values with an image has a layout and the name that the console
gives it. Buffers that the console hands over may be too short for an image; then nothing is read
or written.
-/
namespace ConsoleOnline

class GuestImage (α : Type) where
  name : String
  layout : Layout α

structure TooShort where
  image : String
  needed : Nat
  found : Nat
  deriving DecidableEq, Repr

def TooShort.message (e : TooShort) : String :=
  "Buffer too short for " ++ e.image ++ ": need " ++ toString e.needed ++ " bytes, got " ++
    toString e.found

namespace GuestImage

variable [GuestImage α]

/-- The number of bytes of every image. -/
def size (α : Type) [GuestImage α] : Nat := (layout (α := α)).size

def toBytes (v : α) : Bytes := layout.write v

def check (α : Type) [GuestImage α] (buffer : Bytes) : Except TooShort Unit :=
  if buffer.length < size α then .error ⟨name α, size α, buffer.length⟩ else .ok ()

/-- Reads an image from the front of a buffer. -/
def ofBytes (α : Type) [GuestImage α] (buffer : Bytes) : Except TooShort α :=
  (check α buffer).map fun _ => layout.read buffer

/-- The buffer with an image written over its front. -/
def writeTo (v : α) (buffer : Bytes) : Except TooShort Bytes :=
  (check α buffer).map fun _ => toBytes v ++ buffer.drop (size α)

end GuestImage

end ConsoleOnline
