import ConsoleOnline.Bytes

/-!
The key that consoles exchange to join a session: two random draws of eight bytes each.
-/
namespace ConsoleOnline

structure ExchangeKey where
  bytes : Vector UInt8 16 := .replicate 16 0
  deriving DecidableEq, Repr

namespace ExchangeKey

instance : Inhabited ExchangeKey := ⟨{}⟩

def ofDraws (first second : UInt64) : ExchangeKey :=
  ⟨Bytes.window 16 (Bytes.bigEndian 8 first.toNat ++ Bytes.bigEndian 8 second.toNat)⟩

/-- The key from the first two draws, and the draws after them. -/
def generate : List UInt64 → Option (ExchangeKey × List UInt64)
  | first :: second :: rest => some (ofDraws first second, rest)
  | _ => none

end ExchangeKey

end ConsoleOnline
