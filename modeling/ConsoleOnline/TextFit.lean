/-!
How text went into a field of limited size. Text that is too long is cut, not refused, and the
outcome tells how much of it was kept.
-/
namespace ConsoleOnline

inductive TextFit where
  | exact
  | truncated (kept dropped : Nat)
  deriving DecidableEq, Repr

namespace TextFit

def ofCounts (kept total : Nat) : TextFit :=
  if total ≤ kept then exact else truncated kept (total - kept)

def isTruncated : TextFit → Bool
  | exact => false
  | truncated _ _ => true

end TextFit

end ConsoleOnline
