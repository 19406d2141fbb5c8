import ConsoleOnline.Session.Category
import ConsoleOnline.Session.State
import ConsoleOnline.Text.Quoted

/-!
Why a request is refused: text that spells no value, an identifier of no known kind, a move the
life of a session does not have, or slots that do not add up. `message` words each cause.
-/
namespace ConsoleOnline

/-- Why text is no hardware address. Positions count bytes, separators left out. -/
inductive MacFault where
  | oddLength
  | wrongLength
  | noDigit (byte : UInt8) (position : Nat)
  deriving DecidableEq, Repr

inductive TextFault where
  | hexLength
  | hexDigit
  | titleRange
  | macAddress (fault : MacFault)
  | networkMode
  deriving DecidableEq, Repr

inductive SlotFault where
  | belowMembers (category : SlotCategory) (filled members : UInt32)
  | releaseBeyondFilled (category : SlotCategory) (count filled : UInt32)
  | joinTooLarge
  deriving DecidableEq, Repr

inductive OnlineError where
  | text (text : String) (fault : TextFault)
  | identifier (raw : UInt64)
  | transition (current requested : SessionState)
  | slots (fault : SlotFault)
  | capacity (category : SlotCategory) (vacant filled max : UInt32)
  deriving DecidableEq, Repr

/-- A byte is shown as the character of its number. -/
def MacFault.message : MacFault → String
  | oddLength => "Odd number of digits"
  | wrongLength => "Invalid string length"
  | noDigit byte position =>
    "Invalid character " ++ .ofList (Text.quoted '\'' [Char.ofNat byte.toNat]) ++
      " at position " ++ toString position

def TextFault.message (text : String) : TextFault → String
  | hexLength => "Expected 1-16 hex digits, got '" ++ text ++ "'"
  | hexDigit => "Invalid hex value '" ++ text ++ "': invalid digit found in string"
  | titleRange => "TitleId out of range: '" ++ text ++ "'"
  | macAddress fault => "Invalid MAC address '" ++ text ++ "': " ++ fault.message
  | networkMode => "Unknown network mode: " ++ text

def SlotFault.message : SlotFault → String
  | belowMembers category filled members =>
    category.name ++ " filled count " ++ toString filled ++ " is below the " ++ toString members ++
      " tracked members"
  | releaseBeyondFilled category count filled =>
    "cannot release " ++ toString count ++ " " ++ category.name ++ " slots, only " ++
      toString filled ++ " filled"
  | joinTooLarge => "too many members in one join"

def OnlineError.message : OnlineError → String
  | text t fault => "Parse error: " ++ fault.message t
  | identifier raw => "Invalid session identifier: " ++ .ofList (Hex.fixed .upper 16 raw.toNat)
  | transition current requested =>
    "Invalid session transition: " ++ current.name ++ " -> " ++ requested.name
  | slots fault => "Validation failed: " ++ fault.message
  | capacity category vacant filled max =>
    category.name ++ " slots over capacity: " ++ toString vacant ++ " open + " ++
      toString filled ++ " filled > " ++ toString max ++ " max"

end ConsoleOnline
