/-!
The life of a session: it is set up in the lobby, registers its players for arbitration, is
played, reports its results and is deleted. A session may also be deleted in the lobby.
-/
namespace ConsoleOnline

inductive SessionState where
  | lobby | registration | inGame | reporting | deleted
  deriving DecidableEq, Repr

namespace SessionState

def all : List SessionState := [lobby, registration, inGame, reporting, deleted]

/-- Whether the session may move from `s` to `next`. -/
def allows (s next : SessionState) : Bool :=
  match s, next with
  | lobby, registration | registration, inGame | inGame, reporting | reporting, deleted
  | lobby, deleted => true
  | _, _ => false

def isTerminal (s : SessionState) : Bool := s = deleted

/-- The console's number for the state. -/
def code : SessionState → UInt32
  | lobby => 0
  | registration => 1
  | inGame => 2
  | reporting => 3
  | deleted => 4

def ofCode? (n : UInt32) : Option SessionState := all.find? fun s => s.code = n

def name : SessionState → String
  | lobby => "Lobby"
  | registration => "Registration"
  | inGame => "InGame"
  | reporting => "Reporting"
  | deleted => "Deleted"

@[simp] theorem ofCode?_code (s : SessionState) : ofCode? s.code = some s := by
  cases s <;> rfl

theorem code_lt_of_allows {s next : SessionState} (h : s.allows next) : s.code < next.code := by
  revert h; cases s <;> cases next <;> decide

end SessionState

end ConsoleOnline
