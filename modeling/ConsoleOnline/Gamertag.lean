import ConsoleOnline.Text.Utf8
import ConsoleOnline.TextFit

/-!
Gamertags, the names of users. The console keeps one in a field of 16 bytes that ends with a zero
byte, so 15 bytes of UTF-8 are all the text it may have.
-/
namespace ConsoleOnline

/-- How many bytes of text a gamertag has room for. -/
def Gamertag.capacity : Nat := 15

structure Gamertag where
  text : String := ""
  fits : (Text.Utf8.encode text.toList).length ≤ Gamertag.capacity := by exact Nat.zero_le _
  deriving DecidableEq, Repr

namespace Gamertag

def fieldSize : Nat := capacity + 1

instance : Inhabited Gamertag := ⟨{}⟩

/-- Keeps the longest run of whole characters that fits. -/
def ofText (s : String) : Gamertag where
  text := .ofList (Text.Utf8.fitting capacity s.toList)
  fits := by simpa using Text.Utf8.length_encode_fitting capacity s.toList

/-- How text fits a gamertag, counted in characters. -/
def fit (s : String) : TextFit :=
  .ofCounts (ofText s).text.toList.length s.toList.length

def isEmpty (g : Gamertag) : Bool := g.text.toList.isEmpty

/-- The gamertag in a field: it ends before the first zero byte, and at the latest before the last
byte of the field. -/
def ofField (field : Bytes) : Gamertag :=
  ofText (.ofList (Text.Utf8.decode ((field.take capacity).takeWhile (· ≠ 0))))

/-- The field of a gamertag, filled up with zero bytes. -/
def toField (g : Gamertag) : Vector UInt8 fieldSize :=
  Bytes.window fieldSize (Text.Utf8.encode g.text.toList)

end Gamertag

end ConsoleOnline
