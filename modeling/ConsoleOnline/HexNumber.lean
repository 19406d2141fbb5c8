import ConsoleOnline.OnlineError
import ConsoleOnline.Text.Blank
import ConsoleOnline.Text.Utf8

/-!
Numbers that people and services write in hexadecimal: blanks around them and one marker `0x` or
`0X` do not count, and neither does a plus sign before the first digit, but it takes the room of a
digit. At most 16 digits fit.
-/
namespace ConsoleOnline.HexNumber

def dropMarker : List Char → List Char
  | '0' :: 'x' :: rest => rest
  | '0' :: 'X' :: rest => rest
  | cs => cs

def dropPlus : List Char → List Char
  | '+' :: c :: rest => c :: rest
  | cs => cs

def parse (text : String) : Except OnlineError UInt64 :=
  let digits := dropMarker (Text.trim text.toList)
  if digits = [] ∨ 16 < (Text.Utf8.encode digits).length then .error (.text text .hexLength)
  else
    match Hex.value? (dropPlus digits) with
    | some n => .ok (.ofNat n)
    | none => .error (.text text .hexDigit)

example : (parse " 0xae00000000000042 ").toOption = some 0xAE00000000000042 := by decide +kernel
example : (parse "0x+1").toOption = some 1 := by decide +kernel
example : (parse "+").toOption = none := by decide +kernel

end ConsoleOnline.HexNumber
