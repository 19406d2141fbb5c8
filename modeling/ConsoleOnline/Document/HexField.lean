import ConsoleOnline.HexNumber
import ConsoleOnline.Json.Value

/-!
Fields of documents that hold an identifier: a hexadecimal text, or a number taken as it is.
-/
namespace ConsoleOnline.Json.Value

def hexNumber? : Value → Option UInt64
  | .string s => (HexNumber.parse s).toOption
  | .number (.natural n) => some n
  | _ => none

end ConsoleOnline.Json.Value
