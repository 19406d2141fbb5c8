import ConsoleOnline.Json.Value

/-!
JSON text of a value, without blanks. In strings only the quotation mark, the backslash and the
control characters below U+0020 are escaped, all else stands as it is.
-/
namespace ConsoleOnline.Json

/-- The letter that is written after a backslash instead of the character. -/
def shortEscape? (c : Char) : Option Char :=
  match c with
  | '"' | '\\' => some c
  | '\x08' => some 'b'
  | '\x0c' => some 'f'
  | '\n' => some 'n'
  | '\r' => some 'r'
  | '\t' => some 't'
  | _ => none

def escapeChar (c : Char) : List Char :=
  match shortEscape? c with
  | some d => ['\\', d]
  | none => if c.toNat < 0x20 then ['\\', 'u'] ++ Hex.fixed .lower 4 c.toNat else [c]

def stringChars (s : String) : List Char :=
  '"' :: s.toList.flatMap escapeChar ++ ['"']

namespace Value

mutual

def chars : Value → List Char
  | .null => ['n', 'u', 'l', 'l']
  | .bool true => ['t', 'r', 'u', 'e']
  | .bool false => ['f', 'a', 'l', 's', 'e']
  | .number n => n.chars
  | .string s => stringChars s
  | .array items => '[' :: itemsChars items ++ [']']
  | .object fields => '\x7b' :: fieldsChars fields ++ ['\x7d']

def itemsChars : List Value → List Char
  | [] => []
  | [v] => v.chars
  | v :: rest => v.chars ++ ',' :: itemsChars rest

def fieldsChars : List (String × Value) → List Char
  | [] => []
  | [(k, v)] => stringChars k ++ ':' :: v.chars
  | (k, v) :: rest => stringChars k ++ ':' :: v.chars ++ ',' :: fieldsChars rest

end

def text (v : Value) : String := .ofList v.chars

end Value

end ConsoleOnline.Json
