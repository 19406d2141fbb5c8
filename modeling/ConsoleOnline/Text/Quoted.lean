import ConsoleOnline.Hex
import ConsoleOnline.Text.Hidden

/-!
Quoted text, as diagnostics show it: between two marks, with a backslash before the mark itself
and before a backslash, the usual letters for the common control characters, and `\u{…}` with the
code point in lower-case hexadecimal for every other character that would not show.
-/
namespace ConsoleOnline.Text

def escapeChar (mark c : Char) : List Char :=
  if c = '\x00' then ['\\', '0']
  else if c = '\t' then ['\\', 't']
  else if c = '\r' then ['\\', 'r']
  else if c = '\n' then ['\\', 'n']
  else if c = '\\' ∨ c = mark then ['\\', c]
  else if isHidden c then ['\\', 'u', '\x7b'] ++ Hex.atLeast .lower 1 c.toNat ++ ['\x7d']
  else [c]

/-- The text between two marks. -/
def quoted (mark : Char) (cs : List Char) : List Char :=
  mark :: cs.flatMap (escapeChar mark) ++ [mark]

example : quoted '"' ['a', '"', '\''] = ['"', 'a', '\\', '"', '\'', '"'] := by decide +kernel
example : quoted '\'' ['\x80'] = "'\\u\x7b80\x7d'".toList := by decide +kernel

end ConsoleOnline.Text
