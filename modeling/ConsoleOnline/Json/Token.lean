import ConsoleOnline.Decimal
import ConsoleOnline.Hex

/-!
Tokens of JSON text, as they are written: a number keeps its digits and a string the way each
of its characters is spelled. The scanner reads one character at a time; what it has begun is
its mode, and a number or a word ends only at the character after it.
-/
namespace ConsoleOnline.Json

/-- A number as it is written. An exponent is a sign, true for minus, and digits. -/
structure Numeral where
  negative : Bool := false
  whole : List Nat := []
  fraction : List Nat := []
  exponent : Option (Bool × List Nat) := none
  deriving DecidableEq, Repr

/-- A character of a string as it is written: as a character, also by a short escape, or as the
UTF-16 unit that follows `\u`. -/
inductive Piece where
  | char (c : Char)
  | unit (u : UInt16)
  deriving DecidableEq, Repr

inductive Token where
  | openArray | closeArray | openObject | closeObject | comma | colon
  | null
  | bool (b : Bool)
  | number (n : Numeral)
  | string (pieces : List Piece)
  deriving DecidableEq, Repr

/-- Where a numeral stands: what its last character was. -/
inductive NumeralPart where
  | sign | zero | whole | point | fraction | mark | markSign | exponent
  deriving DecidableEq, Repr

/-- What the scanner has begun. Letters and pieces are last first. -/
inductive Mode where
  | between
  | word (letters : List Char)
  | numeral (part : NumeralPart) (n : Numeral)
  | string (pieces : List Piece)
  | escape (pieces : List Piece)
  | unit (pieces : List Piece) (digits : List Char)
  deriving DecidableEq, Repr

/-- What the first character of a token begins. -/
def start (c : Char) : Option (List Token × Mode) :=
  match c with
  | ' ' | '\t' | '\n' | '\r' => some ([], .between)
  | '[' => some ([.openArray], .between)
  | ']' => some ([.closeArray], .between)
  | '\x7b' => some ([.openObject], .between)
  | '\x7d' => some ([.closeObject], .between)
  | ',' => some ([.comma], .between)
  | ':' => some ([.colon], .between)
  | '"' => some ([], .string [])
  | '-' => some ([], .numeral .sign { negative := true })
  | '0' => some ([], .numeral .zero { whole := [0] })
  | _ =>
    match Decimal.digit? c with
    | some d => some ([], .numeral .whole { whole := [d] })
    | none => if 'a' ≤ c ∧ c ≤ 'z' then some ([], .word [c]) else none

/-- The mode after one more character of a numeral, none if the character is no part of it. -/
def NumeralPart.extend (part : NumeralPart) (n : Numeral) (c : Char) : Option Mode :=
  let digit := Decimal.digit? c
  let isMark := c = 'e' ∨ c = 'E'
  match part with
  | .sign => digit.map fun d => .numeral (if d = 0 then .zero else .whole) { n with whole := [d] }
  | .zero =>
    if c = '.' then some (.numeral .point n)
    else if isMark then some (.numeral .mark n)
    else none
  | .whole =>
    if c = '.' then some (.numeral .point n)
    else if isMark then some (.numeral .mark n)
    else digit.map fun d => .numeral .whole { n with whole := n.whole ++ [d] }
  | .point => digit.map fun d => .numeral .fraction { n with fraction := [d] }
  | .fraction =>
    if isMark then some (.numeral .mark n)
    else digit.map fun d => .numeral .fraction { n with fraction := n.fraction ++ [d] }
  | .mark =>
    if c = '+' then some (.numeral .markSign { n with exponent := some (false, []) })
    else if c = '-' then some (.numeral .markSign { n with exponent := some (true, []) })
    else digit.map fun d => .numeral .exponent { n with exponent := some (false, [d]) }
  | .markSign | .exponent =>
    digit.map fun d =>
      .numeral .exponent { n with exponent := n.exponent.map fun e => (e.1, e.2 ++ [d]) }

/-- Whether a numeral may end here. -/
def NumeralPart.isWhole : NumeralPart → Bool
  | .zero | .whole | .fraction | .exponent => true
  | .sign | .point | .mark | .markSign => false

def wordToken? (letters : List Char) : Option Token :=
  if letters = ['n', 'u', 'l', 'l'] then some .null
  else if letters = ['t', 'r', 'u', 'e'] then some (.bool true)
  else if letters = ['f', 'a', 'l', 's', 'e'] then some (.bool false)
  else none

def escaped? (c : Char) : Option Char :=
  match c with
  | '"' | '\\' | '/' => some c
  | 'b' => some '\x08'
  | 'f' => some '\x0c'
  | 'n' => some '\n'
  | 'r' => some '\r'
  | 't' => some '\t'
  | _ => none

/-- The token that the end of the text closes, none within a string or an unfinished numeral. -/
def Mode.close : Mode → Option (List Token)
  | .between => some []
  | .word letters => (wordToken? letters.reverse).map ([·])
  | .numeral part n => if part.isWhole then some [.number n] else none
  | .string _ | .escape _ | .unit _ _ => none

/-- Closes what has been begun, and begins anew with `c`. -/
def Mode.restart (m : Mode) (c : Char) : Option (List Token × Mode) := do
  let closed ← m.close
  let (tokens, mode) ← start c
  pure (closed ++ tokens, mode)

def Mode.step (m : Mode) (c : Char) : Option (List Token × Mode) :=
  match m with
  | .between => start c
  | .word letters => if 'a' ≤ c ∧ c ≤ 'z' then some ([], .word (c :: letters)) else m.restart c
  | .numeral part n =>
    match part.extend n c with
    | some mode => some ([], mode)
    | none => m.restart c
  | .string pieces =>
    if c = '"' then some ([.string pieces.reverse], .between)
    else if c = '\\' then some ([], .escape pieces)
    else if c.toNat < 0x20 then none
    else some ([], .string (.char c :: pieces))
  | .escape pieces =>
    if c = 'u' then some ([], .unit pieces [])
    else (escaped? c).map fun d => ([], .string (.char d :: pieces))
  | .unit pieces digits =>
    if digits.length < 3 then
      if (Hex.digit? c).isSome then some ([], .unit pieces (digits ++ [c])) else none
    else (Hex.value? (digits ++ [c])).map fun u => ([], .string (.unit (.ofNat u) :: pieces))

def scanFrom (m : Mode) : List Char → Option (List Token)
  | [] => m.close
  | c :: cs => do
    let (tokens, mode) ← m.step c
    let rest ← scanFrom mode cs
    pure (tokens ++ rest)

/-- The tokens of a text, none if some part of it is no token. -/
def scan (cs : List Char) : Option (List Token) := scanFrom .between cs

end ConsoleOnline.Json
