import ConsoleOnline.Json.Token

/-!
JSON text as a tree: what was written, before it is asked for its value. The tree is built from
the tokens one at a time, by a state that knows which kinds of token may come next.
-/
namespace ConsoleOnline.Json

inductive Written where
  | null
  | bool (b : Bool)
  | number (n : Numeral)
  | string (pieces : List Piece)
  | array (items : List Written)
  | object (entries : List (List Piece × Written))
  deriving Repr, Inhabited

/-- An array or object that is not closed yet, with what it holds, last first. The object waits for
the value of `key`. -/
inductive Frame where
  | array (items : List Written)
  | object (entries : List (List Piece × Written)) (key : List Piece)
  deriving Repr

/-- What may come next, and within which unclosed arrays and objects, innermost first. -/
inductive Expected where
  | value (around : List Frame)
  | itemOrClose (around : List Frame)
  | keyOrClose (around : List Frame)
  | entryKey (around : List Frame) (entries : List (List Piece × Written))
  | colon (around : List Frame) (entries : List (List Piece × Written)) (key : List Piece)
  | afterItem (around : List Frame) (items : List Written)
  | afterEntry (around : List Frame) (entries : List (List Piece × Written))
  | nothing (result : Written)
  deriving Repr

/-- Puts a finished value into its place. -/
def Expected.finish (around : List Frame) (w : Written) : Expected :=
  match around with
  | [] => .nothing w
  | .array items :: rest => .afterItem rest (w :: items)
  | .object entries key :: rest => .afterEntry rest ((key, w) :: entries)

def Expected.ofValue (around : List Frame) : Token → Option Expected
  | .null => some (finish around .null)
  | .bool b => some (finish around (.bool b))
  | .number n => some (finish around (.number n))
  | .string ps => some (finish around (.string ps))
  | .openArray => some (.itemOrClose around)
  | .openObject => some (.keyOrClose around)
  | .closeArray | .closeObject | .comma | .colon => none

def Expected.step (e : Expected) (t : Token) : Option Expected :=
  match e, t with
  | .value around, t => ofValue around t
  | .itemOrClose around, .closeArray => some (finish around (.array []))
  | .itemOrClose around, t => ofValue (.array [] :: around) t
  | .keyOrClose around, .closeObject => some (finish around (.object []))
  | .keyOrClose around, .string key => some (.colon around [] key)
  | .entryKey around entries, .string key => some (.colon around entries key)
  | .colon around entries key, .colon => some (.value (.object entries key :: around))
  | .afterItem around items, .comma => some (.value (.array items :: around))
  | .afterItem around items, .closeArray => some (finish around (.array items.reverse))
  | .afterEntry around entries, .comma => some (.entryKey around entries)
  | .afterEntry around entries, .closeObject => some (finish around (.object entries.reverse))
  | _, _ => none

namespace Written

def ofTokens? (ts : List Token) : Option Written :=
  match ts.foldlM Expected.step (.value []) with
  | some (.nothing w) => some w
  | _ => none

/-- The tree of a text, none if the text is not one JSON value between blanks. -/
def ofChars? (cs : List Char) : Option Written := scan cs >>= ofTokens?

end Written

end ConsoleOnline.Json
