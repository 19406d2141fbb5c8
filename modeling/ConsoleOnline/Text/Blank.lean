/-!
Blanks: the characters that Unicode gives the property `White_Space`. `trim` drops them from
both ends of a text and from nowhere else.
-/
namespace ConsoleOnline.Text

/-- The `White_Space` characters, as ranges of code points with both ends included. -/
def blankRanges : List (Nat × Nat) :=
  [(0x9, 0xD), (0x20, 0x20), (0x85, 0x85), (0xA0, 0xA0), (0x1680, 0x1680), (0x2000, 0x200A),
   (0x2028, 0x2029), (0x202F, 0x202F), (0x205F, 0x205F), (0x3000, 0x3000)]

def isBlank (c : Char) : Bool :=
  blankRanges.any fun r => r.1 ≤ c.toNat && c.toNat ≤ r.2

def trimStart (cs : List Char) : List Char := cs.dropWhile isBlank

def trimEnd (cs : List Char) : List Char := (cs.reverse.dropWhile isBlank).reverse

def trim (cs : List Char) : List Char := trimEnd (trimStart cs)

example : (blankRanges.map fun r => r.2 + 1 - r.1).sum = 25 := rfl

/-- Only ASCII letters change. -/
def lowercase (cs : List Char) : List Char := cs.map Char.toLower

@[simp] theorem trim_nil : trim [] = [] := rfl

@[simp] theorem trimStart_cons_blank {c : Char} (h : isBlank c) (cs : List Char) :
    trimStart (c :: cs) = trimStart cs := by
  simp [trimStart, h]

end ConsoleOnline.Text
