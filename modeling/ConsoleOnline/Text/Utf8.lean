import ConsoleOnline.Bytes

/-!
UTF-8. Every text has one encoding. Decoding never fails: each longest beginning of a character
that the bytes break off, and each byte that begins no character, becomes one U+FFFD. `decode?`
is the strict form, which accepts exactly the encodings.
-/
namespace ConsoleOnline.Text.Utf8

/-- What stands for bytes or units that spell no character. -/
def replacement : Char := '\uFFFD'

def encodeChar (c : Char) : Bytes :=
  let n := c.toNat
  if n < 0x80 then [.ofNat n]
  else if n < 0x800 then [.ofNat (0xC0 + n / 0x40), .ofNat (0x80 + n % 0x40)]
  else if n < 0x10000 then
    [.ofNat (0xE0 + n / 0x1000), .ofNat (0x80 + n / 0x40 % 0x40), .ofNat (0x80 + n % 0x40)]
  else
    [.ofNat (0xF0 + n / 0x40000), .ofNat (0x80 + n / 0x1000 % 0x40), .ofNat (0x80 + n / 0x40 % 0x40),
     .ofNat (0x80 + n % 0x40)]

def encode (cs : List Char) : Bytes := cs.flatMap encodeChar

/-- A character begun: the range that its next byte must lie in, how many bytes it needs after
that one, and its bits so far. -/
structure Pending where
  low : Nat := 0x80
  high : Nat := 0xBF
  more : Nat
  bits : Nat
  deriving DecidableEq, Repr

/-- What one byte adds to the text, and the character that it leaves unfinished. -/
abbrev Step := List Char × Option Pending

/-- A byte that continues nothing. The ranges of the next byte keep out overlong forms,
surrogates and numbers above U+10FFFF. -/
def first (b : UInt8) : Step :=
  let n := b.toNat
  if n < 0x80 then ([.ofNat n], none)
  else if n < 0xC2 then ([replacement], none)
  else if n < 0xE0 then ([], some { more := 0, bits := n - 0xC0 })
  else if n = 0xE0 then ([], some { low := 0xA0, more := 1, bits := 0 })
  else if n = 0xED then ([], some { high := 0x9F, more := 1, bits := 0xD })
  else if n < 0xF0 then ([], some { more := 1, bits := n - 0xE0 })
  else if n = 0xF0 then ([], some { low := 0x90, more := 2, bits := 0 })
  else if n < 0xF4 then ([], some { more := 2, bits := n - 0xF0 })
  else if n = 0xF4 then ([], some { high := 0x8F, more := 2, bits := 4 })
  else ([replacement], none)

def Pending.next (p : Pending) (b : UInt8) : Step :=
  if p.low ≤ b.toNat ∧ b.toNat ≤ p.high then
    let bits := p.bits * 0x40 + b.toNat % 0x40
    match p.more with
    | 0 => ([.ofNat bits], none)
    | more + 1 => ([], some { more, bits })
  else
    let s := first b
    (replacement :: s.1, s.2)

def step : Option Pending → UInt8 → Step
  | none, b => first b
  | some p, b => p.next b

def decodeFrom : Option Pending → Bytes → List Char
  | none, [] => []
  | some _, [] => [replacement]
  | p, b :: bs => (step p b).1 ++ decodeFrom (step p b).2 bs

def decode (bs : Bytes) : List Char := decodeFrom none bs

/-- The text with this encoding, if there is one. -/
def decode? (bs : Bytes) : Option (List Char) :=
  let cs := decode bs
  if encode cs = bs then some cs else none

example : decode [0xED, 0xA0, 0x80] = List.replicate 3 replacement := by decide
example : decode [0xF0, 0x9F, 0x98, 0x41] = [replacement, 'A'] := by decide

/-- The longest run of whole characters from the front whose encoding has at most `room` bytes. -/
def fitting : Nat → List Char → List Char
  | _, [] => []
  | room, c :: cs =>
    if c.utf8Size ≤ room then c :: fitting (room - c.utf8Size) cs else []

theorem length_encodeChar (c : Char) : (encodeChar c).length = c.utf8Size := by
  simp only [encodeChar, Char.utf8Size, UInt32.le_iff_toNat_le, Char.toNat]
  have h1 : UInt32.toNat 127 = 127 := rfl
  have h2 : UInt32.toNat 2047 = 2047 := rfl
  have h3 : UInt32.toNat 65535 = 65535 := rfl
  grind

@[simp] theorem encode_nil : encode [] = [] := rfl

@[simp] theorem encode_cons (c : Char) (cs : List Char) :
    encode (c :: cs) = encodeChar c ++ encode cs := by
  simp [encode]

theorem encode_ascii {cs : List Char} (h : ∀ c ∈ cs, c.toNat < 0x80) :
    encode cs = cs.map fun c => .ofNat c.toNat := by
  induction cs with
  | nil => rfl
  | cons c cs ih =>
    obtain ⟨hc, hcs⟩ := List.forall_mem_cons.mp h
    rw [encode_cons, ih hcs, encodeChar, if_pos hc]
    rfl

theorem length_encode_fitting (room : Nat) (cs : List Char) :
    (encode (fitting room cs)).length ≤ room := by
  induction cs generalizing room with
  | nil => simp [fitting]
  | cons c cs ih =>
    rw [fitting]
    split
    · have := ih (room - c.utf8Size)
      simp [length_encodeChar]
      omega
    · simp

end ConsoleOnline.Text.Utf8
