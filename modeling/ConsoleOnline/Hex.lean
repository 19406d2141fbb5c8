import ConsoleOnline.Bytes

/-!
Hexadecimal text. Numbers are written with a fixed or a least number of digits, bytes with two
digits each, in either case of letter. Both cases are read.
-/
namespace ConsoleOnline.Hex

inductive LetterCase where
  | lower | upper
  deriving DecidableEq, Repr

/-- The letter that stands for ten. -/
def LetterCase.ten : LetterCase → Char
  | .lower => 'a'
  | .upper => 'A'

def digit (k : LetterCase) (d : Nat) : Char :=
  if d < 10 then Char.ofNat ('0'.toNat + d) else Char.ofNat (k.ten.toNat + (d - 10))

def digit? (c : Char) : Option Nat :=
  if '0' ≤ c ∧ c ≤ '9' then some (c.toNat - '0'.toNat)
  else if 'a' ≤ c ∧ c ≤ 'f' then some (c.toNat - 'a'.toNat + 10)
  else if 'A' ≤ c ∧ c ≤ 'F' then some (c.toNat - 'A'.toNat + 10)
  else none

/-- Exactly `width` digits of `n`. -/
def fixed (k : LetterCase) (width n : Nat) : List Char :=
  (Digits.fixed 16 width n).map (digit k)

/-- All digits of `n`, at least `width` of them. -/
def atLeast (k : LetterCase) (width n : Nat) : List Char :=
  (Digits.atLeast 16 width n).map (digit k)

/-- The number that the digits spell, if they all are digits. -/
def value? (cs : List Char) : Option Nat :=
  (cs.mapM digit?).map (Digits.value 16)

def ofBytes (k : LetterCase) (bs : Bytes) : List Char :=
  bs.flatMap fun b => fixed k 2 b.toNat

/-- The bytes that an even number of digits spells. -/
def toBytes? : List Char → Option Bytes
  | [] => some []
  | [_] => none
  | c :: d :: rest => do
    let high ← digit? c
    let low ← digit? d
    let bs ← toBytes? rest
    pure (UInt8.ofNat (high * 16 + low) :: bs)

theorem digit?_digit (k : LetterCase) {d : Nat} (h : d < 16) : digit? (digit k d) = some d := by
  have all : ∀ d : Fin 16, digit? (digit k d.val) = some d.val := by cases k <;> decide
  exact all ⟨d, h⟩

@[simp] theorem length_fixed (k : LetterCase) (width n : Nat) : (fixed k width n).length = width := by
  simp [fixed]

theorem mapM_digit?_map_digit (k : LetterCase) {ds : List Nat} (h : ∀ d ∈ ds, d < 16) :
    (ds.map (digit k)).mapM digit? = some ds := by
  induction ds with
  | nil => rfl
  | cons d ds ih =>
    rw [List.map_cons, List.mapM_cons, digit?_digit k (h d List.mem_cons_self),
      ih fun e he => h e (List.mem_cons_of_mem _ he)]
    rfl

theorem value?_fixed (k : LetterCase) (width n : Nat) :
    value? (fixed k width n) = some (n % Nat.pow 16 width) := by
  rw [value?, fixed, mapM_digit?_map_digit k fun d hd => Digits.mem_fixed_lt (by decide) hd,
    Option.map_some, Digits.value_fixed]

/-- What holds of each digit holds of all that is written with digits. -/
theorem forall_mem_fixed {p : Char → Prop} {k : LetterCase} (h : ∀ d : Fin 16, p (digit k d))
    (width n : Nat) : ∀ c ∈ fixed k width n, p c := by
  intro c hc
  obtain ⟨d, hd, rfl⟩ := List.mem_map.mp hc
  exact h ⟨d, Digits.mem_fixed_lt (by decide) hd⟩

theorem forall_mem_ofBytes {p : Char → Prop} {k : LetterCase} (h : ∀ d : Fin 16, p (digit k d))
    (bs : Bytes) : ∀ c ∈ ofBytes k bs, p c := by
  intro c hc
  obtain ⟨b, -, hb⟩ := List.mem_flatMap.mp hc
  exact forall_mem_fixed h 2 b.toNat c hb

theorem length_ofBytes (k : LetterCase) (bs : Bytes) : (ofBytes k bs).length = 2 * bs.length := by
  induction bs with
  | nil => rfl
  | cons b bs ih =>
    rw [ofBytes, List.flatMap_cons, List.length_append, length_fixed, ← ofBytes, ih,
      List.length_cons]
    omega

theorem toBytes?_ofBytes (k : LetterCase) (bs : Bytes) : toBytes? (ofBytes k bs) = some bs := by
  induction bs with
  | nil => rfl
  | cons b bs ih =>
    have hlt : b.toNat < 256 := b.toNat_lt
    have hhigh := digit?_digit k (show b.toNat / 16 % 16 < 16 by omega)
    have hlow := digit?_digit k (show b.toNat % 16 < 16 by omega)
    have hb : b.toNat / 16 % 16 * 16 + b.toNat % 16 = b.toNat := by omega
    change toBytes? (digit k (b.toNat / 16 % 16) :: digit k (b.toNat % 16) :: ofBytes k bs) = _
    simp only [toBytes?, hhigh, hlow, ih, bind, Option.bind_some, hb, UInt8.ofNat_toNat, pure]

end ConsoleOnline.Hex
