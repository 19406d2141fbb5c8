import ConsoleOnline.Digits

/-!
Shortest decimals of binary numbers. Every binary number owns the interval of reals that round
to it; `Binary.shortest` is a decimal in that interval with the fewest digits, and of these the
nearest to the number, the even one where two are equally near. All arithmetic is exact. `Layout`
says how such a decimal is written.
-/
namespace ConsoleOnline

/-- The positive number `mantissa * 2 ^ exponent`. Below it the next number is half as far away as
above it when `closeBelow` holds. -/
structure Binary where
  mantissa : Nat
  exponent : Int
  closeBelow : Bool
  deriving DecidableEq, Repr

/-- The number `digits * 10 ^ exponent`. -/
structure Decimal where
  digits : Nat
  exponent : Int
  deriving DecidableEq, Repr

/-- A fraction `num / den` of naturals. -/
structure Ratio where
  num : Nat
  den : Nat
  deriving DecidableEq, Repr

namespace Ratio

def le (a b : Ratio) : Bool := a.num * b.den ≤ b.num * a.den

def lt (a b : Ratio) : Bool := a.num * b.den < b.num * a.den

/-- The product with `base ^ k`. -/
def scale (base : Nat) (k : Int) (a : Ratio) : Ratio :=
  if 0 ≤ k then ⟨a.num * Nat.pow base k.toNat, a.den⟩
  else ⟨a.num, a.den * Nat.pow base (-k).toNat⟩

def floor (a : Ratio) : Nat := a.num / a.den

/-- The least `p` with `a < 10 ^ p`, for a positive fraction. -/
def magnitude (a : Ratio) : Int :=
  let p : Int := (Digits.count 10 a.num : Int) - Digits.count 10 a.den
  if a.lt (scale 10 p ⟨1, 1⟩) then p else p + 1

end Ratio

namespace Binary

/-- The number with the given numerator over four times the unit of the mantissa. -/
def quarter (b : Binary) (num : Nat) : Ratio :=
  Ratio.scale 2 (b.exponent - 2) ⟨num, 1⟩

def ratio (b : Binary) : Ratio := b.quarter (4 * b.mantissa)

/-- Whether a real rounds to this number. The ends of the interval do when the mantissa is even. -/
def owns (b : Binary) (r : Ratio) : Bool :=
  let low := b.quarter (4 * b.mantissa - if b.closeBelow then 1 else 2)
  let high := b.quarter (4 * b.mantissa + 2)
  if b.mantissa % 2 = 0 then low.le r && r.le high else low.lt r && r.lt high

/-- Of the two neighbours with `n` digits, one that rounds to this number, the nearer first. Where
both are equally near, the one with an even last digit is first. -/
def shortestOf (b : Binary) (n : Nat) : Option Decimal :=
  let r := b.ratio
  let exponent : Int := r.magnitude - (n : Int)
  let scaled := r.scale 10 (-exponent)
  let down := scaled.floor
  let below : Decimal := ⟨down, exponent⟩
  let above : Decimal := ⟨down + 1, exponent⟩
  let owned (d : Decimal) := b.owns (Ratio.scale 10 d.exponent ⟨d.digits, 1⟩)
  let middle : Ratio := ⟨2 * down + 1, 2⟩
  let upFirst := middle.lt scaled || (down % 2 = 1 && middle.le scaled)
  (if upFirst then [above, below] else [below, above]).find? owned

/-- A decimal with the fewest digits that rounds to this number. A double needs at most 17. -/
def shortest (b : Binary) : Decimal :=
  ((List.range 17).findSome? fun n => b.shortestOf (n + 1)).getD
    ⟨b.ratio.floor, 0⟩

/-- A double has 52 bits of fraction. -/
def fractionLimit : Nat := 0x10000000000000

/-- The absolute value of a finite double other than zero. -/
def ofFloat (x : Float) : Binary :=
  let bits : Nat := x.toBits.toNat
  let fraction : Nat := bits % fractionLimit
  let biased : Nat := bits / fractionLimit % 0x800
  if biased = 0 then { mantissa := fraction, exponent := -1074, closeBelow := false }
  else
    { mantissa := fractionLimit + fraction
      exponent := (biased : Int) - 1075
      closeBelow := fraction = 0 && biased ≠ 1 }

end Binary

namespace Decimal

/-- The digits without trailing zeros. -/
def significant (d : Decimal) : List Nat :=
  ((Digits.atLeast 10 1 d.digits).reverse.dropWhile (· = 0)).reverse

/-- The power of ten of the leading digit. -/
def leading (d : Decimal) : Int :=
  d.exponent + Digits.count 10 d.digits - 1

/-- How a decimal is written: positionally when its leading digit has a power of ten from `least`
to `most`, and else with an exponent. -/
structure Layout where
  least : Int
  most : Int
  deriving DecidableEq, Repr

def digitChar (d : Nat) : Char := Char.ofNat ('0'.toNat + d)

def digit? (c : Char) : Option Nat :=
  if '0' ≤ c ∧ c ≤ '9' then some (c.toNat - '0'.toNat) else none

/-- The decimal digits of a natural number, with leading zeros up to `width`. -/
def natural (width n : Nat) : List Char := (Digits.atLeast 10 width n).map digitChar

/-- A number written positionally has a digit on each side of its point. One written with an
exponent has one digit before the point, and no point when that is its only digit. The exponent
has a sign and no leading zeros. -/
def text (f : Layout) (d : Decimal) : List Char :=
  let ds := d.significant.map digitChar
  let lead := d.leading
  if f.least ≤ lead ∧ lead ≤ f.most then
    if lead < 0 then '0' :: '.' :: List.replicate (-lead - 1).toNat '0' ++ ds
    else
      let whole := (lead + 1).toNat
      let fraction := ds.drop whole
      ds.take whole ++ List.replicate (whole - ds.length) '0' ++
        '.' :: (if fraction.isEmpty then ['0'] else fraction)
  else
    let mantissa := match ds with
      | [] => []
      | [c] => [c]
      | c :: rest => c :: '.' :: rest
    mantissa ++ 'e' :: (if lead < 0 then '-' else '+') :: natural 1 lead.natAbs

example : Binary.shortest ⟨6366625871859575, -2, false⟩ = ⟨15916564679648938, -1⟩ := by decide +kernel
example : text ⟨-5, 15⟩ ⟨15, -1⟩ = "1.5".toList := by decide +kernel
example : text ⟨-5, 15⟩ ⟨1, 300⟩ = "1e+300".toList := by decide +kernel
example : text ⟨-5, 15⟩ ⟨1, -6⟩ = "1e-6".toList := by decide +kernel
example : text ⟨-5, 15⟩ ⟨1, 0⟩ = "1.0".toList := by decide +kernel

end Decimal

end ConsoleOnline
