/-!
Points in time as the console counts them: ticks of 100 nanoseconds since the start of 1601, UTC.
-/
namespace ConsoleOnline

structure FileTime where
  ticks : UInt64 := 0
  deriving DecidableEq, Repr, Inhabited

/-- A point in time by the seconds since the start of 1970 and the nanoseconds after them. -/
structure UnixTime where
  seconds : Int
  nanos : Nat
  deriving DecidableEq, Repr

namespace FileTime

def zero : FileTime := ⟨0⟩

/-- The seconds from the start of 1601 to that of 1970. -/
def epoch : Int := 11644473600

def ticksPerSecond : Nat := 10000000

def nanosPerTick : Nat := 100

/-- The tick counts that a date can have stay below this one. -/
def dateLimit : Nat := 0x8000000000000000

/-- Signed numbers of 64 bits end here: what would pass an end stops there. -/
def saturate (n : Int) : Int := max (-0x8000000000000000) (min n 0x7FFFFFFFFFFFFFFF)

/-- Times before 1601 become zero and times past the last date become that date. -/
def ofUnix (t : UnixTime) : FileTime :=
  let seconds := saturate (t.seconds + epoch)
  if seconds < 0 then zero
  else
    let ticks := saturate (seconds * ticksPerSecond)
    ⟨.ofInt (saturate (ticks + (t.nanos / nanosPerTick : Nat)))⟩

/-- The date in a calendar, which has dates for seconds since 1970 and nanoseconds after them. -/
def toDate? (date? : Int → Nat → Option UnixTime) (t : FileTime) : Option UnixTime :=
  let n := t.ticks.toNat
  if n < dateLimit then
    date? ((n / ticksPerSecond : Nat) - epoch) (n % ticksPerSecond * nanosPerTick)
  else none

/-- The date in a calendar without end. -/
def toUnix? : FileTime → Option UnixTime :=
  toDate? fun seconds nanos => some { seconds, nanos }

def high (t : FileTime) : UInt32 := (t.ticks >>> 32).toUInt32

def low (t : FileTime) : UInt32 := t.ticks.toUInt32

def ofParts (high low : UInt32) : FileTime := ⟨high.toUInt64 <<< 32 ||| low.toUInt64⟩

theorem toNat_high (t : FileTime) : t.high.toNat = t.ticks.toNat / 0x100000000 := by
  have hlt := t.ticks.toNat_lt
  simp only [high, UInt64.toNat_toUInt32, UInt64.toNat_shiftRight, Nat.shiftRight_eq_div_pow]
  change t.ticks.toNat / 2 ^ 32 % 2 ^ 32 = _
  omega

theorem toNat_low (t : FileTime) : t.low.toNat = t.ticks.toNat % 0x100000000 := by
  simp [low]

theorem toNat_ofParts (high low : UInt32) :
    (ofParts high low).ticks.toNat = high.toNat * 0x100000000 + low.toNat := by
  have hhigh := high.toNat_lt
  have hlow : low.toNat < 2 ^ 32 := low.toNat_lt
  simp only [ofParts, UInt64.toNat_or, UInt64.toNat_shiftLeft, UInt32.toNat_toUInt64]
  change high.toNat <<< 32 % 2 ^ 64 ||| low.toNat = _
  rw [Nat.mod_eq_of_lt (by rw [Nat.shiftLeft_eq]; omega), ← Nat.shiftLeft_add_eq_or_of_lt hlow,
    Nat.shiftLeft_eq]

theorem ofParts_high_low (t : FileTime) : ofParts t.high t.low = t := by
  have h : (ofParts t.high t.low).ticks = t.ticks := by
    apply UInt64.toNat.inj
    rw [toNat_ofParts, toNat_high, toNat_low]
    omega
  exact congrArg mk h

theorem high_ofParts (high low : UInt32) : (ofParts high low).high = high := by
  apply UInt32.toNat.inj
  have := low.toNat_lt
  rw [toNat_high, toNat_ofParts]
  omega

theorem low_ofParts (high low : UInt32) : (ofParts high low).low = low := by
  apply UInt32.toNat.inj
  have := low.toNat_lt
  rw [toNat_low, toNat_ofParts]
  omega

end FileTime

end ConsoleOnline
