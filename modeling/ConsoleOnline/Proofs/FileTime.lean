import ConsoleOnline.FileTime
import Mathlib.Algebra.Group.Int.Defs
import Mathlib.Algebra.Group.Nat.Defs

/-!
Points in time and ticks. The steps of a conversion stop at the ends of 64 bits one by one; together
they do what one exact conversion with one stop at each end does. From this follow the order of ticks
and the way back.
-/
namespace ConsoleOnline

/-- All nanoseconds since the start of 1970. -/
def UnixTime.total (t : UnixTime) : Int := t.seconds * 1000000000 + t.nanos

namespace FileTime

/-- The seconds from the start of 1970 to that of a year from 1601 on. A span of 400 years begins with
1601. -/
def yearStart (year : Nat) : Int :=
  let years := year - 1601
  (365 * years + years / 4 - years / 100 + years / 400 : Nat) * 86400 - epoch

example : yearStart 1970 = 0 := rfl

/-- The calendar has every point in time of the years 1601 to 30828. -/
def Covers (date? : Int → Nat → Option UnixTime) : Prop :=
  ∀ (seconds : Int) (nanos : Nat), yearStart 1601 ≤ seconds → seconds < yearStart 30829 →
    nanos < 1000000000 → date? seconds nanos = some ⟨seconds, nanos⟩

/-- The ticks up to a point in time, negative before 1601 and as many as it takes after it. -/
def exactTicks (t : UnixTime) : Int := (t.seconds + 11644473600) * 10000000 + (t.nanos / 100 : Nat)

theorem exactTicks_eq (t : UnixTime) : exactTicks t = t.total / 100 + 116444736000000000 := by
  rw [exactTicks, UnixTime.total]
  omega

theorem saturate_neg_iff {n : Int} : saturate n < 0 ↔ n < 0 := by
  rw [saturate]
  omega

theorem saturate_of_nonneg {n : Int} (h : 0 ≤ n) : saturate n = min n 0x7FFFFFFFFFFFFFFF := by
  rw [saturate]
  omega

theorem saturate_nonneg {n : Int} (h : 0 ≤ n) : 0 ≤ saturate n :=
  Int.not_lt.mp (mt saturate_neg_iff.mp (Int.not_lt.mpr h))

/-- From zero on a stop on the way makes no difference: what comes after it only adds. -/
theorem saturate_steps {seconds ticks : Int} (hseconds : 0 ≤ seconds) (hticks : 0 ≤ ticks) :
    saturate (saturate (saturate seconds * ticksPerSecond) + ticks) =
      min (seconds * 10000000 + ticks) 0x7FFFFFFFFFFFFFFF := by
  have hproduct : 0 ≤ saturate seconds * 10000000 :=
    Int.mul_nonneg (saturate_nonneg hseconds) (by decide)
  have hsum : 0 ≤ saturate (saturate seconds * 10000000) + ticks :=
    Int.add_nonneg (saturate_nonneg hproduct) hticks
  change saturate (saturate (saturate seconds * 10000000) + ticks) = _
  rw [saturate_of_nonneg hsum, saturate_of_nonneg hproduct, saturate_of_nonneg hseconds]
  omega

theorem toNat_ofInt {n : Int} (h : 0 ≤ n) (hle : n ≤ 0x7FFFFFFFFFFFFFFF) :
    ((UInt64.ofInt n).toNat : Int) = n := by
  have hlt : n.toNat < UInt64.size := by
    change n.toNat < 18446744073709551616
    omega
  rw [UInt64.ofInt, Int.emod_eq_of_lt h (by omega), UInt64.toNat_ofNat_of_lt' hlt]
  exact Int.toNat_of_nonneg h

theorem toNat_ofUnix {t : UnixTime} (h : t.nanos < 1000000000) :
    ((ofUnix t).ticks.toNat : Int) = max 0 (min (exactTicks t) 0x7FFFFFFFFFFFFFFF) := by
  have hticks : (t.nanos / nanosPerTick : Nat) < (10000000 : Int) := by
    change (t.nanos / 100 : Nat) < (10000000 : Int)
    omega
  have hticks₀ : (0 : Int) ≤ (t.nanos / nanosPerTick : Nat) := Int.natCast_nonneg _
  have hexact : exactTicks t = (t.seconds + epoch) * 10000000 + (t.nanos / nanosPerTick : Nat) := rfl
  by_cases hneg : t.seconds + epoch < 0
  · have hzero : (zero.ticks.toNat : Int) = 0 := rfl
    rw [ofUnix, if_pos (saturate_neg_iff.mpr hneg), hzero, hexact]
    omega
  · have hseconds : 0 ≤ t.seconds + epoch := Int.not_lt.mp hneg
    have hnonneg : 0 ≤ exactTicks t := by
      rw [hexact]
      omega
    rw [ofUnix, if_neg (mt saturate_neg_iff.mp hneg)]
    simp only [saturate_steps hseconds hticks₀]
    rw [← hexact, toNat_ofInt (by omega) (by omega)]
    omega

theorem toNat_ofUnix_of_exact {t : UnixTime} (h : t.nanos < 1000000000) (hnonneg : 0 ≤ exactTicks t)
    (hle : exactTicks t ≤ 0x7FFFFFFFFFFFFFFF) : ((ofUnix t).ticks.toNat : Int) = exactTicks t := by
  rw [toNat_ofUnix h]
  omega

theorem ticks_ofUnix_le {t u : UnixTime} (ht : t.nanos < 1000000000) (hu : u.nanos < 1000000000)
    (h : t.total ≤ u.total) : (ofUnix t).ticks ≤ (ofUnix u).ticks := by
  have hexact : exactTicks t ≤ exactTicks u := by
    rw [exactTicks_eq, exactTicks_eq]
    omega
  have ht := toNat_ofUnix ht
  have hu := toNat_ofUnix hu
  rw [UInt64.le_iff_toNat_le]
  omega

/-! ### The way back -/

section

variable {date? : Int → Nat → Option UnixTime}

/-- Every tick count that a date can have is in the calendar. -/
theorem toDate?_eq (hcovers : Covers date?) (f : FileTime) :
    f.toDate? date? =
      if f.ticks.toNat < 2 ^ 63 then
        some ⟨(f.ticks.toNat / 10000000 : Nat) - epoch, f.ticks.toNat % 10000000 * 100⟩
      else none := by
  change (if f.ticks.toNat < 2 ^ 63 then
    date? ((f.ticks.toNat / 10000000 : Nat) - epoch) (f.ticks.toNat % 10000000 * 100)
    else none) = _
  split
  · next h =>
    have hfirst : yearStart 1601 = -epoch := rfl
    have hlast : yearStart 30829 = 922346611200 - epoch := rfl
    refine hcovers _ _ ?_ ?_ ?_ <;> omega
  · rfl

theorem isSome_toDate?_iff (hcovers : Covers date?) (f : FileTime) :
    (f.toDate? date?).isSome ↔ f.ticks.toNat < 2 ^ 63 := by
  rw [toDate?_eq hcovers]
  split
  · next hlt => exact iff_of_true rfl hlt
  · next hge => exact iff_of_false Bool.false_ne_true hge

theorem ofUnix_of_toDate? (hcovers : Covers date?) {f : FileTime} {t : UnixTime}
    (h : f.toDate? date? = some t) : ofUnix t = f := by
  rw [toDate?_eq hcovers] at h
  split at h
  · next hlt =>
    obtain rfl := Option.some.inj h
    let t : UnixTime := ⟨(f.ticks.toNat / 10000000 : Nat) - epoch, f.ticks.toNat % 10000000 * 100⟩
    have hnanos : t.nanos < 1000000000 := by
      change f.ticks.toNat % 10000000 * 100 < 1000000000
      omega
    have hexact : exactTicks t = f.ticks.toNat := by
      simp only [t, exactTicks, epoch]
      omega
    have hticks := toNat_ofUnix_of_exact hnanos (by omega) (by omega)
    rw [hexact] at hticks
    exact congrArg mk (UInt64.toNat.inj (Int.natCast_inj.mp hticks))
  · cases h

theorem toDate?_ofUnix (hcovers : Covers date?) {t : UnixTime} (h : t.nanos < 1000000000)
    (hnonneg : 0 ≤ exactTicks t) (hle : exactTicks t ≤ 0x7FFFFFFFFFFFFFFF) :
    (ofUnix t).toDate? date? = some ⟨t.seconds, t.nanos / 100 * 100⟩ := by
  have hticks := toNat_ofUnix_of_exact h hnonneg hle
  have hexact : exactTicks t = (t.seconds + epoch) * 10000000 + (t.nanos / 100 : Nat) := rfl
  have hquotient : ((ofUnix t).ticks.toNat / 10000000 : Nat) - epoch = t.seconds := by omega
  have hremainder : (ofUnix t).ticks.toNat % 10000000 = t.nanos / 100 := by omega
  rw [toDate?_eq hcovers, if_pos (by omega), hquotient, hremainder]

end

/-- Ticks are counted exactly, but for one stop at zero and one at the last date, and so never run
backwards. The tick counts that have a date are those below 2^63. Each of them is that of its date,
and where there is no stop a point in time is the date of its ticks, rounded down to 100
nanoseconds. -/
theorem ticks_correspond_to_dates {date? : Int → Nat → Option UnixTime} (hcovers : Covers date?) :
    (∀ t : UnixTime, t.nanos < 1000000000 →
      ((ofUnix t).ticks.toNat : Int) =
        max 0 (min ((t.seconds + 11644473600) * 10000000 + (t.nanos / 100 : Nat)) (2 ^ 63 - 1))) ∧
    (∀ t u : UnixTime, t.nanos < 1000000000 → u.nanos < 1000000000 → t.total ≤ u.total →
      (ofUnix t).ticks ≤ (ofUnix u).ticks) ∧
    (∀ f : FileTime, (f.toDate? date?).isSome ↔ f.ticks.toNat < 2 ^ 63) ∧
    (∀ (f : FileTime) (t : UnixTime), f.toDate? date? = some t → ofUnix t = f) ∧
    ∀ t : UnixTime, t.nanos < 1000000000 → 0 ≤ exactTicks t → exactTicks t ≤ 2 ^ 63 - 1 →
      (ofUnix t).toDate? date? = some ⟨t.seconds, t.nanos / 100 * 100⟩ :=
  ⟨fun _ h => toNat_ofUnix h, fun _ _ ht hu h => ticks_ofUnix_le ht hu h,
    fun f => isSome_toDate?_iff hcovers f, fun _ _ h => ofUnix_of_toDate? hcovers h,
    fun _ h hnonneg hle => toDate?_ofUnix hcovers h hnonneg hle⟩

/-- A calendar of the years -262143 to 262142. -/
def longCalendar (seconds : Int) (nanos : Nat) : Option UnixTime :=
  if -8334601228800 ≤ seconds ∧ seconds < yearStart 262143 ∧ nanos < 1000000000 then
    some ⟨seconds, nanos⟩
  else none

theorem covers_longCalendar : Covers longCalendar := by
  intro seconds nanos hfirst hlast hnanos
  have hstart : -8334601228800 ≤ yearStart 1601 := by decide
  have hend : yearStart 30829 ≤ yearStart 262143 := by decide
  rw [longCalendar, if_pos ⟨by omega, by omega, hnanos⟩]

/-- A second of the year 2023 and a part of it, and the last date. -/
theorem dates_of_long_calendar :
    (ofUnix ⟨1700000000, 123456789⟩).toDate? longCalendar = some ⟨1700000000, 123456700⟩ ∧
      ((mk 0x7FFFFFFFFFFFFFFF).toDate? longCalendar).isSome := by
  obtain ⟨-, -, hdates, -, hback⟩ := ticks_correspond_to_dates covers_longCalendar
  constructor
  · exact hback ⟨1700000000, 123456789⟩ (by decide) (by decide) (by decide)
  · exact (hdates ⟨0x7FFFFFFFFFFFFFFF⟩).mpr (by decide)

end FileTime

end ConsoleOnline
