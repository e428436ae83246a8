import Mathlib.Algebra.Order.Ring.Int

/-! # Instants and durations

The durations of the standard library, which have no sign, and the types of the `time`
crate as what they stand for: an instant is its distance from the Unix epoch in
nanoseconds, and arithmetic on it is exact, within the range of the type.
-/

namespace Systemstat

def nanosPerSec : Nat := 1000000000

/-! ## Durations -/

structure Duration where
  secs : BitVec 64
  nanos : Fin nanosPerSec

namespace Duration

def asNanos (self : Duration) : Nat := self.secs.toNat * nanosPerSec + self.nanos

def ofNanos (nanos : Nat) : Duration :=
  ⟨BitVec.ofNat 64 (nanos / nanosPerSec), nanos % nanosPerSec, Nat.mod_lt _ (by decide)⟩

def fromNanos (nanos : BitVec 64) : Duration := ofNanos nanos.toNat

theorem asNanos_ofNanos {nanos : Nat} (h : nanos < 2 ^ 64 * nanosPerSec) :
    (ofNanos nanos).asNanos = nanos := by
  have hsecs : nanos / nanosPerSec < 2 ^ 64 := Nat.div_lt_of_lt_mul (by rwa [Nat.mul_comm])
  rw [asNanos, ofNanos, BitVec.toNat_ofNat, Nat.mod_eq_of_lt hsecs]
  exact Nat.div_add_mod' nanos nanosPerSec

theorem asNanos_fromNanos (nanos : BitVec 64) : (fromNanos nanos).asNanos = nanos.toNat := by
  apply asNanos_ofNanos
  have hlt := nanos.isLt
  have hunit : nanosPerSec = 1000000000 := rfl
  omega

end Duration

/-! ## Instants -/

/-- From the first second of the year -9999 to the last one of 9999. -/
def minTimestamp : Int := -377705116800

def maxTimestamp : Int := 253402300799

structure OffsetDateTime where
  unixTimestampNanos : Int
  low : minTimestamp * nanosPerSec ≤ unixTimestampNanos
  high : unixTimestampNanos < (maxTimestamp + 1) * nanosPerSec

/-- `time::Duration`, which has a sign. -/
structure TimeDuration where
  wholeNanoseconds : Int
  low : -2 ^ 63 * nanosPerSec ≤ wholeNanoseconds
  high : wholeNanoseconds < 2 ^ 63 * nanosPerSec

def TimeDuration.tryInto (self : TimeDuration) : Option Duration :=
  if self.wholeNanoseconds < 0 then none else some (.ofNanos self.wholeNanoseconds.toNat)

theorem TimeDuration.tryInto_of_neg (self : TimeDuration) (h : self.wholeNanoseconds < 0) :
    self.tryInto = none := if_pos h

theorem TimeDuration.tryInto_of_nonneg (self : TimeDuration) (h : 0 ≤ self.wholeNanoseconds) :
    ∃ d, self.tryInto = some d ∧ (d.asNanos : Int) = self.wholeNanoseconds := by
  refine ⟨_, if_neg (by omega), ?_⟩
  have hhigh := self.high
  have hunit : (nanosPerSec : Int) = 1000000000 := rfl
  have hunit' : nanosPerSec = 1000000000 := rfl
  rw [Duration.asNanos_ofNanos (by omega)]
  omega

namespace OffsetDateTime

def fromUnixTimestamp (timestamp : BitVec 64) : Option OffsetDateTime :=
  if h : minTimestamp ≤ timestamp.toInt ∧ timestamp.toInt ≤ maxTimestamp then
    some {
      unixTimestampNanos := timestamp.toInt * nanosPerSec
      low := Int.mul_le_mul_of_nonneg_right h.1 (by decide)
      high := Int.mul_lt_mul_of_pos_right (Int.lt_add_one_of_le h.2) (by decide) }
  else none

/-- `+`, where `none` is the panic of a result out of range. -/
def add (self : OffsetDateTime) (duration : Duration) : Option OffsetDateTime :=
  if h : self.unixTimestampNanos + duration.asNanos < (maxTimestamp + 1) * nanosPerSec then
    some {
      unixTimestampNanos := self.unixTimestampNanos + duration.asNanos
      low := by
        have hlow := self.low
        omega
      high := h }
  else none

def sub (self rhs : OffsetDateTime) : TimeDuration where
  wholeNanoseconds := self.unixTimestampNanos - rhs.unixTimestampNanos
  low := by
    have hlow := self.low
    have hhigh := rhs.high
    simp only [minTimestamp, maxTimestamp, nanosPerSec] at *
    omega
  high := by
    have hhigh := self.high
    have hlow := rhs.low
    simp only [minTimestamp, maxTimestamp, nanosPerSec] at *
    omega

theorem fromUnixTimestamp_of_mem (timestamp : BitVec 64) (hlow : minTimestamp ≤ timestamp.toInt)
    (hhigh : timestamp.toInt ≤ maxTimestamp) : ∃ t, fromUnixTimestamp timestamp = some t ∧
      t.unixTimestampNanos = timestamp.toInt * nanosPerSec :=
  ⟨_, dif_pos ⟨hlow, hhigh⟩, rfl⟩

theorem add_of_lt (self : OffsetDateTime) (duration : Duration)
    (h : self.unixTimestampNanos + duration.asNanos < (maxTimestamp + 1) * nanosPerSec) :
    ∃ t, self.add duration = some t ∧
      t.unixTimestampNanos = self.unixTimestampNanos + duration.asNanos :=
  ⟨_, dif_pos h, rfl⟩

theorem sub_wholeNanoseconds (self rhs : OffsetDateTime) : (self.sub rhs).wholeNanoseconds =
    self.unixTimestampNanos - rhs.unixTimestampNanos := rfl

end OffsetDateTime

end Systemstat
