import Systemstat.Linux.BootTime
import Systemstat.Platform.Uptime

/-! # Uptime and boot time

The trait makes each of the two out of the other and the clock, and an implementation
has to override one of them. Whichever it is, the other follows it: what they say of a
machine is off by no more than what the reading that they are made of leaves out.
-/

namespace Systemstat

/-! ## Durations from a reading -/

namespace Duration

def fromSecs (secs : BitVec 64) : Duration := ⟨secs, ⟨0, by decide⟩⟩

theorem millis_lt (millis : Nat) : millis % 1000 * 1000000 < nanosPerSec := by
  have h := Nat.mod_lt millis (show 0 < 1000 by decide)
  simp only [nanosPerSec]
  omega

def fromMillis (millis : BitVec 64) : Duration :=
  ⟨millis / 1000#64, ⟨millis.toNat % 1000 * 1000000, millis_lt millis.toNat⟩⟩

theorem asNanos_fromSecs (secs : BitVec 64) :
    (fromSecs secs).asNanos = secs.toNat * nanosPerSec := by
  rw [asNanos, fromSecs, Nat.add_zero]

theorem asNanos_fromMillis (millis : BitVec 64) :
    (fromMillis millis).asNanos = millis.toNat * 1000000 := by
  have hdiv : (millis / 1000#64).toNat = millis.toNat / 1000 := BitVec.toNat_udiv
  have hsplit := Nat.div_add_mod millis.toNat 1000
  simp only [fromMillis, asNanos, hdiv, nanosPerSec]
  omega

theorem asNanos_low (d : Duration) : -2 ^ 63 * nanosPerSec ≤ (d.asNanos : Int) := by
  simp only [nanosPerSec]
  omega

theorem asNanos_high {d : Duration} (h : d.secs.toNat < 2 ^ 63) :
    (d.asNanos : Int) < 2 ^ 63 * nanosPerSec := by
  have hnanos := d.nanos.isLt
  simp only [asNanos, nanosPerSec] at hnanos ⊢
  omega

end Duration

/-- `time::Duration::try_from`, whose seconds have a sign. -/
def TimeDuration.tryFrom (original : Duration) : Option TimeDuration :=
  if h : original.secs.toNat < 2 ^ 63 then
    some ⟨original.asNanos, original.asNanos_low, Duration.asNanos_high h⟩
  else none

/-- `-` of an instant and a duration, where `none` is the panic of a result out of range. -/
def OffsetDateTime.subDuration (self : OffsetDateTime) (duration : TimeDuration) :
    Option OffsetDateTime :=
  if h : minTimestamp * nanosPerSec ≤ self.unixTimestampNanos - duration.wholeNanoseconds ∧
      self.unixTimestampNanos - duration.wholeNanoseconds < (maxTimestamp + 1) * nanosPerSec then
    some ⟨self.unixTimestampNanos - duration.wholeNanoseconds, h.1, h.2⟩
  else none

/-- The trait's default `boot_time`; an uptime of `none` is a panic. -/
def Platform.bootTime (uptime : IoResult (Option Duration)) (nowUtc : OffsetDateTime) :
    IoResult (Option OffsetDateTime) := do
  match ← uptime with
  | none => return none
  | some ut =>
      match TimeDuration.tryFrom ut with
      | none => .error (.other "Could not process time")
      | some duration => return nowUtc.subDuration duration

end Systemstat

namespace Systemstat.Platform

open Bsd

/-! ## The two methods of an implementation -/

/-- What an implementation overrides; a method that is not there is the default. -/
structure ClockMethods where
  uptime : Option (IoResult (Option Duration))
  bootTime : Option (IoResult (Option OffsetDateTime))

namespace ClockMethods

variable (self : ClockMethods) (nowUtc : OffsetDateTime)

mutual

/-- A call of `uptime` that may go through `fuel` further calls. -/
def callUptime : Nat → Option (IoResult (Option Duration))
  | 0 => none
  | fuel + 1 =>
      match self.uptime with
      | some result => some result
      | none => (callBootTime fuel).map fun result => Platform.uptime result nowUtc

def callBootTime : Nat → Option (IoResult (Option OffsetDateTime))
  | 0 => none
  | fuel + 1 =>
      match self.bootTime with
      | some result => some result
      | none => (callUptime fuel).map fun result => Platform.bootTime result nowUtc

end

/-- Without an override the defaults call each other, however often they may. -/
theorem call_none (hu : self.uptime = none) (hb : self.bootTime = none) (fuel : Nat) :
    self.callUptime nowUtc fuel = none ∧ self.callBootTime nowUtc fuel = none := by
  induction fuel with
  | zero => exact ⟨by rw [callUptime], by rw [callBootTime]⟩
  | succ fuel ih =>
      constructor
      · rw [callUptime, hu, ih.2]
        rfl
      · rw [callBootTime, hb, ih.1]
        rfl

end ClockMethods

/-- Both methods return exactly for an implementation that overrides one of them, and
then two calls are enough. -/
theorem clockMethods_return_iff (self : ClockMethods) (nowUtc : OffsetDateTime) :
    ((∃ fuel, (self.callUptime nowUtc fuel).isSome ∧ (self.callBootTime nowUtc fuel).isSome) ↔
      self.uptime.isSome ∨ self.bootTime.isSome) ∧
    (self.uptime.isSome ∨ self.bootTime.isSome → ∀ fuel,
      (self.callUptime nowUtc (fuel + 2)).isSome ∧
        self.callUptime nowUtc (fuel + 2) = self.callUptime nowUtc 2 ∧
        (self.callBootTime nowUtc (fuel + 2)).isSome ∧
        self.callBootTime nowUtc (fuel + 2) = self.callBootTime nowUtc 2) := by
  have hreturns : self.uptime.isSome ∨ self.bootTime.isSome → ∀ fuel,
      (self.callUptime nowUtc (fuel + 2)).isSome ∧
        self.callUptime nowUtc (fuel + 2) = self.callUptime nowUtc 2 ∧
        (self.callBootTime nowUtc (fuel + 2)).isSome ∧
        self.callBootTime nowUtc (fuel + 2) = self.callBootTime nowUtc 2 := by
    obtain ⟨uptime, bootTime⟩ := self
    intro h fuel
    cases uptime <;> cases bootTime <;>
      simp [ClockMethods.callUptime, ClockMethods.callBootTime] at h ⊢
  refine ⟨⟨fun hsome => ?_, fun h => ?_⟩, hreturns⟩
  · obtain ⟨fuel, hsome, _⟩ := hsome
    by_contra hnone
    rw [not_or, Option.not_isSome_iff_eq_none, Option.not_isSome_iff_eq_none] at hnone
    rw [(self.call_none nowUtc hnone.1 hnone.2 fuel).1] at hsome
    cases hsome
  · obtain ⟨hu, _, hb, _⟩ := hreturns h 0
    exact ⟨2, hu, hb⟩

/-- An implementation that only says that it has no boot time. -/
theorem clockMethods_return_iff_unsupported :
    (ClockMethods.callUptime ⟨none, some (.error (.other "Not supported"))⟩
      ⟨0, by decide, by decide⟩ 9).isSome :=
  ((clockMethods_return_iff ⟨none, some (.error (.other "Not supported"))⟩
    ⟨0, by decide, by decide⟩).2 (.inr rfl) 7).1

/-! ## Readings of a machine -/

structure Machine where
  boot : OffsetDateTime
  now : OffsetDateTime
  booted : boot.unixTimestampNanos ≤ now.unixTimestampNanos

def Machine.age (m : Machine) : Int := m.now.unixTimestampNanos - m.boot.unixTimestampNanos

/-- Both methods return without a panic, and are off by less than `unit` nanoseconds. -/
structure ClockWithin {ε : Type} (unit : Int) (m : Machine) (uptime : IoResult (Option Duration))
    (bootTime : Except ε (Option OffsetDateTime)) : Prop where
  uptime_within : ∃ d, uptime = .ok (some d) ∧ |(d.asNanos : Int) - m.age| < unit
  bootTime_within : ∃ t, bootTime = .ok (some t) ∧
    |t.unixTimestampNanos - m.boot.unixTimestampNanos| < unit

end Systemstat.Platform

namespace Systemstat.Windows

open Platform

def uptime (getTickCount64 : BitVec 64) : IoResult (Option Duration) :=
  .ok (some (.fromMillis getTickCount64))

def clockMethods (getTickCount64 : BitVec 64) : ClockMethods :=
  ⟨some (uptime getTickCount64), none⟩

/-- The full milliseconds from the boot to the last tick of a timer, which ticks once within
`period` nanoseconds. -/
def Ticks (period : Int) (m : Machine) (getTickCount64 : BitVec 64) : Prop :=
  ∃ lastTick : Nat, lastTick ≤ m.age ∧ m.age < lastTick + period ∧
    getTickCount64.toNat = lastTick / 1000000

end Systemstat.Windows

namespace Systemstat.Linux

open Platform

variable {l w : Nat}

/-- `uptime`; `none` is a failure of `sysinfo`, which is not looked at and leaves the
zeroed record. `l` is the width of `c_long`. -/
def uptime (sysinfoUptime : Option (BitVec l)) : IoResult (Option Duration) :=
  .ok (some (.fromSecs ((sysinfoUptime.getD 0#l).signExtend 64)))

end Systemstat.Linux

namespace Systemstat.Platform

open Bsd

/-- A boot time that is early by less than `unit` makes an uptime that is as late. -/
theorem clockWithin_of_bootTime {unit : Int} {m : Machine} {bt : OffsetDateTime}
    (hle : bt.unixTimestampNanos ≤ m.boot.unixTimestampNanos)
    (hlt : m.boot.unixTimestampNanos - bt.unixTimestampNanos < unit) :
    ClockWithin unit m (uptime (.ok (some bt)) m.now)
      (.ok (some bt) : IoResult (Option OffsetDateTime)) := by
  have hbooted := m.booted
  have hboots : (.ok (some bt) : IoResult (Option OffsetDateTime)) = _ := rfl
  obtain ⟨d, hd, hnanos⟩ := (uptimeExact_of_bootTime hboots m.now).runs (by omega)
  refine ⟨⟨d, hd, ?_⟩, ⟨bt, rfl, ?_⟩⟩
  · rw [hnanos, Machine.age, abs_lt]
    omega
  · rw [abs_lt]
    omega

/-- An uptime that is short by less than `unit` makes a boot time that is as late. -/
theorem clockWithin_of_uptime {unit : Int} {m : Machine} {d : Duration}
    (hle : (d.asNanos : Int) ≤ m.age) (hlt : m.age - d.asNanos < unit) :
    ClockWithin unit m (.ok (some d)) (bootTime (.ok (some d)) m.now) := by
  have hbooted := m.booted
  have hlow := m.boot.low
  have hhigh := m.now.high
  rw [Machine.age] at hle hlt
  have hsecs : d.secs.toNat < 2 ^ 63 := by
    have hlow' := m.boot.low
    simp only [Duration.asNanos, minTimestamp, maxTimestamp, nanosPerSec] at *
    omega
  have hfrom : TimeDuration.tryFrom d = some ⟨d.asNanos, by
      simp only [nanosPerSec]; omega, by
      have hnanos := d.nanos.isLt
      simp only [Duration.asNanos, nanosPerSec] at hnanos ⊢
      omega⟩ := dif_pos hsecs
  refine ⟨⟨d, rfl, by rw [Machine.age, abs_lt]; omega⟩, ?_⟩
  refine ⟨⟨m.now.unixTimestampNanos - d.asNanos, by omega, by omega⟩, ?_, ?_⟩
  · simp only [bootTime, bind, Except.bind, hfrom, pure, Except.pure,
      OffsetDateTime.subDuration]
    rw [dif_pos ⟨by omega, by omega⟩]
  · rw [abs_lt]
    constructor <;> simp only <;> omega

/-- Both methods of the implementation, each with the default where it has no other. -/
def ClockMethods.Within (self : ClockMethods) (unit : Int) (m : Machine) : Prop :=
  ∃ u b, self.callUptime m.now 2 = some u ∧ self.callBootTime m.now 2 = some b ∧
    ClockWithin unit m u b

end Systemstat.Platform

/-! ## The platforms -/

namespace Systemstat.Windows

open Platform

theorem clockMethods_within {period : Int} {m : Machine} {ticks : BitVec 64}
    (h : Ticks period m ticks) : (clockMethods ticks).Within (period + 1000000) m := by
  have hticks := Duration.asNanos_fromMillis ticks
  obtain ⟨lastTick, hlow, hhigh, hcount⟩ := h
  rw [hcount] at hticks
  refine ⟨_, _, rfl, rfl, clockWithin_of_uptime (d := .fromMillis ticks) ?_ ?_⟩
  · rw [hticks]
    omega
  · rw [hticks]
    omega

end Systemstat.Windows

namespace Systemstat.Bsd

open Platform

variable {s u : Nat}

def clockMethods (kernBoottime : Option (Timeval s u)) : ClockMethods :=
  ⟨none, some (bootTime kernBoottime)⟩

/-- `kern.boottime` holds the boot of the machine, cut off at a microsecond. -/
structure BootOf (m : Machine) (tv : Timeval s u) : Prop where
  valid : tv.Valid
  low : tv.bootNanos ≤ m.boot.unixTimestampNanos
  high : m.boot.unixTimestampNanos < tv.bootNanos + 1000

/-- The microseconds count as nanoseconds, so most of a second can be lost. -/
theorem clockMethods_within (hs : s ≤ 64) (hu : u ≤ 64) {m : Machine} {tv : Timeval s u}
    (h : BootOf m tv) : (clockMethods (some tv)).Within nanosPerSec m := by
  obtain ⟨bt, hbt, hnanos⟩ := bootTime_eq hs hu h.valid
  have hlow := h.low
  have hhigh := h.high
  have husec := h.valid.usec_low
  have husec' := h.valid.usec_high
  rw [Timeval.bootNanos] at hlow hhigh
  refine ⟨Platform.uptime (bootTime (some tv)) m.now, bootTime (some tv), rfl, rfl, ?_⟩
  rw [hbt]
  apply clockWithin_of_bootTime
  · omega
  · simp only [nanosPerSec] at hhigh hnanos ⊢
    omega

end Systemstat.Bsd

namespace Systemstat.Linux

open Platform

variable {l w : Nat}

/-- `sysinfo` counts the seconds since the boot, the begun one as none or as a whole one, and
`/proc/stat` has the boot cut off at a second. -/
structure BootOf (m : Machine) (sysinfoUptime : BitVec l) (btime : Nat) : Prop where
  uptime : sysinfoUptime.toInt = m.age / nanosPerSec ∨
    sysinfoUptime.toInt = (m.age + (nanosPerSec - 1)) / nanosPerSec
  btime_low : (btime : Int) * nanosPerSec ≤ m.boot.unixTimestampNanos
  btime_high : m.boot.unixTimestampNanos < ((btime : Int) + 1) * nanosPerSec

theorem clock_within (hl : l ≤ 64) {m : Machine} {sysinfoUptime : BitVec l} {s : KernelStat w}
    (h : BootOf m sysinfoUptime s.btime) {files : Files}
    (hread : readFile files "/proc/stat" = .ok s.render) :
    ClockWithin nanosPerSec m (uptime (some sysinfoUptime)) ((bootTime files).map some) := by
  have hage : 0 ≤ m.age := Int.sub_nonneg_of_le m.booted
  have hboot := m.boot.high
  obtain ⟨hrounded, hlow, hhigh⟩ := h
  have hunit : (nanosPerSec : Int) = 1000000000 := rfl
  have hnonneg : 0 ≤ sysinfoUptime.toInt := by
    rw [hunit] at hrounded
    omega
  have hsecs := Bsd.signExtend_toNat hl hnonneg
  obtain ⟨t, ht, hnanos⟩ := bootTime_render s hread (by
    simp only [maxTimestamp, nanosPerSec] at hlow hboot ⊢
    omega)
  refine ⟨⟨_, rfl, ?_⟩, ⟨t, by rw [ht]; rfl, ?_⟩⟩
  · rw [Duration.asNanos_fromSecs, Option.getD_some, Nat.cast_mul, hsecs, abs_lt, hunit]
    rw [hunit] at hrounded
    omega
  · rw [hnanos, abs_lt]
    simp only [nanosPerSec] at hlow hhigh ⊢
    omega

end Systemstat.Linux

namespace Systemstat.Platform

/-- On every platform that knows them, the uptime and the boot time of a machine are off
by less than what their readings leave out: the period of a timer and a millisecond, or a
second. -/
theorem clocks_within (m : Machine) :
    (∀ period ticks, Windows.Ticks period m ticks →
      (Windows.clockMethods ticks).Within (period + 1000000) m) ∧
    (∀ {s u : Nat} (tv : Bsd.Timeval s u), s ≤ 64 → u ≤ 64 → Bsd.BootOf m tv →
      (Bsd.clockMethods (some tv)).Within nanosPerSec m) ∧
    ∀ {l w : Nat} (sysinfoUptime : BitVec l) (s : Linux.KernelStat w) (files : Linux.Files),
      l ≤ 64 → Linux.BootOf m sysinfoUptime s.btime →
      Linux.readFile files "/proc/stat" = .ok s.render →
      ClockWithin nanosPerSec m (Linux.uptime (some sysinfoUptime))
        ((Linux.bootTime files).map some) := by
  refine ⟨fun period ticks h => ?_, fun tv hs hu h => ?_, fun up s files hl h hread => ?_⟩
  · exact Windows.clockMethods_within h
  · exact Bsd.clockMethods_within hs hu h
  · exact Linux.clock_within hl h hread

def dayOldMachine : Machine where
  boot := ⟨1605203377500000000, by decide, by decide⟩
  now := ⟨1605289778000000000, by decide, by decide⟩
  booted := by decide

theorem clocks_within_day :
    (Windows.clockMethods 86400484#64).Within 17000000 dayOldMachine ∧
    (Bsd.clockMethods (some ⟨1605203377#64, 500000#64⟩)).Within nanosPerSec dayOldMachine ∧
    ClockWithin nanosPerSec dayOldMachine (Linux.uptime (some 86401#64))
      ((Linux.bootTime fun _ => .ok Linux.bootedStat.render).map some) := by
  obtain ⟨hwindows, hbsd, hlinux⟩ := clocks_within dayOldMachine
  refine ⟨hwindows 16000000 _ ⟨86400484400000, by decide, by decide, by decide⟩,
    hbsd _ (by decide) (by decide) ?_, ?_⟩
  · exact ⟨⟨by decide, by decide, by decide, by decide⟩, by decide, by decide⟩
  · exact hlinux _ Linux.bootedStat _ (by decide) ⟨.inr (by decide), by decide, by decide⟩ rfl

end Systemstat.Platform
