import Systemstat.Bsd.Memory
import Systemstat.Time.Instant

/-! # Uptime

The boot time on the BSDs and macOS, and the uptime that the trait makes of it. The
kernel counts the part of a second in microseconds, and all three platforms add it as
nanoseconds.
-/

namespace Systemstat

/-! ## The default uptime -/

/-- The trait's default `uptime`; a boot time of `none` is a panic. -/
def Platform.uptime (bootTime : IoResult (Option OffsetDateTime)) (nowUtc : OffsetDateTime) :
    IoResult (Option Duration) := do
  match ← bootTime with
  | none => return none
  | some bt =>
      match (nowUtc.sub bt).tryInto with
      | none => .error (.other "Could not process time")
      | some uptime => return some uptime

end Systemstat

/-! ## The boot time -/

namespace Systemstat.Bsd

variable {s u : Nat}

/-- `struct timeval`, with the widths of `time_t` and of `suseconds_t`. -/
structure Timeval (s u : Nat) where
  tvSec : BitVec s
  tvUsec : BitVec u

/-- `boot_time`, where `none` is the panic of a timestamp out of range. -/
def bootTime (kernBoottime : Option (Timeval s u)) : IoResult (Option OffsetDateTime) := do
  let data ← sysctl kernBoottime
  return do
    let ts ← OffsetDateTime.fromUnixTimestamp (data.tvSec.signExtend 64)
    ts.add (.fromNanos (data.tvUsec.signExtend 64))

end Systemstat.Bsd

namespace Systemstat.FreeBsd

open Bsd

def bootTime {s u : Nat} (kernBoottime : Option (Timeval s u)) :
    IoResult (Option OffsetDateTime) :=
  Bsd.bootTime kernBoottime

end Systemstat.FreeBsd

namespace Systemstat.OpenBsd

open Bsd

def bootTime {w : Nat} (kernBoottime : Option (Timeval 64 w)) : IoResult (Option OffsetDateTime) :=
  Bsd.bootTime kernBoottime

end Systemstat.OpenBsd

namespace Systemstat.MacOs

open Bsd

def bootTime (kernBoottime : Option (Timeval 64 32)) : IoResult (Option OffsetDateTime) :=
  Bsd.bootTime kernBoottime

end Systemstat.MacOs

/-! ## Exactness -/

namespace Systemstat.Bsd

variable {s u : Nat}

/-- A boot time the kernel can report, within the range of the instants. -/
structure Timeval.Valid (tv : Timeval s u) : Prop where
  sec_low : minTimestamp ≤ tv.tvSec.toInt
  sec_high : tv.tvSec.toInt ≤ maxTimestamp
  usec_low : 0 ≤ tv.tvUsec.toInt
  usec_high : tv.tvUsec.toInt < 1000000

def Timeval.bootNanos (tv : Timeval s u) : Int :=
  tv.tvSec.toInt * nanosPerSec + tv.tvUsec.toInt * 1000

theorem signExtend_toNat {x : BitVec u} (hu : u ≤ 64) (h : 0 ≤ x.toInt) :
    ((x.signExtend 64).toNat : Int) = x.toInt := by
  have hsign : (x.signExtend 64).toInt = x.toInt := BitVec.toInt_signExtend_of_le hu
  have hcond := BitVec.toInt_eq_toNat_cond (x.signExtend 64)
  have hlt := (x.signExtend 64).isLt
  rw [hsign] at hcond
  split at hcond <;> omega

/-- What `boot_time` computes: the microseconds are taken for nanoseconds. -/
theorem bootTime_eq {tv : Timeval s u} (hs : s ≤ 64) (hu : u ≤ 64) (h : tv.Valid) :
    ∃ bt, bootTime (some tv) = .ok (some bt) ∧
      bt.unixTimestampNanos = tv.tvSec.toInt * nanosPerSec + tv.tvUsec.toInt := by
  have hsec : (tv.tvSec.signExtend 64).toInt = tv.tvSec.toInt :=
    BitVec.toInt_signExtend_of_le hs
  have husec := signExtend_toNat hu h.usec_low
  have hhigh := h.sec_high
  have hmicros := h.usec_high
  have hunit : (nanosPerSec : Int) = 1000000000 := rfl
  obtain ⟨ts, hts, hstamp⟩ := OffsetDateTime.fromUnixTimestamp_of_mem
    (tv.tvSec.signExtend 64) (hsec ▸ h.sec_low) (hsec ▸ h.sec_high)
  have hsum : ts.unixTimestampNanos + (Duration.fromNanos (tv.tvUsec.signExtend 64)).asNanos =
      tv.tvSec.toInt * nanosPerSec + tv.tvUsec.toInt := by
    rw [hstamp, hsec, Duration.asNanos_fromNanos, husec]
  obtain ⟨bt, hbt, hnanos⟩ := OffsetDateTime.add_of_lt ts
    (.fromNanos (tv.tvUsec.signExtend 64)) (by rw [hsum, hunit]; omega)
  refine ⟨bt, ?_, hnanos.trans hsum⟩
  simp only [bootTime, sysctl, bind, Except.bind, pure, Except.pure, hts, Option.bind_some, hbt]

end Systemstat.Bsd

namespace Systemstat.Platform

open Bsd

/-- The boot time is `boot` nanoseconds after the epoch, and the uptime is the time from
then to now, or an error if that is still to come. -/
structure UptimeExact (bootTime : IoResult (Option OffsetDateTime)) (boot : Int)
    (now : OffsetDateTime) : Prop where
  boots : ∃ bt, bootTime = .ok (some bt) ∧ bt.unixTimestampNanos = boot
  runs : boot ≤ now.unixTimestampNanos → ∃ d, uptime bootTime now = .ok (some d) ∧
    (d.asNanos : Int) = now.unixTimestampNanos - boot
  ahead : now.unixTimestampNanos < boot → ∃ e, uptime bootTime now = .error e

theorem uptimeExact_of_bootTime {bootTime : IoResult (Option OffsetDateTime)}
    {bt : OffsetDateTime} (h : bootTime = .ok (some bt)) (now : OffsetDateTime) :
    UptimeExact bootTime bt.unixTimestampNanos now where
  boots := ⟨bt, h, rfl⟩
  runs hle := by
    obtain ⟨d, hd, hnanos⟩ := TimeDuration.tryInto_of_nonneg (now.sub bt)
      (by rw [OffsetDateTime.sub_wholeNanoseconds]; omega)
    refine ⟨d, ?_, by rw [hnanos, OffsetDateTime.sub_wholeNanoseconds]⟩
    simp only [uptime, h, bind, Except.bind, hd, pure, Except.pure]
  ahead hlt := by
    have hd := TimeDuration.tryInto_of_neg (now.sub bt)
      (by rw [OffsetDateTime.sub_wholeNanoseconds]; omega)
    refine ⟨.other "Could not process time", ?_⟩
    simp only [uptime, h, bind, Except.bind, hd]

/-- The uptime is exact as far as the boot time is. -/
theorem uptimeExact_bootTime_iff {s u : Nat} (hs : s ≤ 64) (hu : u ≤ 64) {tv : Timeval s u}
    (h : tv.Valid) (now : OffsetDateTime) :
    UptimeExact (Bsd.bootTime (some tv)) tv.bootNanos now ↔ tv.tvUsec.toInt = 0 := by
  obtain ⟨bt, hbt, hnanos⟩ := bootTime_eq hs hu h
  constructor
  · intro hexact
    obtain ⟨bt', hbt', hboot⟩ := hexact.boots
    rw [hbt, Except.ok.injEq, Option.some.injEq] at hbt'
    rw [← hbt', hnanos, Timeval.bootNanos] at hboot
    omega
  · intro hzero
    have hboot : tv.bootNanos = bt.unixTimestampNanos := by
      rw [hnanos, Timeval.bootNanos, hzero]
      rfl
    rw [hboot]
    exact uptimeExact_of_bootTime hbt now

/-- On all three platforms the uptime is exact only for a boot at a whole second. -/
theorem uptimeExact_iff {s u : Nat} (hs : s ≤ 64) (hu : u ≤ 64) (now : OffsetDateTime) :
    (∀ tv : Timeval s u, tv.Valid →
      (UptimeExact (FreeBsd.bootTime (some tv)) tv.bootNanos now ↔ tv.tvUsec.toInt = 0)) ∧
    (∀ tv : Timeval 64 u, tv.Valid →
      (UptimeExact (OpenBsd.bootTime (some tv)) tv.bootNanos now ↔ tv.tvUsec.toInt = 0)) ∧
    ∀ tv : Timeval 64 32, tv.Valid →
      (UptimeExact (MacOs.bootTime (some tv)) tv.bootNanos now ↔ tv.tvUsec.toInt = 0) := by
  refine ⟨fun tv h => ?_, fun tv h => ?_, fun tv h => ?_⟩
  · exact uptimeExact_bootTime_iff hs hu h now
  · exact uptimeExact_bootTime_iff (by decide) hu h now
  · exact uptimeExact_bootTime_iff (by decide) (by decide) h now

theorem uptimeExact_iff_whole_second :
    UptimeExact (FreeBsd.bootTime (some ⟨1605203377#64, 0#64⟩)) 1605203377000000000
      ⟨1605289777000000000, by decide, by decide⟩ :=
  ((uptimeExact_iff (by decide) (by decide) _).1 ⟨1605203377#64, 0#64⟩
    ⟨by decide, by decide, by decide, by decide⟩).mpr rfl

/-- A boot at half a second is reported half a millisecond after the full one. -/
theorem uptimeExact_half_second : ¬ ∀ (tv : Timeval 64 64) (now : OffsetDateTime), tv.Valid →
    UptimeExact (FreeBsd.bootTime (some tv)) tv.bootNanos now := by
  intro h
  have hvalid : Timeval.Valid (⟨1605203377#64, 500000#64⟩ : Timeval 64 64) :=
    ⟨by decide, by decide, by decide, by decide⟩
  have hexact := h _ ⟨1605289777000000000, by decide, by decide⟩ hvalid
  have hzero := (uptimeExact_bootTime_iff (by decide) (by decide) hvalid _).mp hexact
  revert hzero
  decide

end Systemstat.Platform
