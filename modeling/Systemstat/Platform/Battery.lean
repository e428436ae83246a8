import Systemstat.Linux.PowerSupply
import Mathlib.Algebra.Order.Field.Basic
import Mathlib.Tactic.Linarith
import Mathlib.Tactic.Positivity

/-! # Battery state across platforms

Every platform fills the same record from an interface of its own. What each
interface says is put on one scale, a share of the full charge and seconds, and
compared with what the platform publishes.
-/

namespace Systemstat.Platform

/-! ## The implementations -/

/-- `struct apm_power_info`, as far as `battery_life` reads it. -/
structure ApmPowerInfo where
  batteryState : BitVec 8
  batteryLife : BitVec 8
  minutesLeft : BitVec 32

/-- `battery_life` on OpenBSD, over what `/dev/apm` and its `ioctl` return. -/
def OpenBsd.batteryLife (power : IoResult ApmPowerInfo) : IoResult BatteryLife := do
  let info ← power
  if info.batteryState = 0xff#8 then .error (.other "Battery state unknown")
  else if info.batteryState = 4#8 then .error (.other "Battery absent")
  else .ok {
    remainingCapacity := info.batteryLife.toNat
    remainingTime := info.minutesLeft.toNat }

/-- `battery_life` on FreeBSD, over the two `sysctl` readings. -/
def FreeBsd.batteryLife {w : Nat} (life : IoResult (BitVec w)) (time : IoResult (BitVec 32)) :
    IoResult BatteryLife := do
  let life ← life
  let time ← time
  return {
    remainingCapacity := (life.toNat : ℚ) / 100
    remainingTime := if time.toInt < 0 then 0 else (i32AsU64 time).toNat }

structure SystemPowerStatus where
  batteryFlag : BitVec 8
  batteryLifePercent : BitVec 8
  batteryLifeTime : BitVec 32

def Windows.batteryLife (status : SystemPowerStatus) : IoResult BatteryLife :=
  if status.batteryFlag = 128#8 then .error (.other "Battery absent")
  else if status.batteryFlag = 255#8 then .error (.other "Battery status unknown")
  else .ok {
    remainingCapacity := (status.batteryLifePercent.toNat : ℚ) / 100
    remainingTime := status.batteryLifeTime.toNat }

/-! ## What the system says -/

/-- A charge in percent, as the BSDs and Windows code it. -/
inductive Charge
  | percent (p : Fin 101)
  | unknown

def Charge.code : Charge → Nat
  | .percent p => p
  | .unknown => 255

def Charge.capacity : Charge → Option ℚ
  | .percent p => some ((p : Nat) / 100)
  | .unknown => none

/-- A remaining time below `bound`, in minutes or seconds; all ones when unknown. -/
inductive TimeLeft (bound : Nat)
  | known (t : Fin bound)
  | unknown

def TimeLeft.code {bound : Nat} : TimeLeft bound → BitVec 32
  | .known t => BitVec.ofNat 32 t
  | .unknown => BitVec.allOnes 32

def TimeLeft.seconds {bound : Nat} (unit : Nat) : TimeLeft bound → Option Nat
  | .known t => some (unit * t)
  | .unknown => none

/-- Totals over batteries that are neither empty of capacity nor overfull. -/
structure Totals where
  full : BitVec 32
  now : BitVec 32
  current : BitVec 32
  full_pos : 0 < full.toInt
  now_nonneg : 0 ≤ now.toInt
  now_le : now.toInt ≤ full.toInt

inductive Reading
  | openBsd (state : BitVec 8) (charge : Charge) (left : TimeLeft (2 ^ 32 - 1))
  | freeBsd (w : Nat) (hw : 8 ≤ w) (charge : Charge) (left : TimeLeft (2 ^ 31))
  | windows (flag : BitVec 8) (charge : Charge) (left : TimeLeft (2 ^ 32 - 1))
  | linux (onAc : Bool) (totals : Totals)

namespace Reading

def batteryLife : Reading → IoResult BatteryLife
  | openBsd state charge left =>
      OpenBsd.batteryLife (.ok ⟨state, BitVec.ofNat 8 charge.code, left.code⟩)
  | freeBsd w _ charge left =>
      FreeBsd.batteryLife (.ok (BitVec.ofNat w charge.code)) (.ok left.code)
  | windows flag charge left =>
      Windows.batteryLife ⟨flag, BitVec.ofNat 8 charge.code, left.code⟩
  | linux onAc totals => Linux.batteryOfTotals onAc totals.full totals.now totals.current

def capacity : Reading → Option ℚ
  | openBsd state charge _ => if state = 0xff#8 ∨ state = 4#8 then none else charge.capacity
  | freeBsd _ _ charge _ => charge.capacity
  | windows flag charge _ => if flag = 128#8 ∨ flag = 255#8 then none else charge.capacity
  | linux _ totals => some ((totals.now.toInt : ℚ) / (totals.full.toInt : ℚ))

def seconds : Reading → Option Nat
  | openBsd state _ left => if state = 0xff#8 ∨ state = 4#8 then none else left.seconds 60
  | freeBsd _ _ _ left => left.seconds 60
  | windows flag _ left => if flag = 128#8 ∨ flag = 255#8 then none else left.seconds 1
  | linux onAc totals =>
      if totals.current = 0#32 then none
      else some (Linux.chargeLeft onAc totals.full totals.now * 3600 / totals.current.toInt.natAbs)

end Reading

/-! ## One scale -/

/-- A known value is published as it is, and for an unknown one none of its codes. -/
def Publishes {α : Type} (known : Option α) (codes : List α) (value : α) : Prop :=
  match known with
  | some v => value = v
  | none => value ∉ codes

def unknownCapacities : List ℚ := [255, 255 / 100]

def unknownTimes : List Nat := [2 ^ 32 - 1, 60 * (2 ^ 32 - 1)]

/-- A battery whose state is known is reported, and what is reported is on the
common scale. -/
def OnScale (r : Reading) : Prop :=
  (r.capacity.isSome = true → r.seconds.isSome = true → ∃ b, r.batteryLife = .ok b) ∧
  ∀ b, r.batteryLife = .ok b →
    Publishes r.capacity unknownCapacities b.remainingCapacity ∧
    Publishes r.seconds unknownTimes b.remainingTime

theorem onScale_of_ok {r : Reading} {b : BatteryLife} (h : r.batteryLife = .ok b) :
    OnScale r ↔ Publishes r.capacity unknownCapacities b.remainingCapacity ∧
      Publishes r.seconds unknownTimes b.remainingTime := by
  constructor
  · exact fun hr => hr.2 b h
  · intro hb
    refine ⟨fun _ _ => ⟨b, h⟩, fun b' hb' => ?_⟩
    rw [h, Except.ok.injEq] at hb'
    rwa [← hb']

theorem onScale_of_error {r : Reading} {e : IoError} (h : r.batteryLife = .error e)
    (hcap : r.capacity = none) : OnScale r := by
  refine ⟨fun hsome => ?_, fun b hb => ?_⟩
  · rw [hcap] at hsome
    cases hsome
  · rw [h] at hb
    cases hb

/-! ## The codes -/

theorem charge_code_lt (charge : Charge) : charge.code < 256 := by
  cases charge with
  | percent p =>
      have := p.isLt
      rw [Charge.code]
      omega
  | unknown => decide

theorem toNat_charge_code {w : Nat} (hw : 8 ≤ w) (charge : Charge) :
    (BitVec.ofNat w charge.code).toNat = charge.code := by
  have hcode := charge_code_lt charge
  have hpow : 2 ^ 8 ≤ 2 ^ w := Nat.pow_le_pow_right (by decide) hw
  rw [BitVec.toNat_ofNat, Nat.mod_eq_of_lt (by omega)]

/-- Percent divided by 100 are a share, unless they are the code for unknown. -/
theorem publishes_percent_iff (charge : Charge) :
    Publishes charge.capacity unknownCapacities ((charge.code : ℚ) / 100) ↔
      charge ≠ .unknown := by
  cases charge with
  | percent p => simp [Publishes, Charge.capacity, Charge.code]
  | unknown => simp [Publishes, Charge.capacity, Charge.code, unknownCapacities]

/-- Percent taken for a share are right for an empty battery only. -/
theorem publishes_raw_percent_iff (charge : Charge) :
    Publishes charge.capacity unknownCapacities (charge.code : ℚ) ↔
      charge.capacity = some 0 := by
  cases charge with
  | percent p =>
      simp only [Publishes, Charge.capacity, Charge.code, Option.some.injEq]
      constructor
      · intro h
        linarith
      · intro h
        linarith
  | unknown => simp [Publishes, Charge.capacity, Charge.code, unknownCapacities]

theorem toNat_left_code {bound : Nat} (hb : bound ≤ 2 ^ 32) (t : Fin bound) :
    (TimeLeft.known t).code.toNat = t := by
  have := t.isLt
  rw [TimeLeft.code, BitVec.toNat_ofNat, Nat.mod_eq_of_lt (by omega)]

/-- Seconds are published as they are, unless they are the code for unknown. -/
theorem publishes_seconds_iff (left : TimeLeft (2 ^ 32 - 1)) :
    Publishes (left.seconds 1) unknownTimes left.code.toNat ↔ left ≠ .unknown := by
  cases left with
  | known t =>
      rw [toNat_left_code (by decide)]
      simp [Publishes, TimeLeft.seconds]
  | unknown => simp [Publishes, TimeLeft.seconds, TimeLeft.code, unknownTimes]

/-- Minutes taken for seconds are right when no time is left. -/
theorem minutes_eq_seconds_iff {bound : Nat} (t : Fin bound) :
    (t : Nat) = 60 * t ↔ (TimeLeft.known t).seconds 60 = some 0 := by
  rw [TimeLeft.seconds, Option.some.injEq]
  omega

theorem publishes_minutes_iff (left : TimeLeft (2 ^ 32 - 1)) :
    Publishes (left.seconds 60) unknownTimes left.code.toNat ↔ left.seconds 60 = some 0 := by
  cases left with
  | known t =>
      rw [toNat_left_code (by decide), ← minutes_eq_seconds_iff]
      rfl
  | unknown => simp [Publishes, TimeLeft.seconds, TimeLeft.code, unknownTimes]

theorem publishes_signed_minutes_iff (left : TimeLeft (2 ^ 31)) :
    Publishes (left.seconds 60) unknownTimes
        (if left.code.toInt < 0 then 0 else (i32AsU64 left.code).toNat) ↔
      left = .unknown ∨ left.seconds 60 = some 0 := by
  cases left with
  | known t =>
      have hlt := t.isLt
      have hnat := toNat_left_code (by decide) t
      have hint : (TimeLeft.known t).code.toInt = (t : Nat) := by
        rw [BitVec.toInt_eq_toNat_of_lt (by omega), hnat]
      rw [i32AsU64_toNat, hint, if_neg (by omega), if_pos (by omega), Int.toNat_natCast,
        ← minutes_eq_seconds_iff]
      simp [Publishes, TimeLeft.seconds]
  | unknown => simp [Publishes, TimeLeft.seconds, TimeLeft.code, unknownTimes]

/-! ## When the scale is kept -/

theorem onScale_openBsd_iff (state : BitVec 8) (charge : Charge) (left : TimeLeft (2 ^ 32 - 1)) :
    OnScale (.openBsd state charge left) ↔
      (state = 0xff#8 ∨ state = 4#8) ∨ (charge.capacity = some 0 ∧ left.seconds 60 = some 0) := by
  by_cases hstate : state = 0xff#8 ∨ state = 4#8
  · have hcap : (Reading.openBsd state charge left).capacity = none := if_pos hstate
    refine iff_of_true ?_ (.inl hstate)
    rcases hstate with rfl | rfl
    · exact onScale_of_error rfl hcap
    · exact onScale_of_error rfl hcap
  · have hok : (Reading.openBsd state charge left).batteryLife =
        .ok ⟨charge.code, left.code.toNat⟩ := by
      rw [not_or] at hstate
      simp only [Reading.batteryLife, OpenBsd.batteryLife, bind, Except.bind, if_neg hstate.1,
        if_neg hstate.2, toNat_charge_code (le_refl 8)]
    have hcap : (Reading.openBsd state charge left).capacity = charge.capacity := if_neg hstate
    have hsec : (Reading.openBsd state charge left).seconds = left.seconds 60 := if_neg hstate
    rw [onScale_of_ok hok, hcap, hsec, or_iff_right hstate]
    exact and_congr (publishes_raw_percent_iff charge) (publishes_minutes_iff left)

theorem onScale_freeBsd_iff {w : Nat} (hw : 8 ≤ w) (charge : Charge) (left : TimeLeft (2 ^ 31)) :
    OnScale (.freeBsd w hw charge left) ↔
      charge ≠ .unknown ∧ (left = .unknown ∨ left.seconds 60 = some 0) := by
  have hok : (Reading.freeBsd w hw charge left).batteryLife = .ok ⟨(charge.code : ℚ) / 100,
      if left.code.toInt < 0 then 0 else (i32AsU64 left.code).toNat⟩ := by
    simp only [Reading.batteryLife, FreeBsd.batteryLife, bind, Except.bind, pure, Except.pure,
      toNat_charge_code hw]
  rw [onScale_of_ok hok]
  exact and_congr (publishes_percent_iff charge) (publishes_signed_minutes_iff left)

theorem onScale_windows_iff (flag : BitVec 8) (charge : Charge) (left : TimeLeft (2 ^ 32 - 1)) :
    OnScale (.windows flag charge left) ↔
      (flag = 128#8 ∨ flag = 255#8) ∨ (charge ≠ .unknown ∧ left ≠ .unknown) := by
  by_cases hflag : flag = 128#8 ∨ flag = 255#8
  · have hcap : (Reading.windows flag charge left).capacity = none := if_pos hflag
    refine iff_of_true ?_ (.inl hflag)
    rcases hflag with rfl | rfl
    · exact onScale_of_error rfl hcap
    · exact onScale_of_error rfl hcap
  · have hok : (Reading.windows flag charge left).batteryLife =
        .ok ⟨(charge.code : ℚ) / 100, left.code.toNat⟩ := by
      rw [not_or] at hflag
      simp only [Reading.batteryLife, Windows.batteryLife, if_neg hflag.1, if_neg hflag.2,
        toNat_charge_code (le_refl 8)]
    have hcap : (Reading.windows flag charge left).capacity = charge.capacity := if_neg hflag
    have hsec : (Reading.windows flag charge left).seconds = left.seconds 1 := if_neg hflag
    rw [onScale_of_ok hok, hcap, hsec, or_iff_right hflag]
    exact and_congr (publishes_percent_iff charge) (publishes_seconds_iff left)

/-- The time is right unless a negative current is divided by that a charge reaches. -/
theorem publishes_time_iff (onAc : Bool) (totals : Totals) :
    Publishes (Reading.linux onAc totals).seconds unknownTimes
        (Linux.time onAc totals.full totals.now totals.current) ↔
      0 ≤ totals.current.toInt ∨
        Linux.chargeLeft onAc totals.full totals.now * 3600 < totals.current.toInt.natAbs := by
  have hf := Int.le_of_lt totals.full_pos
  have hn := totals.now_nonneg
  simp only [Reading.seconds]
  rcases Int.lt_trichotomy totals.current.toInt 0 with hneg | hzero | hpos
  · rw [if_neg (ne_zero_of_toInt_ne (by omega)), Linux.time_of_neg hf hn hneg,
      or_iff_right (by omega)]
    simp only [Publishes]
    rw [eq_comm, Nat.div_eq_zero_iff]
    omega
  · have hz : totals.current = 0#32 := BitVec.toInt_inj.mp (by rw [hzero]; rfl)
    rw [if_pos hz, hz]
    refine iff_of_true ?_ (.inl (by decide))
    simp [Publishes, Linux.time, unknownTimes]
  · rw [if_neg (ne_zero_of_toInt_ne (by omega)), Linux.time_of_pos hf hn hpos]
    exact iff_of_true rfl (.inl (by omega))

theorem onScale_linux_iff (onAc : Bool) (totals : Totals) :
    OnScale (.linux onAc totals) ↔ 0 ≤ totals.current.toInt ∨
      Linux.chargeLeft onAc totals.full totals.now * 3600 < totals.current.toInt.natAbs := by
  have hfull : totals.full ≠ 0#32 := ne_zero_of_toInt_ne (Int.ne_of_gt totals.full_pos)
  have hok : (Reading.linux onAc totals).batteryLife =
      .ok ⟨Linux.capacity totals.full totals.now,
        Linux.time onAc totals.full totals.now totals.current⟩ := if_pos hfull
  have hcap : Publishes (Reading.linux onAc totals).capacity unknownCapacities
      (Linux.capacity totals.full totals.now) := rfl
  rw [onScale_of_ok hok, and_iff_right hcap]
  exact publishes_time_iff onAc totals

def Reading.KeepsScale : Reading → Prop
  | openBsd state charge left =>
      (state = 0xff#8 ∨ state = 4#8) ∨ (charge.capacity = some 0 ∧ left.seconds 60 = some 0)
  | freeBsd _ _ charge left => charge ≠ .unknown ∧ (left = .unknown ∨ left.seconds 60 = some 0)
  | windows flag charge left =>
      (flag = 128#8 ∨ flag = 255#8) ∨ (charge ≠ .unknown ∧ left ≠ .unknown)
  | linux onAc totals => 0 ≤ totals.current.toInt ∨
      Linux.chargeLeft onAc totals.full totals.now * 3600 < totals.current.toInt.natAbs

/-- Which batteries each platform reports on the common scale. -/
theorem onScale_iff_keepsScale (r : Reading) : OnScale r ↔ r.KeepsScale := by
  cases r with
  | openBsd state charge left => exact onScale_openBsd_iff state charge left
  | freeBsd w hw charge left => exact onScale_freeBsd_iff hw charge left
  | windows flag charge left => exact onScale_windows_iff flag charge left
  | linux onAc totals => exact onScale_linux_iff onAc totals

/-- Half of a battery on Linux, without and with the sign of a discharge. -/
def halfFull (current : BitVec 32) : Totals :=
  ⟨50000, 25000, current, by decide, by decide, by decide⟩

theorem onScale_iff_keepsScale_half :
    OnScale (.linux false (halfFull 10000)) ∧ ¬ OnScale (.linux false (halfFull (-10000))) := by
  refine ⟨(onScale_iff_keepsScale (.linux false (halfFull 10000))).mpr (.inl (by decide)), ?_⟩
  rw [onScale_iff_keepsScale]
  rintro (hcurrent | htime)
  · revert hcurrent
    decide
  · revert htime
    decide

/-- Half a charge and an hour left on OpenBSD: 50 for the share, and 60 seconds. -/
theorem onScale_half_charge : ¬ ∀ r : Reading, OnScale r := by
  intro h
  have hhalf := (h (.openBsd 0#8 (.percent 50) (.known ⟨60, by decide⟩))).2 ⟨50, 60⟩ rfl
  have hcap : (50 : ℚ) = ((50 : Fin 101) : Nat) / 100 := hhalf.1
  revert hcap
  decide +kernel

end Systemstat.Platform
