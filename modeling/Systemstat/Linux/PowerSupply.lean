import Systemstat.Arith.Words
import Systemstat.Data

/-! # Power supplies

What `battery_life` makes of the totals over all batteries: the charge as a share
of the full charge, and the time until it is full or empty. The readings are
signed and are cast to unsigned words for the division.
-/

namespace Systemstat.Linux

def i32SaturatingSub (l r : BitVec 32) : BitVec 32 :=
  BitVec.ofInt 32 (max (-2 ^ 31) (min (2 ^ 31 - 1) (l.toInt - r.toInt)))

def capacity (chargeFull chargeNow : BitVec 32) : ℚ :=
  (chargeNow.toInt : ℚ) / (chargeFull.toInt : ℚ)

def time (onAc : Bool) (chargeFull chargeNow currentNow : BitVec 32) : Nat :=
  if currentNow ≠ 0#32 then
    if onAc then
      (i32AsU64 (i32SaturatingSub chargeFull chargeNow).abs * 3600#64 /
        i32AsU64 currentNow).toNat
    else
      (i32AsU64 chargeNow * 3600#64 / i32AsU64 currentNow).toNat
  else 0

/-- The end of `battery_life`, once the batteries are summed up. -/
def batteryOfTotals (onAc : Bool) (full now current : BitVec 32) : IoResult BatteryLife :=
  if full ≠ 0#32 then .ok ⟨capacity full now, time onAc full now current⟩
  else .error (.other "Missing battery information")

/-! ## The division -/

theorem i32SaturatingSub_toInt {l r : BitVec 32} (hl : 0 ≤ l.toInt) (hr : 0 ≤ r.toInt) :
    (i32SaturatingSub l r).toInt = l.toInt - r.toInt := by
  have hl' := BitVec.toInt_lt (x := l)
  have hr' := BitVec.toInt_lt (x := r)
  rw [i32SaturatingSub, max_eq_right (by omega), min_eq_right (by omega)]
  exact BitVec.toInt_ofInt_eq_self (by decide) (by omega) (by omega)

theorem i32SaturatingSub_ne_intMin {l r : BitVec 32} (hl : 0 ≤ l.toInt) (hr : 0 ≤ r.toInt) :
    i32SaturatingSub l r ≠ BitVec.intMin 32 := by
  intro hmin
  have hdiff := i32SaturatingSub_toInt hl hr
  have hr' := BitVec.toInt_lt (x := r)
  have hlow : (BitVec.intMin 32).toInt = -2 ^ 31 := by decide
  rw [hmin, hlow] at hdiff
  omega

theorem i32SaturatingSub_abs_toNat {l r : BitVec 32} (hl : 0 ≤ l.toInt) (hr : 0 ≤ r.toInt) :
    (i32AsU64 (i32SaturatingSub l r).abs).toNat = (l.toInt - r.toInt).natAbs := by
  have habs : (i32SaturatingSub l r).abs.toInt = (l.toInt - r.toInt).natAbs := by
    rw [BitVec.toInt_abs_eq_natAbs, if_neg (i32SaturatingSub_ne_intMin hl hr),
      i32SaturatingSub_toInt hl hr]
  rw [i32AsU64_toNat, habs, if_pos (Int.natCast_nonneg _), Int.toNat_natCast]

/-- The charge that is still to flow, in or out. -/
def chargeLeft (onAc : Bool) (chargeFull chargeNow : BitVec 32) : Nat :=
  if onAc then (chargeFull.toInt - chargeNow.toInt).natAbs else chargeNow.toInt.toNat

theorem chargeLeft_lt {onAc : Bool} {full now : BitVec 32} (hf : 0 ≤ full.toInt)
    (hn : 0 ≤ now.toInt) : chargeLeft onAc full now < 2 ^ 31 := by
  have hf' := BitVec.toInt_lt (x := full)
  have hn' := BitVec.toInt_lt (x := now)
  unfold chargeLeft
  cases onAc with
  | true =>
      rw [if_pos rfl]
      omega
  | false =>
      rw [if_neg (by decide)]
      omega

/-- Nothing overflows on the way, and the divisor is the current as a word. -/
theorem time_eq {onAc : Bool} {full now current : BitVec 32} (hf : 0 ≤ full.toInt)
    (hn : 0 ≤ now.toInt) (hc : current ≠ 0#32) :
    time onAc full now current =
      chargeLeft onAc full now * 3600 / (i32AsU64 current).toNat := by
  have hlt : chargeLeft onAc full now < 2 ^ 31 := chargeLeft_lt hf hn
  have hdiv : ∀ c : BitVec 64, c.toNat = chargeLeft onAc full now →
      (c * 3600#64 / i32AsU64 current).toNat =
        chargeLeft onAc full now * 3600 / (i32AsU64 current).toNat := by
    intro c hc
    rw [BitVec.toNat_udiv, BitVec.toNat_mul, hc, BitVec.toNat_ofNat, Nat.mod_eq_of_lt]
    omega
  rw [time, if_pos hc]
  cases onAc with
  | true =>
      rw [if_pos rfl]
      exact hdiv _ (i32SaturatingSub_abs_toNat hf hn)
  | false =>
      rw [if_neg (by decide)]
      exact hdiv _ (by rw [i32AsU64_toNat, if_pos hn]; rfl)

theorem time_of_pos {onAc : Bool} {full now current : BitVec 32} (hf : 0 ≤ full.toInt)
    (hn : 0 ≤ now.toInt) (hc : 0 < current.toInt) :
    time onAc full now current = chargeLeft onAc full now * 3600 / current.toInt.natAbs := by
  rw [time_eq hf hn (ne_zero_of_toInt_ne (by omega)), i32AsU64_toNat, if_pos (by omega)]
  congr 1
  omega

/-- A negative current becomes a divisor that no charge reaches. -/
theorem time_of_neg {onAc : Bool} {full now current : BitVec 32} (hf : 0 ≤ full.toInt)
    (hn : 0 ≤ now.toInt) (hc : current.toInt < 0) : time onAc full now current = 0 := by
  have hlt : chargeLeft onAc full now < 2 ^ 31 := chargeLeft_lt hf hn
  have hlow := BitVec.le_toInt (x := current)
  rw [time_eq hf hn (ne_zero_of_toInt_ne (by omega)), i32AsU64_toNat, if_neg (by omega)]
  exact Nat.div_eq_of_lt (by omega)

/-! ## Either sign of the current -/

/-- Whether `time` stops at an operation of its own: at the absolute value of the
smallest word, at a product over 64 bits, or at a division by zero. -/
def timePanics (onAc : Bool) (chargeFull chargeNow currentNow : BitVec 32) : Bool :=
  if currentNow ≠ 0#32 then
    if onAc then
      (i32SaturatingSub chargeFull chargeNow).negOverflow ||
        (i32AsU64 (i32SaturatingSub chargeFull chargeNow).abs).umulOverflow 3600#64 ||
        i32AsU64 currentNow == 0#64
    else (i32AsU64 chargeNow).umulOverflow 3600#64 || i32AsU64 currentNow == 0#64
  else false

theorem i32AsU64_ne_zero {x : BitVec 32} (h : x ≠ 0#32) : i32AsU64 x ≠ 0#64 := by
  intro hz
  have hsign : (i32AsU64 x).toInt = x.toInt := BitVec.toInt_signExtend_of_le (by decide)
  rw [hz] at hsign
  exact h (BitVec.eq_of_toInt_eq hsign.symm)

theorem umulOverflow_hour_eq_false {c : BitVec 64} (h : c.toNat < 2 ^ 31) :
    c.umulOverflow 3600#64 = false := by
  have hhour : (3600#64).toNat = 3600 := rfl
  rw [Arith.umulOverflow_eq_false_iff, hhour]
  omega

/-- A charge that is not negative is safe with any current. -/
theorem timePanics_eq_false {onAc : Bool} {full now : BitVec 32} (hf : 0 ≤ full.toInt)
    (hn : 0 ≤ now.toInt) (current : BitVec 32) : timePanics onAc full now current = false := by
  have hf' := BitVec.toInt_lt (x := full)
  have hn' := BitVec.toInt_lt (x := now)
  unfold timePanics
  by_cases hc : current ≠ 0#32
  · have hdivisor : (i32AsU64 current == 0#64) = false :=
      beq_eq_false_iff_ne.mpr (i32AsU64_ne_zero hc)
    rw [if_pos hc, hdivisor, Bool.or_false, Bool.or_false]
    cases onAc with
    | true =>
        have hneg : (i32SaturatingSub full now).negOverflow = false := by
          rw [BitVec.negOverflow_eq, Bool.and_eq_false_iff]
          exact .inr (beq_eq_false_iff_ne.mpr (i32SaturatingSub_ne_intMin hf hn))
        rw [if_pos rfl, hneg, Bool.false_or]
        apply umulOverflow_hour_eq_false
        rw [i32SaturatingSub_abs_toNat hf hn]
        omega
    | false =>
        rw [if_neg (by decide)]
        apply umulOverflow_hour_eq_false
        rw [i32AsU64_toNat, if_pos hn]
        omega
  · rw [if_neg hc]

/-- The remaining time is the charge over the size of the current, whichever way it flows. -/
structure TimeRight (onAc : Bool) (chargeFull chargeNow currentNow : BitVec 32) : Prop where
  noPanic : timePanics onAc chargeFull chargeNow currentNow = false
  seconds : time onAc chargeFull chargeNow currentNow =
    chargeLeft onAc chargeFull chargeNow * 3600 / currentNow.toInt.natAbs
  notZero : currentNow.toInt.natAbs ≤ chargeLeft onAc chargeFull chargeNow * 3600 →
    time onAc chargeFull chargeNow currentNow ≠ 0

/-- A negative current is right only where the time rounds to no second at all. -/
theorem timeRight_iff {onAc : Bool} {full now current : BitVec 32} (hf : 0 ≤ full.toInt)
    (hn : 0 ≤ now.toInt) (hc : current ≠ 0#32) : TimeRight onAc full now current ↔
      (0 < current.toInt ∨ chargeLeft onAc full now * 3600 < current.toInt.natAbs) := by
  have hne : current.toInt ≠ 0 := fun hz => hc (BitVec.eq_of_toInt_eq hz)
  constructor
  · intro h
    by_cases hpos : 0 < current.toInt
    · exact .inl hpos
    · right
      by_contra hge
      exact h.notZero (by omega) (time_of_neg hf hn (by omega))
  · intro h
    have hseconds : time onAc full now current =
        chargeLeft onAc full now * 3600 / current.toInt.natAbs := by
      by_cases hpos : 0 < current.toInt
      · exact time_of_pos hf hn hpos
      · have hsmall := h.resolve_left hpos
        rw [time_of_neg hf hn (by omega), Nat.div_eq_of_lt hsmall]
    constructor
    · exact timePanics_eq_false hf hn current
    · exact hseconds
    · intro hle
      have hquot := Nat.div_pos hle (by omega)
      omega

theorem timeRight_iff_charging :
    TimeRight true 10#32 4#32 2#32 ↔
      (0 < (2#32).toInt ∨ chargeLeft true 10#32 4#32 * 3600 < (2#32).toInt.natAbs) :=
  timeRight_iff (by decide) (by decide) (by decide)

/-- Ten hours are left at this rate, and none is reported. -/
theorem timeRight_discharging : ¬ ∀ (onAc : Bool) (full now current : BitVec 32),
    0 ≤ full.toInt → 0 ≤ now.toInt → current ≠ 0#32 → TimeRight onAc full now current := by
  intro h
  have hright := h false 10#32 10#32 (-1#32) (by decide) (by decide) (by decide)
  have hzero : time false 10#32 10#32 (-1#32) = 0 := by decide
  exact hright.notZero (by decide) hzero

end Systemstat.Linux
