import Systemstat.Arith.Accumulate
import Systemstat.Data
import Mathlib.Algebra.Order.Field.Basic
import Mathlib.Tactic.FieldSimp
import Mathlib.Tactic.Positivity
import Mathlib.Tactic.Ring

/-! # Load fractions

`to_cpuload` divides each difference of two counters by the sum of all of them. The
differences saturate, but their sum does not: the fractions share out the elapsed
time exactly when the growth of all counters together fits into a word.
-/

namespace Systemstat

open Arith

variable {w : Nat}

namespace CpuTime

def counters (t : CpuTime w) : List (BitVec w) :=
  [t.user, t.nice, t.system, t.interrupt, t.idle, t.other]

def ticks (t : CpuTime w) : Nat := unsignedSum t.counters

def totalOverflows (t : CpuTime w) : Bool :=
  runOverflows BitVec.uaddOverflow t.user [t.nice, t.system, t.interrupt, t.idle, t.other]

/-- The sum of `to_cpuload`, with what a build without checks makes of an overflow. -/
theorem total_toNat (t : CpuTime w) :
    (t.user + t.nice + t.system + t.interrupt + t.idle + t.other).toNat = t.ticks % 2 ^ w :=
  toNat_foldl_add t.user [t.nice, t.system, t.interrupt, t.idle, t.other]

theorem totalOverflows_iff (t : CpuTime w) : t.totalOverflows = false ↔ t.ticks < 2 ^ w :=
  runOverflows_unsigned_iff t.user [t.nice, t.system, t.interrupt, t.idle, t.other]

/-! ## The growth of the counters -/

/-- How far the counters have run from `prev` to `now`; one that runs back counts for nothing. -/
def growth (prev now : CpuTime w) : Nat :=
  (now.user.toNat - prev.user.toNat) + (now.nice.toNat - prev.nice.toNat) +
    (now.system.toNat - prev.system.toNat) + (now.interrupt.toNat - prev.interrupt.toNat) +
    (now.idle.toNat - prev.idle.toNat) + (now.other.toNat - prev.other.toNat)

abbrev Grew (prev now : CpuTime w) : Prop :=
  prev.user < now.user ∨ prev.nice < now.nice ∨ prev.system < now.system ∨
    prev.interrupt < now.interrupt ∨ prev.idle < now.idle ∨ prev.other < now.other

theorem growth_pos_iff (prev now : CpuTime w) : 0 < growth prev now ↔ Grew prev now := by
  simp only [growth, Grew, BitVec.lt_def, Nat.add_pos_iff_pos_or_pos, Nat.sub_pos_iff_lt, or_assoc]

theorem ticks_sub (prev now : CpuTime w) : (now.sub prev).ticks = growth prev now := by
  simp only [ticks, counters, sub, unsignedSum_cons, unsignedSum_nil, saturatingSub_toNat, growth,
    Nat.add_assoc, Nat.add_zero]

end CpuTime

/-! ## The fields of a load -/

namespace CPULoad

def fields (l : CPULoad) : List ℚ :=
  [l.user, l.nice, l.system, l.interrupt, l.idle, l.platform.sum]

def total (l : CPULoad) : ℚ :=
  l.user + l.nice + l.system + l.interrupt + l.idle + l.platform.sum

theorem total_eq (l : CPULoad) : l.total = l.fields.sum := by
  simp only [total, fields, List.sum_cons, List.sum_nil, add_zero, add_assoc]

end CPULoad

namespace CpuTime

/-- Every field is its counter over what a word holds of their sum; the case of no ticks
is no exception, as nothing divided by nothing is nothing. -/
theorem fields_toCpuload (t : CpuTime w) :
    t.toCpuload.fields =
      t.counters.map fun x => (x.toNat : ℚ) / ((t.ticks % 2 ^ w : Nat) : ℚ) := by
  rw [← total_toNat, toCpuload]
  by_cases h : t.user + t.nice + t.system + t.interrupt + t.idle + t.other = 0#w
  · simp [h, CPULoad.fields, counters, PlatformCpuLoad.sum, PlatformCpuLoad.zero]
  · simp only [if_neg h]
    rfl

theorem total_toCpuload (t : CpuTime w) :
    t.toCpuload.total = (t.ticks : ℚ) / ((t.ticks % 2 ^ w : Nat) : ℚ) := by
  have hsum : ∀ (xs : List (BitVec w)) (d : ℚ),
      (xs.map fun x => (x.toNat : ℚ) / d).sum = (unsignedSum xs : ℚ) / d := by
    intro xs d
    induction xs with
    | nil => simp
    | cons x xs ih => rw [List.map_cons, List.sum_cons, ih, unsignedSum_cons, Nat.cast_add, add_div]
  rw [CPULoad.total_eq, fields_toCpuload, hsum, ticks]

/-- A whole that does not fit into its word is more than what is left of it there. -/
theorem total_eq_iff (t : CpuTime w) :
    t.toCpuload.total = (if 0 < t.ticks then 1 else 0) ↔ t.ticks < 2 ^ w := by
  have hword := Nat.mod_lt t.ticks (Nat.two_pow_pos w)
  rw [total_toCpuload]
  by_cases hpos : 0 < t.ticks
  · rw [if_pos hpos]
    constructor
    · intro h
      have hne : ((t.ticks % 2 ^ w : Nat) : ℚ) ≠ 0 := by
        intro hzero
        rw [hzero, div_zero] at h
        exact zero_ne_one h
      have heq := (div_eq_one_iff_eq hne).mp h
      rw [Nat.cast_inj] at heq
      omega
    · intro hlt
      rw [Nat.mod_eq_of_lt hlt]
      exact div_self (Nat.cast_ne_zero.mpr (by omega))
  · have hzero : t.ticks = 0 := by omega
    rw [if_neg hpos, hzero, Nat.zero_mod, Nat.cast_zero, div_zero]
    exact iff_of_true rfl (Nat.two_pow_pos w)

/-! ## The partition -/

/-- The fractions share out the elapsed time, and there is nothing to share when no
counter grew. -/
structure SharesTime (prev now : CpuTime w) : Prop where
  noOverflow : (now.sub prev).totalOverflows = false
  inUnit : ∀ x ∈ (now.sub prev).toCpuload.fields, 0 ≤ x ∧ x ≤ 1
  total : (now.sub prev).toCpuload.total = if Grew prev now then 1 else 0
  standstill : ¬ Grew prev now → ∀ x ∈ (now.sub prev).toCpuload.fields, x = 0

/-- The fractions are right exactly when the growth of all counters fits into a word. -/
theorem sharesTime_iff (prev now : CpuTime w) : SharesTime prev now ↔ growth prev now < 2 ^ w := by
  rw [← ticks_sub]
  constructor
  · intro h
    exact (totalOverflows_iff _).mp h.noOverflow
  · intro hlt
    have hmod : (now.sub prev).ticks % 2 ^ w = (now.sub prev).ticks := Nat.mod_eq_of_lt hlt
    have hfields := fields_toCpuload (now.sub prev)
    rw [hmod] at hfields
    have hfield : ∀ q ∈ (now.sub prev).toCpuload.fields, ∃ x ∈ (now.sub prev).counters,
        q = (x.toNat : ℚ) / ((now.sub prev).ticks : ℚ) := by
      intro q hq
      rw [hfields] at hq
      obtain ⟨x, hx, rfl⟩ := List.mem_map.mp hq
      exact ⟨x, hx, rfl⟩
    constructor
    · exact (totalOverflows_iff _).mpr hlt
    · intro q hq
      obtain ⟨x, hx, rfl⟩ := hfield q hq
      have hle : (x.toNat : ℚ) ≤ ((now.sub prev).ticks : ℚ) := by
        exact_mod_cast toNat_le_unsignedSum hx
      constructor
      · positivity
      · exact div_le_one_of_le₀ hle (by positivity)
    · simp only [← growth_pos_iff, ← ticks_sub]
      exact (total_eq_iff _).mpr hlt
    · intro hstill q hq
      obtain ⟨x, hx, rfl⟩ := hfield q hq
      rw [← growth_pos_iff, ← ticks_sub] at hstill
      rw [Nat.eq_zero_of_not_pos hstill, Nat.cast_zero, div_zero]

/-- Two counters that run over half a word each leave nothing of their sum. -/
theorem sharesTime_half_words : ¬ ∀ (w : Nat) (prev now : CpuTime w), SharesTime prev now := by
  intro h
  have hshares := h 64 ⟨0, 0, 0, 0, 0, 0⟩ 
    ⟨0x8000000000000000#64, 0x8000000000000000#64, 0, 0, 0, 0⟩
  have hover := hshares.noOverflow
  revert hover
  decide

end CpuTime

end Systemstat
