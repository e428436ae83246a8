import Mathlib.Algebra.Order.Ring.Int
import Mathlib.Tactic.Linarith

/-! # Casts and products of machine words

What a cast between widths makes of a number of either sign, whether it keeps the
order of two of them, and when a product of words is the product of the numbers.
-/

namespace Systemstat.Arith

variable {v w : Nat}

/-! ## Products -/

theorem umulOverflow_eq_false_iff {x y : BitVec w} :
    x.umulOverflow y = false ↔ x.toNat * y.toNat < 2 ^ w := by
  rw [BitVec.umulOverflow, decide_eq_false_iff_not, Nat.not_le]

theorem toNat_mul_of_lt {x y : BitVec w} (h : x.toNat * y.toNat < 2 ^ w) :
    (x * y).toNat = x.toNat * y.toNat := by
  rw [BitVec.toNat_mul, Nat.mod_eq_of_lt h]

/-- Two factors make one product of a count only if they are equal or it is zero. -/
theorem toNat_mul_eq_mul_iff {count x y : BitVec w} :
    count.toNat * x.toNat = count.toNat * y.toNat ↔ (x = y ∨ count = 0#w) := by
  by_cases hzero : count = 0#w
  · rw [hzero, BitVec.toNat_zero, Nat.zero_mul, Nat.zero_mul]
    exact iff_of_true rfl (.inr rfl)
  · have hpos : 0 < count.toNat := by
      apply Nat.pos_of_ne_zero
      intro hz
      exact hzero (BitVec.eq_of_toNat_eq (by rw [hz, BitVec.toNat_zero]))
    rw [Nat.mul_left_cancel_iff hpos, BitVec.toNat_inj, or_iff_left hzero]

/-! ## Casts -/

theorem toNat_setWidth_cast (x : BitVec v) (w : Nat) :
    ((x.setWidth w).toNat : Int) = (x.toNat : Int) % 2 ^ w := by
  rw [BitVec.toNat_setWidth]
  push_cast
  rfl

theorem toNat_signExtend_cast (x : BitVec v) (w : Nat) :
    ((x.signExtend w).toNat : Int) = x.toInt % 2 ^ w := by
  have hpow : ((2 ^ w : Nat) : Int) = 2 ^ w := by push_cast; rfl
  have hnonneg : 0 ≤ x.toInt % ((2 ^ w : Nat) : Int) := by
    apply Int.emod_nonneg
    have := Nat.two_pow_pos w
    omega
  show ((BitVec.ofInt w x.toInt).toNat : Int) = _
  rw [BitVec.toNat_ofInt, Int.toNat_of_nonneg hnonneg, hpow]

/-- A signed word read as an unsigned one of its own width. -/
theorem toNat_cast_of_toInt (x : BitVec w) :
    (x.toNat : Int) = if 0 ≤ x.toInt then x.toInt else x.toInt + 2 ^ w := by
  have hcond := BitVec.toInt_eq_toNat_cond x
  have hlt := x.isLt
  have hpow : ((2 ^ w : Nat) : Int) = 2 ^ w := by push_cast; rfl
  split at hcond
  · rw [if_pos (by omega)]
    omega
  · rw [if_neg (by omega)]
    omega

/-! ## The order of two counts after a cast -/

theorem ediv_sub_eq {m e f : Int} (hm : 0 < m) :
    (f - e) / m = (f % m - e % m) / m + (f / m - e / m) := by
  have he := Int.emod_add_mul_ediv e m
  have hf := Int.emod_add_mul_ediv f m
  have hdiff : f - e = (f % m - e % m) + m * (f / m - e / m) := by
    rw [Int.mul_sub]
    omega
  conv_lhs => rw [hdiff]
  rw [Int.add_mul_ediv_left _ _ (by omega)]

/-- The residues are in order when the quotients of a part and of the rest add up to
that of the whole. -/
theorem emod_le_emod_iff {m e f : Int} (hm : 0 < m) :
    e % m ≤ f % m ↔ f / m = e / m + (f - e) / m := by
  have helow := Int.emod_nonneg e (by omega : m ≠ 0)
  have hflow := Int.emod_nonneg f (by omega : m ≠ 0)
  have hehigh := Int.emod_lt_of_pos e hm
  have hfhigh := Int.emod_lt_of_pos f hm
  rw [ediv_sub_eq hm]
  generalize e % m = low at helow hehigh ⊢
  generalize f % m = high at hflow hfhigh ⊢
  constructor
  · intro hle
    have hzero : (high - low) / m = 0 := Int.ediv_eq_zero_of_lt (by omega) (by omega)
    omega
  · intro heq
    by_contra hlt
    have hneg : (high - low) / m < 0 := Int.ediv_neg_of_neg_of_pos (by omega) hm
    omega

/-- A negative count ends up above every count that is not large itself. -/
theorem emod_le_emod_iff_of_fits {m e f : Int} (hlow : -m ≤ e) (hle : e ≤ f) (hf : f < m)
    (hnonneg : 0 ≤ f) : e % m ≤ f % m ↔ (0 ≤ e ∨ m ≤ f - e) := by
  rw [Int.emod_eq_of_lt hnonneg hf]
  by_cases he : 0 ≤ e
  · rw [Int.emod_eq_of_lt he (by omega)]
    exact iff_of_true hle (.inl he)
  · have hmod : e % m = e + m := by
      rw [← Int.add_emod_right, Int.emod_eq_of_lt (by omega) (by omega)]
    rw [hmod]
    constructor
    · intro h
      exact .inr (by omega)
    · intro h
      omega

end Systemstat.Arith
