import Mathlib.Algebra.Order.BigOperators.Group.List
import Mathlib.Algebra.Order.Group.Nat
import Mathlib.Algebra.Ring.Int.Defs
import Mathlib.Algebra.Ring.Nat

/-! # Sums of machine integers

A sum taken term by term in words of a fixed width. No addition on the way
overflows exactly when the whole sum is in range, as long as no term is negative;
without a check the sum is the exact one up to the width.
-/

namespace Systemstat.Arith

variable {w : Nat}

/-- Whether one of the additions overflows, in a build that does not stop there. -/
def runOverflows (overflow : BitVec w → BitVec w → Bool) :
    BitVec w → List (BitVec w) → Bool
  | _, [] => false
  | acc, x :: xs => overflow acc x || runOverflows overflow (acc + x) xs

def unsignedSum (xs : List (BitVec w)) : Nat := (xs.map BitVec.toNat).sum

def signedSum (xs : List (BitVec w)) : Int := (xs.map BitVec.toInt).sum

def absSum (xs : List (BitVec w)) : Nat := (xs.map fun x => x.toInt.natAbs).sum

@[simp] theorem absSum_cons (x : BitVec w) (xs : List (BitVec w)) :
    absSum (x :: xs) = x.toInt.natAbs + absSum xs := rfl

@[simp] theorem unsignedSum_cons (x : BitVec w) (xs : List (BitVec w)) :
    unsignedSum (x :: xs) = x.toNat + unsignedSum xs := rfl

@[simp] theorem unsignedSum_nil : unsignedSum ([] : List (BitVec w)) = 0 := rfl

@[simp] theorem signedSum_cons (x : BitVec w) (xs : List (BitVec w)) :
    signedSum (x :: xs) = x.toInt + signedSum xs := rfl

/-! ## Unsigned words -/

theorem toNat_le_unsignedSum {x : BitVec w} {xs : List (BitVec w)} (h : x ∈ xs) :
    x.toNat ≤ unsignedSum xs :=
  List.le_sum_of_mem (List.mem_map_of_mem h)

theorem toNat_foldl_add (acc : BitVec w) (xs : List (BitVec w)) :
    (xs.foldl (· + ·) acc).toNat = (acc.toNat + unsignedSum xs) % 2 ^ w := by
  induction xs generalizing acc with
  | nil =>
      have hlt := acc.isLt
      exact (Nat.mod_eq_of_lt hlt).symm
  | cons x xs ih =>
      rw [List.foldl_cons, ih, BitVec.toNat_add, unsignedSum_cons, Nat.mod_add_mod, Nat.add_assoc]

theorem runOverflows_unsigned_iff (acc : BitVec w) (xs : List (BitVec w)) :
    runOverflows BitVec.uaddOverflow acc xs = false ↔ acc.toNat + unsignedSum xs < 2 ^ w := by
  induction xs generalizing acc with
  | nil => exact iff_of_true rfl acc.isLt
  | cons x xs ih =>
      rw [runOverflows, Bool.or_eq_false_iff, ih, unsignedSum_cons]
      cases hover : acc.uaddOverflow x with
      | true =>
          have hge : 2 ^ w ≤ acc.toNat + x.toNat := of_decide_eq_true hover
          apply iff_of_false
          · simp
          · omega
      | false =>
          rw [BitVec.toNat_add_of_not_uaddOverflow (by simp [hover]), and_iff_right rfl,
            Nat.add_assoc]

/-! ## Signed words -/

theorem signedSum_nonneg {xs : List (BitVec w)} (hxs : ∀ x ∈ xs, 0 ≤ x.toInt) :
    0 ≤ signedSum xs := by
  induction xs with
  | nil => exact Int.le_refl 0
  | cons x xs ih =>
      have hx := hxs x (by simp)
      have hrest := ih fun y hy => hxs y (by simp [hy])
      rw [signedSum_cons]
      omega

theorem toInt_foldl_add {acc : BitVec w} {xs : List (BitVec w)}
    (h : runOverflows BitVec.saddOverflow acc xs = false) :
    (xs.foldl (· + ·) acc).toInt = acc.toInt + signedSum xs := by
  induction xs generalizing acc with
  | nil => exact (Int.add_zero _).symm
  | cons x xs ih =>
      rw [runOverflows, Bool.or_eq_false_iff] at h
      rw [List.foldl_cons, ih h.2, signedSum_cons,
        BitVec.toInt_add_of_not_saddOverflow (by simp [h.1]), Int.add_assoc]

theorem saddOverflow_eq_false_iff {x y : BitVec w} (hx : 0 ≤ x.toInt) (hy : 0 ≤ y.toInt) :
    x.saddOverflow y = false ↔ x.toInt + y.toInt < 2 ^ (w - 1) := by
  have hpow : (0 : Int) < 2 ^ (w - 1) := Int.pow_pos (by omega)
  rw [BitVec.saddOverflow, Bool.or_eq_false_iff, decide_eq_false_iff_not, decide_eq_false_iff_not]
  omega

/-- Terms that are not negative overflow together or not at all. -/
theorem runOverflows_signed_iff {acc : BitVec w} (hacc : 0 ≤ acc.toInt) {xs : List (BitVec w)}
    (hxs : ∀ x ∈ xs, 0 ≤ x.toInt) :
    runOverflows BitVec.saddOverflow acc xs = false ↔
      acc.toInt + signedSum xs < 2 ^ (w - 1) := by
  induction xs generalizing acc with
  | nil => exact iff_of_true rfl (by simpa [signedSum] using BitVec.toInt_lt (x := acc))
  | cons x xs ih =>
      have hx := hxs x (by simp)
      have hrest : ∀ y ∈ xs, 0 ≤ y.toInt := fun y hy => hxs y (by simp [hy])
      have hnonneg := signedSum_nonneg hrest
      have hfirst := saddOverflow_eq_false_iff hacc hx
      rw [runOverflows, Bool.or_eq_false_iff, signedSum_cons]
      cases hover : acc.saddOverflow x with
      | true =>
          rw [hover] at hfirst
          have hge := mt hfirst.mpr (by simp)
          apply iff_of_false
          · simp
          · omega
      | false =>
          have hsum := BitVec.toInt_add_of_not_saddOverflow (x := acc) (y := x) (by simp [hover])
          rw [ih (by omega) hrest, hsum, and_iff_right rfl, Int.add_assoc]

/-- Summed up from nothing, the terms give their exact sum exactly when it is in range. -/
theorem signed_exact_iff {xs : List (BitVec w)} (hxs : ∀ x ∈ xs, 0 ≤ x.toInt) :
    (runOverflows BitVec.saddOverflow 0#w xs = false ∧
      (xs.foldl (· + ·) 0#w).toInt = signedSum xs) ↔ signedSum xs < 2 ^ (w - 1) := by
  have hzero : (0#w).toInt = 0 := BitVec.toInt_zero
  have hrun := runOverflows_signed_iff (Int.le_of_eq hzero.symm) hxs
  rw [hzero, Int.zero_add] at hrun
  constructor
  · intro h
    exact hrun.mp h.1
  · intro h
    have hover := hrun.mpr h
    have hsum := toInt_foldl_add hover
    rw [hzero, Int.zero_add] at hsum
    exact ⟨hover, hsum⟩

/-- Terms of either sign do not overflow in any order as long as their absolute values fit. -/
theorem runOverflows_of_absSum_lt {acc : BitVec w} {xs : List (BitVec w)}
    (h : acc.toInt.natAbs + absSum xs < 2 ^ (w - 1)) :
    runOverflows BitVec.saddOverflow acc xs = false := by
  induction xs generalizing acc with
  | nil => rfl
  | cons x xs ih =>
      rw [absSum_cons] at h
      have hpow : (2 : Int) ^ (w - 1) = ((2 ^ (w - 1) : Nat) : Int) := by simp
      have hover : acc.saddOverflow x = false := by
        rw [BitVec.saddOverflow, Bool.or_eq_false_iff, decide_eq_false_iff_not,
          decide_eq_false_iff_not]
        omega
      have hsum := BitVec.toInt_add_of_not_saddOverflow (x := acc) (y := x) (by simp [hover])
      rw [runOverflows, hover, Bool.false_or]
      exact ih (by omega)

theorem absSum_perm {xs ys : List (BitVec w)} (h : xs.Perm ys) : absSum xs = absSum ys :=
  (h.map _).sum_eq

end Systemstat.Arith
