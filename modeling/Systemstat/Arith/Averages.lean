import Mathlib.Algebra.BigOperators.Group.List.Basic
import Mathlib.Algebra.Order.Field.Basic
import Mathlib.Data.List.Induction
import Mathlib.Tactic.FieldSimp
import Mathlib.Tactic.Linarith
import Mathlib.Tactic.Ring

/-! # A running average of two

A fold that averages what it has with what comes next, over any ordered field. It is a
weighted sum: the last element weighs a half, the one before it a quarter, and the first
two the same. The fold never leaves the range of its elements.
-/

namespace Systemstat.Arith

variable {K : Type} [Field K]

def average (x y : K) : K := (x + y) / 2

def weights (K : Type) [Field K] : Nat → List K
  | 0 => [1]
  | n + 1 => (weights K n).map (· / 2) ++ [1 / 2]

def weightedSum (ws xs : List K) : K := (List.zipWith (· * ·) ws xs).sum

@[simp] theorem length_weights (n : Nat) : (weights K n).length = n + 1 := by
  induction n with
  | zero => rfl
  | succ n ih => rw [weights, List.length_append, List.length_map, ih, List.length_singleton]

theorem sum_map_half (xs : List K) : (xs.map (· / 2)).sum = xs.sum / 2 := by
  induction xs with
  | nil => rw [List.map_nil, List.sum_nil, zero_div]
  | cons x xs ih => rw [List.map_cons, List.sum_cons, List.sum_cons, ih, add_div]

theorem weightedSum_half (ws xs : List K) :
    weightedSum (ws.map (· / 2)) xs = weightedSum ws xs / 2 := by
  rw [weightedSum, weightedSum, ← sum_map_half, List.map_zipWith, List.zipWith_map_left]
  congr 1
  congr 1
  funext a b
  ring

theorem weightedSum_concat {ws xs : List K} (h : ws.length = xs.length) (w x : K) :
    weightedSum (ws ++ [w]) (xs ++ [x]) = weightedSum ws xs + w * x := by
  rw [weightedSum, List.zipWith_append h, List.sum_append, weightedSum]
  simp

/-- The fold is the weighted sum of its elements. -/
theorem foldl_average (x : K) (xs : List K) :
    xs.foldl average x = weightedSum (weights K xs.length) (x :: xs) := by
  induction xs using List.reverseRecOn with
  | nil => simp [weights, weightedSum]
  | append_singleton xs y ih =>
      rw [List.foldl_append, List.foldl_cons, List.foldl_nil, ih, List.length_append,
        List.length_singleton, weights, ← List.cons_append,
        weightedSum_concat (by simp), weightedSum_half, average]
      ring

/-! ## In order -/

section Order

variable [LinearOrder K] [IsStrictOrderedRing K]

theorem average_mem_Icc {lo hi x y : K} (hx : lo ≤ x ∧ x ≤ hi) (hy : lo ≤ y ∧ y ≤ hi) :
    lo ≤ average x y ∧ average x y ≤ hi := by
  constructor
  · rw [average, le_div_iff₀ two_pos]
    linarith [hx.1, hy.1]
  · rw [average, div_le_iff₀ two_pos]
    linarith [hx.2, hy.2]

/-- The fold stays where its elements are. -/
theorem foldl_average_mem_Icc {lo hi x : K} {xs : List K} (hx : lo ≤ x ∧ x ≤ hi)
    (hxs : ∀ y ∈ xs, lo ≤ y ∧ y ≤ hi) :
    lo ≤ xs.foldl average x ∧ xs.foldl average x ≤ hi := by
  induction xs generalizing x with
  | nil => exact hx
  | cons y xs ih =>
      exact ih (average_mem_Icc hx (hxs y (by simp))) fun z hz => hxs z (by simp [hz])

end Order

end Systemstat.Arith
