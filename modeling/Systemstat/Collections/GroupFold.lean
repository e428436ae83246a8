import Mathlib.Algebra.BigOperators.Group.List.Basic
import Mathlib.Algebra.Ring.Nat
import Mathlib.Data.List.Nodup

/-! # Grouping a list into a map

A loop that looks up the entry of each element's key, makes it when it is missing
and takes a step on it. The entry of a key is then the steps of the elements with
that key in their order, and an additive measure of the entries adds up over the
map to what it is over the list.
-/

namespace Systemstat.Collections

variable {κ α β : Type} [Ord κ] [Std.TransOrd κ] [Std.LawfulEqOrd κ] [DecidableEq κ]
variable (key : α → κ) (init : κ → β) (step : β → α → β)

/-- `entry(key).or_insert(init)` and a step on the entry. -/
def groupStep (map : Std.TreeMap κ β) (x : α) : Std.TreeMap κ β :=
  map.alter (key x) fun entry => some (step (entry.getD (init (key x))) x)

def group (xs : List α) : Std.TreeMap κ β := xs.foldl (groupStep key init step) ∅

def withKey (k : κ) (xs : List α) : List α := xs.filter fun x => key x = k

theorem getElem?_groupStep (map : Std.TreeMap κ β) (x : α) (k : κ) :
    (groupStep key init step map x)[k]? =
      if key x = k then some (step (map[k]?.getD (init k)) x) else map[k]? := by
  rw [groupStep, Std.TreeMap.getElem?_alter]
  by_cases hk : key x = k
  · subst hk
    rw [if_pos (Std.compare_eq_iff_eq.mpr rfl), if_pos rfl]
  · rw [if_neg fun h => hk (Std.compare_eq_iff_eq.mp h), if_neg hk]

theorem getElem?_foldl_groupStep (xs : List α) (map : Std.TreeMap κ β) (k : κ) :
    (xs.foldl (groupStep key init step) map)[k]? =
      if k ∈ xs.map key then some ((withKey key k xs).foldl step (map[k]?.getD (init k)))
      else map[k]? := by
  induction xs generalizing map with
  | nil => simp
  | cons x xs ih =>
      rw [List.foldl_cons, ih, getElem?_groupStep]
      by_cases hk : key x = k
      · have hcons : withKey key k (x :: xs) = x :: withKey key k xs := by
          simp [withKey, hk]
        rw [if_pos hk, if_pos (show k ∈ (x :: xs).map key by simp [hk]), hcons, List.foldl_cons,
          Option.getD_some]
        by_cases hm : k ∈ xs.map key
        · rw [if_pos hm]
        · have hnil : withKey key k xs = [] := by
            simpa [withKey, List.filter_eq_nil_iff] using hm
          rw [if_neg hm, hnil, List.foldl_nil]
      · have hcons : withKey key k (x :: xs) = withKey key k xs := by
          simp [withKey, hk]
        have hm : k ∈ (x :: xs).map key ↔ k ∈ xs.map key := by
          rw [List.map_cons, List.mem_cons]
          exact or_iff_right fun h => hk h.symm
        simp only [if_neg hk, hcons, hm]

theorem getElem?_group (xs : List α) (k : κ) : (group key init step xs)[k]? =
    if k ∈ xs.map key then some ((withKey key k xs).foldl step (init k)) else none := by
  rw [group, getElem?_foldl_groupStep]
  simp

theorem mem_group (xs : List α) (k : κ) : k ∈ group key init step xs ↔ k ∈ xs.map key := by
  rw [Std.TreeMap.mem_iff_isSome_getElem?, getElem?_group]
  by_cases h : k ∈ xs.map key
  · rw [if_pos h]
    exact iff_of_true rfl h
  · rw [if_neg h]
    exact iff_of_false Bool.false_ne_true h

/-! ## Overwriting -/

/-- A loop that inserts keeps the last element of each key. -/
theorem getElem?_foldl_insert (value : α → β) (xs : List α) (map : Std.TreeMap κ β) (k : κ) :
    (xs.foldl (fun map x => map.insert (key x) (value x)) map)[k]? =
      ((withKey key k xs).getLast?.map value).or map[k]? := by
  induction xs generalizing map with
  | nil => rfl
  | cons x xs ih =>
      rw [List.foldl_cons, ih, Std.TreeMap.getElem?_insert]
      by_cases hk : key x = k
      · have hcons : withKey key k (x :: xs) = x :: withKey key k xs := by
          simp [withKey, hk]
        rw [if_pos (Std.compare_eq_iff_eq.mpr hk), hcons, List.getLast?_cons]
        cases (withKey key k xs).getLast? with
        | none => rfl
        | some last => rfl
      · have hcons : withKey key k (x :: xs) = withKey key k xs := by
          simp [withKey, hk]
        rw [if_neg fun h => hk (Std.compare_eq_iff_eq.mp h), hcons]

/-! ## Sums over the groups -/

omit [Ord κ] [Std.TransOrd κ] [Std.LawfulEqOrd κ] in
theorem sum_indicator {ks : List κ} (hnodup : ks.Nodup) {k : κ} (hk : k ∈ ks) (n : Nat) :
    (ks.map fun k' => if k = k' then n else 0).sum = n := by
  have hother : ∀ k', k' ≠ k → k' ∈ ks → (if k = k' then n else 0) = 0 :=
    fun k' hne _ => if_neg hne.symm
  rw [List.sum_map_eq_nsmul_single k _ hother, List.count_eq_one_of_mem hnodup hk, one_nsmul,
    if_pos rfl]

theorem sum_one_filter {p : α → Bool} (xs : List α) :
    (xs.map fun x => if p x then 1 else 0).sum = (xs.filter p).length := by
  induction xs with
  | nil => rfl
  | cons x xs ih =>
      rw [List.map_cons, List.sum_cons, ih, List.filter_cons]
      split
      · rw [List.length_cons, Nat.add_comm]
      · rw [Nat.zero_add]

omit [Ord κ] [Std.TransOrd κ] [Std.LawfulEqOrd κ] in
/-- Over distinct keys that cover a list, the sums over its parts add up. -/
theorem sum_withKey (weight : α → Nat) {ks : List κ} (hnodup : ks.Nodup) {xs : List α}
    (hcover : ∀ x ∈ xs, key x ∈ ks) :
    (ks.map fun k => ((withKey key k xs).map weight).sum).sum = (xs.map weight).sum := by
  induction xs with
  | nil => simp [withKey]
  | cons x xs ih =>
      have hsplit : ∀ k, ((withKey key k (x :: xs)).map weight).sum =
          (if key x = k then weight x else 0) + ((withKey key k xs).map weight).sum := by
        intro k
        by_cases hk : key x = k
        · simp [withKey, hk]
        · simp [withKey, hk]
      simp only [hsplit, List.sum_map_add]
      rw [sum_indicator hnodup (hcover x (by simp)), ih fun y hy => hcover y (by simp [hy]),
        List.map_cons, List.sum_cons]

/-- A measure that is empty at first and grows by each element's weight. -/
theorem sum_group (size : β → Nat) (weight : α → Nat) (hinit : ∀ k, size (init k) = 0)
    (hstep : ∀ b x, size (step b x) = size b + weight x) (xs : List α) :
    ((group key init step xs).toList.map fun e => size e.2).sum = (xs.map weight).sum := by
  have hfold : ∀ (ys : List α) (b : β),
      size (ys.foldl step b) = size b + (ys.map weight).sum := by
    intro ys
    induction ys with
    | nil => simp
    | cons y ys ih =>
        intro b
        rw [List.foldl_cons, ih, hstep, List.map_cons, List.sum_cons, Nat.add_assoc]
  have hentries : (group key init step xs).toList.map (fun e => size e.2) =
      (group key init step xs).keys.map fun k => ((withKey key k xs).map weight).sum := by
    rw [← Std.TreeMap.map_fst_toList_eq_keys, List.map_map]
    apply List.map_congr_left
    intro e he
    have hget := Std.TreeMap.mem_toList_iff_getElem?_eq_some.mp he
    rw [getElem?_group] at hget
    split at hget
    · rw [Option.some.injEq] at hget
      rw [← hget, hfold, hinit, Nat.zero_add, Function.comp_apply]
    · cases hget
  rw [hentries, sum_withKey key weight Std.TreeMap.nodup_keys]
  intro x hx
  rw [Std.TreeMap.mem_keys, mem_group]
  exact List.mem_map_of_mem hx

end Systemstat.Collections
