import Mathlib.Data.List.Basic

/-! # Writes by index

A list of slots is filled from a list of elements, each of which may name the slot it
goes to. One write past the end stops the whole.
-/

namespace Systemstat.Collections

variable {α β γ : Type} {key : β → Option Nat} {update : β → α → α}

/-- `none` is a write out of range. -/
def writeAll (key : β → Option Nat) (update : β → α → α) : List β → List α → Option (List α)
  | [], slots => some slots
  | b :: bs, slots =>
      match key b with
      | none => writeAll key update bs slots
      | some k =>
          if k < slots.length then writeAll key update bs (slots.modify k (update b)) else none

theorem writeAll_skip {b : β} (hb : key b = none) (bs : List β) (slots : List α) :
    writeAll key update (b :: bs) slots = writeAll key update bs slots := by
  rw [writeAll, hb]

theorem writeAll_write {b : β} {k : Nat} {slots : List α} (hb : key b = some k)
    (hk : k < slots.length) (bs : List β) :
    writeAll key update (b :: bs) slots =
      writeAll key update bs (slots.modify k (update b)) := by
  rw [writeAll, hb]
  exact if_pos hk

theorem writeAll_out {b : β} {k : Nat} {slots : List α} (hb : key b = some k)
    (hk : slots.length ≤ k) (bs : List β) : writeAll key update (b :: bs) slots = none := by
  rw [writeAll, hb]
  exact if_neg (by omega)

theorem writeAll_cons_eq_some {b : β} {bs : List β} {slots slots' : List α}
    (h : writeAll key update (b :: bs) slots = some slots') :
    (key b = none ∧ writeAll key update bs slots = some slots') ∨
      ∃ k, key b = some k ∧ k < slots.length ∧
        writeAll key update bs (slots.modify k (update b)) = some slots' := by
  cases hb : key b with
  | none =>
      rw [writeAll_skip hb] at h
      exact .inl ⟨rfl, h⟩
  | some k =>
      rcases Nat.lt_or_ge k slots.length with hk | hk
      · rw [writeAll_write hb hk] at h
        exact .inr ⟨k, rfl, hk, h⟩
      · rw [writeAll_out hb hk] at h
        cases h

theorem exists_writeAll_iff {bs : List β} {slots : List α} :
    (∃ slots', writeAll key update bs slots = some slots') ↔
      ∀ b ∈ bs, ∀ k, key b = some k → k < slots.length := by
  induction bs generalizing slots with
  | nil => exact iff_of_true ⟨slots, rfl⟩ (by simp)
  | cons b bs ih =>
      rw [List.forall_mem_cons]
      cases hb : key b with
      | none =>
          rw [writeAll_skip hb, ih]
          simp
      | some k =>
          rcases Nat.lt_or_ge k slots.length with hk | hk
          · have hfirst : ∀ k', some k = some k' → k' < slots.length := by
              rintro k' heq
              cases heq
              exact hk
            rw [writeAll_write hb hk, ih, List.length_modify]
            exact (and_iff_right hfirst).symm
          · rw [writeAll_out hb hk]
            apply iff_of_false
            · simp
            · intro hall
              have := hall.1 k rfl
              omega

theorem writeAll_length {bs : List β} {slots slots' : List α}
    (h : writeAll key update bs slots = some slots') : slots'.length = slots.length := by
  induction bs generalizing slots with
  | nil =>
      cases h
      rfl
  | cons b bs ih =>
      rcases writeAll_cons_eq_some h with ⟨_, hrest⟩ | ⟨k, _, _, hrest⟩
      · exact ih hrest
      · rw [ih hrest, List.length_modify]

/-- What no update changes stays as it is in every slot. -/
theorem writeAll_map {get : α → γ} (hget : ∀ b a, get (update b a) = get a) {bs : List β}
    {slots slots' : List α} (h : writeAll key update bs slots = some slots') :
    slots'.map get = slots.map get := by
  induction bs generalizing slots with
  | nil =>
      cases h
      rfl
  | cons b bs ih =>
      rcases writeAll_cons_eq_some h with ⟨_, hrest⟩ | ⟨k, _, _, hrest⟩
      · exact ih hrest
      · rw [ih hrest]
        apply List.ext_getElem?
        intro j
        rw [List.getElem?_map, List.getElem?_map]
        by_cases hkj : k = j
        · rw [hkj, List.getElem?_modify_eq]
          cases slots[j]? with
          | none => rfl
          | some a => exact congrArg some (hget b a)
        · rw [List.getElem?_modify_ne _ _ hkj]

/-- A slot that no element names is not touched. -/
theorem writeAll_getElem?_of_ne {k : Nat} {bs : List β} (hne : ∀ b ∈ bs, key b ≠ some k)
    {slots slots' : List α} (h : writeAll key update bs slots = some slots') :
    slots'[k]? = slots[k]? := by
  induction bs generalizing slots with
  | nil =>
      cases h
      rfl
  | cons b bs ih =>
      have hrest : ∀ c ∈ bs, key c ≠ some k := fun c hc => hne c (List.mem_cons_of_mem b hc)
      rcases writeAll_cons_eq_some h with ⟨_, hwrite⟩ | ⟨j, hj, _, hwrite⟩
      · exact ih hrest hwrite
      · have hjk : j ≠ k := by
          rintro rfl
          exact hne b List.mem_cons_self hj
        rw [ih hrest hwrite, List.getElem?_modify_ne _ _ hjk]

/-- The last element that names a slot is the one that is seen there. -/
theorem writeAll_getElem?_last {k : Nat} {b : β} (hb : key b = some k) {post : List β}
    (hpost : ∀ c ∈ post, key c ≠ some k) (pre : List β) {slots slots' : List α}
    (h : writeAll key update (pre ++ b :: post) slots = some slots') :
    ∃ a, slots'[k]? = some (update b a) := by
  induction pre generalizing slots with
  | nil =>
      rcases writeAll_cons_eq_some h with ⟨hnone, _⟩ | ⟨j, hj, hlt, hwrite⟩
      · rw [hb] at hnone
        cases hnone
      · rw [hb] at hj
        cases hj
        refine ⟨slots[k], ?_⟩
        rw [writeAll_getElem?_of_ne hpost hwrite, List.getElem?_modify_eq,
          List.getElem?_eq_getElem hlt]
        rfl
  | cons c pre ih =>
      rcases writeAll_cons_eq_some h with ⟨_, hwrite⟩ | ⟨j, _, _, hwrite⟩
      · exact ih hwrite
      · exact ih hwrite

/-- A slot has seen the elements that name it, one after the other. -/
theorem writeAll_getElem? {bs : List β} {slots slots' : List α}
    (h : writeAll key update bs slots = some slots') (k : Nat) :
    slots'[k]? = slots[k]?.map fun a =>
      (bs.filter fun b => key b = some k).foldl (fun a b => update b a) a := by
  induction bs generalizing slots with
  | nil =>
      cases h
      exact Option.map_id'.symm
  | cons b bs ih =>
      rcases writeAll_cons_eq_some h with ⟨hb, hwrite⟩ | ⟨j, hj, _, hwrite⟩
      · rw [ih hwrite, List.filter_cons_of_neg (by simp [hb])]
      · rw [ih hwrite]
        by_cases hjk : j = k
        · subst hjk
          rw [List.getElem?_modify_eq, List.filter_cons_of_pos (by simp [hj])]
          exact Option.map_map ..
        · rw [List.getElem?_modify_ne _ _ hjk, List.filter_cons_of_neg (by simp [hj, hjk])]

end Systemstat.Collections
