import Mathlib.Data.List.Count
import Mathlib.Data.List.Nodup

/-! # Resource discipline

A trace of what a piece of code does with resources that it has to give back. Nothing
is used or released unless it is held, nothing is acquired twice, and a clean trace
ends with nothing held, so that it releases each resource as often as it acquires it.
-/

namespace Systemstat.Trace

variable {ρ : Type} [DecidableEq ρ]

inductive Event (ρ : Type)
  | acquire (r : ρ)
  | use (r : ρ)
  | release (r : ρ)
  deriving DecidableEq, Repr

/-- What is held after an event, `none` for one that is not allowed. -/
def holdStep (held : List ρ) : Event ρ → Option (List ρ)
  | .acquire r => if r ∈ held then none else some (r :: held)
  | .use r => if r ∈ held then some held else none
  | .release r => if r ∈ held then some (held.erase r) else none

def holds : List ρ → List (Event ρ) → Option (List ρ)
  | held, [] => some held
  | held, e :: es => (holdStep held e).bind fun held' => holds held' es

def Clean (events : List (Event ρ)) : Prop := holds [] events = some []

instance (events : List (Event ρ)) : Decidable (Clean events) :=
  inferInstanceAs (Decidable (_ = _))

theorem holds_append (held : List ρ) (es fs : List (Event ρ)) :
    holds held (es ++ fs) = (holds held es).bind fun held' => holds held' fs := by
  induction es generalizing held with
  | nil => rfl
  | cons e es ih =>
      rw [List.cons_append, holds, holds]
      cases holdStep held e with
      | none => rfl
      | some held' => exact ih held'

theorem clean_nil : Clean ([] : List (Event ρ)) := rfl

theorem Clean.append {es fs : List (Event ρ)} (hes : Clean es) (hfs : Clean fs) :
    Clean (es ++ fs) := by
  rw [Clean, holds_append, hes]
  exact hfs

theorem holds_of_uses {held : List ρ} {es : List (Event ρ)}
    (h : ∀ e ∈ es, ∃ r ∈ held, e = .use r) : holds held es = some held := by
  induction es with
  | nil => rfl
  | cons e es ih =>
      obtain ⟨r, hr, rfl⟩ := h e (by simp)
      rw [holds, holdStep, if_pos hr]
      exact ih fun e he => h e (by simp [he])

theorem holds_uses {held : List ρ} {r : ρ} (h : r ∈ held) (count : Nat) :
    holds held (List.replicate count (.use r)) = some held :=
  holds_of_uses fun _ he => ⟨r, h, List.eq_of_mem_replicate he⟩

/-- The resources taken last are given back in the opposite order. -/
theorem holds_release_prefix (taken held : List ρ) :
    holds (taken ++ held) (taken.map .release) = some held := by
  induction taken with
  | nil => rfl
  | cons r taken ih =>
      rw [List.map_cons, List.cons_append, holds, holdStep, if_pos List.mem_cons_self,
        List.erase_cons_head]
      exact ih

/-- Resources are given back from among others, in any order. -/
theorem exists_holds_releases {held rs : List ρ} (hheld : held.Nodup) (hrs : rs.Nodup)
    (h : ∀ r ∈ rs, r ∈ held) : ∃ held', holds held (rs.map .release) = some held' ∧
      held'.Nodup ∧ ∀ q, q ∈ held' ↔ q ∈ held ∧ q ∉ rs := by
  induction rs generalizing held with
  | nil => exact ⟨held, rfl, hheld, by simp⟩
  | cons r rs ih =>
      obtain ⟨hr, hnodup⟩ := List.nodup_cons.mp hrs
      obtain ⟨held', hholds, hheld', hmem⟩ := ih (hheld.erase r) hnodup fun q hq =>
        (List.mem_erase_of_ne fun heq : q = r => hr (heq ▸ hq)).mpr (h q (by simp [hq]))
      refine ⟨held', ?_, hheld', fun q => ?_⟩
      · rw [List.map_cons, holds, holdStep, if_pos (h r (by simp))]
        exact hholds
      · rw [hmem, hheld.mem_erase_iff, List.mem_cons, not_or]
        tauto

theorem clean_bracket (r : ρ) (count : Nat) :
    Clean (.acquire r :: (List.replicate count (.use r) ++ [.release r])) := by
  have huses : holds [r] (List.replicate count (.use r)) = some [r] :=
    holds_uses List.mem_cons_self count
  rw [Clean, holds, holdStep, if_neg List.not_mem_nil, Option.bind_some, holds_append, huses]
  simp [holds, holdStep]

/-! ## Counting -/

/-- Acquired resources are held or have been released. -/
theorem holds_balance {held held' : List ρ} {es : List (Event ρ)} (h : holds held es = some held')
    (r : ρ) : held.count r + es.count (.acquire r) = held'.count r + es.count (.release r) := by
  induction es generalizing held with
  | nil =>
      cases h
      rfl
  | cons e es ih =>
      rw [holds] at h
      obtain ⟨next, hstep, hrest⟩ := Option.bind_eq_some_iff.mp h
      have hbalance := ih hrest
      cases e with
      | acquire q =>
          rw [holdStep] at hstep
          split at hstep
          · cases hstep
          · cases hstep
            by_cases hq : q = r
            · subst hq
              rw [List.count_cons_self] at hbalance
              rw [List.count_cons_self, List.count_cons_of_ne (by simp)]
              omega
            · rw [List.count_cons_of_ne (by simpa using hq)] at hbalance
              rw [List.count_cons_of_ne (by simpa using hq), List.count_cons_of_ne (by simp)]
              omega
      | use q =>
          rw [holdStep] at hstep
          split at hstep
          · cases hstep
            rw [List.count_cons_of_ne (by simp), List.count_cons_of_ne (by simp)]
            exact hbalance
          · cases hstep
      | release q =>
          rw [holdStep] at hstep
          split at hstep
          · rename_i hheld
            cases hstep
            by_cases hq : q = r
            · subst hq
              have hpos : 0 < held.count q := List.count_pos_iff.mpr hheld
              rw [List.count_erase_self] at hbalance
              rw [List.count_cons_of_ne (by simp), List.count_cons_self]
              omega
            · rw [List.count_erase_of_ne (Ne.symm hq)] at hbalance
              rw [List.count_cons_of_ne (by simp), List.count_cons_of_ne (by simpa using hq)]
              exact hbalance
          · cases hstep

theorem Clean.count_eq {es : List (Event ρ)} (h : Clean es) (r : ρ) :
    es.count (.acquire r) = es.count (.release r) := by
  have hbalance := holds_balance h r
  rwa [List.count_nil, Nat.zero_add, Nat.zero_add] at hbalance

end Systemstat.Trace
