import Mathlib.Data.List.Infix
import Mathlib.Data.List.Nodup

/-! # Things put over one another

A list of things in the order in which they were put down, each at a place that is a path
of names. A thing covers its place and every place below it, and of the things that cover
a place the last one is on top. Of those that stand at one place, the first is at the bottom.
-/

namespace Systemstat.Covering

variable {α κ : Type} [DecidableEq κ] {place : α → List κ} {xs before after : List α}
  {x : α} {q : List κ}

def onTop (place : α → List κ) (xs : List α) (q : List κ) : Option α :=
  xs.reverse.find? fun x => place x <+: q

/-- What was put down at a place before all else there. -/
def atBottom (place : α → List κ) (xs : List α) (q : List κ) : Option α :=
  xs.find? fun x => place x = q

def Uncovered (place : α → List κ) (xs : List α) : Prop :=
  xs.Pairwise fun x y => ¬ place y <+: place x

theorem onTop_eq_some_iff : onTop place xs q = some x ↔ ∃ before after,
    xs = before ++ x :: after ∧ place x <+: q ∧ ∀ y ∈ after, ¬ place y <+: q := by
  rw [onTop, List.find?_eq_some_iff_append]
  constructor
  · intro ⟨hx, later, earlier, hsplit, hlater⟩
    refine ⟨earlier.reverse, later.reverse, ?_, of_decide_eq_true hx, ?_⟩
    · rw [← List.reverse_reverse xs, hsplit]
      simp
    · intro y hy
      simpa using hlater y (List.mem_reverse.mp hy)
  · intro ⟨before, after, hsplit, hx, hafter⟩
    refine ⟨decide_eq_true hx, after.reverse, before.reverse, by rw [hsplit]; simp, ?_⟩
    intro y hy
    simpa using hafter y (List.mem_reverse.mp hy)

theorem split_unique {before' after' : List α} (hnodup : (before ++ x :: after).Nodup)
    (h : before ++ x :: after = before' ++ x :: after') : before = before' ∧ after = after' := by
  have hx := (List.nodup_middle.mp hnodup).notMem
  rw [List.mem_append, not_or] at hx
  obtain ⟨hbefore, _, hafter⟩ := (List.append_cons_inj_of_notMem hx.1 hx.2).mp h
  exact ⟨hbefore, hafter⟩

theorem onTop_mem (h : onTop place xs q = some x) : x ∈ xs := by
  obtain ⟨before, after, rfl, _⟩ := onTop_eq_some_iff.mp h
  simp

/-- A thing that is on top somewhere is on top at its own place. -/
theorem onTop_own (h : onTop place xs q = some x) : onTop place xs (place x) = some x := by
  obtain ⟨before, after, hsplit, hx, hafter⟩ := onTop_eq_some_iff.mp h
  refine onTop_eq_some_iff.mpr ⟨before, after, hsplit, List.prefix_refl _, ?_⟩
  exact fun y hy hcover => hafter y hy (hcover.trans hx)

/-- Where it stands, a thing is on top unless a later one covers it. -/
theorem onTop_own_iff (hnodup : xs.Nodup) (hsplit : xs = before ++ x :: after) :
    onTop place xs (place x) = some x ↔ ∀ y ∈ after, ¬ place y <+: place x := by
  rw [onTop_eq_some_iff]
  constructor
  · intro ⟨before', after', hsplit', _, hafter⟩
    subst hsplit
    rw [(split_unique hnodup hsplit').2]
    exact hafter
  · exact fun hafter => ⟨before, after, hsplit, List.prefix_refl _, hafter⟩

theorem atBottom_eq_some_iff (hnodup : xs.Nodup) (hsplit : xs = before ++ x :: after) :
    atBottom place xs q = some x ↔ place x = q ∧ ∀ y ∈ before, place y ≠ q := by
  rw [atBottom, List.find?_eq_some_iff_append, decide_eq_true_iff]
  refine and_congr_right fun _ => ?_
  constructor
  · intro ⟨before', after', hsplit', hbefore⟩ y hy
    subst hsplit
    rw [(split_unique hnodup hsplit').1] at hy
    simpa using hbefore y hy
  · exact fun hbefore => ⟨before, after, hsplit, fun y hy => by simpa using hbefore y hy⟩

omit [DecidableEq κ] in
theorem uncovered_iff : Uncovered place xs ↔
    ∀ before x after, xs = before ++ x :: after → ∀ y ∈ after, ¬ place y <+: place x := by
  unfold Uncovered
  constructor
  · intro h before x after hsplit
    rw [hsplit, List.pairwise_append, List.pairwise_cons] at h
    exact h.2.1.1
  · intro h
    induction xs with
    | nil => exact .nil
    | cons x xs ih =>
        refine .cons (h [] x xs rfl) (ih fun before y after hsplit => ?_)
        exact h (x :: before) y after (by rw [hsplit, List.cons_append])

end Systemstat.Covering
