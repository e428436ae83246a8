import Mathlib.Data.List.TakeWhile

/-! # Maximal runs

A run of elements with a property that goes as far as what follows it allows. A list
has one such run at its start, the one that `takeWhile` takes, so a reader that takes
a run whole is compared with any other way to cut the list.
-/

namespace Systemstat.Text

variable {α : Type} {p : α → Bool} {run rest : List α}

structure MaximalRun (p : α → Bool) (run rest : List α) : Prop where
  all : ∀ c ∈ run, p c = true
  ends : ∀ c, rest.head? = some c → p c = false

theorem maximalRun_takeWhile (p : α → Bool) (s : List α) :
    MaximalRun p (s.takeWhile p) (s.dropWhile p) where
  all _ hc := List.mem_takeWhile_imp hc
  ends c hc := by
    have hhead := List.head?_dropWhile_not p s
    rw [hc] at hhead
    simpa using hhead

namespace MaximalRun

theorem takeWhile_rest (h : MaximalRun p run rest) : rest.takeWhile p = [] := by
  cases rest with
  | nil => rfl
  | cons c rest => simp [h.ends c rfl]

theorem dropWhile_rest (h : MaximalRun p run rest) : rest.dropWhile p = rest := by
  cases rest with
  | nil => rfl
  | cons c rest => simp [h.ends c rfl]

theorem takeWhile_append (h : MaximalRun p run rest) : (run ++ rest).takeWhile p = run := by
  rw [List.takeWhile_append_of_pos h.all, h.takeWhile_rest, List.append_nil]

theorem dropWhile_append (h : MaximalRun p run rest) : (run ++ rest).dropWhile p = rest := by
  rw [List.dropWhile_append_of_pos h.all, h.dropWhile_rest]

end MaximalRun

end Systemstat.Text
