import Systemstat.Nom.Parser
import Systemstat.Text.Runs

/-! # Words of a text

The maximal runs of characters that are not separators, for any notion of
separator. A text is its separators, its first word and what follows that word,
so a reader that takes one word after another is compared with `words` one word
at a time.
-/

namespace Systemstat.Text

open Nom

variable {sep : Char → Bool}

/-- The maximal runs of characters that are no separators, in order. -/
def words (sep : Char → Bool) (s : Str) : List Str := (s.splitOnP sep).filter fun u => u ≠ []

/-- A word by its number, the empty one where the text has fewer. -/
def word (sep : Char → Bool) (s : Str) (k : Nat) : Str := (words sep s).getD k []

theorem words_cons_of_sep {c : Char} (h : sep c = true) (s : Str) :
    words sep (c :: s) = words sep s := by
  simp [words, List.splitOnP_cons_eq_if_modifyHead, h]

/-- A run of other characters up to a separator or the end is the first word. -/
theorem words_append {u s : Str} (hne : u ≠ []) (hu : ∀ c ∈ u, sep c = false)
    (hs : ∀ c, s.head? = some c → sep c = true) : words sep (u ++ s) = u :: words sep s := by
  cases s with
  | nil => simp [words, List.splitOnP_eq_singleton hu, hne]
  | cons c s =>
      rw [words_cons_of_sep (hs c rfl)]
      simp [words, List.splitOnP_append_cons_of_forall_mem hu c (hs c rfl), hne]

theorem words_dropWhile (s : Str) : words sep (s.dropWhile sep) = words sep s := by
  induction s with
  | nil => rfl
  | cons c s ih =>
      cases hc : sep c with
      | false => rw [List.dropWhile_cons_of_neg (by simp [hc])]
      | true => rw [List.dropWhile_cons_of_pos hc, ih, words_cons_of_sep hc]

/-- Past its separators a text is its first word and the text of the others. -/
theorem words_eq {s : Str} (h : s.dropWhile sep ≠ []) :
    words sep s = ((s.dropWhile sep).takeWhile fun c => !sep c) ::
      words sep ((s.dropWhile sep).dropWhile fun c => !sep c) := by
  obtain ⟨c, t, ht⟩ := List.exists_cons_of_ne_nil h
  have hc : sep c = false := (maximalRun_takeWhile sep s).ends c (by rw [ht, List.head?_cons])
  rw [← words_dropWhile s, ht]
  conv_lhs => rw [← List.takeWhile_append_dropWhile (p := fun c => !sep c) (l := c :: t)]
  refine words_append (by simp [hc]) (fun d hd => ?_) fun d hd => ?_
  · simpa using List.mem_takeWhile_imp hd
  · simpa using (maximalRun_takeWhile (fun c => !sep c) (c :: t)).ends d hd

theorem word_zero (s : Str) :
    word sep s 0 = (s.dropWhile sep).takeWhile fun c => !sep c := by
  by_cases h : s.dropWhile sep = []
  · rw [word, ← words_dropWhile, h]
    rfl
  · rw [word, words_eq h, List.getD_cons_zero]

theorem word_succ (s : Str) (k : Nat) :
    word sep s (k + 1) = word sep ((s.dropWhile sep).dropWhile fun c => !sep c) k := by
  by_cases h : s.dropWhile sep = []
  · rw [word, ← words_dropWhile, h]
    rfl
  · rw [word, words_eq h, List.getD_cons_succ, word]

/-- A reader that stops more often takes a run whole exactly when it stops nowhere in it. -/
theorem takeWhile_eq_iff {p q : Char → Bool} (h : ∀ c, q c = true → p c = true) (s : Str) :
    s.takeWhile q = s.takeWhile p ↔ ∀ c ∈ s.takeWhile p, q c = true := by
  constructor
  · intro heq c hc
    rw [← heq] at hc
    exact List.mem_takeWhile_imp hc
  · intro hall
    induction s with
    | nil => rfl
    | cons c s ih =>
        cases hp : p c with
        | false =>
            have hq : q c = false := Bool.eq_false_iff.mpr fun hq => by simp [h c hq] at hp
            rw [List.takeWhile_cons_of_neg (by simp [hq]),
              List.takeWhile_cons_of_neg (by simp [hp])]
        | true =>
            rw [List.takeWhile_cons_of_pos hp] at hall ⊢
            rw [List.takeWhile_cons_of_pos (hall c List.mem_cons_self),
              ih fun d hd => hall d (List.mem_cons_of_mem c hd)]

end Systemstat.Text
