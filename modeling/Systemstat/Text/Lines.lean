import Systemstat.Nom.Parser
import Systemstat.Text.Runs

/-! # Lines of a text

A text is cut at `'\n'`, after every `"\r\n"` has been read as `'\n'`. A
carriage return that survives is a lone one. `textItems` lists what a reader
that ignores blank lines sees: the non-blank lines, each from its first
character that is not whitespace.
-/

namespace Systemstat.Text

open Nom

/-- Drop every `'\r'` that stands directly before a `'\n'`. -/
def dropCr : Str → Str
  | [] => []
  | c :: s => if c = '\r' ∧ s.head? = some '\n' then dropCr s else c :: dropCr s

def lines (s : Str) : List Str := s.splitOn '\n'

/-- Each line ended by `'\n'`. -/
def unlines (ls : List Str) : Str := ls.flatMap (fun l => l ++ ['\n'])

def skip (s : Str) : Str := s.dropWhile isMultispace

def nonblank (ls : List Str) : List Str := (ls.map skip).filter (fun l => l ≠ [])

def isBlank (l : Str) : Bool := l.all (fun c => c == ' ' || c == '\t')

/-- Every carriage return stands directly before a newline. -/
def crBeforeLf : Str → Bool
  | [] => true
  | c :: s => (c != '\r' || s.head? == some '\n') && crBeforeLf s

def firstNonBlank (s : Str) : Option Str := (lines s).find? (fun l => !isBlank l)

def textItems (s : Str) : List Str := nonblank (lines (dropCr s))

/-! ## Whitespace -/

@[simp] theorem skip_nil : skip [] = [] := rfl

theorem skip_cons_of_multispace {c : Char} (h : isMultispace c = true) (s : Str) :
    skip (c :: s) = skip s := by
  simp [skip, h]

theorem skip_cons_of_not_multispace {c : Char} (h : isMultispace c = false) (s : Str) :
    skip (c :: s) = c :: s := by
  simp [skip, h]

theorem skip_append_of_multispace {s : Str} (h : ∀ c ∈ s, isMultispace c = true) (t : Str) :
    skip (s ++ t) = skip t := List.dropWhile_append_of_pos h

theorem skip_eq_nil_iff {s : Str} : skip s = [] ↔ ∀ c ∈ s, isMultispace c = true := by
  simp [skip, List.dropWhile_eq_nil_iff]

theorem skip_head {c : Char} {s t : Str} (h : skip s = c :: t) : isMultispace c = false := by
  have hrun : MaximalRun isMultispace _ (skip s) := maximalRun_takeWhile isMultispace s
  exact hrun.ends c (by rw [h, List.head?_cons])

theorem skip_skip (s : Str) : skip (skip s) = skip s := by
  cases h : skip s with
  | nil => rfl
  | cons c t => exact skip_cons_of_not_multispace (skip_head h) t

theorem skip_length_le (s : Str) : (skip s).length ≤ s.length :=
  (List.dropWhile_suffix isMultispace).length_le

/-! ## Carriage returns -/

theorem dropCr_append {u : Str} (h : '\r' ∉ u) (s : Str) : dropCr (u ++ s) = u ++ dropCr s := by
  induction u with
  | nil => rfl
  | cons c u ih =>
      rw [List.mem_cons, not_or] at h
      have hc : ¬ (c = '\r' ∧ (u ++ s).head? = some '\n') := fun hc => h.1 hc.1.symm
      rw [List.cons_append, dropCr, if_neg hc, ih h.2, List.cons_append]

theorem dropCr_of_not_mem {u : Str} (h : '\r' ∉ u) : dropCr u = u := by
  simpa [dropCr] using dropCr_append h []

theorem dropCr_crlf (s : Str) : dropCr ('\r' :: '\n' :: s) = '\n' :: dropCr s := by
  simp [dropCr]

theorem dropCr_cr {s : Str} (h : s.head? ≠ some '\n') :
    dropCr ('\r' :: s) = '\r' :: dropCr s := by
  simp [dropCr, h]

theorem dropCr_lf (s : Str) : dropCr ('\n' :: s) = '\n' :: dropCr s := by
  simp [dropCr]

theorem not_mem_dropCr {s : Str} (h : crBeforeLf s = true) : '\r' ∉ dropCr s := by
  induction s with
  | nil => simp [dropCr]
  | cons c s ih =>
      rw [crBeforeLf, Bool.and_eq_true] at h
      have hrest := ih h.2
      by_cases hc : c = '\r' ∧ s.head? = some '\n'
      · rwa [dropCr, if_pos hc]
      · rw [dropCr, if_neg hc, List.mem_cons, not_or]
        have hhead := h.1
        rw [Bool.or_eq_true, bne_iff_ne, beq_iff_eq] at hhead
        exact ⟨fun heq => hc ⟨heq.symm, hhead.resolve_left fun hne => hne heq.symm⟩, hrest⟩

/-! ## Cutting into lines -/

theorem lines_of_not_mem {l : Str} (h : '\n' ∉ l) : lines l = [l] := List.splitOn_eq_singleton h

theorem lines_append_newline (l s : Str) : lines (l ++ '\n' :: s) = lines l ++ lines s :=
  List.splitOn_append_cons_self l s

theorem lines_newline (s : Str) : lines ('\n' :: s) = [] :: lines s :=
  lines_append_newline [] s

theorem lines_line {l : Str} (h : '\n' ∉ l) (s : Str) : lines (l ++ '\n' :: s) = l :: lines s :=
  List.splitOn_append_cons_self_of_not_mem h s

theorem lines_cons {c : Char} (h : c ≠ '\n') (s : Str) :
    lines (c :: s) = (lines s).modifyHead (c :: ·) := by
  simp [lines, List.splitOn_cons_eq_if_modifyHead, h]

theorem lines_unlines {ls : List Str} (h : ∀ l ∈ ls, '\n' ∉ l) (s : Str) :
    lines (unlines ls ++ s) = ls ++ lines s := by
  induction ls with
  | nil => rfl
  | cons l ls ih =>
      have hl := lines_line (h l (by simp)) (unlines ls ++ s)
      simp only [unlines, List.flatMap_cons, List.append_assoc, List.cons_append,
        List.nil_append] at hl ih ⊢
      rw [hl, ih (fun m hm => h m (by simp [hm]))]

theorem mem_intercalate {sep : Str} {ls : List Str} {c : Char} (h : c ∈ sep.intercalate ls) :
    c ∈ sep ∨ ∃ l ∈ ls, c ∈ l := by
  induction ls with
  | nil => cases h
  | cons l ls ih =>
      by_cases hne : ls = []
      · subst hne
        rw [List.intercalate_singleton] at h
        exact .inr ⟨l, by simp, h⟩
      · rw [List.intercalate_cons_of_ne_nil hne] at h
        rcases List.mem_append.mp h with h | h
        · rcases List.mem_append.mp h with h | h
          · exact .inr ⟨l, by simp, h⟩
          · exact .inl h
        · exact (ih h).imp id fun ⟨m, hm, hc⟩ => ⟨m, List.mem_cons_of_mem l hm, hc⟩

/-! ## Non-blank lines -/

@[simp] theorem nonblank_nil : nonblank [] = [] := rfl

theorem nonblank_append (ls ms : List Str) : nonblank (ls ++ ms) = nonblank ls ++ nonblank ms := by
  simp [nonblank]

theorem nonblank_cons_of_blank {l : Str} (h : skip l = []) (ls : List Str) :
    nonblank (l :: ls) = nonblank ls := by
  simp [nonblank, h]

theorem nonblank_cons_of_ne {l : Str} (h : skip l ≠ []) (ls : List Str) :
    nonblank (l :: ls) = skip l :: nonblank ls := by
  simp [nonblank, h]

theorem nonblank_of_ne {ls : List Str} (h : ∀ l ∈ ls, skip l ≠ []) :
    nonblank ls = ls.map skip := by
  rw [nonblank, List.filter_eq_self]
  intro u hu
  obtain ⟨l, hl, rfl⟩ := List.mem_map.mp hu
  exact decide_eq_true (h l hl)

theorem mem_nonblank {u : Str} {ls : List Str} :
    u ∈ nonblank ls ↔ u ≠ [] ∧ ∃ l ∈ ls, skip l = u := by
  simp only [nonblank, List.mem_filter, List.mem_map, decide_eq_true_eq]
  exact and_comm

theorem nonblank_lines_multispace {c : Char} (h : isMultispace c = true) (s : Str) :
    nonblank (lines (c :: s)) = nonblank (lines s) := by
  by_cases hn : c = '\n'
  · rw [hn, lines_newline, nonblank_cons_of_blank rfl]
  · rw [lines_cons hn]
    obtain ⟨l, ls, hls⟩ := List.exists_cons_of_ne_nil (List.splitOn_ne_nil '\n' s)
    rw [show lines s = l :: ls from hls, List.modifyHead_cons]
    simp only [nonblank, List.map_cons, skip_cons_of_multispace h]

/-- Whitespace before a text, newlines included, does not change what is read. -/
theorem textItems_skip (s : Str) : textItems (skip s) = textItems s := by
  induction s with
  | nil => rfl
  | cons c s ih =>
      cases hc : isMultispace c with
      | false => rw [skip_cons_of_not_multispace hc]
      | true =>
          rw [skip_cons_of_multispace hc, ih]
          by_cases hcr : c = '\r' ∧ s.head? = some '\n'
          · simp only [textItems, dropCr, if_pos hcr]
          · simp only [textItems, dropCr, if_neg hcr, nonblank_lines_multispace hc]

theorem textItems_nil : textItems [] = [] := rfl

theorem textItems_blank {s : Str} (h : skip s = []) : textItems s = [] := by
  rw [← textItems_skip, h, textItems_nil]

/-- Reading is compositional at the end of a line. -/
theorem textItems_append_newline (s t : Str) :
    textItems (s ++ '\n' :: t) = textItems (s ++ ['\n']) ++ textItems t := by
  obtain ⟨q, hq⟩ : ∃ q, ∀ t, dropCr (s ++ '\n' :: t) = q ++ '\n' :: dropCr t := by
    induction s with
    | nil => exact ⟨[], dropCr_lf⟩
    | cons c s ih =>
        obtain ⟨q, hq⟩ := ih
        have hh : ∀ t, (s ++ '\n' :: t).head? = (s ++ ['\n']).head? := by
          intro t
          cases s <;> rfl
        by_cases hc : c = '\r' ∧ (s ++ ['\n']).head? = some '\n'
        · exact ⟨q, fun t => by rw [List.cons_append, dropCr, hh t, if_pos hc, hq t]⟩
        · exact ⟨c :: q, fun t => by
            rw [List.cons_append, dropCr, hh t, if_neg hc, hq t, List.cons_append]⟩
  simp only [textItems, hq, lines_append_newline, nonblank_append]
  simp [dropCr, lines, nonblank]

/-- What a first line with its newline reads as. -/
theorem dropCr_line {l : Str} (h : '\n' ∉ l) :
    ∃ m, '\n' ∉ m ∧ dropCr (l ++ ['\n']) = m ++ ['\n'] := by
  induction l with
  | nil => exact ⟨[], by simp, dropCr_lf []⟩
  | cons c l ih =>
      rw [List.mem_cons, not_or] at h
      obtain ⟨m, hm, hl⟩ := ih h.2
      rw [List.cons_append, dropCr, hl]
      by_cases hc : c = '\r' ∧ (l ++ ['\n']).head? = some '\n'
      · exact ⟨m, hm, if_pos hc⟩
      · exact ⟨c :: m, by simp [h.1, hm], if_neg hc⟩

/-- The same text with blank lines put at its beginning or behind any of its newlines. -/
inductive BlankLinesAdded : Str → Str → Prop
  | refl (s : Str) : BlankLinesAdded s s
  | add {s before blank after : Str} (h : BlankLinesAdded s (before ++ after))
      (hplace : before = [] ∨ before.getLast? = some '\n') (hblank : isBlank blank = true) :
      BlankLinesAdded s (before ++ (blank ++ '\n' :: after))

theorem textItems_blank_line {blank : Str} (h : isBlank blank = true) (s : Str) :
    textItems (blank ++ '\n' :: s) = textItems s := by
  have hws : ∀ c ∈ blank, isMultispace c = true := by
    intro c hc
    have hb := List.all_eq_true.mp h c hc
    simp only [Bool.or_eq_true, beq_iff_eq] at hb
    rcases hb with rfl | rfl <;> rfl
  rw [← textItems_skip, skip_append_of_multispace hws, skip_cons_of_multispace rfl,
    textItems_skip]

theorem textItems_blankLinesAdded {s t : Str} (h : BlankLinesAdded s t) :
    textItems t = textItems s := by
  induction h with
  | refl => rfl
  | @add before blank after _ hplace hblank ih =>
      rw [← ih]
      rcases hplace with rfl | hlast
      · exact textItems_blank_line hblank after
      · obtain ⟨u, rfl⟩ := List.getLast?_eq_some_iff.mp hlast
        rw [List.append_assoc, List.append_assoc, List.singleton_append, List.singleton_append,
          textItems_append_newline, textItems_append_newline u after,
          textItems_blank_line hblank]

theorem textItems_line_length {l : Str} (h : '\n' ∉ l) :
    (textItems (l ++ ['\n'])).length ≤ 1 := by
  obtain ⟨m, hm, hl⟩ := dropCr_line h
  have hblank : nonblank [[]] = [] := rfl
  rw [textItems, hl, lines_line hm, lines_of_not_mem (by simp)]
  by_cases hs : skip m = []
  · simp [nonblank_cons_of_blank hs, hblank]
  · simp [nonblank_cons_of_ne hs, hblank]

theorem textItems_unlines_append (ls : List Str) (s : Str) :
    textItems (unlines ls ++ s) = textItems (unlines ls) ++ textItems s := by
  induction ls with
  | nil => rfl
  | cons l ls ih =>
      have hcons : unlines (l :: ls) = l ++ '\n' :: unlines ls := by simp [unlines]
      rw [hcons, List.append_assoc, List.cons_append, textItems_append_newline,
        textItems_append_newline l (unlines ls), ih, List.append_assoc]

theorem textItems_unlines {ls : List Str} (hn : ∀ l ∈ ls, '\n' ∉ l) (hr : ∀ l ∈ ls, '\r' ∉ l)
    (s : Str) : textItems (unlines ls ++ s) = nonblank ls ++ textItems s := by
  have hcr : '\r' ∉ unlines ls := by
    simp only [unlines, List.mem_flatMap, List.mem_append, List.mem_singleton, not_exists,
      not_and, not_or]
    exact fun l hl => ⟨hr l hl, by decide⟩
  simp only [textItems, dropCr_append hcr, lines_unlines hn, nonblank_append]

/-! ## Blank lines -/

theorem isBlank_iff_skip {l : Str} (hn : '\n' ∉ l) (hr : '\r' ∉ l) :
    isBlank l = true ↔ skip l = [] := by
  simp only [isBlank, List.all_eq_true, skip_eq_nil_iff]
  refine forall₂_congr fun c hc => ?_
  have h₁ : c ≠ '\n' := fun h => hn (h ▸ hc)
  have h₂ : c ≠ '\r' := fun h => hr (h ▸ hc)
  simp [isMultispace, h₁, h₂]

theorem mem_of_mem_lines {l s : Str} (h : l ∈ lines s) : ∀ c ∈ l, c ∈ s ∧ c ≠ '\n' := by
  induction s generalizing l with
  | nil =>
      rw [lines_of_not_mem (by simp), List.mem_singleton] at h
      simp [h]
  | cons d s ih =>
      by_cases hd : d = '\n'
      · rw [hd, lines_newline, List.mem_cons] at h
        rcases h with rfl | h
        · simp
        · exact fun c hc => ⟨List.mem_cons_of_mem d (ih h c hc).1, (ih h c hc).2⟩
      · obtain ⟨m, ms, hms⟩ := List.exists_cons_of_ne_nil (List.splitOn_ne_nil '\n' s)
        have hs : lines s = m :: ms := hms
        rw [lines_cons hd, hs, List.modifyHead_cons, List.mem_cons] at h
        intro c hc
        rcases h with rfl | h
        · rcases List.mem_cons.mp hc with rfl | hc
          · exact ⟨by simp, hd⟩
          · have := ih (by rw [hs]; simp) c hc
            exact ⟨List.mem_cons_of_mem d this.1, this.2⟩
        · have := ih (by rw [hs]; simp [h]) c hc
          exact ⟨List.mem_cons_of_mem d this.1, this.2⟩

/-- The items are the lines that are not blank, each without its leading blanks. -/
theorem nonblank_eq_filter {ls : List Str} (hn : ∀ l ∈ ls, '\n' ∉ l) (hr : ∀ l ∈ ls, '\r' ∉ l) :
    nonblank ls = (ls.filter fun l => !isBlank l).map skip := by
  induction ls with
  | nil => rfl
  | cons l ls ih =>
      have hb := isBlank_iff_skip (hn l (by simp)) (hr l (by simp))
      have hrest := ih (fun m hm => hn m (by simp [hm])) (fun m hm => hr m (by simp [hm]))
      by_cases hs : skip l = []
      · rw [nonblank_cons_of_blank hs, hrest, List.filter_cons_of_neg (by simp [hb.mpr hs])]
      · have hl : isBlank l = false := Bool.eq_false_iff.mpr fun h => hs (hb.mp h)
        rw [nonblank_cons_of_ne hs, hrest, List.filter_cons_of_pos (by simp [hl]), List.map_cons]

/-- Without carriage returns the items of a text are its non-blank lines. -/
theorem textItems_of_not_mem_cr {s : Str} (h : '\r' ∉ dropCr s) :
    textItems s = ((lines (dropCr s)).filter fun l => !isBlank l).map skip :=
  nonblank_eq_filter (fun _ hl hm => (mem_of_mem_lines hl _ hm).2 rfl)
    fun _ hl hm => h (mem_of_mem_lines hl _ hm).1

end Systemstat.Text
