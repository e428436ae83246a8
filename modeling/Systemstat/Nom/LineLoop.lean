import Systemstat.Nom.Repetition
import Systemstat.Text.Lines

/-! # Repetitions over lines

A repetition whose item skips whitespace, takes the text up to the line ending
and skips whitespace again has no notion of lines: its skipping crosses line
ends and the last line may be unended. `IsLineItem` states what such an item
does, and `IsLineItem.reads` proves that the repetition is the plain
line-by-line reading `collectOk`, from any text: non-blank lines in order, up to
the first one that is rejected or holds a lone carriage return.
-/

namespace Systemstat.Nom

open Text

variable {α β : Type}

/-! ## Collecting up to the first rejection -/

def collectOk (h : α → Option β) : List α → List β
  | [] => []
  | a :: as =>
      match h a with
      | none => []
      | some b => b :: collectOk h as

theorem collectOk_cons_some {h : α → Option β} {a : α} {b : β} (ha : h a = some b)
    (as : List α) : collectOk h (a :: as) = b :: collectOk h as := by
  simp only [collectOk, ha]

theorem collectOk_cons_none {h : α → Option β} {a : α} (ha : h a = none) (as : List α) :
    collectOk h (a :: as) = [] := by
  simp only [collectOk, ha]

/-- Accepted items are collected, wherever they come from, and collecting goes on. -/
theorem collectOk_map_append {γ : Type} {h : α → Option β} {f : γ → α} {k : γ → β} {xs : List γ}
    (hx : ∀ x ∈ xs, h (f x) = some (k x)) (as : List α) :
    collectOk h (xs.map f ++ as) = xs.map k ++ collectOk h as := by
  induction xs with
  | nil => rfl
  | cons x xs ih =>
      have hrest := ih (fun y hy => hx y (by simp [hy]))
      rw [List.map_cons, List.cons_append, collectOk_cons_some (hx x (by simp)), hrest,
        List.map_cons, List.cons_append]

theorem collectOk_eq_map {h : α → Option β} {k : α → β} {as : List α}
    (ha : ∀ a ∈ as, h a = some (k a)) : collectOk h as = as.map k := by
  simpa [collectOk] using collectOk_map_append (f := id) (k := k) ha []

/-- A judge that accepts by a test alone collects the items before the first that fails it. -/
theorem collectOk_eq_takeWhile {h : α → Option β} {test : α → Bool} {k : α → β} {as : List α}
    (ha : ∀ a ∈ as, h a = if test a then some (k a) else none) :
    collectOk h as = (as.takeWhile test).map k := by
  induction as with
  | nil => rfl
  | cons a as ih =>
      have hrest := ih fun x hx => ha x (List.mem_cons_of_mem a hx)
      have hhead := ha a List.mem_cons_self
      cases ht : test a with
      | false =>
          rw [ht, if_neg (by decide)] at hhead
          rw [collectOk_cons_none hhead, List.takeWhile_cons_of_neg (by simp [ht]), List.map_nil]
      | true =>
          rw [ht, if_pos rfl] at hhead
          rw [collectOk_cons_some hhead, hrest, List.takeWhile_cons_of_pos ht, List.map_cons]

theorem collectOk_append_of_none {h : α → Option β} {as : List α} {a : α} (hm : a ∈ as)
    (ha : h a = none) (bs : List α) : collectOk h (as ++ bs) = collectOk h as := by
  induction as with
  | nil => cases hm
  | cons x xs ih =>
      cases hx : h x with
      | none => rw [List.cons_append, collectOk_cons_none hx, collectOk_cons_none hx]
      | some b =>
          have hxs : a ∈ xs := by
            rcases List.mem_cons.mp hm with rfl | hxs
            · rw [ha] at hx
              cases hx
            · exact hxs
          rw [List.cons_append, collectOk_cons_some hx, collectOk_cons_some hx, ih hxs]

theorem collectOk_append_of_isSome {h : α → Option β} {as : List α}
    (ha : ∀ a ∈ as, (h a).isSome) (bs : List α) :
    collectOk h (as ++ bs) = collectOk h as ++ collectOk h bs := by
  induction as with
  | nil => rfl
  | cons a as ih =>
      obtain ⟨b, hb⟩ := Option.isSome_iff_exists.mp (ha a (by simp))
      have hrest := ih fun x hx => ha x (by simp [hx])
      rw [List.cons_append, collectOk_cons_some hb, collectOk_cons_some hb, hrest,
        List.cons_append]

theorem collectOk_eq_nil_iff {h : α → Option β} {as : List α} :
    collectOk h as = [] ↔ ∀ a ∈ as.head?, h a = none := by
  cases as with
  | nil => simp [collectOk]
  | cons a as =>
      cases ha : h a with
      | none => simp [collectOk_cons_none ha, ha]
      | some b => simp [collectOk_cons_some ha, ha]

/-- As many are collected as are accepted before the first rejection. -/
theorem collectOk_length (h : α → Option β) (as : List α) :
    (collectOk h as).length = (as.takeWhile fun a => (h a).isSome).length := by
  induction as with
  | nil => rfl
  | cons a as ih =>
      cases ha : h a with
      | none => simp [collectOk_cons_none ha, ha]
      | some b => simp [collectOk_cons_some ha, ha, ih]

theorem collectOk_length_le (h : α → Option β) (as : List α) :
    (collectOk h as).length ≤ as.length := by
  rw [collectOk_length]
  exact (List.takeWhile_prefix _).length_le

theorem collectOk_length_eq_iff (h : α → Option β) (as : List α) :
    (collectOk h as).length = as.length ↔ ∀ a ∈ as, (h a).isSome := by
  rw [collectOk_length, ← List.takeWhile_eq_self_iff]
  exact ⟨(List.takeWhile_prefix _).eq_of_length, congrArg List.length⟩

/-- Items `own` put between others add to the collection in their place exactly
when they are accepted, or when nothing is collected behind them anyway. -/
theorem collectOk_insert_iff (h : α → Option β) (as bs : List α) {own : List α}
    (hown : own.length ≤ 1) :
    (∃ e after : List β, e.length ≤ 1 ∧ collectOk h (as ++ bs) = collectOk h as ++ after ∧
      collectOk h (as ++ (own ++ bs)) = collectOk h as ++ (e ++ after)) ↔
    ((∀ a ∈ own, (h a).isSome) ∨ (∃ a ∈ as, h a = none) ∨ ∀ b ∈ bs.head?, h b = none) := by
  by_cases hstop : ∃ a ∈ as, h a = none
  · obtain ⟨a, ha, hnone⟩ := hstop
    refine ⟨fun _ => .inr (.inl ⟨a, ha, hnone⟩), fun _ => ⟨[], [], by simp, ?_, ?_⟩⟩
    · rw [collectOk_append_of_none ha hnone, List.append_nil]
    · rw [collectOk_append_of_none ha hnone, List.append_nil, List.append_nil]
  · have has : ∀ a ∈ as, (h a).isSome := fun a ha =>
      Option.isSome_iff_ne_none.mpr fun hnone => hstop ⟨a, ha, hnone⟩
    have hrun : ∀ cs, collectOk h (as ++ cs) = collectOk h as ++ collectOk h cs :=
      collectOk_append_of_isSome has
    by_cases hacc : ∀ a ∈ own, (h a).isSome
    · refine ⟨fun _ => .inl hacc, fun _ => ⟨collectOk h own, collectOk h bs, ?_, hrun bs, ?_⟩⟩
      · exact (collectOk_length_le h own).trans hown
      · rw [hrun, collectOk_append_of_isSome hacc]
    · have hnone : collectOk h (own ++ bs) = [] := by
        match own, hown, hacc with
        | [], _, hacc => exact absurd (by simp) hacc
        | [a], _, hacc =>
            have ha : h a = none := by simpa using hacc
            exact collectOk_cons_none ha bs
      rw [hrun, hrun, hnone, ← collectOk_eq_nil_iff]
      constructor
      · rintro ⟨e, after, _, hbs, hempty⟩
        rw [List.append_cancel_left_eq] at hbs hempty
        rw [hbs]
        exact .inr (.inr (List.append_eq_nil_iff.mp hempty.symm).2)
      · rintro (hacc' | hstop' | hbs)
        · exact absurd hacc' hacc
        · exact absurd hstop' hstop
        · exact ⟨[], [], by simp, by rw [hbs], by simp⟩

/-! ## One line -/

def LineBody (u : Str) : Prop := ∀ c ∈ u, isLineEnd c = false

instance (u : Str) : Decidable (LineBody u) :=
  decidable_of_iff (u.all (fun c => !isLineEnd c) = true) (by simp [LineBody, List.all_eq_true])

theorem LineBody.append {u v : Str} (hu : LineBody u) (hv : LineBody v) : LineBody (u ++ v) := by
  intro c hc
  rcases List.mem_append.mp hc with hc | hc
  · exact hu c hc
  · exact hv c hc

theorem LineBody.cons {c : Char} {u : Str} (hc : isLineEnd c = false) (hu : LineBody u) :
    LineBody (c :: u) := by
  intro d hd
  rcases List.mem_cons.mp hd with rfl | hd
  · exact hc
  · exact hu d hd

theorem isLineEnd_of_not_multispace {c : Char} (hc : isMultispace c = false) :
    isLineEnd c = false := by
  simp_all [isMultispace, isLineEnd]

theorem LineBody.of_not_multispace {u : Str} (hu : ∀ c ∈ u, isMultispace c = false) :
    LineBody u := fun c hc => isLineEnd_of_not_multispace (hu c hc)

theorem LineBody.of_skip {u : Str} (hu : LineBody u) : LineBody (skip u) :=
  fun c hc => hu c ((List.dropWhile_suffix isMultispace).subset hc)

theorem LineBody.not_mem_cr {u : Str} (hu : LineBody u) : '\r' ∉ u := fun h => by cases hu _ h

theorem LineBody.not_mem_lf {u : Str} (hu : LineBody u) : '\n' ∉ u := fun h => by cases hu _ h

/-- How a text begins: a line without line-ending characters, then one of four ends. -/
theorem line_cases (s : Str) : ∃ u, LineBody u ∧
    (s = u ∨ (∃ t, s = u ++ '\n' :: t) ∨ (∃ t, s = u ++ '\r' :: '\n' :: t) ∨
      ∃ t, t.head? ≠ some '\n' ∧ s = u ++ '\r' :: t) := by
  induction s with
  | nil => exact ⟨[], by decide, .inl rfl⟩
  | cons c s ih =>
      by_cases hn : c = '\n'
      · exact ⟨[], by decide, .inr (.inl ⟨s, by simp [hn]⟩)⟩
      · by_cases hr : c = '\r'
        · subst hr
          refine ⟨[], by decide, .inr (.inr ?_)⟩
          by_cases hs : s.head? = some '\n'
          · obtain ⟨t, rfl⟩ : ∃ t, s = '\n' :: t := by
              cases s with
              | nil => cases hs
              | cons d t => exact ⟨t, by simpa using hs⟩
            exact .inl ⟨t, rfl⟩
          · exact .inr ⟨s, hs, rfl⟩
        · obtain ⟨u, hu, h⟩ := ih
          have hc : isLineEnd c = false := by simp [isLineEnd, hn, hr]
          refine ⟨c :: u, hu.cons hc, ?_⟩
          · rcases h with rfl | ⟨t, rfl⟩ | ⟨t, rfl⟩ | ⟨t, ht, rfl⟩
            · exact .inl rfl
            · exact .inr (.inl ⟨t, rfl⟩)
            · exact .inr (.inr (.inl ⟨t, rfl⟩))
            · exact .inr (.inr (.inr ⟨t, ht, rfl⟩))

variable {u : Str} (hu : LineBody u)

include hu

theorem lineBody_split {c : Char} (hc : isLineEnd c = true) (s : Str) :
    (u ++ c :: s).dropWhile (fun c => !isLineEnd c) = c :: s ∧
      (u ++ c :: s).takeWhile (fun c => !isLineEnd c) = u := by
  have hrun : MaximalRun (fun c => !isLineEnd c) u (c :: s) :=
    ⟨fun d hd => by simp [hu d hd], fun d hd => by cases hd; simp [hc]⟩
  exact ⟨hrun.dropWhile_append, hrun.takeWhile_append⟩

theorem notLineEnding_end : Yields notLineEnding u [] u := by
  have hpos : ∀ c ∈ u, (!isLineEnd c) = true := fun c hm => by simp [hu c hm]
  have hd : u.dropWhile (fun c => !isLineEnd c) = [] := List.dropWhile_eq_nil_iff.mpr hpos
  have ht : u.takeWhile (fun c => !isLineEnd c) = u := List.takeWhile_eq_self_iff.mpr hpos
  simp only [Yields, notLineEnding, hd, ht]

theorem notLineEnding_lf (t : Str) : Yields notLineEnding (u ++ '\n' :: t) ('\n' :: t) u := by
  obtain ⟨hd, ht⟩ := lineBody_split hu (c := '\n') rfl t
  simp [Yields, notLineEnding, hd, ht]

theorem notLineEnding_crlf (t : Str) :
    Yields notLineEnding (u ++ '\r' :: '\n' :: t) ('\r' :: '\n' :: t) u := by
  obtain ⟨hd, ht⟩ := lineBody_split hu (c := '\r') rfl ('\n' :: t)
  simp only [Yields, notLineEnding, hd, ht, List.head?_cons, if_true]

theorem notLineEnding_cr {t : Str} (hh : t.head? ≠ some '\n') :
    Fails notLineEnding (u ++ '\r' :: t) := by
  obtain ⟨hd, _⟩ := lineBody_split hu (c := '\r') rfl t
  simp [Fails, notLineEnding, hd, hh]

omit hu

theorem notLineEnding_outcome (s : Str) :
    (∃ r u, Yields notLineEnding s r u) ∨ Fails notLineEnding s := by
  obtain ⟨u, hu, rfl | ⟨t, rfl⟩ | ⟨t, rfl⟩ | ⟨t, hh, rfl⟩⟩ := line_cases s
  · exact .inl ⟨_, _, notLineEnding_end hu⟩
  · exact .inl ⟨_, _, notLineEnding_lf hu t⟩
  · exact .inl ⟨_, _, notLineEnding_crlf hu t⟩
  · exact .inr (notLineEnding_cr hu hh)

/-! ## The items of a text that starts at a line -/

theorem textItems_line {c : Char} {v : Str} (hc : isMultispace c = false)
    (hu : LineBody (c :: v)) : textItems (c :: v) = [c :: v] := by
  have hs := skip_cons_of_not_multispace hc v
  rw [textItems, dropCr_of_not_mem hu.not_mem_cr,
    lines_of_not_mem hu.not_mem_lf, nonblank_cons_of_ne (by simp [hs]), hs,
    nonblank_nil]

theorem textItems_line_lf {c : Char} {v : Str} (hc : isMultispace c = false)
    (hu : LineBody (c :: v)) (t : Str) :
    textItems (c :: v ++ '\n' :: t) = (c :: v) :: textItems t := by
  have hs := skip_cons_of_not_multispace hc v
  rw [textItems, dropCr_append hu.not_mem_cr, dropCr_lf,
    lines_line hu.not_mem_lf, nonblank_cons_of_ne (by simp [hs]), hs, textItems]

theorem textItems_line_crlf {c : Char} {v : Str} (hc : isMultispace c = false)
    (hu : LineBody (c :: v)) (t : Str) :
    textItems (c :: v ++ '\r' :: '\n' :: t) = (c :: v) :: textItems t := by
  have hs := skip_cons_of_not_multispace hc v
  rw [textItems, dropCr_append hu.not_mem_cr, dropCr_crlf,
    lines_line hu.not_mem_lf, nonblank_cons_of_ne (by simp [hs]), hs, textItems]

/-- A lone carriage return stays in its line, which is thereby unreadable. -/
theorem textItems_line_cr {c : Char} {v : Str} (hc : isMultispace c = false)
    (hu : LineBody (c :: v)) {t : Str} (hh : t.head? ≠ some '\n') :
    ∃ m ms, '\r' ∈ m ∧ textItems (c :: v ++ '\r' :: t) = m :: ms := by
  obtain ⟨l, ls, hls⟩ := List.exists_cons_of_ne_nil (List.splitOn_ne_nil '\n' (dropCr t))
  have hcr : lines ('\r' :: dropCr t) = ('\r' :: l) :: ls := by
    rw [lines_cons (by decide), show lines (dropCr t) = l :: ls from hls, List.modifyHead_cons]
  have hbody : ∀ w : Str, '\n' ∉ w → lines (w ++ '\r' :: dropCr t) = (w ++ '\r' :: l) :: ls := by
    intro w
    induction w with
    | nil => exact fun _ => hcr
    | cons d w ih =>
        intro hw
        rw [List.mem_cons, not_or] at hw
        rw [List.cons_append, lines_cons (Ne.symm hw.1), ih hw.2, List.modifyHead_cons,
          List.cons_append]
  refine ⟨c :: v ++ '\r' :: l, nonblank ls, by simp, ?_⟩
  have hs : skip (c :: v ++ '\r' :: l) = c :: v ++ '\r' :: l :=
    skip_cons_of_not_multispace hc _
  rw [textItems, dropCr_append hu.not_mem_cr, dropCr_cr hh,
    hbody _ hu.not_mem_lf, nonblank_cons_of_ne (by rw [hs]; exact List.cons_ne_nil _ _),
    hs]

/-- What a text begins with behind its leading whitespace: nothing, a line that can
be taken, or a line with a lone carriage return. -/
theorem firstItem_cases (s : Str) :
    (skip s = [] ∧ textItems s = []) ∨
    (∃ u r t, Yields notLineEnding (skip s) r u ∧ '\r' ∉ u ∧ skip r = skip t ∧
      t.length < (skip s).length ∧ textItems s = u :: textItems t) ∨
    (Fails notLineEnding (skip s) ∧ ∃ m ms, '\r' ∈ m ∧ textItems s = m :: ms) := by
  cases hs : skip s with
  | nil => exact .inl ⟨rfl, textItems_blank hs⟩
  | cons c w =>
      have hc := skip_head hs
      have hitems := textItems_skip s
      rw [hs] at hitems
      obtain ⟨v, hv, hend⟩ := line_cases w
      have hu : LineBody (c :: v) := hv.cons (isLineEnd_of_not_multispace hc)
      rw [← hitems]
      rcases hend with rfl | ⟨t, rfl⟩ | ⟨t, rfl⟩ | ⟨t, hh, rfl⟩
      · exact .inr (.inl ⟨_, _, [], notLineEnding_end hu, hu.not_mem_cr, rfl, by simp,
          textItems_line hc hu⟩)
      · exact .inr (.inl ⟨_, _, t, notLineEnding_lf hu t, hu.not_mem_cr,
          skip_cons_of_multispace rfl t, by simp; omega, textItems_line_lf hc hu t⟩)
      · exact .inr (.inl ⟨_, _, t, notLineEnding_crlf hu t, hu.not_mem_cr,
          (skip_cons_of_multispace rfl _).trans (skip_cons_of_multispace rfl t),
          by simp; omega, textItems_line_crlf hc hu t⟩)
      · exact .inr (.inr ⟨notLineEnding_cr hu hh, textItems_line_cr hc hu hh⟩)

/-! ## The loop -/

/-- An item parser that reads one line: past whitespace it takes the text up to
the line ending, skips whitespace again and has `h` judge the line. The empty
line is rejected. -/
structure IsLineItem (p : Parser β) (h : Str → Option β) : Prop where
  yields : ∀ {i r u b}, Yields notLineEnding (skip i) r u → h u = some b →
    Yields p i (skip r) b
  rejects : ∀ {i r u}, Yields notLineEnding (skip i) r u → h u = none → Fails p i
  stuck : ∀ {i}, Fails notLineEnding (skip i) → Fails p i
  empty : h [] = none

/-- A line that still holds a carriage return is not readable. -/
def readable (h : Str → Option β) (u : Str) : Option β := if '\r' ∈ u then none else h u

theorem readable_of_not_mem (h : Str → Option β) {u : Str} (hu : '\r' ∉ u) :
    readable h u = h u := if_neg hu

theorem readable_of_mem (h : Str → Option β) {u : Str} (hu : '\r' ∈ u) :
    readable h u = none := if_pos hu

def AllRead (h : Str → Option β) (s : Str) : Prop := ∀ u ∈ textItems s, (readable h u).isSome

namespace IsLineItem

variable {p : Parser β} {h : Str → Option β}

theorem fails_of_blank (item : IsLineItem p h) {s : Str} (hs : skip s = []) : Fails p s :=
  item.rejects (by rw [hs]; exact notLineEnding_end (by decide)) item.empty

/-- An item has one of two outcomes, and whitespace before the line changes neither. -/
theorem outcome (item : IsLineItem p h) (s : Str) :
    (∃ r b, Yields p s r b ∧ Yields p (skip s) r b) ∨ (Fails p s ∧ Fails p (skip s)) := by
  have hskip : skip (skip s) = skip s := skip_skip s
  rcases notLineEnding_outcome (skip s) with ⟨r, u, hy⟩ | hf
  · cases hh : h u with
    | some b => exact .inl ⟨skip r, b, item.yields hy hh, item.yields (by rwa [hskip]) hh⟩
    | none => exact .inr ⟨item.rejects hy hh, item.rejects (by rwa [hskip]) hh⟩
  · exact .inr ⟨item.stuck hf, item.stuck (by rwa [hskip])⟩

theorem fails_of_skip (item : IsLineItem p h) {s : Str} (hf : Fails p (skip s)) : Fails p s := by
  rcases item.outcome s with ⟨r, b, _, hy⟩ | ⟨hs, _⟩
  · exact absurd hf hy.not_fails
  · exact hs

theorem yields_of_skip (item : IsLineItem p h) {s r : Str} {b : β}
    (hy : Yields p (skip s) r b) : Yields p s r b := by
  rcases item.outcome s with ⟨r', b', hs, hy'⟩ | ⟨_, hf⟩
  · obtain ⟨rfl, rfl⟩ := hy.unique hy'
    exact hs
  · exact absurd hf hy.not_fails

/-- One line of the loop: the line is judged, and the run goes on behind it. -/
theorem reads_line (item : IsLineItem p h) {i u r t : Str}
    (hy : Yields notLineEnding (skip i) r u) (hcr : '\r' ∉ u) (hr : skip r = skip t)
    (hlt : (skip t).length < (skip i).length) (hitems : textItems i = u :: textItems t)
    (ih : ∃ rest, Reads p (skip t) (collectOk (readable h) (textItems t)) rest ∧
      (AllRead h t → rest = [])) :
    ∃ rest, Reads p (skip i) (collectOk (readable h) (textItems i)) rest ∧
      (AllRead h i → rest = []) := by
  have hy' : Yields notLineEnding (skip (skip i)) r u := by rwa [skip_skip]
  have hread := readable_of_not_mem h hcr
  cases hu : h u with
  | none =>
      rw [hu] at hread
      refine ⟨skip i, ?_, fun hall => ?_⟩
      · rw [hitems, collectOk_cons_none hread]
        exact .stop (item.rejects hy' hu)
      · have := hall u (by rw [hitems]; simp)
        simp [hread] at this
  | some b =>
      rw [hu] at hread
      obtain ⟨rest, run, hrest⟩ := ih
      refine ⟨rest, ?_, fun hall => hrest fun m hm => hall m (by rw [hitems]; simp [hm])⟩
      rw [hitems, collectOk_cons_some hread]
      have hstep := item.yields hy' hu
      rw [hr] at hstep
      exact .item hstep hlt run

theorem reads_skip (item : IsLineItem p h) (s : Str) :
    ∃ rest, Reads p (skip s) (collectOk (readable h) (textItems s)) rest ∧
      (AllRead h s → rest = []) := by
  induction hn : s.length using Nat.strongRecOn generalizing s with
  | _ n ih =>
      rcases firstItem_cases s with ⟨hs, hitems⟩ | ⟨u, r, t, hy, hcr, hr, hlt, hitems⟩ |
        ⟨hstuck, m, ms, hm, hitems⟩
      · rw [hs, hitems]
        exact ⟨[], .stop (item.fails_of_blank rfl), fun _ => rfl⟩
      · have hs := skip_length_le s
        have ht := skip_length_le t
        exact item.reads_line hy hcr hr (by omega) hitems (ih t.length (by omega) t rfl)
      · have hnone := readable_of_mem h hm
        refine ⟨skip s, ?_, fun hall => ?_⟩
        · rw [hitems, collectOk_cons_none hnone]
          exact .stop (item.stuck (by rwa [skip_skip]))
        · have := hall m (by rw [hitems]; simp)
          simp [hnone] at this

/-- The repetition on a text is the line-by-line reading of its non-blank lines. -/
theorem reads (item : IsLineItem p h) (s : Str) :
    ∃ rest, Reads p s (collectOk (readable h) (textItems s)) rest ∧
      (AllRead h s → (textItems s ≠ [] ∨ s = []) → rest = []) := by
  obtain ⟨rest, run, hrest⟩ := item.reads_skip s
  generalize hos : collectOk (readable h) (textItems s) = os at run
  cases run with
  | stop hf =>
      refine ⟨s, .stop (item.fails_of_skip hf), fun hall hne => ?_⟩
      rcases hne with hne | rfl
      · obtain ⟨u, us, hus⟩ := List.exists_cons_of_ne_nil hne
        obtain ⟨b, hb⟩ := Option.isSome_iff_exists.mp (hall u (by simp [hus]))
        rw [hus, collectOk_cons_some hb] at hos
        cases hos
      · rfl
  | item hy hlt run =>
      have hskip := skip_length_le s
      exact ⟨rest, .item (item.yields_of_skip hy) (by omega) run, fun hall _ => hrest hall⟩

/-- An item that is read takes at least its line. -/
theorem progresses (item : IsLineItem p h) : Progresses p := by
  intro i rest b hb
  rcases firstItem_cases i with ⟨hs, _⟩ | ⟨u, r, t, hy, _, hr, hlt, _⟩ | ⟨hstuck, _⟩
  · exact absurd (item.fails_of_blank hs) hb.not_fails
  · cases hu : h u with
    | none => exact absurd (item.rejects hy hu) hb.not_fails
    | some b' =>
        obtain ⟨rfl, _⟩ := hb.unique (item.yields hy hu)
        have hi := skip_length_le i
        have ht := skip_length_le t
        rw [hr]
        omega
  · exact absurd (item.stuck hstuck) hb.not_fails

theorem foldMany0_yields {γ : Type} (item : IsLineItem p h) (init : γ) (g : γ → β → γ) (s : Str) :
    ∃ rest, Yields (foldMany0 p init g) s rest
      ((collectOk (readable h) (textItems s)).foldl g init) := by
  obtain ⟨rest, run, _⟩ := item.reads s
  exact ⟨rest, run.foldMany0 init g⟩

theorem many0_yields (item : IsLineItem p h) (s : Str) :
    ∃ rest, Yields (many0 p) s rest (collectOk (readable h) (textItems s)) := by
  obtain ⟨rest, run, _⟩ := item.reads s
  exact ⟨rest, run.many0⟩

theorem many1_yields (item : IsLineItem p h) {s : Str}
    (hne : collectOk (readable h) (textItems s) ≠ []) :
    ∃ rest, Yields (many1 p) s rest (collectOk (readable h) (textItems s)) ∧
      (AllRead h s → rest = []) := by
  obtain ⟨rest, run, hrest⟩ := item.reads s
  refine ⟨rest, run.many1 hne, fun hall => hrest hall (.inl ?_)⟩
  intro hnil
  exact hne (by rw [hnil]; rfl)

theorem many1_fails (item : IsLineItem p h) {s : Str}
    (hnil : collectOk (readable h) (textItems s) = []) : Fails (many1 p) s := by
  obtain ⟨rest, run, _⟩ := item.reads s
  rw [hnil] at run
  exact run.many1_fails

theorem many1_value? (item : IsLineItem p h) (s : Str) :
    (many1 p s).value? = if (collectOk (readable h) (textItems s)).isEmpty then none
      else some (collectOk (readable h) (textItems s)) := by
  by_cases hnil : collectOk (readable h) (textItems s) = []
  · rw [(item.many1_fails hnil).value?, hnil]
    rfl
  · obtain ⟨rest, hy, _⟩ := item.many1_yields hnil
    rw [hy.value?, List.isEmpty_eq_false_iff.mpr hnil]
    rfl

end IsLineItem

/-! ## Texts that are rendered line by line -/

structure ReadsLine (h : Str → Option β) (l : Str) (b : β) : Prop where
  body : LineBody l
  nonempty : skip l ≠ []
  reads : h (skip l) = some b

variable {γ : Type} {h : Str → Option β} {f : γ → Str} {k : γ → β} {xs : List γ}

theorem ReadsLine.readable {l : Str} {b : β} (hl : ReadsLine h l b) :
    Nom.readable h (skip l) = some b := by
  rw [readable_of_not_mem h hl.body.of_skip.not_mem_cr, hl.reads]

section

variable (hx : ∀ x ∈ xs, ReadsLine h (f x) (k x))

include hx

theorem textItems_rendered (s : Str) : textItems (unlines (xs.map f) ++ s) =
    xs.map (fun x => skip (f x)) ++ textItems s := by
  have hlines : ∀ l ∈ xs.map f, ∃ b, ReadsLine h l b := by
    intro l hl
    obtain ⟨x, hm, rfl⟩ := List.mem_map.mp hl
    exact ⟨k x, hx x hm⟩
  rw [textItems_unlines, nonblank_of_ne, List.map_map]
  · rfl
  · exact fun l hl => (hlines l hl).choose_spec.nonempty
  · exact fun l hl => (hlines l hl).choose_spec.body.not_mem_lf
  · exact fun l hl => (hlines l hl).choose_spec.body.not_mem_cr

/-- The rendered lines are read, and reading goes on into what follows. -/
theorem collectOk_rendered (s : Str) :
    collectOk (readable h) (textItems (unlines (xs.map f) ++ s)) =
      xs.map k ++ collectOk (readable h) (textItems s) := by
  rw [textItems_rendered hx]
  exact collectOk_map_append (fun x hm => (hx x hm).readable) _

theorem IsLineItem.reads_rendered {p : Parser β} (item : IsLineItem p h) :
    Reads p (unlines (xs.map f)) (xs.map k) [] := by
  obtain ⟨rest, run, hrest⟩ := item.reads (unlines (xs.map f))
  have hitems := textItems_rendered hx []
  have hread := collectOk_rendered hx []
  rw [List.append_nil, textItems_nil, List.append_nil] at hitems
  rw [List.append_nil, textItems_nil, collectOk, List.append_nil] at hread
  rw [hread] at run
  rwa [hrest] at run
  · intro u hu
    rw [hitems] at hu
    obtain ⟨x, hm, rfl⟩ := List.mem_map.mp hu
    rw [(hx x hm).readable]
    rfl
  · rw [hitems]
    cases xs with
    | nil => exact .inr rfl
    | cons x xs => exact .inl (List.cons_ne_nil _ _)

end

end Systemstat.Nom
