import Systemstat.Linux.Tokens
import Systemstat.Data

/-! # `/proc/stat`

The parser of the per-CPU lines, a rendering of the file as the kernel writes
it, and the round trip between the two. The parser keeps the six counters of a
line by position and drops the CPU number.
-/

namespace Systemstat.Linux

open Nom Text

/-- Parse `cpuX`, where X is a number. -/
def procStatCpuPrefix : Parser Unit := do
  let _ ← tag "cpu".toList
  let _ ← digit1
  return ()

def procStatCpuTime (w : Nat) : Parser (CpuTime w) :=
  preceded (ws procStatCpuPrefix) do
    let user ← usizeS w
    let nice ← usizeS w
    let system ← usizeS w
    let idle ← usizeS w
    let iowait ← usizeS w
    let irq ← usizeS w
    return { user, nice, system, idle, interrupt := irq, other := iowait }

def procStatCpuAggregate : Parser Unit := do
  let _ ← tag "cpu".toList
  let _ ← space1
  return ()

/-- The closure that the repetition applies to each line. -/
def procStatCpuLine (w : Nat) (line : Str) : Option (CpuTime w) :=
  (procStatCpuTime w line).value?

/-- Parse `/proc/stat` to extract per-CPU loads. The result of the aggregate
parser is passed on as a value and dropped. -/
def procStatCpuTimes (w : Nat) : Parser (List (CpuTime w)) :=
  preceded (map (ws notLineEnding) fun line => procStatCpuAggregate line)
    (many1 (mapRes (ws notLineEnding) (procStatCpuLine w)))

/-! ## The rendered file -/

/-- The line of one CPU: its number and at least six counters, each with the
number of spaces before it beyond the first. -/
structure CpuRecord (w : Nat) where
  cpu : Nat
  counters : List (Nat × BitVec w)
  six : 6 ≤ counters.length

namespace CpuRecord

variable {w : Nat}

def columns (r : CpuRecord w) : Str :=
  Linux.columns (r.counters.map fun c => (c.1, c.2.toNat))

def line (r : CpuRecord w) : Str := "cpu".toList ++ (decimal r.cpu ++ r.columns)

def counter (r : CpuRecord w) (k : Nat) : BitVec w := (r.counters.map Prod.snd).getD k 0#w

def cpuTime (r : CpuRecord w) : CpuTime w where
  user := r.counter 0
  nice := r.counter 1
  system := r.counter 2
  idle := r.counter 3
  other := r.counter 4
  interrupt := r.counter 5

end CpuRecord

/-- The file: the aggregate line, the CPU lines, and what comes after them. -/
structure ProcStat (w : Nat) where
  aggregate : Str
  aggregate_body : LineBody aggregate
  cpus : List (CpuRecord w)
  cpus_ne : cpus ≠ []
  tail : Str
  tail_cr : '\r' ∉ tail
  tail_ended : tail = [] ∨ tail.getLast? = some '\n'

namespace ProcStat

variable {w : Nat}

def aggregateLine (s : ProcStat w) : Str := "cpu  ".toList ++ s.aggregate

def body (s : ProcStat w) : Str := unlines (s.cpus.map CpuRecord.line) ++ s.tail

def render (s : ProcStat w) : Str := s.aggregateLine ++ '\n' :: s.body

end ProcStat

/-! ## One CPU line -/

variable {w : Nat}

theorem cpuRecord_line_cons (r : CpuRecord w) :
    r.line = 'c' :: ("pu".toList ++ (decimal r.cpu ++ r.columns)) := rfl

theorem skip_cpuRecord_line (r : CpuRecord w) : skip r.line = r.line :=
  skip_cons_of_not_multispace rfl _

theorem procStatCpuPrefix_yields (cpu : Nat) (cs : List (Nat × Nat)) :
    Yields (ws procStatCpuPrefix) ("cpu".toList ++ (decimal cpu ++ columns cs))
      (skip (columns cs)) () := by
  apply ws_yields
  have hskip : skip ("cpu".toList ++ (decimal cpu ++ columns cs)) =
      "cpu".toList ++ (decimal cpu ++ columns cs) := skip_cons_of_not_multispace rfl _
  rw [hskip]
  have hdigits : Yields digit1 (decimal cpu ++ columns cs) (columns cs) (decimal cpu) :=
    digit1_yields (decimal_isDigits cpu) (columns_head_not_digit _)
  exact (tag_yields "cpu".toList _).bind (hdigits.bind (.pure _ ()))

theorem procStatCpuTime_line (r : CpuRecord w) :
    ∃ rest, Yields (procStatCpuTime w) r.line rest r.cpuTime := by
  have hprefix := procStatCpuPrefix_yields r.cpu (r.counters.map fun c => (c.1, c.2.toNat))
  obtain ⟨cpu, counters, six⟩ := r
  match counters, six with
  | a :: b :: c :: d :: e :: f :: more, _ =>
      refine ⟨skip (columns (more.map fun c => (c.1, c.2.toNat))), hprefix.preceded ?_⟩
      exact (usizeS_column a.1 a.2 _ (skip_skip _)).bind <|
        (usizeS_column b.1 b.2 _ (skip_skip _)).bind <|
        (usizeS_column c.1 c.2 _ (skip_skip _)).bind <|
        (usizeS_column d.1 d.2 _ (skip_skip _)).bind <|
        (usizeS_column e.1 e.2 _ (skip_skip _)).bind <|
        (usizeS_column f.1 f.2 _ (skip_skip _)).bind (.pure _ _)

theorem cpuRecord_line_body (r : CpuRecord w) : LineBody r.line :=
  LineBody.append (by decide) ((decimal_body _).append (columns_body _))

/-- A line that does not begin with `cpu`, leading whitespace apart, is no CPU line. -/
theorem procStatCpuLine_none {u : Str} (h : ¬ "cpu".toList <+: skip u) :
    procStatCpuLine w u = none := by
  have hprefix : Fails procStatCpuPrefix (skip u) := (tag_fails h).bind _
  have hline : Fails (procStatCpuTime w) u := (ws_fails hprefix).bind _
  exact hline.value?

theorem procStatCpuLine_line (r : CpuRecord w) : procStatCpuLine w r.line = some r.cpuTime := by
  obtain ⟨rest, h⟩ := procStatCpuTime_line r
  exact h.value?

/-- A line of columns is read exactly when six of them are there and fit a word. -/
theorem readable_cpuLine_iff (w cpu : Nat) (cs : List (Nat × Nat)) :
    (readable (procStatCpuLine w) ("cpu".toList ++ (decimal cpu ++ columns cs))).isSome ↔
      ColumnsFit w 6 cs := by
  have hbody : LineBody ("cpu".toList ++ (decimal cpu ++ columns cs)) :=
    LineBody.append (by decide) ((decimal_body _).append (columns_body _))
  have hread : ReadsIff (procStatCpuTime w) ("cpu".toList ++ (decimal cpu ++ columns cs))
      (ColumnsFit w 6 cs) := by
    refine .bind (procStatCpuPrefix_yields cpu cs) ?_
    refine readsIff_column (skip_skip _) fun user cs => ?_
    refine readsIff_column (skip_skip _) fun nice cs => ?_
    refine readsIff_column (skip_skip _) fun system cs => ?_
    refine readsIff_column (skip_skip _) fun idle cs => ?_
    refine readsIff_column (skip_skip _) fun iowait cs => ?_
    refine readsIff_column (skip_skip _) fun irq cs => ?_
    exact .pure (columnsFit_zero w cs) _ _
  rw [readable_of_not_mem _ hbody.not_mem_cr]
  exact hread.isSome_value?_iff

theorem procStatCpuTimes_item (w : Nat) :
    IsLineItem (mapRes (ws notLineEnding) (procStatCpuLine w)) (procStatCpuLine w) :=
  ws_notLineEnding_isLineItem (procStatCpuLine_none (by decide))

/-! ## The whole file -/

/-- The CPU lines that are read from what follows the first line. -/
def cpuTimesOf (w : Nat) (body : Str) : List (CpuTime w) :=
  collectOk (readable (procStatCpuLine w)) (textItems body)

theorem procStatCpuTimes_first {s first : Str} {rest : List Str}
    (hitems : textItems s = first :: rest) (hcr : '\r' ∉ first) :
    ∃ t, textItems t = rest ∧
      Yields (map (ws notLineEnding) fun line => procStatCpuAggregate line) s (skip t)
        (procStatCpuAggregate first) := by
  rcases firstItem_cases s with ⟨_, hnil⟩ | ⟨u, r, t, hy, _, hr, _, hcons⟩ | ⟨_, m, ms, hm, hcons⟩
  · rw [hnil] at hitems
    cases hitems
  · rw [hcons] at hitems
    cases hitems
    refine ⟨t, rfl, ?_⟩
    rw [← hr]
    exact (ws_yields hy).map _
  · rw [hcons] at hitems
    cases hitems
    exact absurd hm hcr

/-- Behind the first line the lines are collected, up to the first that is no CPU line. -/
theorem procStatCpuTimes_yields {s first : Str} {rest : List Str}
    (hitems : textItems s = first :: rest) (hcr : '\r' ∉ first)
    (hne : collectOk (readable (procStatCpuLine w)) rest ≠ []) :
    ∃ r, Yields (procStatCpuTimes w) s r (collectOk (readable (procStatCpuLine w)) rest) := by
  obtain ⟨t, rfl, hfirst⟩ := procStatCpuTimes_first hitems hcr
  rw [← textItems_skip] at hne ⊢
  obtain ⟨r, hmany, _⟩ := (procStatCpuTimes_item w).many1_yields hne
  exact ⟨r, hfirst.preceded hmany⟩

/-- Without a CPU line right behind a first line that can be taken there is no result. -/
theorem procStatCpuTimes_fails {s : Str} (h : ∀ first rest, textItems s = first :: rest →
    '\r' ∈ first ∨ collectOk (readable (procStatCpuLine w)) rest = []) :
    Fails (procStatCpuTimes w) s := by
  have hmany : ∀ {r t}, skip r = skip t →
      collectOk (readable (procStatCpuLine w)) (textItems t) = [] →
      Fails (many1 (mapRes (ws notLineEnding) (procStatCpuLine w))) (skip r) := by
    intro r t hr hnil
    apply (procStatCpuTimes_item w).many1_fails
    rw [hr, textItems_skip, hnil]
  rcases firstItem_cases s with ⟨hs, _⟩ | ⟨u, r, t, hy, hu, hr, _, hitems⟩ | ⟨hstuck, _⟩
  · have hy : Yields notLineEnding (skip s) [] [] := by
      rw [hs]
      exact notLineEnding_end (by decide)
    exact ((ws_yields hy).map _).bind_fails (hmany (t := []) rfl rfl)
  · exact ((ws_yields hy).map _).bind_fails (hmany hr ((h u _ hitems).resolve_left hu))
  · exact ((ws_fails hstuck).map _).bind _

theorem cpuRecord_readsLine (r : CpuRecord w) :
    ReadsLine (procStatCpuLine w) r.line r.cpuTime where
  body := cpuRecord_line_body r
  nonempty := by
    rw [skip_cpuRecord_line, cpuRecord_line_cons]
    exact List.cons_ne_nil _ _
  reads := by rw [skip_cpuRecord_line, procStatCpuLine_line]

/-- The rendered CPU lines are read in order, and reading goes on into the tail. -/
theorem cpuTimesOf_body (s : ProcStat w) :
    cpuTimesOf w s.body = s.cpus.map CpuRecord.cpuTime ++ cpuTimesOf w s.tail :=
  collectOk_rendered (fun r _ => cpuRecord_readsLine r) s.tail

/-- A tail whose first non-blank line is no CPU line contributes nothing. -/
theorem cpuTimesOf_tail {tail : Str} (hcr : '\r' ∉ tail)
    (h : ∀ l ∈ firstNonBlank tail, ¬ "cpu".toList <+: skip l) :
    cpuTimesOf w tail = [] := by
  have hdrop := dropCr_of_not_mem hcr
  have hitems := textItems_of_not_mem_cr (hdrop.symm ▸ hcr)
  rw [hdrop] at hitems
  rw [cpuTimesOf, hitems]
  cases hlines : (lines tail).filter fun l => !isBlank l with
  | nil => rfl
  | cons l ls =>
      have hfirst : firstNonBlank tail = some l := by
        rw [firstNonBlank, ← List.head?_filter, hlines, List.head?_cons]
      apply collectOk_cons_none
      have hnone := procStatCpuLine_none (w := w) (u := skip l)
        (by rw [skip_skip]; exact h l (hfirst ▸ rfl))
      by_cases hm : '\r' ∈ skip l
      · exact readable_of_mem _ hm
      · rw [readable_of_not_mem _ hm, hnone]

/-- The rendered file is read line by line, whatever its tail. -/
theorem procStatCpuTimes_file (s : ProcStat w) : ∃ rest,
    Yields (procStatCpuTimes w) s.render rest
      (s.cpus.map CpuRecord.cpuTime ++ cpuTimesOf w s.tail) := by
  have haggregate : LineBody s.aggregateLine := LineBody.append (by decide) s.aggregate_body
  have hitems : textItems s.render = s.aggregateLine :: textItems s.body :=
    textItems_line_lf rfl haggregate s.body
  have hbody := cpuTimesOf_body s
  have hne : cpuTimesOf w s.body ≠ [] := by
    rw [hbody]
    exact List.append_ne_nil_of_left_ne_nil (by simpa using s.cpus_ne) _
  rw [← hbody]
  exact procStatCpuTimes_yields hitems haggregate.not_mem_cr hne

/-- Round trip: the counters of every CPU line, in order, and nothing else. The
first non-blank line of the tail may not begin with `cpu` once its leading
blanks are skipped, as the parser skips them. -/
theorem procStatCpuTimes_render (s : ProcStat w)
    (h : ∀ l ∈ firstNonBlank s.tail, ¬ "cpu".toList <+: skip l) :
    ∃ rest, Yields (procStatCpuTimes w) s.render rest (s.cpus.map CpuRecord.cpuTime) := by
  obtain ⟨rest, hy⟩ := procStatCpuTimes_file s
  rw [cpuTimesOf_tail s.tail_cr h, List.append_nil] at hy
  exact ⟨rest, hy⟩

/-- A file with two CPU lines, one of them longer, and a given tail. -/
def twoCpuStat (tail : Str) (hcr : '\r' ∉ tail)
    (hended : tail = [] ∨ tail.getLast? = some '\n') : ProcStat 64 where
  aggregate := "110 2 3 140 5 6 7 0 0 0".toList
  aggregate_body := by decide
  cpus := [⟨0, [(0, 10), (0, 2), (1, 3), (0, 40), (0, 5), (0, 6), (0, 7)], by decide⟩,
    ⟨11, [(2, 100), (0, 0), (0, 0), (0, 100), (0, 0), (0, 0), (0, 0), (0, 8), (0, 9)], by decide⟩]
  cpus_ne := List.cons_ne_nil _ _
  tail := tail
  tail_cr := hcr
  tail_ended := hended

theorem procStatCpuTimes_render_intr : ∃ rest,
    Yields (procStatCpuTimes 64) (twoCpuStat "intr 9\n".toList (by decide) (by decide)).render rest
      [⟨10, 2, 3, 6, 40, 5⟩, ⟨100, 0, 0, 0, 100, 0⟩] :=
  procStatCpuTimes_render (twoCpuStat "intr 9\n".toList (by decide) (by decide)) (by decide)

/-- An indented line of the tail does not begin with `cpu`, and is still read as a CPU line. -/
theorem procStatCpuTimes_indented_tail :
    ¬ ∀ s : ProcStat 64, (∀ l ∈ firstNonBlank s.tail, ¬ "cpu".toList <+: l) →
      ∃ rest, Yields (procStatCpuTimes 64) s.render rest (s.cpus.map CpuRecord.cpuTime) := by
  intro h
  obtain ⟨rest, hy⟩ := h
    (twoCpuStat "  cpu9 1 2 3 4 5 6\n".toList (by decide) (by decide)) (by decide)
  have hval := hy.value?
  revert hval
  decide

end Systemstat.Linux
