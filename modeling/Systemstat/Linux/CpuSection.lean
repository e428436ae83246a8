import Systemstat.Linux.CpuLoad

/-! # The CPU section of `/proc/stat`

What `proc_stat_cpu_times` makes of an arbitrary text. The first non-blank line is
dropped whatever it says: the aggregate parser is mapped over it, and what it
returns is never looked at. The lines behind it are collected up to the first one
that is no readable CPU line, which ends the section without an error.
-/

namespace Systemstat.Linux

open Nom Text

variable {w : Nat} {s : Str}

def isCpuLine : Str → Bool
  | 'c' :: 'p' :: 'u' :: d :: _ => d.isDigit
  | _ => false

def cpuLines (s : Str) : List Str := (textItems s).filter isCpuLine

/-- Nothing is returned for the text: it has no line, its first one cannot be taken,
or no readable CPU line comes directly behind it. -/
def Refused (w : Nat) (s : Str) : Prop :=
  ∀ first rest, textItems s = first :: rest →
    '\r' ∈ first ∨ ∀ u ∈ rest.head?, readable (procStatCpuLine w) u = none

/-! ## CPU lines -/

theorem procStatCpuPrefix_fails {u : Str} (h : isCpuLine u = false) :
    Fails procStatCpuPrefix u := by
  by_cases hcpu : "cpu".toList <+: u
  · obtain ⟨t, rfl⟩ := hcpu
    have hdigits : t.takeWhile Char.isDigit = [] := by
      cases t with
      | nil => rfl
      | cons d t =>
          have hd : d.isDigit = false := h
          simp [hd]
    have hnumber : Fails digit1 t := takeWhile1_fails hdigits
    exact (tag_yields "cpu".toList t).bind_fails (hnumber.bind _)
  · exact (tag_fails hcpu).bind _

/-- Only a line that begins with `cpu` and a digit is ever read. -/
theorem isCpuLine_of_readable {u : Str} (hu : u ∈ textItems s)
    (h : (readable (procStatCpuLine w) u).isSome) : isCpuLine u = true := by
  obtain ⟨_, l, _, rfl⟩ := mem_nonblank.mp hu
  by_contra hcpu
  have hprefix : Fails procStatCpuPrefix (skip (skip l)) := by
    rw [skip_skip]
    exact procStatCpuPrefix_fails (Bool.eq_false_iff.mpr hcpu)
  have hline : Fails (procStatCpuTime w) (skip l) := (ws_fails hprefix).bind _
  have hnone : readable (procStatCpuLine w) (skip l) = none := by
    have hread : procStatCpuLine w (skip l) = none := hline.value?
    rw [readable, hread, ite_self]
  rw [hnone] at h
  cases h

/-! ## Every text -/

theorem fails_of_refused (h : Refused w s) : Fails (procStatCpuTimes w) s :=
  procStatCpuTimes_fails fun first rest hitems =>
    (h first rest hitems).imp_right collectOk_eq_nil_iff.mpr

/-- A text is refused, or its first line is taken and those behind it are collected. -/
theorem procStatCpuTimes_outcome (w : Nat) (s : Str) : Refused w s ∨
    ∃ first rest r, textItems s = first :: rest ∧
      Yields (procStatCpuTimes w) s r (collectOk (readable (procStatCpuLine w)) rest) := by
  by_cases h : Refused w s
  · exact .inl h
  · unfold Refused at h
    push Not at h
    obtain ⟨first, rest, hitems, hcr, u, hu, hsome⟩ := h
    have hne : collectOk (readable (procStatCpuLine w)) rest ≠ [] :=
      fun hnil => hsome (collectOk_eq_nil_iff.mp hnil u hu)
    obtain ⟨r, hy⟩ := procStatCpuTimes_yields hitems hcr hne
    exact .inr ⟨first, rest, r, hitems, hy⟩

theorem cpuTime_of_fails (h : Fails (procStatCpuTimes w) s) {files : Files}
    (hread : readFile files "/proc/stat" = .ok s) : ∃ e, cpuTime w files = .error e := by
  obtain ⟨e, he⟩ := h.error
  exact ⟨.invalidData e, by simp only [cpuTime, hread, bind, Except.bind, he, parsed]⟩

theorem cpuLoad_of_error {files : Files} {e : IoError} (h : cpuTime w files = .error e) :
    cpuLoad w files = .error e := by
  rw [cpuLoad, h]
  rfl

/-! ## The aggregate line -/

/-- The first non-blank line is one that `proc_stat_cpu_aggregate` accepts. -/
def aggregateFirst (s : Str) : Bool :=
  (textItems s).head?.any fun first => (procStatCpuAggregate first).value?.isSome

/-- Only a text that begins with the aggregate line is accepted; any other is an error. -/
def AggregateChecked (w : Nat) (s : Str) : Prop :=
  ((∃ rest times, Yields (procStatCpuTimes w) s rest times) → aggregateFirst s = true) ∧
    (aggregateFirst s = false → ∃ e, procStatCpuTimes w s = .error e)

/-- The first line counts as checked only where the text is refused for another reason. -/
theorem aggregateChecked_iff (w : Nat) (s : Str) :
    AggregateChecked w s ↔ (aggregateFirst s = true ∨ Refused w s) := by
  constructor
  · intro h
    rcases procStatCpuTimes_outcome w s with href | ⟨_, _, r, _, hy⟩
    · exact .inr href
    · exact .inl (h.1 ⟨r, _, hy⟩)
  · intro h
    refine ⟨fun hok => ?_, fun hnot => ?_⟩
    · obtain ⟨rest, times, hy⟩ := hok
      exact h.resolve_right fun href => hy.not_fails (fails_of_refused href)
    · rw [hnot] at h
      exact (fails_of_refused (h.resolve_left Bool.false_ne_true)).error

/-- Without an aggregate line the first CPU is taken for it. -/
theorem aggregateChecked_first_cpu : ¬ ∀ (w : Nat) (s : Str), AggregateChecked w s := by
  intro h
  let text := "cpu0 1 2 3 4 5 6\ncpu1 1 2 3 4 5 6\n".toList
  have hvalue : (procStatCpuTimes 64 text).value? = some [⟨1, 2, 3, 6, 4, 5⟩] := by decide
  obtain ⟨rest, hy⟩ := exists_yields_of_value? hvalue
  have hfirst := (h 64 text).1 ⟨rest, _, hy⟩
  revert hfirst
  decide

/-! ## Lost CPUs -/

/-- Every CPU line has an entry, and one that cannot be read is an error. -/
def CpusComplete (w : Nat) (s : Str) : Prop :=
  (∀ rest times, Yields (procStatCpuTimes w) s rest times →
    times.length = (cpuLines s).length) ∧
  ((∃ u ∈ cpuLines s, readable (procStatCpuLine w) u = none) →
    (∃ e, procStatCpuTimes w s = .error e) ∧
    ∀ files : Files, readFile files "/proc/stat" = .ok s → ∃ e, cpuLoad w files = .error e)

/-- The text is a line, then CPU lines that can all be read, then lines that are no
CPU lines. -/
def CpuSection (w : Nat) (s : Str) : Prop :=
  ∃ first cpus others, textItems s = first :: (cpus ++ others) ∧ isCpuLine first = false ∧
    (∀ u ∈ cpus, (readable (procStatCpuLine w) u).isSome) ∧ ∀ u ∈ others, isCpuLine u = false

theorem cpuLines_of_items {first : Str} {cpus others : List Str}
    (hitems : textItems s = first :: (cpus ++ others))
    (hcpus : ∀ u ∈ cpus, (readable (procStatCpuLine w) u).isSome) :
    cpuLines s = [first].filter isCpuLine ++ (cpus ++ others.filter isCpuLine) := by
  have hfilter : cpus.filter isCpuLine = cpus := by
    rw [List.filter_eq_self]
    exact fun u hu => isCpuLine_of_readable (s := s) (by simp [hitems, hu]) (hcpus u hu)
  rw [cpuLines, hitems, ← List.singleton_append, List.filter_append, List.filter_append, hfilter]

theorem not_readable_of_not_isCpuLine {u : Str} (hu : u ∈ textItems s)
    (h : isCpuLine u = false) : readable (procStatCpuLine w) u = none := by
  cases hread : readable (procStatCpuLine w) u with
  | none => rfl
  | some t =>
      rw [isCpuLine_of_readable (w := w) hu (by rw [hread]; rfl)] at h
      cases h

/-- A section is collected whole, and it holds every CPU line. -/
theorem collectOk_cpuSection {first : Str} {cpus others : List Str}
    (hitems : textItems s = first :: (cpus ++ others)) (hfirst : isCpuLine first = false)
    (hcpus : ∀ u ∈ cpus, (readable (procStatCpuLine w) u).isSome)
    (hothers : ∀ u ∈ others, isCpuLine u = false) :
    (collectOk (readable (procStatCpuLine w)) (cpus ++ others)).length = (cpuLines s).length := by
  have hnone : collectOk (readable (procStatCpuLine w)) others = [] := by
    apply collectOk_eq_nil_iff.mpr
    intro u hu
    have hm : u ∈ others := List.mem_of_mem_head? hu
    exact not_readable_of_not_isCpuLine (s := s) (by simp [hitems, hm]) (hothers u hm)
  have hfilter : others.filter isCpuLine = [] := by
    simpa [List.filter_eq_nil_iff] using hothers
  rw [collectOk_append_of_isSome hcpus, hnone, List.append_nil,
    (collectOk_length_eq_iff _ _).mpr hcpus, cpuLines_of_items hitems hcpus, hfilter]
  simp [hfirst]

/-- No CPU is lost exactly when the text is refused or its CPU lines stand together,
can all be read, and come behind a line that is no CPU line. -/
theorem cpusComplete_iff (w : Nat) (s : Str) :
    CpusComplete w s ↔ (Refused w s ∨ CpuSection w s) := by
  constructor
  · intro h
    rcases procStatCpuTimes_outcome w s with href | ⟨first, rest, r, hitems, hy⟩
    · exact .inl href
    · have hlength := h.1 r _ hy
      have hsplit := List.takeWhile_append_dropWhile
        (p := fun u => (readable (procStatCpuLine w) u).isSome) (l := rest)
      have hcpus : ∀ u ∈ rest.takeWhile fun u => (readable (procStatCpuLine w) u).isSome,
          (readable (procStatCpuLine w) u).isSome := fun _ hu =>
        List.mem_takeWhile_imp (p := fun u => (readable (procStatCpuLine w) u).isSome) hu
      rw [← hsplit] at hitems
      rw [collectOk_length, cpuLines_of_items hitems hcpus] at hlength
      simp only [List.length_append] at hlength
      refine .inr ⟨first, _, _, hitems, ?_, hcpus, ?_⟩
      · have hnil : [first].filter isCpuLine = [] := List.length_eq_zero_iff.mp (by omega)
        simpa using hnil
      · have hnil : (rest.dropWhile fun u =>
            (readable (procStatCpuLine w) u).isSome).filter isCpuLine = [] :=
          List.length_eq_zero_iff.mp (by omega)
        simpa [List.filter_eq_nil_iff] using hnil
  · intro h
    refine ⟨fun r times hy => ?_, fun hlost => ?_⟩
    · have hok : ¬ Refused w s := fun href => hy.not_fails (fails_of_refused href)
      obtain ⟨first, cpus, others, hitems, hfirst, hcpus, hothers⟩ := h.resolve_left hok
      obtain ⟨_, _, _, hitems', hy'⟩ := (procStatCpuTimes_outcome w s).resolve_left hok
      rw [hitems] at hitems'
      cases hitems'
      rw [(hy.unique hy').2]
      exact collectOk_cpuSection hitems hfirst hcpus hothers
    · have href : Refused w s := by
        refine h.resolve_right fun hsection => ?_
        obtain ⟨first, cpus, others, hitems, hfirst, hcpus, hothers⟩ := hsection
        obtain ⟨u, hu, hnone⟩ := hlost
        rw [cpuLines_of_items hitems hcpus] at hu
        simp only [List.mem_append, List.mem_filter, List.mem_singleton] at hu
        rcases hu with ⟨rfl, hcpu⟩ | hm | ⟨hm, hcpu⟩
        · rw [hfirst] at hcpu
          cases hcpu
        · have hsome := hcpus u hm
          rw [hnone] at hsome
          cases hsome
        · rw [hothers u hm] at hcpu
          cases hcpu
      have hf : Fails (procStatCpuTimes w) s := fails_of_refused href
      refine ⟨hf.error, fun files hread => ?_⟩
      obtain ⟨e, he⟩ := cpuTime_of_fails hf hread
      exact ⟨e, cpuLoad_of_error he⟩

end Systemstat.Linux
