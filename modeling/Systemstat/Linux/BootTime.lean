import Systemstat.Linux.CpuLoad
import Systemstat.Text.Integers
import Systemstat.Time.Instant

/-! # The boot time

`/proc/stat` has two readers. `cpu_load` parses the lines at its beginning, and
`boot_time` looks through all of them for the one that begins with `btime`. A file as
the kernel writes it has what both look for.
-/

namespace Systemstat.Linux

open Nom Text

variable {w : Nat}

/-- `str::lines`, where the end of the last line may be missing. -/
def strLines (data : Str) : List Str :=
  let ls := lines (dropCr data)
  if ls.getLast? = some [] then ls.dropLast else ls

/-- All but an error of `read_file` are of the kind `InvalidData`. -/
inductive BootTimeError
  | file (err : IoError)
  | notFound (message : String)
  | parseInt
  | componentRange
  deriving DecidableEq

def bootTime (files : Files) : Except BootTimeError OffsetDateTime := do
  let data ← (readFile files "/proc/stat").mapError .file
  match (strLines data).find? fun line => "btime ".toList.isPrefixOf line with
  | none => .error (.notFound "Could not find btime in /proc/stat")
  | some line =>
      -- The prefix is there, so `expect` does not panic.
      let timestampStr := line.drop "btime ".length
      match signedFromStr 64 timestampStr with
      | none => .error .parseInt
      | some timestamp =>
          match OffsetDateTime.fromUnixTimestamp timestamp with
          | none => .error .componentRange
          | some t => .ok t

/-! ## Every text -/

/-- The first line of the text that begins with `btime` ends in `stamp`. -/
def FirstBtime (data stamp : Str) : Prop :=
  ∃ before after, strLines data = before ++ ("btime ".toList ++ stamp) :: after ∧
    ∀ l ∈ before, ¬ "btime ".toList <+: l

theorem find?_of_firstBtime {data stamp : Str} (h : FirstBtime data stamp) :
    ((strLines data).find? fun line => "btime ".toList.isPrefixOf line) =
      some ("btime ".toList ++ stamp) := by
  obtain ⟨before, after, hlines, hbefore⟩ := h
  rw [hlines, List.find?_eq_some_iff_append]
  refine ⟨List.isPrefixOf_iff_prefix.mpr (List.prefix_append _ _), before, after, rfl, ?_⟩
  intro l hl
  have hnot := hbefore l hl
  rwa [← List.isPrefixOf_iff_prefix, Bool.not_eq_true, ← Bool.not_eq_true'] at hnot

theorem firstBtime_of_find? {data line : Str}
    (h : ((strLines data).find? fun line => "btime ".toList.isPrefixOf line) = some line) :
    ∃ stamp, line = "btime ".toList ++ stamp ∧ FirstBtime data stamp := by
  obtain ⟨hstarts, before, after, hlines, hbefore⟩ := List.find?_eq_some_iff_append.mp h
  obtain ⟨stamp, rfl⟩ := List.isPrefixOf_iff_prefix.mp hstarts
  refine ⟨stamp, rfl, before, after, hlines, fun l hl hbtime => ?_⟩
  have hnot := hbefore l hl
  rw [List.isPrefixOf_iff_prefix.mpr hbtime] at hnot
  cases hnot

/-- What is made of the number behind `btime`. -/
theorem bootTime_of_firstBtime {files : Files} {data stamp : Str}
    (hread : readFile files "/proc/stat" = .ok data) (h : FirstBtime data stamp) :
    bootTime files = match signedFromStr 64 stamp with
      | none => .error .parseInt
      | some timestamp =>
          match OffsetDateTime.fromUnixTimestamp timestamp with
          | none => .error .componentRange
          | some t => .ok t := by
  have hdrop : ("btime ".toList ++ stamp).drop "btime ".length = stamp := rfl
  simp only [bootTime, hread, Except.mapError, bind, Except.bind, find?_of_firstBtime h, hdrop]

theorem bootTime_of_missing {files : Files} {data : Str}
    (hread : readFile files "/proc/stat" = .ok data) (h : ∀ stamp, ¬ FirstBtime data stamp) :
    bootTime files = .error (.notFound "Could not find btime in /proc/stat") := by
  cases hfind : (strLines data).find? fun line => "btime ".toList.isPrefixOf line with
  | none => simp only [bootTime, hread, Except.mapError, bind, Except.bind, hfind]
  | some line =>
      obtain ⟨stamp, -, hstamp⟩ := firstBtime_of_find? hfind
      exact absurd hstamp (h stamp)

theorem fromUnixTimestamp_eq_some_iff {timestamp : BitVec 64} {t : OffsetDateTime} :
    OffsetDateTime.fromUnixTimestamp timestamp = some t ↔
      t.unixTimestampNanos = timestamp.toInt * nanosPerSec := by
  have hlow := t.low
  have hhigh := t.high
  simp only [minTimestamp, maxTimestamp, nanosPerSec] at hlow hhigh ⊢
  constructor
  · intro h
    unfold OffsetDateTime.fromUnixTimestamp at h
    split at h
    · cases h
      rfl
    · cases h
  · intro h
    obtain ⟨u, hu, hnanos⟩ := OffsetDateTime.fromUnixTimestamp_of_mem timestamp
      (by simp only [minTimestamp]; omega) (by simp only [maxTimestamp]; omega)
    rw [hu, Option.some.injEq]
    cases t
    cases u
    simp only [OffsetDateTime.mk.injEq, nanosPerSec] at hnanos h ⊢
    omega

/-- The time at `v` seconds is the result of a number exactly where it writes `v`. -/
theorem bootTime_eq_ok_iff_of_firstBtime {files : Files} {data stamp : Str}
    (hread : readFile files "/proc/stat" = .ok data) (h : FirstBtime data stamp)
    (t : OffsetDateTime) : bootTime files = .ok t ↔
      ∃ v, WritesInt stamp v ∧ t.unixTimestampNanos = v * nanosPerSec := by
  rw [bootTime_of_firstBtime hread h]
  constructor
  · intro hok
    cases hparse : signedFromStr 64 stamp with
    | none =>
        rw [hparse] at hok
        cases hok
    | some timestamp =>
        rw [hparse] at hok
        cases htime : OffsetDateTime.fromUnixTimestamp timestamp with
        | none =>
            simp only [htime] at hok
            cases hok
        | some u =>
            simp only [htime, Except.ok.injEq] at hok
            rw [hok] at htime
            exact ⟨_, (signedFromStr_eq_some_iff (by decide)).mp hparse,
              fromUnixTimestamp_eq_some_iff.mp htime⟩
  · rintro ⟨v, hv, ht⟩
    -- An instant of the type has a number of seconds that fits 64 bits.
    have hself : (BitVec.ofInt 64 v).toInt = v := by
      have hlow := t.low
      have hhigh := t.high
      simp only [minTimestamp, maxTimestamp, nanosPerSec] at hlow hhigh ht
      exact BitVec.toInt_ofInt_eq_self (by decide) (by omega) (by omega)
    have hparse : signedFromStr 64 stamp = some (BitVec.ofInt 64 v) :=
      (signedFromStr_eq_some_iff (by decide)).mpr (by rwa [hself])
    have htime : OffsetDateTime.fromUnixTimestamp (BitVec.ofInt 64 v) = some t :=
      fromUnixTimestamp_eq_some_iff.mpr (by rwa [hself])
    simp only [hparse, htime]

/-- A boot time comes of a text exactly where its first `btime` line writes a number of
seconds that the instants reach, and it is that number of seconds. -/
theorem bootTime_eq_ok_iff {files : Files} {data : Str}
    (hread : readFile files "/proc/stat" = .ok data) (t : OffsetDateTime) :
    bootTime files = .ok t ↔ ∃ stamp v, FirstBtime data stamp ∧ WritesInt stamp v ∧
      t.unixTimestampNanos = v * nanosPerSec := by
  by_cases h : ∃ stamp, FirstBtime data stamp
  · obtain ⟨stamp, hstamp⟩ := h
    rw [bootTime_eq_ok_iff_of_firstBtime hread hstamp]
    constructor
    · rintro ⟨v, hv, ht⟩
      exact ⟨stamp, v, hstamp, hv, ht⟩
    · rintro ⟨stamp', v, hstamp', hv, ht⟩
      have hsame := find?_of_firstBtime hstamp
      rw [find?_of_firstBtime hstamp', Option.some.injEq, List.append_cancel_left_eq] at hsame
      exact ⟨v, hsame ▸ hv, ht⟩
  · rw [bootTime_of_missing hread fun stamp hstamp => h ⟨stamp, hstamp⟩]
    constructor
    · intro hok
      cases hok
    · rintro ⟨stamp, v, hstamp, _, _⟩
      exact absurd ⟨stamp, hstamp⟩ h

/-- A line that ends like one of another system, and a number with its sign. -/
theorem bootTime_eq_ok_iff_plus :
    bootTime (fun _ => .ok "ctxt 9\r\nbtime +5\r\nbtime 7\n".toList) =
      .ok ⟨5000000000, by decide, by decide⟩ :=
  (bootTime_eq_ok_iff rfl _).mpr
    ⟨"+5".toList, 5, ⟨["ctxt 9".toList], ["btime 7".toList], by decide, by decide⟩,
      .inl ⟨5, ⟨"5".toList, ⟨by decide, by simp⟩, .inr rfl, by decide⟩, rfl⟩, by decide⟩

/-! ## The file of the kernel -/

theorem lines_unlines_end {ls : List Str} (hn : ∀ l ∈ ls, '\n' ∉ l) :
    lines (unlines ls) = ls ++ [[]] := by
  have hnil : lines [] = [[]] := lines_of_not_mem (by simp)
  have h := lines_unlines hn []
  rwa [List.append_nil, hnil] at h

theorem getLast?_unlines {ls : List Str} (h : ls ≠ []) : (unlines ls).getLast? = some '\n' := by
  obtain ⟨ms, m, rfl⟩ := (List.eq_nil_or_concat ls).resolve_left h
  rw [unlines, List.concat_eq_append, List.flatMap_append, List.getLast?_append_of_ne_nil]
  · simp
  · simp

theorem strLines_unlines {ls : List Str} (hn : ∀ l ∈ ls, '\n' ∉ l) (hr : ∀ l ∈ ls, '\r' ∉ l) :
    strLines (unlines ls) = ls := by
  have hcr : '\r' ∉ unlines ls := by
    simp only [unlines, List.mem_flatMap, List.mem_append, List.mem_singleton, not_exists,
      not_and, not_or]
    exact fun l hl => ⟨hr l hl, by decide⟩
  simp [strLines, dropCr_of_not_mem hcr, lines_unlines_end hn]

/-- What the kernel writes: the CPU lines at the beginning, and the boot time among the
lines behind them, of which neither reader knows another one. -/
structure KernelStat (w : Nat) where
  aggregate : Str
  aggregate_body : LineBody aggregate
  cpus : List (CpuRecord w)
  cpus_ne : cpus ≠ []
  before : List Str
  btime : Nat
  after : List Str
  body : ∀ l ∈ before ++ after, LineBody l
  not_cpu : ∀ l ∈ before ++ after, ¬ "cpu".toList <+: skip l
  not_btime : ∀ l ∈ before ++ after, ¬ "btime ".toList <+: l

namespace KernelStat

def btimeLine (s : KernelStat w) : Str := "btime ".toList ++ decimal s.btime

def tailLines (s : KernelStat w) : List Str := s.before ++ s.btimeLine :: s.after

theorem mem_tailLines {s : KernelStat w} {l : Str} (h : l ∈ s.tailLines) :
    l = s.btimeLine ∨ l ∈ s.before ++ s.after := by
  simp only [tailLines, List.mem_append, List.mem_cons] at h ⊢
  tauto

theorem tailLines_body {s : KernelStat w} {l : Str} (h : l ∈ s.tailLines) : LineBody l := by
  rcases mem_tailLines h with rfl | hother
  · exact LineBody.append (by decide) (decimal_body s.btime)
  · exact s.body l hother

theorem tailLines_not_cpu {s : KernelStat w} {l : Str} (h : l ∈ s.tailLines) :
    ¬ "cpu".toList <+: skip l := by
  rcases mem_tailLines h with rfl | hother
  · have hskip : skip s.btimeLine = s.btimeLine := skip_cons_of_not_multispace rfl _
    rw [hskip]
    intro hcpu
    cases (List.cons_prefix_cons.mp hcpu).1
  · exact s.not_cpu l hother

def toProcStat (s : KernelStat w) : ProcStat w where
  aggregate := s.aggregate
  aggregate_body := s.aggregate_body
  cpus := s.cpus
  cpus_ne := s.cpus_ne
  tail := unlines s.tailLines
  tail_cr := by
    simp only [unlines, List.mem_flatMap, List.mem_append, List.mem_singleton, not_exists,
      not_and, not_or]
    exact fun l hl => ⟨(tailLines_body hl).not_mem_cr, by decide⟩
  tail_ended := .inr (getLast?_unlines (by simp [tailLines]))

def render (s : KernelStat w) : Str := s.toProcStat.render

def head (s : KernelStat w) : List Str :=
  s.toProcStat.aggregateLine :: (s.cpus.map CpuRecord.line ++ s.before)

theorem render_eq (s : KernelStat w) :
    s.render = unlines (s.head ++ s.btimeLine :: s.after) := by
  simp [render, ProcStat.render, ProcStat.body, toProcStat, head, tailLines, unlines]

theorem head_spec {s : KernelStat w} {l : Str} (h : l ∈ s.head) :
    LineBody l ∧ ¬ "btime ".toList <+: l := by
  have hc : ∀ t : Str, ¬ "btime ".toList <+: 'c' :: t := fun t hp => by
    cases (List.cons_prefix_cons.mp hp).1
  simp only [head, List.mem_cons, List.mem_append, List.mem_map] at h
  rcases h with rfl | ⟨r, _, rfl⟩ | hl
  · exact ⟨LineBody.append (by decide) s.aggregate_body, hc _⟩
  · exact ⟨cpuRecord_line_body r, hc _⟩
  · exact ⟨s.body l (by simp [hl]), s.not_btime l (by simp [hl])⟩

theorem firstBtime (s : KernelStat w) : FirstBtime s.render (decimal s.btime) := by
  have hbody : ∀ l ∈ s.head ++ s.btimeLine :: s.after, LineBody l := by
    intro l hl
    rw [List.mem_append, List.mem_cons] at hl
    rcases hl with hl | rfl | hl
    · exact (head_spec hl).1
    · exact tailLines_body (s := s) (by simp [tailLines])
    · exact s.body l (by simp [hl])
  refine ⟨s.head, s.after, ?_, fun l hl => (head_spec hl).2⟩
  rw [render_eq]
  exact strLines_unlines (fun l hl => (hbody l hl).not_mem_lf) fun l hl => (hbody l hl).not_mem_cr

theorem cpuTimesOf_tailLines (s : KernelStat w) : cpuTimesOf w (unlines s.tailLines) = [] := by
  apply cpuTimesOf_tail s.toProcStat.tail_cr
  intro l hl
  have hmem : l ∈ lines (unlines s.tailLines) := List.mem_of_find?_eq_some hl
  rw [lines_unlines_end fun l hl => (tailLines_body hl).not_mem_lf, List.mem_append,
    List.mem_singleton] at hmem
  rcases hmem with hmem | rfl
  · exact tailLines_not_cpu hmem
  · decide

end KernelStat

theorem bootTime_render (s : KernelStat w) {files : Files}
    (hread : readFile files "/proc/stat" = .ok s.render) (hle : (s.btime : Int) ≤ maxTimestamp) :
    ∃ t, bootTime files = .ok t ∧ t.unixTimestampNanos = s.btime * nanosPerSec := by
  let t : OffsetDateTime :=
    { unixTimestampNanos := s.btime * nanosPerSec
      low := by simp only [minTimestamp, nanosPerSec]; omega
      high := by simp only [maxTimestamp, nanosPerSec] at hle ⊢; omega }
  have hboot := bootTime_eq_ok_iff_of_firstBtime hread s.firstBtime t
  exact ⟨t, hboot.mpr ⟨s.btime, decimal_writesInt s.btime, rfl⟩, rfl⟩

/-- Both readers find in one file what the kernel has written for them: the CPUs, each
with its counters, and the boot time, which is an error where no instant is so late. -/
theorem kernelStat_readers (s : KernelStat w) {files : Files}
    (hread : readFile files "/proc/stat" = .ok s.render) :
    cpuTime w files = .ok (s.cpus.map CpuRecord.cpuTime) ∧
      ((s.btime : Int) ≤ maxTimestamp → ∃ t, bootTime files = .ok t ∧
        t.unixTimestampNanos = s.btime * nanosPerSec) ∧
      (maxTimestamp < s.btime → ∃ e, bootTime files = .error e) := by
  refine ⟨?_, bootTime_render s hread, fun hlt => ?_⟩
  · obtain ⟨rest, hy⟩ := procStatCpuTimes_file s.toProcStat
    rw [show cpuTimesOf w s.toProcStat.tail = [] from s.cpuTimesOf_tailLines,
      List.append_nil] at hy
    simp only [cpuTime, hread]
    exact parsed_yields hy
  · cases hresult : bootTime files with
    | error e => exact ⟨e, rfl⟩
    | ok t =>
        obtain ⟨v, hv, ht⟩ := (bootTime_eq_ok_iff_of_firstBtime hread s.firstBtime t).mp hresult
        have hhigh := t.high
        rw [ht, hv.unique (decimal_writesInt s.btime)] at hhigh
        simp only [maxTimestamp, nanosPerSec] at hhigh hlt
        omega

def bootedStat : KernelStat 64 where
  aggregate := "10 2 3 40 5 6".toList
  aggregate_body := by decide
  cpus := [⟨0, [(0, 10), (0, 2), (0, 3), (0, 40), (0, 5), (0, 6), (0, 7)], by decide⟩]
  cpus_ne := by decide
  before := ["intr 9".toList, "ctxt 535905166".toList]
  btime := 1605203377
  after := ["processes 12".toList]
  body := by decide
  not_cpu := by decide
  not_btime := by decide

theorem kernelStat_readers_booted :
    cpuTime 64 (fun _ => .ok bootedStat.render) = .ok [⟨10, 2, 3, 6, 40, 5⟩] ∧
      ∃ t, bootTime (fun _ => .ok bootedStat.render) = .ok t ∧
        t.unixTimestampNanos = 1605203377000000000 := by
  have hread : readFile (fun _ => .ok bootedStat.render) "/proc/stat" = _ := rfl
  have h := kernelStat_readers bootedStat hread
  exact ⟨h.1, h.2.1 (by decide)⟩

end Systemstat.Linux
