import Systemstat.Linux.CpuSection
import Systemstat.Platform.CpuLoadAggregate

/-! # The aggregate of a list that is never empty

`cpu_load_aggregate` takes the first load without looking whether there is one. On
Linux there is: a reading without a CPU line is an error, and the loads are as many as
the smaller of two readings that are none.
-/

namespace Systemstat.Linux

open Nom Text Platform

variable {w : Nat} {s t : Str} {files : Files}

/-- No line of the text is one that a CPU time is read from. -/
def NoCpuLine (w : Nat) (s : Str) : Prop :=
  ∀ u ∈ textItems s, readable (procStatCpuLine w) u = none

def cpusParsed (w : Nat) (s : Str) : Nat := ((procStatCpuTimes w s).value?.getD []).length

/-! ## One reading -/

theorem refused_of_noCpuLine (h : NoCpuLine w s) : Refused w s := by
  intro first rest hitems
  right
  intro u hu
  have hm : u ∈ rest := List.mem_of_mem_head? hu
  exact h u (by rw [hitems]; exact List.mem_cons_of_mem first hm)

theorem procStatCpuTimes_ne_nil {rest : Str} {times : List (CpuTime w)}
    (h : Yields (procStatCpuTimes w) s rest times) : times ≠ [] := by
  obtain ⟨r, _, _, hmany⟩ := h.of_bind
  exact hmany.many1_ne_nil

/-- A reading that is no error has a CPU. -/
theorem cpuTime_eq_ok {times : List (CpuTime w)} (hread : readFile files "/proc/stat" = .ok s)
    (h : cpuTime w files = .ok times) : times ≠ [] ∧ times.length = cpusParsed w s := by
  have hparsed : parsed (procStatCpuTimes w s) = .ok times := by
    rw [← h, cpuTime, hread]
    rfl
  rcases procStatCpuTimes_outcome w s with href | ⟨_, _, r, _, hy⟩
  · obtain ⟨e, he⟩ := (fails_of_refused href).error
    rw [he] at hparsed
    cases hparsed
  · rw [parsed_yields hy, Except.ok.injEq] at hparsed
    rw [hparsed] at hy
    refine ⟨procStatCpuTimes_ne_nil hy, ?_⟩
    rw [cpusParsed, hy.value?]
    rfl

/-! ## Two readings -/

variable {before after : Files}

def loadsOf (prev now : List (CpuTime w)) : List CPULoad :=
  List.zipWith (fun now prev => (now.sub prev).toCpuload) now prev

theorem done_cpuLoad {m : DelayedMeasurement Files (List CPULoad)}
    (h : cpuLoad w before = .ok m) : ∃ prev, cpuTime w before = .ok prev ∧
      ∀ later, m.done later = cpuTime w later >>= fun now => .ok (loadsOf prev now) := by
  obtain ⟨prev, hprev, hm⟩ := exists_of_bind_eq_ok h
  cases hm
  exact ⟨prev, hprev, fun later => rfl⟩

/-- Loads that are returned are those of two readings that are no errors. -/
theorem cpuLoadDone_eq_ok {loads : List CPULoad} (h : cpuLoadDone w before after = .ok loads) :
    ∃ prev now, cpuTime w before = .ok prev ∧ cpuTime w after = .ok now ∧
      loads = loadsOf prev now := by
  obtain ⟨m, hm, hafter⟩ := exists_of_bind_eq_ok h
  obtain ⟨prev, hprev, hdone⟩ := done_cpuLoad hm
  rw [hdone] at hafter
  obtain ⟨now, hnow, hloads⟩ := exists_of_bind_eq_ok hafter
  cases hloads
  exact ⟨prev, now, hprev, hnow, rfl⟩

theorem loadsOf_length (prev now : List (CpuTime w)) :
    (loadsOf prev now).length = min prev.length now.length := by
  rw [loadsOf, List.length_zipWith, Nat.min_comm]

/-- What the caller of the aggregate sees is what `done` returns, folded. -/
theorem aggregateResult_cpuLoad (w : Nat) (before after : Files) :
    aggregateResult (cpuLoad w before) after =
      (cpuLoadDone w before after).map aggregateLoads := by
  unfold cpuLoadDone
  cases cpuLoad w before with
  | error e => rfl
  | ok m => exact aggregateResult_eq m after

/-- With these two texts to read, the `unwrap` is never reached with `None`. -/
structure NeverUnwrapsNone (w : Nat) (s t : Str) (before after : Files) : Prop where
  nonempty : ∀ loads, cpuLoadDone w before after = .ok loads → loads ≠ []
  length : ∀ loads, cpuLoadDone w before after = .ok loads →
    loads.length = min (cpusParsed w s) (cpusParsed w t)
  unwrap : aggregateResult (cpuLoad w before) after ≠ .ok none
  before_error : NoCpuLine w s → ∃ e, cpuLoad w before = .error e ∧
    aggregateResult (cpuLoad w before) after = .error e
  after_error : NoCpuLine w t → ∀ m, cpuLoad w before = .ok m → ∃ e, m.done after = .error e ∧
    aggregateResult (cpuLoad w before) after = .error e

/-- Both readings have a CPU, so the shorter one has. -/
theorem loads_of_readings (hs : readFile before "/proc/stat" = .ok s)
    (ht : readFile after "/proc/stat" = .ok t) {loads : List CPULoad}
    (h : cpuLoadDone w before after = .ok loads) :
    loads ≠ [] ∧ loads.length = min (cpusParsed w s) (cpusParsed w t) := by
  obtain ⟨prev, now, hprev, hnow, rfl⟩ := cpuLoadDone_eq_ok h
  obtain ⟨hprevNe, hprevLength⟩ := cpuTime_eq_ok hs hprev
  obtain ⟨hnowNe, hnowLength⟩ := cpuTime_eq_ok ht hnow
  have hlength := loadsOf_length prev now
  have hprevPos := List.length_pos_iff.mpr hprevNe
  have hnowPos := List.length_pos_iff.mpr hnowNe
  constructor
  · rw [← List.length_pos_iff, hlength]
    omega
  · rw [hlength, hprevLength, hnowLength]

theorem neverUnwrapsNone (w : Nat) {s t : Str} {before after : Files}
    (hs : readFile before "/proc/stat" = .ok s) (ht : readFile after "/proc/stat" = .ok t) :
    NeverUnwrapsNone w s t before after := by
  constructor
  · exact fun loads h => (loads_of_readings hs ht h).1
  · exact fun loads h => (loads_of_readings hs ht h).2
  · rw [aggregateResult_cpuLoad]
    cases hdone : cpuLoadDone w before after with
    | error e =>
        intro h
        cases h
    | ok loads =>
        have hne := (loads_of_readings hs ht hdone).1
        cases loads with
        | nil => exact absurd rfl hne
        | cons first it =>
            intro h
            cases h
  · intro hno
    obtain ⟨e, he⟩ := cpuTime_of_fails (fails_of_refused (refused_of_noCpuLine hno)) hs
    have hload := cpuLoad_of_error he
    refine ⟨e, hload, ?_⟩
    rw [hload]
    rfl
  · intro hno m hm
    obtain ⟨e, he⟩ := cpuTime_of_fails (fails_of_refused (refused_of_noCpuLine hno)) ht
    obtain ⟨prev, _, hdone⟩ := done_cpuLoad hm
    have herror : m.done after = .error e := by
      rw [hdone, he]
      rfl
    refine ⟨e, herror, ?_⟩
    rw [hm, aggregateResult_eq, herror]
    rfl

theorem neverUnwrapsNone_offline :
    NeverUnwrapsNone 64 "cpu  3 0 0 9 0 0\ncpu0 1 0 0 5 0 0\ncpu1 2 0 0 4 0 0\n".toList
      "cpu  4 0 0 9 0 0\ncpu0 4 0 0 9 0 0\n".toList
      (fun _ => .ok "cpu  3 0 0 9 0 0\ncpu0 1 0 0 5 0 0\ncpu1 2 0 0 4 0 0\n".toList)
      (fun _ => .ok "cpu  4 0 0 9 0 0\ncpu0 4 0 0 9 0 0\n".toList) :=
  neverUnwrapsNone 64 rfl rfl

end Systemstat.Linux
