import Systemstat.Platform.CpuLoadRuns
import Systemstat.Trace.Readings
import Systemstat.Unix.InterfaceCounters

/-! # Calls that read a kernel more than once

`network_stats` on Linux reads six files, and `measure_cpu` on OpenBSD makes a call for
each CPU. The counters go on in between, so what is returned need not have been true at
any one moment. Each number was true at its own, and that is enough for what the callers
do with it.
-/

namespace Systemstat.Linux

open Nom Text OpenBsd Readings Reads Unix

/-! ## `network_stats` of Linux -/

abbrev FileReads (α : Type) := Reads (fun _ : String => IoResult Str) IoError α

def u64Reads (path : String) : FileReads (BitVec 64) :=
  query path fun answer => u64FromFile (fun _ => answer) path

def networkStatsReads (interface : Str) : FileReads NetworkStats := do
  let rxBytes ← u64Reads (statsFile interface "rx_bytes")
  let txBytes ← u64Reads (statsFile interface "tx_bytes")
  let rxPackets ← u64Reads (statsFile interface "rx_packets")
  let txPackets ← u64Reads (statsFile interface "tx_packets")
  let rxErrors ← u64Reads (statsFile interface "rx_errors")
  let txErrors ← u64Reads (statsFile interface "tx_errors")
  return ⟨.b rxBytes, .b txBytes, rxPackets, txPackets, rxErrors, txErrors⟩

theorem networkStatsReads_still (files : Files) (interface : Str) (t : Nat) :
    (moving (fun _ => files) (networkStatsReads interface) t).1 = networkStats files interface := by
  simp only [moving_still, networkStatsReads, still_bind, still_pure]
  rfl

/-- The six numbers, each of the moment at which its file was read. -/
theorem moving_networkStatsReads {files : Nat → Files} {interface : Str} {t : Nat}
    {stats : NetworkStats}
    (h : List.Forall₂ (fun p x => u64FromFile (files p.2) (statsFile interface p.1) = .ok x)
      (statsFiles.zipIdx t) (statsNumbers stats)) :
    moving files (networkStatsReads interface) t = (.ok stats, t + 6) := by
  have hread : ∀ {path : String} {n : Nat} {x : BitVec 64}, u64FromFile (files n) path = .ok x →
      moving files (u64Reads path) n = (.ok x, n + 1) := by
    intro path n x hx
    rw [u64Reads, moving_query]
    exact congrArg (·, n + 1) hx
  simp only [statsFiles, statsNumbers, List.zipIdx_cons, List.zipIdx_nil, List.forall₂_cons,
    List.forall₂_nil_left_iff, and_true] at h
  obtain ⟨hrxBytes, htxBytes, hrxPackets, htxPackets, hrxErrors, htxErrors⟩ := h
  rw [networkStatsReads, moving_bind_of_ok (hread hrxBytes), moving_bind_of_ok (hread htxBytes),
    moving_bind_of_ok (hread hrxPackets), moving_bind_of_ok (hread htxPackets),
    moving_bind_of_ok (hread hrxErrors), moving_bind_of_ok (hread htxErrors), moving_pure]
  rfl

structure StatsLe (stats stats' : NetworkStats) : Prop where
  rxBytes : stats.rxBytes.bytes ≤ stats'.rxBytes.bytes
  txBytes : stats.txBytes.bytes ≤ stats'.txBytes.bytes
  rxPackets : stats.rxPackets ≤ stats'.rxPackets
  txPackets : stats.txPackets ≤ stats'.txPackets
  rxErrors : stats.rxErrors ≤ stats'.rxErrors
  txErrors : stats.txErrors ≤ stats'.txErrors

theorem StatsLe.trans {a b c : NetworkStats} (hab : StatsLe a b) (hbc : StatsLe b c) :
    StatsLe a c where
  rxBytes := BitVec.le_trans hab.rxBytes hbc.rxBytes
  txBytes := BitVec.le_trans hab.txBytes hbc.txBytes
  rxPackets := BitVec.le_trans hab.rxPackets hbc.rxPackets
  txPackets := BitVec.le_trans hab.txPackets hbc.txPackets
  rxErrors := BitVec.le_trans hab.rxErrors hbc.rxErrors
  txErrors := BitVec.le_trans hab.txErrors hbc.txErrors

/-- What a kernel counts for an interface at each moment; nothing is taken back. -/
structure Traffic where
  counters : Nat → IfData
  runsUp : ∀ n n', n ≤ n' → StatsLe (statsOf (counters n)) (statsOf (counters n'))

/-- Six reads that begin at `t`, of the counters of their own moments. -/
def Traffic.readFrom (traffic : Traffic) (t : Nat) : NetworkStats where
  rxBytes := .b (traffic.counters t).ifiIbytes
  txBytes := .b (traffic.counters (t + 1)).ifiObytes
  rxPackets := (traffic.counters (t + 2)).ifiIpackets
  txPackets := (traffic.counters (t + 3)).ifiOpackets
  rxErrors := (traffic.counters (t + 4)).ifiIerrors
  txErrors := (traffic.counters (t + 5)).ifiOerrors

variable {traffic : Traffic} {files : Nat → Files} {interface : Str}

theorem Traffic.le_readFrom (traffic : Traffic) (t : Nat) :
    StatsLe (statsOf (traffic.counters t)) (traffic.readFrom t) where
  rxBytes := BitVec.le_refl _
  txBytes := (traffic.runsUp t (t + 1) (by omega)).txBytes
  rxPackets := (traffic.runsUp t (t + 2) (by omega)).rxPackets
  txPackets := (traffic.runsUp t (t + 3) (by omega)).txPackets
  rxErrors := (traffic.runsUp t (t + 4) (by omega)).rxErrors
  txErrors := (traffic.runsUp t (t + 5) (by omega)).txErrors

theorem Traffic.readFrom_le (traffic : Traffic) (t : Nat) :
    StatsLe (traffic.readFrom t) (statsOf (traffic.counters (t + 5))) where
  rxBytes := (traffic.runsUp t (t + 5) (by omega)).rxBytes
  txBytes := (traffic.runsUp (t + 1) (t + 5) (by omega)).txBytes
  rxPackets := (traffic.runsUp (t + 2) (t + 5) (by omega)).rxPackets
  txPackets := (traffic.runsUp (t + 3) (t + 5) (by omega)).txPackets
  rxErrors := (traffic.runsUp (t + 4) (t + 5) (by omega)).rxErrors
  txErrors := BitVec.le_refl _

theorem moving_readFrom (h : ∀ n, FilesShow (files n) interface (traffic.counters n)) (t : Nat) :
    moving files (networkStatsReads interface) t = (.ok (traffic.readFrom t), t + 6) := by
  have hfiles := fun n => u64FromFile_of_filesShow (h n)
  simp only [statsFiles, statsNumbers, statsOf, ByteSize.b, List.forall₂_cons,
    List.forall₂_nil_left_iff, and_true] at hfiles
  apply moving_networkStatsReads
  simp only [statsFiles, statsNumbers, List.zipIdx_cons, List.zipIdx_nil, List.forall₂_cons,
    List.forall₂_nil_left_iff, and_true]
  exact ⟨(hfiles t).1, (hfiles (t + 1)).2.1, (hfiles (t + 2)).2.2.1, (hfiles (t + 3)).2.2.2.1,
    (hfiles (t + 4)).2.2.2.2.1, (hfiles (t + 5)).2.2.2.2.2⟩

/-- Whatever the kernel counts while a call reads, the stats lie between the counters at
its first read and those at its last, and a later call never reports less. -/
theorem networkStats_moving (traffic : Traffic) {files : Nat → Files} {interface : Str}
    (h : ∀ n, FilesShow (files n) interface (traffic.counters n)) :
    (∀ t, ∃ stats, moving files (networkStatsReads interface) t = (.ok stats, t + 6) ∧
      StatsLe (statsOf (traffic.counters t)) stats ∧
      StatsLe stats (statsOf (traffic.counters (t + 5)))) ∧
    ∀ t t' stats stats' u u', t + 6 ≤ t' →
      moving files (networkStatsReads interface) t = (.ok stats, u) →
      moving files (networkStatsReads interface) t' = (.ok stats', u') →
      StatsLe stats stats' := by
  constructor
  · intro t
    exact ⟨_, moving_readFrom h t, traffic.le_readFrom t, traffic.readFrom_le t⟩
  · intro t t' stats stats' u u' hle hfirst hsecond
    rw [moving_readFrom h t] at hfirst
    rw [moving_readFrom h t'] at hsecond
    cases hfirst
    cases hsecond
    have hbetween := traffic.runsUp (t + 5) t' (by omega)
    exact ((traffic.readFrom_le t).trans hbetween).trans (traffic.le_readFrom t')

/-- Packets arrive while the third file is read. -/
def arriving : Traffic where
  counters n := if n < 3 then ⟨640, 320, 20, 10, 3, 4⟩ else ⟨1280, 640, 40, 20, 3, 5⟩
  runsUp n n' h := by
    by_cases hn : n < 3
    · by_cases hn' : n' < 3
      · rw [if_pos hn, if_pos hn']
        constructor <;> decide
      · rw [if_pos hn, if_neg hn']
        constructor <;> decide
    · rw [if_neg hn, if_neg (by omega)]
      constructor <;> decide

theorem filesShow_arriving (n : Nat) :
    FilesShow (Unix.filesOf [("em0".toList, arriving.counters n)]) "em0".toList
      (arriving.counters n) := by
  unfold FilesShow arriving
  by_cases hn : n < 3
  · simp only [if_pos hn]
    decide +kernel
  · simp only [if_neg hn]
    decide +kernel

theorem networkStats_moving_arriving : ∃ stats,
    moving (fun n => Unix.filesOf [("em0".toList, arriving.counters n)])
      (networkStatsReads "em0".toList) 0 = (.ok stats, 6) ∧
    StatsLe (statsOf ⟨640, 320, 20, 10, 3, 4⟩) stats ∧
    StatsLe stats (statsOf ⟨1280, 640, 40, 20, 3, 5⟩) :=
  (networkStats_moving arriving filesShow_arriving).1 0

end Systemstat.Linux

/-! ## `measure_cpu` of OpenBSD -/

namespace Systemstat.OpenBsd

open Bsd Collections Platform Readings Reads

variable {w : Nat}

inductive CpuQuestion
  | hwNcpu
  | kernCptime2 (i : BitVec 32)

abbrev CpuAnswer (w : Nat) : CpuQuestion → Type
  | .hwNcpu => Option (BitVec w)
  | .kernCptime2 _ => Option (SysctlCpu w)

def CpuSysctls.answer (kern : CpuSysctls w) : ∀ q, CpuAnswer w q
  | .hwNcpu => kern.hwNcpu
  | .kernCptime2 i => kern.kernCptime2 i

def cpuReads (w i : Nat) : Reads (CpuAnswer w) IoError (SysctlCpu w) :=
  query (.kernCptime2 (.ofNat 32 i)) fun answer => sysctl answer

def measureCpuReads (w : Nat) : Reads (CpuAnswer w) IoError (List (CpuTime w)) := do
  let cpus ← query .hwNcpu fun answer => sysctl answer
  let data ← collect (cpuReads w) (List.range cpus.toNat)
  return data.map SysctlCpu.into

theorem measureCpuReads_still (kern : CpuSysctls w) (t : Nat) :
    (moving (fun _ => kern.answer) (measureCpuReads w) t).1 = measureCpu kern := by
  simp only [moving_still, measureCpuReads, still_bind, still_query, still_pure,
    still_collect_nil]
  rfl

/-! ## One CPU after the other -/

variable {p : Processors Nat w} {kern : Nat → CpuSysctls w}

theorem answers_of_showsCounters {kern : CpuSysctls w} {counters : List (CpuTime w)}
    (h : ShowsCounters kern counters) :
    (∃ cpus, kern.hwNcpu = some cpus ∧ cpus.toNat = counters.length) ∧
    ∀ i < counters.length, ∃ cpu, kern.kernCptime2 (.ofNat 32 i) = some cpu ∧
      counters[i]? = some cpu.into := by
  obtain ⟨cpus, data, hcpus, hdata, hrecords⟩ := h
  obtain rfl := map_eq_of_forall₂ Records.into_eq hrecords
  have hlen := hdata.length_eq
  rw [List.length_range] at hlen
  refine ⟨⟨cpus, hcpus, by rw [List.length_map, hlen]⟩, fun i hi => ?_⟩
  rw [List.length_map] at hi
  have hcpu := hdata.get (by rw [List.length_range, hlen]; exact hi) hi
  rw [List.get_eq_getElem, List.getElem_range] at hcpu
  exact ⟨data[i], hcpu, by rw [List.getElem?_map, List.getElem?_eq_getElem hi]; rfl⟩

theorem counters_length (p : Processors Nat w) (n n' : Nat) :
    (p.counters n).length = (p.counters n').length := by
  rcases Nat.le_total n n' with hle | hle
  · exact (p.runsUp n n' hle).length_eq
  · exact (p.runsUp n' n hle).length_eq.symm

/-- The CPU with the number `i` is read `i` moments after the first. -/
theorem moving_measureCpuReads (h : ∀ n, ShowsCounters (kern n) (p.counters n)) (t : Nat) :
    ∃ times, moving (fun n => (kern n).answer) (measureCpuReads w) t =
        (.ok times, t + 1 + (p.counters t).length) ∧ times.length = (p.counters t).length ∧
      ∀ i time, times[i]? = some time → (p.counters (t + 1 + i))[i]? = some time := by
  obtain ⟨⟨cpus, hcpus, hlen⟩, _⟩ := answers_of_showsCounters (h t)
  have hreads : ∀ i c, (List.range cpus.toNat)[i]? = some c →
      ∃ cpu, moving (fun n => (kern n).answer) (cpuReads w c) (t + 1 + i) =
          (.ok cpu, t + 1 + i + 1) ∧ (p.counters (t + 1 + i))[i]? = some cpu.into := by
    intro i c hc
    obtain ⟨hi, rfl⟩ := List.getElem?_eq_some_iff.mp hc
    rw [List.length_range, hlen, counters_length p t (t + 1 + i)] at hi
    obtain ⟨cpu, hcpu, htime⟩ := (answers_of_showsCounters (h (t + 1 + i))).2 i hi
    refine ⟨cpu, ?_, htime⟩
    rw [List.getElem_range, cpuReads, moving_query]
    show (sysctl ((kern (t + 1 + i)).kernCptime2 (.ofNat 32 i)), _) = _
    rw [hcpu]
    rfl
  obtain ⟨data, hdata, hdatalen, htimes⟩ := moving_collect hreads
  have hncpu : moving (fun n => (kern n).answer)
      (query .hwNcpu fun answer => sysctl answer : Reads (CpuAnswer w) IoError (BitVec w)) t =
        (.ok cpus, t + 1) := by
    rw [moving_query]
    show (sysctl (kern t).hwNcpu, _) = _
    rw [hcpus]
    rfl
  rw [List.length_range] at hdata hdatalen
  refine ⟨data.map SysctlCpu.into, ?_, by rw [List.length_map, hdatalen, hlen], ?_⟩
  · rw [measureCpuReads, moving_bind_of_ok hncpu, moving_bind_of_ok hdata, moving_pure, hlen]
  · intro i time htime
    rw [List.getElem?_map, Option.map_eq_some_iff] at htime
    obtain ⟨cpu, hcpu, rfl⟩ := htime
    exact htimes i cpu hcpu

/-- Both CPUs tick between the fourth and the fifth call, and spin besides. -/
def tickedOnce (n : Nat) : SysctlCpu 64 :=
  if n < 4 then ⟨60, 0, 20, 5, 10, 910⟩ else ⟨61, 0, 20, 9, 10, 913⟩

def tickedOnceKern (n : Nat) : CpuSysctls 64 := ⟨some 2, fun _ => some (tickedOnce n)⟩

def tickedOnceProcessors : Processors Nat 64 where
  counters n := [(tickedOnce n).into, (tickedOnce n).into]
  online _ := List.cons_ne_nil _ _
  runsUp n n' h := by
    have hahead : NotAhead (tickedOnce n).into (tickedOnce n').into := by
      unfold tickedOnce
      by_cases hn : n < 4
      · by_cases hn' : n' < 4
        · rw [if_pos hn, if_pos hn']
          constructor <;> decide
        · rw [if_pos hn, if_neg hn']
          constructor <;> decide
      · rw [if_neg hn, if_neg (by omega)]
        constructor <;> decide
    exact .cons hahead (.cons hahead .nil)
  fits n t ht := by
    have htime : t = (tickedOnce n).into := by simpa using ht
    rw [htime]
    unfold tickedOnce
    by_cases hn : n < 4
    · rw [if_pos hn]
      decide
    · rw [if_neg hn]
      decide

theorem showsCounters_tickedOnce (n : Nat) :
    ShowsCounters (tickedOnceKern n) (tickedOnceProcessors.counters n) :=
  have hrecords : Records (tickedOnce n) (tickedOnce n).into := ⟨rfl, rfl, rfl, rfl, rfl, rfl⟩
  ⟨2, [tickedOnce n, tickedOnce n], rfl, .cons rfl (.cons rfl .nil),
    .cons hrecords (.cons hrecords .nil)⟩

end Systemstat.OpenBsd
