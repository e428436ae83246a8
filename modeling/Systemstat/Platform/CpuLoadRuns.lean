import Systemstat.Bsd.CpuLoad
import Systemstat.Linux.CpuAggregate
import Systemstat.Platform.LoadFractions
import Systemstat.Trace.Sampling

/-! # Measurements of the CPU load in every run

A program may start measurements and finish them in any order, each of them more than
once, while the counters of the kernel run. Every load that it is given is the share of
the ticks between the two readings of that measurement and of no other, on each of the
three platforms that subtract readings. On OpenBSD the ticks that a CPU has spent spinning
are in no reading, and the shares are of the others.
-/

namespace Systemstat.Platform

open Sampling

variable {κ : Type} {w : Nat}

/-! ## The counters of a kernel -/

structure NotAhead (prev now : CpuTime w) : Prop where
  user : prev.user ≤ now.user
  nice : prev.nice ≤ now.nice
  system : prev.system ≤ now.system
  interrupt : prev.interrupt ≤ now.interrupt
  idle : prev.idle ≤ now.idle
  other : prev.other ≤ now.other

/-- A kernel whose CPUs stay online, whose counters only run up, and whose counters of
one CPU add up within a word. -/
structure Processors (κ : Type) [Preorder κ] (w : Nat) where
  counters : κ → List (CpuTime w)
  online : ∀ k, counters k ≠ []
  runsUp : ∀ k k', k ≤ k' → List.Forall₂ NotAhead (counters k) (counters k')
  fits : ∀ k, ∀ t ∈ counters k, t.ticks < 2 ^ w

/-- The load of a CPU between two of its readings: each field is its share of all ticks,
and the shares add up to one unless no tick has passed. -/
structure ExactLoad (prev now : CpuTime w) (load : CPULoad) : Prop where
  user : load.user = ((now.user.toNat - prev.user.toNat : Nat) : ℚ) / (CpuTime.growth prev now : ℚ)
  nice : load.nice = ((now.nice.toNat - prev.nice.toNat : Nat) : ℚ) / (CpuTime.growth prev now : ℚ)
  system : load.system =
    ((now.system.toNat - prev.system.toNat : Nat) : ℚ) / (CpuTime.growth prev now : ℚ)
  interrupt : load.interrupt =
    ((now.interrupt.toNat - prev.interrupt.toNat : Nat) : ℚ) / (CpuTime.growth prev now : ℚ)
  idle : load.idle = ((now.idle.toNat - prev.idle.toNat : Nat) : ℚ) / (CpuTime.growth prev now : ℚ)
  other : load.platform.sum =
    ((now.other.toNat - prev.other.toNat : Nat) : ℚ) / (CpuTime.growth prev now : ℚ)
  total : load.total = if CpuTime.Grew prev now then 1 else 0

theorem growth_le_ticks (prev now : CpuTime w) : CpuTime.growth prev now ≤ now.ticks := by
  simp only [CpuTime.growth, CpuTime.ticks, CpuTime.counters, Arith.unsignedSum_cons,
    Arith.unsignedSum_nil]
  omega

theorem exactLoad_toCpuload {prev now : CpuTime w} (h : now.ticks < 2 ^ w) :
    ExactLoad prev now (now.sub prev).toCpuload := by
  have hgrowth : CpuTime.growth prev now < 2 ^ w :=
    Nat.lt_of_le_of_lt (growth_le_ticks prev now) h
  have hticks := CpuTime.ticks_sub prev now
  have hfields := CpuTime.fields_toCpuload (now.sub prev)
  rw [hticks, Nat.mod_eq_of_lt hgrowth] at hfields
  simp only [CPULoad.fields, CpuTime.counters, CpuTime.sub, List.map_cons, List.map_nil,
    List.cons.injEq, saturatingSub_toNat, and_true] at hfields
  obtain ⟨huser, hnice, hsystem, hinterrupt, hidle, hother⟩ := hfields
  refine ⟨huser, hnice, hsystem, hinterrupt, hidle, hother, ?_⟩
  simp only [← CpuTime.growth_pos_iff, ← hticks]
  exact (CpuTime.total_eq_iff _).mpr (hticks.symm ▸ hgrowth)

/-- One load for each CPU, of the two readings of that CPU. -/
def ExactLoads (prev now : List (CpuTime w)) (loads : List CPULoad) : Prop :=
  loads.length = now.length ∧ ∀ (i : Nat) (p n : CpuTime w) (load : CPULoad),
    prev[i]? = some p → now[i]? = some n → loads[i]? = some load → ExactLoad p n load

theorem exactLoads_zipWith {prev now : List (CpuTime w)} (hlen : prev.length = now.length)
    (hfits : ∀ t ∈ now, t.ticks < 2 ^ w) :
    ExactLoads prev now (List.zipWith (fun p n => (n.sub p).toCpuload) prev now) := by
  refine ⟨by rw [List.length_zipWith, hlen, Nat.min_self], ?_⟩
  intro i p n load hp hn hload
  rw [List.getElem?_zipWith_eq_some] at hload
  obtain ⟨p', n', hp', hn', rfl⟩ := hload
  rw [hp, Option.some.injEq] at hp'
  rw [hn, Option.some.injEq] at hn'
  subst hp' hn'
  exact exactLoad_toCpuload (hfits n (List.mem_of_getElem? hn))

theorem Processors.exactLoads [Preorder κ] (p : Processors κ w) {k k' : κ} (h : k ≤ k') :
    ∃ loads, loads = List.zipWith (fun p n => (n.sub p).toCpuload) (p.counters k)
      (p.counters k') ∧ loads ≠ [] ∧ ExactLoads (p.counters k) (p.counters k') loads := by
  have hloads := exactLoads_zipWith (p.runsUp k k' h).length_eq (p.fits k')
  refine ⟨_, rfl, fun hnil => p.online k' ?_, hloads⟩
  have hlen := hloads.1
  rw [hnil] at hlen
  exact List.length_eq_zero_iff.mp hlen.symm

section Runs

variable [Preorder κ] [DecidableLE κ] {μ β ε : Type}

/-- A measurement can be started at every moment and finished at every later one, and in
every run each result `ok loads` has the loads between the two readings of its own
measurement. -/
structure MeasuresExactly (p : Processors κ w) (sampler : Sampler κ μ β ε)
    (ok : List CPULoad → β) : Prop where
  returns : ∀ k k', k ≤ k' →
    ∃ m loads, sampler.start k = .ok m ∧ sampler.done m k' = ok loads
  exact : ∀ origin actions s, run sampler (World.boot origin) actions = some s →
    ∀ f ∈ s.finished, ∃ k m loads, s.started[f.sample]? = some (k, m) ∧ origin ≤ k ∧
      k ≤ f.moment ∧ f.result = ok loads ∧ loads ≠ [] ∧
      ExactLoads (p.counters k) (p.counters f.moment) loads

/-- Measurements always start, and what one returns is made by subtracting the readings of
its two moments, CPU by CPU. -/
structure Subtracts (p : Processors κ w) (sampler : Sampler κ μ β ε)
    (ok : List CPULoad → β) : Prop where
  starts : ∀ k, ∃ m, sampler.start k = .ok m
  done : ∀ k m k', sampler.start k = .ok m → k ≤ k' → sampler.done m k' =
    ok (List.zipWith (fun p n => (n.sub p).toCpuload) (p.counters k) (p.counters k'))

theorem Subtracts.measuresExactly {p : Processors κ w} {sampler : Sampler κ μ β ε}
    {ok : List CPULoad → β} (h : Subtracts p sampler ok) : MeasuresExactly p sampler ok := by
  have hR : Relates sampler fun k k' result => ∃ loads, result = ok loads ∧ loads ≠ [] ∧
      ExactLoads (p.counters k) (p.counters k') loads := by
    intro k m k' hm hle
    obtain ⟨loads, hloads, hne, hexact⟩ := p.exactLoads hle
    exact ⟨loads, hloads ▸ h.done k m k' hm hle, hne, hexact⟩
  constructor
  · intro k k' hle
    obtain ⟨m, hm⟩ := h.starts k
    exact ⟨m, _, hm, h.done k m k' hm hle⟩
  · intro origin actions s hrun f hf
    obtain ⟨k, m, hs, ho, hk, _, loads, hresult, hne, hexact⟩ := run_relates hR hrun f hf
    exact ⟨k, m, loads, hs, ho, hk, hresult, hne, hexact⟩

end Runs

/-- A record has the counters of a CPU under their names. -/
structure Recorded (user nice system interrupt idle : BitVec w) (t : CpuTime w) : Prop where
  user : user = t.user
  nice : nice = t.nice
  system : system = t.system
  interrupt : interrupt = t.interrupt
  idle : idle = t.idle
  other : t.other = 0

theorem Recorded.eq {user nice system interrupt idle : BitVec w} {t : CpuTime w}
    (h : Recorded user nice system interrupt idle t) :
    (⟨user, nice, system, interrupt, idle, 0⟩ : CpuTime w) = t := by
  obtain ⟨huser, hnice, hsystem, hinterrupt, hidle, hother⟩ := h
  cases t
  rw [huser, hnice, hsystem, hinterrupt, hidle, ← hother]

theorem map_eq_of_forall₂ {α β : Type} {R : α → β → Prop} {f : α → β}
    (hf : ∀ {a b}, R a b → f a = b) {as : List α} {bs : List β} (h : List.Forall₂ R as bs) :
    as.map f = bs := by
  have heq : List.Forall₂ (· = ·) (as.map f) bs :=
    List.forall₂_map_left_iff.mpr (h.imp fun _ _ => hf)
  rwa [List.forall₂_eq_eq_eq] at heq

end Systemstat.Platform

/-! ## The samplers -/

namespace Systemstat.Linux

open Nom Text Platform Sampling

variable {κ : Type} {w : Nat}

/-- The file shows the counters, whatever the aggregate and the lines behind the CPUs say. -/
def ShowsCounters (files : Files) (counters : List (CpuTime w)) : Prop :=
  ∃ s : ProcStat w, readFile files "/proc/stat" = .ok s.render ∧
    s.cpus.map CpuRecord.cpuTime = counters ∧
    ∀ l ∈ firstNonBlank s.tail, ¬ "cpu".toList <+: skip l

theorem cpuTime_of_showsCounters {files : Files} {counters : List (CpuTime w)}
    (h : ShowsCounters files counters) : cpuTime w files = .ok counters := by
  obtain ⟨s, hread, rfl, htail⟩ := h
  obtain ⟨rest, hy⟩ := procStatCpuTimes_file s
  rw [cpuTimesOf_tail s.tail_cr htail, List.append_nil] at hy
  simp only [cpuTime, hread]
  exact parsed_yields hy

def cpuLoadSampler (w : Nat) (files : κ → Files) :
    Sampler κ (DelayedMeasurement Files (List CPULoad)) (IoResult (List CPULoad)) IoError where
  start k := cpuLoad w (files k)
  done m k := m.done (files k)

theorem cpuLoad_subtracts [Preorder κ] [DecidableLE κ] {p : Processors κ w} {files : κ → Files}
    (h : ∀ k, ShowsCounters (files k) (p.counters k)) :
    Subtracts p (cpuLoadSampler w files) .ok := by
  have htime : ∀ k, cpuTime w (files k) = .ok (p.counters k) := fun k =>
    cpuTime_of_showsCounters (h k)
  constructor
  · intro k
    simp only [cpuLoadSampler, cpuLoad, htime, bind, Except.bind]
    exact ⟨_, rfl⟩
  · intro k m k' hm _
    obtain ⟨prev, hprev, hdone⟩ := done_cpuLoad hm
    rw [htime, Except.ok.injEq] at hprev
    subst hprev
    simp only [cpuLoadSampler, hdone, htime, bind, Except.bind, loadsOf]
    rw [List.zipWith_comm]

end Systemstat.Linux

namespace Systemstat.FreeBsd

open Bsd Platform Sampling

variable {κ : Type} {w : Nat}

/-- There are no counters beside those of the record. -/
abbrev Records (cpu : SysctlCpu w) : CpuTime w → Prop :=
  Recorded cpu.user cpu.nice cpu.system cpu.interrupt cpu.idle

theorem Records.into_eq {cpu : SysctlCpu w} {t : CpuTime w} (h : Records cpu t) :
    cpu.into = t := Recorded.eq h

/-- The buffer that was sized for the CPUs has the counters of all of them. -/
def ShowsCounters (cpTimesSize : Nat) (kernCpTimes : CpTimes w) (counters : List (CpuTime w)) :
    Prop :=
  ∃ data : Vector (SysctlCpu w) (cpTimesSize / sizeOfSysctlCpu w),
    kernCpTimes _ = some data ∧ List.Forall₂ Records data.toList counters

theorem measureCpu_of_showsCounters {cpTimesSize : Nat} {kernCpTimes : CpTimes w}
    {counters : List (CpuTime w)} (h : ShowsCounters cpTimesSize kernCpTimes counters)
    (hne : counters ≠ []) : measureCpu cpTimesSize kernCpTimes = .ok (some counters) := by
  obtain ⟨data, hdata, hrecords⟩ := h
  obtain rfl := map_eq_of_forall₂ Records.into_eq hrecords
  refine measureCpu_of_some (fun hzero => hne ?_) hdata
  rw [← List.length_eq_zero_iff, List.length_map, Vector.length_toList, hzero]

/-- A measurement of `none` is one that the panic has left; it is never finished. -/
def cpuLoadSampler (cpTimesSize : Nat) (kernCpTimes : κ → CpTimes w) :
    Sampler κ (Option (DelayedMeasurement κ (Option (List CPULoad))))
      (IoResult (Option (List CPULoad))) IoError where
  start k := cpuLoad cpTimesSize kernCpTimes k
  done m k := match m with
    | none => .ok none
    | some m => m.done k

theorem cpuLoad_subtracts [Preorder κ] [DecidableLE κ] {p : Processors κ w} {cpTimesSize : Nat}
    {kernCpTimes : κ → CpTimes w}
    (h : ∀ k, ShowsCounters cpTimesSize (kernCpTimes k) (p.counters k)) :
    Subtracts p (cpuLoadSampler cpTimesSize kernCpTimes) fun loads => .ok (some loads) := by
  have hmeasure : ∀ k, measureCpu cpTimesSize (kernCpTimes k) = .ok (some (p.counters k)) :=
    fun k => measureCpu_of_showsCounters (h k) (p.online k)
  constructor
  · intro k
    simp only [cpuLoadSampler, cpuLoad, hmeasure, bind, Except.bind]
    exact ⟨_, rfl⟩
  · intro k m k' hm _
    simp only [cpuLoadSampler, cpuLoad, hmeasure, bind, Except.bind, pure, Except.pure,
      Except.ok.injEq] at hm
    subst hm
    simp only [cpuLoadSampler, DelayedMeasurement.done, loadsOf]

end Systemstat.FreeBsd

namespace Systemstat.OpenBsd

open Bsd Platform Sampling

variable {κ : Type} {w : Nat}

/-- Whatever the CPU has spent spinning is under none of its counters. -/
abbrev Records (cpu : SysctlCpu w) : CpuTime w → Prop :=
  Recorded cpu.user cpu.nice cpu.system cpu.interrupt cpu.idle

theorem Records.into_eq {cpu : SysctlCpu w} {t : CpuTime w} (h : Records cpu t) :
    cpu.into = t := Recorded.eq h

/-- Every CPU up to the number of CPUs has its counters. -/
def ShowsCounters (kern : CpuSysctls w) (counters : List (CpuTime w)) : Prop :=
  ∃ cpus data, kern.hwNcpu = some cpus ∧
    List.Forall₂ (fun i cpu => kern.kernCptime2 (.ofNat 32 i) = some cpu)
      (List.range cpus.toNat) data ∧ List.Forall₂ Records data counters

def cpuLoadSampler (kern : κ → CpuSysctls w) :
    Sampler κ (DelayedMeasurement κ (List CPULoad)) (IoResult (List CPULoad)) IoError where
  start k := cpuLoad kern k
  done m k := m.done k

theorem cpuLoad_subtracts [Preorder κ] [DecidableLE κ] {p : Processors κ w}
    {kern : κ → CpuSysctls w} (h : ∀ k, ShowsCounters (kern k) (p.counters k)) :
    Subtracts p (cpuLoadSampler kern) .ok := by
  have hmeasure : ∀ k, measureCpu (kern k) = .ok (p.counters k) := by
    intro k
    obtain ⟨cpus, data, hcpus, hdata, hrecords⟩ := h k
    have hcounters := map_eq_of_forall₂ Records.into_eq hrecords
    exact measureCpu_eq_ok_iff.mpr ⟨cpus, data, hcpus, hdata, hcounters.symm⟩
  constructor
  · intro k
    simp only [cpuLoadSampler, cpuLoad, hmeasure, bind, Except.bind]
    exact ⟨_, rfl⟩
  · intro k m k' hm _
    simp only [cpuLoadSampler, cpuLoad, hmeasure, bind, Except.bind, pure, Except.pure,
      Except.ok.injEq] at hm
    subst hm
    simp only [cpuLoadSampler, DelayedMeasurement.done, loadsOf]

end Systemstat.OpenBsd

/-! ## Every run -/

namespace Systemstat.Platform

open Sampling

variable {κ : Type} {w : Nat}

/-- A CPU half of whose time is spent in user space. -/
def tickingTime (k : Fin 8) : CpuTime 64 := ⟨.ofFin (k.castLE (by decide)), 0, 0, 0,
  .ofFin (k.castLE (by decide)), 0⟩

def idlingTime (k : Fin 8) : CpuTime 64 := ⟨7, 0, 0, 0, .ofFin (k.castLE (by decide)), 0⟩

def tickingProcessors : Processors (Fin 8) 64 where
  counters k := [tickingTime k, idlingTime k]
  online _ := List.cons_ne_nil _ _
  runsUp k k' h := .cons ⟨h, BitVec.le_refl _, BitVec.le_refl _, BitVec.le_refl _, h,
    BitVec.le_refl _⟩ (.cons ⟨BitVec.le_refl _, BitVec.le_refl _, BitVec.le_refl _,
    BitVec.le_refl _, h, BitVec.le_refl _⟩ .nil)
  fits := by decide

def tickingRecord (id : Nat) (t : CpuTime 64) : Linux.CpuRecord 64 :=
  ⟨id, [(0, t.user), (0, 0), (0, 0), (0, t.idle), (0, 0), (0, 0)], Nat.le_refl 6⟩

def tickingStat (k : Fin 8) : Linux.ProcStat 64 where
  aggregate := "9 9 9 9 9 9".toList
  aggregate_body := by decide
  cpus := [tickingRecord 0 (tickingTime k), tickingRecord 1 (idlingTime k)]
  cpus_ne := List.cons_ne_nil _ _
  tail := "intr 9\n".toList
  tail_cr := by decide
  tail_ended := by decide

theorem showsCounters_tickingStat (k : Fin 8) :
    Linux.ShowsCounters (fun _ => .ok (tickingStat k).render) (tickingProcessors.counters k) :=
  have htail : ∀ l ∈ Text.firstNonBlank "intr 9\n".toList, ¬ "cpu".toList <+: Text.skip l := by
    decide
  ⟨tickingStat k, rfl, rfl, htail⟩

/-- The records of FreeBSD; those of every CPU but the first are those of the second. -/
def tickingRecords (k : Fin 8) : FreeBsd.CpTimes 64 := fun _ =>
  some (.ofFn fun i => if i.val = 0 then ⟨(tickingTime k).user, 0, 0, 0, (tickingTime k).idle⟩
    else ⟨7, 0, 0, 0, (idlingTime k).idle⟩)

theorem showsCounters_tickingRecords (k : Fin 8) :
    FreeBsd.ShowsCounters 80 (tickingRecords k) (tickingProcessors.counters k) :=
  ⟨_, rfl, .cons ⟨rfl, rfl, rfl, rfl, rfl, rfl⟩ (.cons ⟨rfl, rfl, rfl, rfl, rfl, rfl⟩ .nil)⟩

/-- The sysctls of OpenBSD, where the first CPU also spins. -/
def tickingSysctls (k : Fin 8) : OpenBsd.CpuSysctls 64 where
  hwNcpu := some 2
  kernCptime2 i := if i = 0 then
      some ⟨(tickingTime k).user, 0, 0, (tickingTime k).user, 0, (tickingTime k).idle⟩
    else if i = 1 then some ⟨7, 0, 0, 0, 0, (idlingTime k).idle⟩
    else none

theorem showsCounters_tickingSysctls (k : Fin 8) :
    OpenBsd.ShowsCounters (tickingSysctls k) (tickingProcessors.counters k) :=
  ⟨2, [_, _], rfl, .cons rfl (.cons rfl .nil),
    .cons ⟨rfl, rfl, rfl, rfl, rfl, rfl⟩ (.cons ⟨rfl, rfl, rfl, rfl, rfl, rfl⟩ .nil)⟩

/-- Two measurements, of which the first is finished twice. -/
example : (run (Linux.cpuLoadSampler 64 fun k _ => .ok (tickingStat k).render)
    (World.boot 0) [.start, .advance 2, .start, .advance 5, .done 0, .done 1, .done 0]).map
      (fun s => s.finished.map (·.sample)) = some [0, 1, 0] := by rfl

end Systemstat.Platform
