import Systemstat.Arith.Averages
import Systemstat.Platform.CpuLoadRuns

/-! # The aggregate load in every run

The default `cpu_load_aggregate` weighs the CPUs by their position. Whatever it makes of
the loads of a run, it never panics, its shares stay shares, and they add up to one when
time has passed on every CPU.
-/

namespace Systemstat.Platform

open Arith Sampling

variable {κ σ : Type} {w : Nat}

/-! ## The weights -/

theorem foldl_avgAdd {field : CPULoad → ℚ} (hf : Averaged field) (first : CPULoad)
    (it : List CPULoad) :
    field (it.foldl CPULoad.avgAdd first) = (it.map field).foldl average (field first) := by
  induction it generalizing first with
  | nil => rfl
  | cons l it ih =>
      rw [List.foldl_cons, ih, hf, List.map_cons, List.foldl_cons]
      rfl

/-- Every field of the aggregate weighs the CPUs by a power of two, the last one most. -/
theorem aggregateLoads_weighs {ls : List CPULoad} {l : CPULoad} (h : aggregateLoads ls = some l)
    {field : CPULoad → ℚ} (hf : Averaged field) :
    field l = weightedSum (weights ℚ (ls.length - 1)) (ls.map field) := by
  cases ls with
  | nil => cases h
  | cons first it =>
      rw [aggregateLoads, Option.some.injEq] at h
      rw [← h, foldl_avgAdd hf, foldl_average, List.length_map, List.map_cons, List.length_cons,
        Nat.add_sub_cancel]

theorem aggregateLoads_mem_Icc {ls : List CPULoad} {l : CPULoad}
    (h : aggregateLoads ls = some l) {field : CPULoad → ℚ} (hf : Averaged field) {lo hi : ℚ}
    (hls : ∀ m ∈ ls, lo ≤ field m ∧ field m ≤ hi) : lo ≤ field l ∧ field l ≤ hi := by
  cases ls with
  | nil => cases h
  | cons first it =>
      rw [aggregateLoads, Option.some.injEq] at h
      rw [← h, foldl_avgAdd hf]
      refine foldl_average_mem_Icc (hls first (by simp)) fun y hy => ?_
      obtain ⟨m, hm, rfl⟩ := List.mem_map.mp hy
      exact hls m (by simp [hm])

theorem averaged_total : Averaged CPULoad.total := by
  intro l r
  simp only [CPULoad.total, CPULoad.avgAdd, PlatformCpuLoad.avgAdd, PlatformCpuLoad.sum]
  ring

/-- The fields that `fields` lists are averaged, each of them. -/
theorem averaged_fields {l : CPULoad} {x : ℚ} (h : x ∈ l.fields) :
    ∃ field, Averaged field ∧ field l = x ∧ ∀ m : CPULoad, field m ∈ m.fields := by
  simp only [CPULoad.fields, List.mem_cons, List.not_mem_nil, or_false] at h
  rcases h with rfl | rfl | rfl | rfl | rfl | rfl
  · exact ⟨(·.user), fun _ _ => rfl, rfl, fun m => by simp [CPULoad.fields]⟩
  · exact ⟨(·.nice), fun _ _ => rfl, rfl, fun m => by simp [CPULoad.fields]⟩
  · exact ⟨(·.system), fun _ _ => rfl, rfl, fun m => by simp [CPULoad.fields]⟩
  · exact ⟨(·.interrupt), fun _ _ => rfl, rfl, fun m => by simp [CPULoad.fields]⟩
  · exact ⟨(·.idle), fun _ _ => rfl, rfl, fun m => by simp [CPULoad.fields]⟩
  · exact ⟨(·.platform.sum), fun _ _ => rfl, rfl, fun m => by simp [CPULoad.fields]⟩

/-! ## Shares -/

structure Shares (l : CPULoad) : Prop where
  fields : ∀ x ∈ l.fields, 0 ≤ x ∧ x ≤ 1
  total : 0 ≤ l.total ∧ l.total ≤ 1

theorem shares_of_exactLoad {prev now : CpuTime w} {load : CPULoad}
    (h : ExactLoad prev now load) : Shares load := by
  have hshare : ∀ part : Nat, part ≤ CpuTime.growth prev now →
      0 ≤ (part : ℚ) / (CpuTime.growth prev now : ℚ) ∧
        (part : ℚ) / (CpuTime.growth prev now : ℚ) ≤ 1 := by
    intro part hle
    have hcast : (part : ℚ) ≤ (CpuTime.growth prev now : ℚ) := by exact_mod_cast hle
    exact ⟨by positivity, div_le_one_of_le₀ hcast (by positivity)⟩
  constructor
  · intro x hx
    simp only [CPULoad.fields, List.mem_cons, List.not_mem_nil, or_false, h.user, h.nice,
      h.system, h.interrupt, h.idle, h.other] at hx
    rcases hx with rfl | rfl | rfl | rfl | rfl | rfl <;>
      exact hshare _ (by simp only [CpuTime.growth]; omega)
  · rw [h.total]
    split <;> norm_num

theorem aggregateLoads_shares {ls : List CPULoad} {l : CPULoad} (h : aggregateLoads ls = some l)
    (hls : ∀ m ∈ ls, Shares m) : Shares l := by
  constructor
  · intro x hx
    obtain ⟨field, hf, rfl, hmem⟩ := averaged_fields hx
    exact aggregateLoads_mem_Icc h hf fun m hm => (hls m hm).fields _ (hmem m)
  · exact aggregateLoads_mem_Icc h averaged_total fun m hm => (hls m hm).total

/-! ## Runs -/

/-- What an aggregate says of two readings of the CPUs: it weighs their loads, and no field
of it is below that of every CPU or above that of every CPU. -/
structure AggregateOf (prev now : List (CpuTime w)) (l : CPULoad) : Prop where
  weighs : ∃ loads, ExactLoads prev now loads ∧ ∀ field, Averaged field →
    field l = weightedSum (weights ℚ (now.length - 1)) (loads.map field) ∧
    ∀ lo hi, (∀ m ∈ loads, lo ≤ field m ∧ field m ≤ hi) → lo ≤ field l ∧ field l ≤ hi
  shares : Shares l
  whole : List.Forall₂ CpuTime.Grew prev now → l.total = 1

theorem aggregateOf_exactLoads {prev now : List (CpuTime w)} {loads : List CPULoad}
    (hlen : prev.length = now.length) (hne : loads ≠ []) (h : ExactLoads prev now loads) :
    ∃ l, aggregateLoads loads = some l ∧ AggregateOf prev now l := by
  obtain ⟨first, it, rfl⟩ := List.exists_cons_of_ne_nil hne
  have hpick : ∀ m ∈ first :: it, ∃ (i : Nat) (p n : CpuTime w), prev[i]? = some p ∧
      now[i]? = some n ∧ ExactLoad p n m := by
    intro m hm
    obtain ⟨i, hi, hget⟩ := List.getElem_of_mem hm
    have hnow : i < now.length := h.1 ▸ hi
    have hprev : i < prev.length := hlen ▸ hnow
    refine ⟨i, prev[i], now[i], List.getElem?_eq_getElem hprev, List.getElem?_eq_getElem hnow, ?_⟩
    exact h.2 i _ _ m (List.getElem?_eq_getElem hprev) (List.getElem?_eq_getElem hnow)
      (by rw [List.getElem?_eq_getElem hi, hget])
  have hfold : aggregateLoads (first :: it) = some (it.foldl CPULoad.avgAdd first) := rfl
  refine ⟨_, hfold, ⟨first :: it, h, fun field hf => ⟨?_, ?_⟩⟩, ?_, ?_⟩
  · rw [← h.1]
    exact aggregateLoads_weighs hfold hf
  · intro lo hi hbounds
    exact aggregateLoads_mem_Icc hfold hf hbounds
  · refine aggregateLoads_shares hfold fun m hm => ?_
    obtain ⟨_, _, _, _, _, hexact⟩ := hpick m hm
    exact shares_of_exactLoad hexact
  · intro hgrew
    have hone : ∀ m ∈ first :: it, 1 ≤ m.total ∧ m.total ≤ 1 := by
      intro m hm
      obtain ⟨i, p, n, hp, hn, hexact⟩ := hpick m hm
      obtain ⟨hi, rfl⟩ := List.getElem?_eq_some_iff.mp hp
      obtain ⟨hi', rfl⟩ := List.getElem?_eq_some_iff.mp hn
      have hgrown : CpuTime.Grew prev[i] now[i] := hgrew.get hi hi'
      rw [hexact.total, if_pos hgrown]
      exact ⟨le_refl 1, le_refl 1⟩
    have htotal := aggregateLoads_mem_Icc hfold averaged_total hone
    exact le_antisymm htotal.2 htotal.1

section Samplers

variable [Preorder κ] {μ ε : Type}

/-- A measurement can be started at every moment and finished at every later one without a
panic, and in every run every result is an aggregate of the readings of its own measurement. -/
structure AggregatesExactly [DecidableLE κ] (p : Processors κ w)
    (sampler : Sampler κ μ (IoResult (Option CPULoad)) ε) : Prop where
  returns : ∀ k k', k ≤ k' →
    ∃ m l, sampler.start k = .ok m ∧ sampler.done m k' = .ok (some l)
  exact : ∀ origin actions s, run sampler (World.boot origin) actions = some s →
    ∀ f ∈ s.finished, ∃ k m l, s.started[f.sample]? = some (k, m) ∧ origin ≤ k ∧ k ≤ f.moment ∧
      f.result = .ok (some l) ∧ AggregateOf (p.counters k) (p.counters f.moment) l

/-- Measurements always start, and what one returns is the aggregate of the loads that
come of subtracting the readings of its two moments. -/
structure Aggregates (p : Processors κ w)
    (sampler : Sampler κ μ (IoResult (Option CPULoad)) ε) : Prop where
  starts : ∀ k, ∃ m, sampler.start k = .ok m
  done : ∀ k m k', sampler.start k = .ok m → k ≤ k' → sampler.done m k' = .ok (aggregateLoads
    (List.zipWith (fun p n => (n.sub p).toCpuload) (p.counters k) (p.counters k')))

theorem Aggregates.aggregatesExactly [DecidableLE κ] {p : Processors κ w}
    {sampler : Sampler κ μ (IoResult (Option CPULoad)) ε} (h : Aggregates p sampler) :
    AggregatesExactly p sampler := by
  have hR : Relates sampler fun k k' result => ∃ l, result = .ok (some l) ∧
      AggregateOf (p.counters k) (p.counters k') l := by
    intro k m k' hm hle
    obtain ⟨loads, hloads, hne, hexact⟩ := p.exactLoads hle
    obtain ⟨l, hl, haggregate⟩ :=
      aggregateOf_exactLoads (p.runsUp k k' hle).length_eq hne hexact
    exact ⟨l, by rw [h.done k m k' hm hle, ← hloads, hl], haggregate⟩
  constructor
  · intro k k' hle
    obtain ⟨m, hm⟩ := h.starts k
    obtain ⟨l, hl, _⟩ := hR k m k' hm hle
    exact ⟨m, l, hm, hl⟩
  · intro origin actions s hrun f hf
    obtain ⟨k, m, hs, ho, hk, _, l, hresult, haggregate⟩ := run_relates hR hrun f hf
    exact ⟨k, m, l, hs, ho, hk, hresult, haggregate⟩

/-- `cpu_load_aggregate` and `done`, where the system of a moment is `sys`. -/
def aggregateSampler (cpuLoad : κ → IoResult (DelayedMeasurement σ (List CPULoad)))
    (sys : κ → σ) : Sampler κ (DelayedMeasurement σ (Option CPULoad)) (IoResult (Option CPULoad))
      IoError where
  start k := cpuLoadAggregate (cpuLoad k)
  done m k := m.done (sys k)

theorem aggregates_of_subtracts {p : Processors κ w}
    {cpuLoad : κ → IoResult (DelayedMeasurement σ (List CPULoad))} {sys : κ → σ}
    (h : Subtracts p (⟨cpuLoad, fun m k => m.done (sys k)⟩ :
      Sampler κ (DelayedMeasurement σ (List CPULoad)) (IoResult (List CPULoad)) IoError) .ok) :
    Aggregates p (aggregateSampler cpuLoad sys) := by
  constructor
  · intro k
    obtain ⟨measurement, hstart⟩ := h.starts k
    simp only [aggregateSampler, cpuLoadAggregate] at hstart ⊢
    rw [hstart]
    exact ⟨_, rfl⟩
  · intro k m k' hm hle
    obtain ⟨measurement, hstart, hm⟩ := exists_of_bind_eq_ok hm
    cases hm
    have hdone : measurement.done (sys k') = .ok (List.zipWith
        (fun p n => (n.sub p).toCpuload) (p.counters k) (p.counters k')) :=
      h.done k measurement k' hstart hle
    show (measurement.done (sys k')).map aggregateLoads = _
    rw [hdone, Except.map]

end Samplers

end Systemstat.Platform

namespace Systemstat.FreeBsd

open Platform Sampling

variable {κ : Type} {w : Nat}

/-- The default `cpu_load_aggregate` over the `cpu_load` of FreeBSD, whose panic passes
through. -/
def cpuLoadAggregate (cpTimesSize : Nat) (kernCpTimes : κ → CpTimes w) (sys : κ) :
    IoResult (Option (DelayedMeasurement κ (Option CPULoad))) := do
  match ← cpuLoad cpTimesSize kernCpTimes sys with
  | none => return none
  | some measurement => return some ⟨fun later => do
      match ← measurement.done later with
      | none => return none
      | some loads => return aggregateLoads loads⟩

/-- As with `cpuLoadSampler`, a measurement of `none` is never finished. -/
def aggregateSampler (cpTimesSize : Nat) (kernCpTimes : κ → CpTimes w) :
    Sampler κ (Option (DelayedMeasurement κ (Option CPULoad))) (IoResult (Option CPULoad))
      IoError where
  start k := cpuLoadAggregate cpTimesSize kernCpTimes k
  done m k := match m with
    | none => .ok none
    | some m => m.done k

theorem aggregates_of_showsCounters [Preorder κ] {p : Processors κ w}
    {cpTimesSize : Nat} {kernCpTimes : κ → CpTimes w}
    (h : ∀ k, ShowsCounters cpTimesSize (kernCpTimes k) (p.counters k)) :
    Aggregates p (aggregateSampler cpTimesSize kernCpTimes) := by
  have hmeasure : ∀ k, measureCpu cpTimesSize (kernCpTimes k) = .ok (some (p.counters k)) :=
    fun k => measureCpu_of_showsCounters (h k) (p.online k)
  constructor
  · intro k
    simp only [aggregateSampler, cpuLoadAggregate, cpuLoad, hmeasure, bind, Except.bind, pure,
      Except.pure]
    exact ⟨_, rfl⟩
  · intro k m k' hm _
    simp only [aggregateSampler, cpuLoadAggregate, cpuLoad, hmeasure, bind, Except.bind, pure,
      Except.pure, Except.ok.injEq] at hm
    subst hm
    simp only [aggregateSampler, DelayedMeasurement.done, Bsd.loadsOf]

end Systemstat.FreeBsd

/-! ## Every run -/

namespace Systemstat.Platform

open Sampling

variable {κ : Type} {w : Nat}

end Systemstat.Platform
