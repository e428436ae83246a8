import Systemstat.Trace.Resources
import Systemstat.Windows.CpuLoad

/-! # The query handles of a measurement

A measurement on Windows owns four queries of the performance counters. They are opened
one after the other, each is closed when its `QueryHandle` is dropped, and that happens
on every way out: with the measurement, or at once when a later call fails.
-/

namespace Systemstat.Windows

open Trace

variable {ρ : Type}

/-! ## One counter -/

/-- The calls of `PerformanceCounter::new` on its query; a status that is no success
drops the query that was opened. -/
def newTrace (query : ρ) (calls : NewCalls) : List (Event ρ) :=
  match success calls.openQuery with
  | .error _ => []
  | .ok _ =>
      match success calls.addCounter with
      | .error _ => [.acquire query, .use query, .release query]
      | .ok _ =>
          match success calls.collectQueryData with
          | .error _ => [.acquire query, .use query, .use query, .release query]
          | .ok _ => [.acquire query, .use query, .use query]

def nextValueTrace (query : ρ) (calls : NextCalls) : List (Event ρ) :=
  match success calls.collectQueryData with
  | .error _ => [.use query]
  | .ok _ =>
      if calls.arraySize = pdhMoreData then [.use query, .use query, .use query]
      else [.use query, .use query]

theorem performanceCounterNew_cases (calls : NewCalls) :
    (performanceCounterNew calls = .ok () ∧ success calls.openQuery = .ok () ∧
      success calls.addCounter = .ok () ∧ success calls.collectQueryData = .ok ()) ∨
    ∃ e, performanceCounterNew calls = .error e ∧
      (success calls.openQuery = .error e ∨
        success calls.openQuery = .ok () ∧ (success calls.addCounter = .error e ∨
          success calls.addCounter = .ok () ∧ success calls.collectQueryData = .error e)) := by
  simp only [performanceCounterNew, bind, Except.bind]
  cases success calls.openQuery with
  | error e => exact .inr ⟨e, rfl, .inl rfl⟩
  | ok _ =>
      cases success calls.addCounter with
      | error e => exact .inr ⟨e, rfl, .inr ⟨rfl, .inl rfl⟩⟩
      | ok _ =>
          cases success calls.collectQueryData with
          | error e => exact .inr ⟨e, rfl, .inr ⟨rfl, .inr ⟨rfl, rfl⟩⟩⟩
          | ok _ => exact .inl ⟨rfl, rfl, rfl, rfl⟩

theorem mem_nextValueTrace {query : ρ} {calls : NextCalls} {e : Event ρ}
    (h : e ∈ nextValueTrace query calls) : e = .use query := by
  unfold nextValueTrace at h
  split at h
  · simpa using h
  · split at h
    · simpa using h
    · simpa using h

/-! ## Several counters -/

/-- The counters of `cpu_load`, opened in turn; the first failure returns from it and
drops those that are there already, the last one first. -/
def newLoop : List (ρ × NewCalls) → List ρ → List (Event ρ) × Option (List ρ)
  | [], opened => ([], some opened)
  | (query, calls) :: rest, opened =>
      match performanceCounterNew calls with
      | .error _ => (newTrace query calls ++ opened.map .release, none)
      | .ok _ =>
          let run := newLoop rest (query :: opened)
          (newTrace query calls ++ run.1, run.2)

/-- The counters of the closure; the first failure returns from it. -/
def nextLoop : List (ρ × NextCalls) → List (Event ρ)
  | [] => []
  | (query, calls) :: rest =>
      nextValueTrace query calls ++ match nextValue calls with
        | .error _ => []
        | .ok _ => nextLoop rest

theorem newLoop_eq_some {counters : List (ρ × NewCalls)} {opened opened' : List ρ}
    (h : (newLoop counters opened).2 = some opened') :
    opened' = (counters.map Prod.fst).reverse ++ opened := by
  induction counters generalizing opened with
  | nil =>
      cases h
      rfl
  | cons counter rest ih =>
      rw [newLoop] at h
      split at h
      · cases h
      · rw [ih h, List.map_cons, List.reverse_cons, List.append_assoc, List.singleton_append]

theorem mem_nextLoop {counters : List (ρ × NextCalls)} {e : Event ρ}
    (h : e ∈ nextLoop counters) : ∃ counter ∈ counters, e = .use counter.1 := by
  induction counters with
  | nil => cases h
  | cons counter rest ih =>
      rw [nextLoop, List.mem_append] at h
      rcases h with h | h
      · exact ⟨counter, by simp, mem_nextValueTrace h⟩
      · split at h
        · cases h
        · obtain ⟨counter', hmem, he⟩ := ih h
          exact ⟨counter', by simp [hmem], he⟩

/-! ## What is open -/

variable [DecidableEq ρ]

/-- A counter that could be made has its query open, and one that could not has none. -/
theorem holds_newTrace {query : ρ} {held : List ρ} (h : query ∉ held) (calls : NewCalls) :
    holds held (newTrace query calls) = some (match performanceCounterNew calls with
      | .ok _ => query :: held
      | .error _ => held) := by
  obtain ⟨hnew, hopen, hadd, hcollect⟩ | ⟨e, hnew, hopen | ⟨hopen, hadd | ⟨hadd, hcollect⟩⟩⟩ :=
    performanceCounterNew_cases calls
  · simp [newTrace, hnew, hopen, hadd, hcollect, holds, holdStep, h]
  · simp [newTrace, hnew, hopen, holds]
  · simp [newTrace, hnew, hopen, hadd, holds, holdStep, h]
  · simp [newTrace, hnew, hopen, hadd, hcollect, holds, holdStep, h]

/-- What is open after the loop: all counters, or none of them. -/
theorem holds_newLoop {counters : List (ρ × NewCalls)} {opened held : List ρ}
    (hnodup : (counters.map Prod.fst).Nodup)
    (hfresh : ∀ counter ∈ counters, counter.1 ∉ opened ++ held) :
    holds (opened ++ held) (newLoop counters opened).1 =
      some (((newLoop counters opened).2.getD []) ++ held) := by
  induction counters generalizing opened with
  | nil => rfl
  | cons counter rest ih =>
      obtain ⟨query, calls⟩ := counter
      have hquery : query ∉ opened ++ held := hfresh (query, calls) (by simp)
      have hnew := holds_newTrace hquery calls
      obtain ⟨hrest, hnodup⟩ := List.nodup_cons.mp hnodup
      cases hcalls : performanceCounterNew calls with
      | error e =>
          rw [hcalls] at hnew
          simp only [newLoop, hcalls, holds_append, hnew, Option.bind_some,
            holds_release_prefix, Option.getD_none, List.nil_append]
      | ok _ =>
          rw [hcalls] at hnew
          simp only [newLoop, hcalls, holds_append, hnew, Option.bind_some, ← List.cons_append]
          refine ih hnodup fun counter hmem => ?_
          rw [List.cons_append, List.mem_cons, not_or]
          refine ⟨fun heq => hrest (List.mem_map.mpr ⟨counter, hmem, heq⟩), ?_⟩
          exact hfresh counter (by simp [hmem])

/-! ## Programs -/

inductive CounterKind
  | user
  | idle
  | system
  | interrupt
  deriving DecidableEq

/-- A query, by the number of its measurement. -/
abbrev Handle := Nat × CounterKind

def counterKinds : List CounterKind := [.user, .idle, .system, .interrupt]

def handles (measurement : Nat) : List Handle :=
  counterKinds.map fun kind => (measurement, kind)

theorem mem_handles {measurement : Nat} {h : Handle} :
    h ∈ handles measurement ↔ h.1 = measurement := by
  obtain ⟨m, kind⟩ := h
  cases kind <;> simp [handles, counterKinds, eq_comm]

theorem nodup_handles (measurement : Nat) : (handles measurement).Nodup := by
  simp [handles, counterKinds]

def Counters.get {α : Type} (self : Counters α) : CounterKind → α
  | .user => self.user
  | .idle => self.idle
  | .system => self.system
  | .interrupt => self.interrupt

/-- What `cpu_load` does with the handles of its measurement, and what is left open. -/
def cpuLoadTrace (measurement : Nat) (calls : Counters NewCalls) :
    List (Event Handle) × Option (List Handle) :=
  newLoop (counterKinds.map fun kind => ((measurement, kind), calls.get kind)) []

def doneTrace (measurement : Nat) (later : Counters NextCalls) : List (Event Handle) :=
  nextLoop (counterKinds.map fun kind => ((measurement, kind), later.get kind))

/-- The measurement is kept exactly when `cpu_load` returns it. -/
theorem cpuLoadTrace_isSome_iff (w measurement : Nat) (calls : Counters NewCalls) :
    (cpuLoadTrace measurement calls).2.isSome ↔ ∃ m, cpuLoad w calls = .ok m := by
  simp only [cpuLoadTrace, counterKinds, List.map_cons, List.map_nil, newLoop, Counters.get,
    cpuLoad, bind, Except.bind]
  cases performanceCounterNew calls.user with
  | error e => simp
  | ok _ =>
      cases performanceCounterNew calls.idle with
      | error e => simp
      | ok _ =>
          cases performanceCounterNew calls.system with
          | error e => simp
          | ok _ => cases performanceCounterNew calls.interrupt <;> simp [pure, Except.pure]

inductive Op
  | cpuLoad (calls : Counters NewCalls)
  | done (measurement : Nat) (later : Counters NextCalls)
  | drop (measurement : Nat)

structure Program where
  next : Nat
  live : List Nat

/-- Only a measurement that the program has can be finished or dropped. -/
def Program.step (self : Program) : Op → Option (List (Event Handle) × Program)
  | .cpuLoad calls =>
      let run := cpuLoadTrace self.next calls
      some (run.1, ⟨self.next + 1, if run.2.isSome then self.next :: self.live else self.live⟩)
  | .done measurement later =>
      if measurement ∈ self.live then some (doneTrace measurement later, self) else none
  | .drop measurement =>
      if measurement ∈ self.live then
        some ((handles measurement).map .release,
          { self with live := self.live.erase measurement })
      else none

def Program.run (self : Program) : List Op → Option (List (Event Handle) × Program)
  | [] => some ([], self)
  | op :: ops =>
      (self.step op).bind fun (events, next) =>
        (next.run ops).map fun (rest, last) => (events ++ rest, last)

/-- The queries that are open are those of the measurements that the program has. -/
structure Program.Owns (s : Program) (held : List Handle) : Prop where
  nodup : held.Nodup
  mem : ∀ h, h ∈ held ↔ h.1 ∈ s.live
  live_nodup : s.live.Nodup
  live_lt : ∀ m ∈ s.live, m < s.next

variable {s s' : Program} {held : List Handle} {events : List (Event Handle)}

theorem owns_cpuLoad (h : s.Owns held) (calls : Counters NewCalls) :
    ∃ held', holds held (cpuLoadTrace s.next calls).1 = some held' ∧
      Program.Owns ⟨s.next + 1, if (cpuLoadTrace s.next calls).2.isSome then s.next :: s.live
        else s.live⟩ held' := by
  have hnext : s.next ∉ s.live := fun hmem => Nat.lt_irrefl _ (h.live_lt _ hmem)
  let counters := counterKinds.map fun kind => ((s.next, kind), calls.get kind)
  have hnodup : (counters.map Prod.fst).Nodup := by simp [counters, counterKinds]
  have hfresh : ∀ counter ∈ counters, counter.1 ∉ [] ++ held := by
    intro counter hmem
    obtain ⟨kind, _, rfl⟩ := List.mem_map.mp hmem
    rw [List.nil_append, h.mem]
    exact hnext
  have hholds := holds_newLoop hnodup hfresh
  refine ⟨_, hholds, ?_⟩
  cases hopened : (cpuLoadTrace s.next calls).2 with
  | none =>
      have hnone : (newLoop (counterKinds.map fun kind => ((s.next, kind), calls.get kind))
          ([] : List Handle)).2 = none := hopened
      rw [hnone]
      exact ⟨h.nodup, h.mem, h.live_nodup, fun m hm => Nat.lt_succ_of_lt (h.live_lt m hm)⟩
  | some opened =>
      have hsome : (newLoop (counterKinds.map fun kind => ((s.next, kind), calls.get kind))
          ([] : List Handle)).2 = some opened := hopened
      have hhandles : ∀ q, q ∈ opened ↔ q.1 = s.next := by
        intro q
        rw [newLoop_eq_some hsome, List.append_nil, List.mem_reverse, List.map_map,
          ← mem_handles]
        rfl
      have hopened_nodup : opened.Nodup := by
        rw [newLoop_eq_some hsome, List.append_nil, List.nodup_reverse, List.map_map]
        exact nodup_handles s.next
      rw [hsome]
      refine ⟨?_, fun q => ?_, List.nodup_cons.mpr ⟨hnext, h.live_nodup⟩, ?_⟩
      · refine hopened_nodup.append h.nodup fun q hq hheld => ?_
        rw [hhandles] at hq
        rw [h.mem, hq] at hheld
        exact hnext hheld
      · simp only [Option.getD_some, List.mem_append, hhandles, h.mem, Option.isSome_some,
          if_true, List.mem_cons]
      · intro m hm
        rcases List.mem_cons.mp hm with rfl | hm
        · exact Nat.lt_succ_self _
        · exact Nat.lt_succ_of_lt (h.live_lt m hm)

theorem owns_drop (h : s.Owns held) {measurement : Nat} (hlive : measurement ∈ s.live) :
    ∃ held', holds held ((handles measurement).map .release) = some held' ∧
      Program.Owns { s with live := s.live.erase measurement } held' := by
  have hmem : ∀ q ∈ handles measurement, q ∈ held := fun q hq =>
    (h.mem q).mpr ((mem_handles.mp hq).symm ▸ hlive)
  obtain ⟨held', hholds, hnodup, hheld⟩ :=
    exists_holds_releases h.nodup (nodup_handles measurement) hmem
  refine ⟨held', hholds, hnodup, fun q => ?_, h.live_nodup.erase _, fun m hm =>
    h.live_lt m (List.mem_of_mem_erase hm)⟩
  rw [hheld, h.mem, mem_handles, h.live_nodup.mem_erase_iff]
  exact and_comm

theorem owns_step {op : Op} (hstep : s.step op = some (events, s')) (h : s.Owns held) :
    ∃ held', holds held events = some held' ∧ s'.Owns held' := by
  cases op with
  | cpuLoad calls =>
      rw [Program.step, Option.some.injEq, Prod.mk.injEq] at hstep
      obtain ⟨rfl, rfl⟩ := hstep
      exact owns_cpuLoad h calls
  | done measurement later =>
      rw [Program.step] at hstep
      split at hstep
      · rename_i hlive
        cases hstep
        refine ⟨held, holds_of_uses fun e he => ?_, h⟩
        obtain ⟨counter, hmem, rfl⟩ := mem_nextLoop he
        obtain ⟨kind, _, rfl⟩ := List.mem_map.mp hmem
        exact ⟨_, (h.mem _).mpr hlive, rfl⟩
      · cases hstep
  | drop measurement =>
      rw [Program.step] at hstep
      split at hstep
      · rename_i hlive
        cases hstep
        exact owns_drop h hlive
      · cases hstep

theorem owns_run {ops : List Op} (hrun : s.run ops = some (events, s')) (h : s.Owns held) :
    ∃ held', holds held events = some held' ∧ s'.Owns held' := by
  induction ops generalizing s held events with
  | nil =>
      cases hrun
      exact ⟨held, rfl, h⟩
  | cons op ops ih =>
      rw [Program.run] at hrun
      obtain ⟨⟨es, next⟩, hstep, hrest⟩ := Option.bind_eq_some_iff.mp hrun
      obtain ⟨⟨rest, last⟩, hlast, heq⟩ := Option.map_eq_some_iff.mp hrest
      cases heq
      obtain ⟨held', hes, hnext⟩ := owns_step hstep h
      obtain ⟨held'', hrest, hlast⟩ := ih hlast hnext
      refine ⟨held'', ?_, hlast⟩
      rw [holds_append, hes]
      exact hrest

/-- However a program starts, finishes and drops measurements and however the calls
answer, no query is used before it is open or after it is closed, none is closed twice,
the open ones are those of the measurements it still has, and a program that has none
left has closed as many as it has opened. -/
theorem queryHandles_owned (ops : List Op) :
    ∀ events s, Program.run ⟨0, []⟩ ops = some (events, s) →
      (∃ held, holds [] events = some held ∧ held.Nodup ∧ ∀ h : Handle, h ∈ held ↔ h.1 ∈ s.live) ∧
      (s.live = [] → Clean events ∧
        ∀ h, events.count (.acquire h) = events.count (.release h)) := by
  intro events s hrun
  have hstart : Program.Owns ⟨0, []⟩ [] := ⟨List.nodup_nil, by simp, List.nodup_nil, by simp⟩
  obtain ⟨held, hholds, hnodup, hmem, _, _⟩ := owns_run hrun hstart
  refine ⟨⟨held, hholds, hnodup, hmem⟩, fun hlive => ?_⟩
  have hnil : held = [] := List.eq_nil_iff_forall_not_mem.mpr fun q hq => by
    rw [hmem, hlive] at hq
    cases hq
  have hclean : Clean events := hholds.trans (congrArg some hnil)
  exact ⟨hclean, hclean.count_eq⟩

/-- The third counter of a first measurement fails to open, and a second one is finished
once. -/
def twoMeasurements : List Op :=
  let made : NewCalls := ⟨0, 0, 0⟩
  let next : NextCalls := ⟨0, 0, 0, []⟩
  [.cpuLoad ⟨made, made, ⟨0xC0000BB9, 0, 0⟩, made⟩, .cpuLoad ⟨made, made, made, made⟩,
    .done 1 ⟨next, next, next, next⟩, .drop 1]

theorem queryHandles_owned_two : ∃ events s,
    Program.run ⟨0, []⟩ twoMeasurements = some (events, s) ∧ s.live = [] ∧ Clean events := by
  obtain ⟨⟨events, s⟩, hrun⟩ := Option.isSome_iff_exists.mp
    (show (Program.run ⟨0, []⟩ twoMeasurements).isSome by decide)
  have hlive : s.live = [] := by
    have hmap : (Program.run ⟨0, []⟩ twoMeasurements).map (fun r => r.2.live) = some [] := by decide
    rw [hrun] at hmap
    exact Option.some.inj hmap
  exact ⟨events, s, hrun, hlive, ((queryHandles_owned twoMeasurements events s hrun).2 hlive).1⟩

end Systemstat.Windows
