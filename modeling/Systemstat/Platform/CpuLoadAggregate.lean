import Systemstat.Data
import Mathlib.Data.List.Permutation
import Mathlib.Tactic.FieldSimp
import Mathlib.Tactic.Linarith
import Mathlib.Tactic.Ring

/-! # The aggregate CPU load

`cpu_load_aggregate` folds the per-CPU loads with a pairwise average, so that
each CPU counts half as much as the one after it. What the fold computes is
compared with the average over all CPUs that its documentation promises.
-/

namespace Systemstat.Platform

/-- The closure of `cpu_load_aggregate`; `none` is the panic of `unwrap` on an
empty list. -/
def aggregateLoads : List CPULoad → Option CPULoad
  | [] => none
  | first :: it => some (it.foldl CPULoad.avgAdd first)

/-- The trait's default `cpu_load_aggregate` over an implementation of `cpu_load`. -/
def cpuLoadAggregate {σ : Type} (cpuLoad : IoResult (DelayedMeasurement σ (List CPULoad))) :
    IoResult (DelayedMeasurement σ (Option CPULoad)) := do
  let measurement ← cpuLoad
  return ⟨fun sys => (measurement.done sys).map aggregateLoads⟩

def aggregateResult {σ : Type} (cpuLoad : IoResult (DelayedMeasurement σ (List CPULoad)))
    (sys : σ) : IoResult (Option CPULoad) := do
  let measurement ← cpuLoadAggregate cpuLoad
  measurement.done sys

def measured (σ : Type) (ls : List CPULoad) : IoResult (DelayedMeasurement σ (List CPULoad)) :=
  .ok ⟨fun _ => .ok ls⟩

theorem aggregateResult_eq {σ : Type} (m : DelayedMeasurement σ (List CPULoad)) (sys : σ) :
    aggregateResult (.ok m) sys = (m.done sys).map aggregateLoads := rfl

theorem aggregateResult_measured {σ : Type} (sys : σ) (ls : List CPULoad) :
    aggregateResult (measured σ ls) sys = .ok (aggregateLoads ls) :=
  aggregateResult_eq ⟨fun _ => .ok ls⟩ sys

/-! ## The average over all CPUs -/

def meanOf (field : CPULoad → ℚ) (ls : List CPULoad) : ℚ := (ls.map field).sum / ls.length

def mean (ls : List CPULoad) : CPULoad where
  user := meanOf (·.user) ls
  nice := meanOf (·.nice) ls
  system := meanOf (·.system) ls
  interrupt := meanOf (·.interrupt) ls
  idle := meanOf (·.idle) ls
  platform := ⟨meanOf (·.platform.iowait) ls⟩

/-- A field that the pairwise average treats as a number. -/
def Averaged (field : CPULoad → ℚ) : Prop :=
  ∀ l r : CPULoad, field (l.avgAdd r) = (field l + field r) / 2

theorem ext_of_averaged {l r : CPULoad} (h : ∀ field, Averaged field → field l = field r) :
    l = r := by
  apply CPULoad.ext
  · exact h (·.user) fun _ _ => rfl
  · exact h (·.nice) fun _ _ => rfl
  · exact h (·.system) fun _ _ => rfl
  · exact h (·.interrupt) fun _ _ => rfl
  · exact h (·.idle) fun _ _ => rfl
  · exact PlatformCpuLoad.ext (h (·.platform.iowait) fun _ _ => rfl)

theorem eq_mean_iff {l : CPULoad} {ls : List CPULoad} :
    l = mean ls ↔ l.user = meanOf (·.user) ls ∧ l.nice = meanOf (·.nice) ls ∧
      l.system = meanOf (·.system) ls ∧ l.interrupt = meanOf (·.interrupt) ls ∧
      l.idle = meanOf (·.idle) ls ∧ l.platform.iowait = meanOf (·.platform.iowait) ls := by
  simp only [CPULoad.ext_iff, PlatformCpuLoad.ext_iff, mean]

/-- Loads whose averaged fields are the means over the list are the mean of the list. -/
theorem eq_mean_of_averaged {l : CPULoad} {ls : List CPULoad}
    (h : ∀ field, Averaged field → field l = meanOf field ls) : l = mean ls :=
  eq_mean_iff.mpr ⟨h (·.user) fun _ _ => rfl, h (·.nice) fun _ _ => rfl,
    h (·.system) fun _ _ => rfl, h (·.interrupt) fun _ _ => rfl, h (·.idle) fun _ _ => rfl,
    h (·.platform.iowait) fun _ _ => rfl⟩

theorem avgAdd_self (l : CPULoad) : l.avgAdd l = l :=
  ext_of_averaged fun field hf => by rw [hf]; ring

theorem foldl_avgAdd_of_eq {first : CPULoad} {it : List CPULoad} (h : ∀ l ∈ it, l = first) :
    it.foldl CPULoad.avgAdd first = first := by
  induction it with
  | nil => rfl
  | cons l it ih =>
      rw [List.foldl_cons, h l (by simp), avgAdd_self]
      exact ih fun m hm => h m (by simp [hm])

theorem meanOf_of_eq (field : CPULoad → ℚ) {first : CPULoad} {it : List CPULoad}
    (h : ∀ l ∈ it, l = first) : meanOf field (first :: it) = field first := by
  have hrep : (first :: it).map field = List.replicate (it.length + 1) (field first) := by
    rw [List.eq_replicate_iff]
    refine ⟨by simp, fun x hx => ?_⟩
    obtain ⟨l, hl, rfl⟩ := List.mem_map.mp hx
    rcases List.mem_cons.mp hl with rfl | hl
    · rfl
    · rw [h l hl]
  have hne : ((it.length : ℚ) + 1) ≠ 0 := by positivity
  rw [meanOf, hrep, List.sum_replicate, List.length_cons, nsmul_eq_mul]
  push_cast
  field_simp

/-! ## When the fold is the average -/

theorem aggregateLoads_append (l a b : CPULoad) (ls : List CPULoad) :
    aggregateLoads ((l :: ls) ++ [a, b]) =
      some (((ls.foldl CPULoad.avgAdd l).avgAdd a).avgAdd b) := by
  simp [aggregateLoads, List.foldl_append]

/-- Exchanging the last two CPUs is seen by the fold unless they are equal. -/
theorem eq_of_aggregateLoads_swap {l a b : CPULoad} {ls : List CPULoad}
    (h : aggregateLoads ((l :: ls) ++ [a, b]) = aggregateLoads ((l :: ls) ++ [b, a])) :
    a = b := by
  rw [aggregateLoads_append, aggregateLoads_append, Option.some.injEq] at h
  apply ext_of_averaged
  intro field hf
  have hfield := congrArg field h
  simp only [hf _ _] at hfield
  linarith

theorem exists_perm_pair_last {a b : CPULoad} {ls : List CPULoad} (ha : a ∈ ls) (hb : b ∈ ls)
    (hne : a ≠ b) (hlen : 3 ≤ ls.length) :
    ∃ l rest, ls.Perm ((l :: rest) ++ [a, b]) ∧ ls.Perm ((l :: rest) ++ [b, a]) := by
  have hb' : b ∈ ls.erase a := (List.mem_erase_of_ne (Ne.symm hne)).mpr hb
  have hperm : ls.Perm (a :: b :: (ls.erase a).erase b) :=
    (List.perm_cons_erase ha).trans ((List.perm_cons_erase hb').cons a)
  have hback : ([a, b] ++ (ls.erase a).erase b).Perm ((ls.erase a).erase b ++ [a, b]) :=
    List.perm_append_comm
  have hlast : ls.Perm ((ls.erase a).erase b ++ [a, b]) := hperm.trans hback
  cases hrest : (ls.erase a).erase b with
  | nil =>
      have := hperm.length_eq
      rw [hrest] at this
      simp at this
      omega
  | cons l rest =>
      rw [hrest] at hlast
      exact ⟨l, rest, hlast, hlast.trans ((List.Perm.swap b a []).append_left _)⟩

theorem avgAdd_comm (l r : CPULoad) : l.avgAdd r = r.avgAdd l :=
  ext_of_averaged fun field hf => by rw [hf, hf, add_comm]

theorem mean_pair (l r : CPULoad) : l.avgAdd r = mean [l, r] :=
  eq_mean_of_averaged fun field hf => by
    rw [hf, meanOf]
    norm_num

/-- Two CPUs at most are averaged, whichever comes first. -/
theorem aggregateLoads_of_length_le {first : CPULoad} {it : List CPULoad} (h : it.length ≤ 1) :
    aggregateLoads (first :: it) = some (mean (first :: it)) ∧
      ∀ ls, (first :: it).Perm ls → aggregateLoads ls = aggregateLoads (first :: it) := by
  cases it with
  | nil =>
      have hmean : first = mean [first] :=
        eq_mean_of_averaged fun field _ => (meanOf_of_eq field (by simp)).symm
      constructor
      · show some first = some (mean [first])
        rw [← hmean]
      · intro ls hls
        rw [List.singleton_perm.mp hls]
  | cons l rest =>
      rw [List.length_cons] at h
      obtain rfl : rest = [] := List.length_eq_zero_iff.mp (by omega)
      constructor
      · show some (first.avgAdd l) = some (mean [first, l])
        rw [mean_pair]
      · intro ls hls
        rcases List.pair_perm.mp hls with rfl | rfl
        · rfl
        · show some (l.avgAdd first) = some (first.avgAdd l)
          rw [avgAdd_comm]

/-- CPUs of one and the same load have it as their average, in any order. -/
theorem aggregateLoads_of_eq {first : CPULoad} {it : List CPULoad} (h : ∀ l ∈ it, l = first) :
    aggregateLoads (first :: it) = some (mean (first :: it)) ∧
      ∀ ls, (first :: it).Perm ls → aggregateLoads ls = aggregateLoads (first :: it) := by
  constructor
  · rw [aggregateLoads, foldl_avgAdd_of_eq h]
    exact congrArg some (eq_mean_of_averaged fun field _ => (meanOf_of_eq field h).symm)
  · intro ls hls
    have hrep : first :: it = List.replicate (it.length + 1) first :=
      List.eq_replicate_iff.mpr ⟨rfl, by simpa using h⟩
    rw [hrep] at hls ⊢
    rw [List.replicate_perm.mp hls]

/-- The fold sees no order of the CPUs exactly when there are at most two of them
or all loads are equal. -/
theorem aggregateLoads_perm_iff (first : CPULoad) (it : List CPULoad) :
    (∀ ls, (first :: it).Perm ls → aggregateLoads ls = aggregateLoads (first :: it)) ↔
    (it.length ≤ 1 ∨ ∀ l ∈ it, l = first) := by
  constructor
  · intro hperm
    by_cases hlen : it.length ≤ 1
    · exact .inl hlen
    · refine .inr fun l hl => ?_
      by_contra hne
      have hmem : l ∈ first :: it := List.mem_cons_of_mem _ hl
      obtain ⟨m, rest, h₁, h₂⟩ := exists_perm_pair_last hmem List.mem_cons_self hne
        (by rw [List.length_cons]; omega)
      exact hne (eq_of_aggregateLoads_swap ((hperm _ h₁).trans (hperm _ h₂).symm))
  · rintro (hlen | heq)
    · exact (aggregateLoads_of_length_le hlen).2
    · exact (aggregateLoads_of_eq heq).2

/-- The aggregate is the average over all CPUs, in any order, exactly when there
are at most two CPUs or all loads are equal. -/
theorem aggregateResult_eq_mean_iff {σ : Type} (sys : σ) (first : CPULoad) (it : List CPULoad) :
    (aggregateResult (measured σ (first :: it)) sys = .ok (some (mean (first :: it))) ∧
      ∀ ls, (first :: it).Perm ls →
        aggregateResult (measured σ ls) sys = aggregateResult (measured σ (first :: it)) sys) ↔
    (it.length ≤ 1 ∨ ∀ l ∈ it, l = first) := by
  simp only [aggregateResult_measured, Except.ok.injEq]
  constructor
  · rintro ⟨_, hperm⟩
    exact (aggregateLoads_perm_iff first it).mp hperm
  · rintro (hlen | heq)
    · exact aggregateLoads_of_length_le hlen
    · exact aggregateLoads_of_eq heq

def userLoad (user : ℚ) : CPULoad := ⟨user, 0, 0, 0, 1 - user, ⟨0⟩⟩

theorem aggregateResult_last_of_three :
    ¬ ∀ (first : CPULoad) (it : List CPULoad),
      aggregateResult (measured Unit (first :: it)) () = .ok (some (mean (first :: it))) ∧
        ∀ ls, (first :: it).Perm ls →
          aggregateResult (measured Unit ls) () =
            aggregateResult (measured Unit (first :: it)) () := by
  intro h
  have hmean := (h (userLoad 0) [userLoad 0, userLoad 1]).1
  rw [aggregateResult_measured, Except.ok.injEq] at hmean
  revert hmean
  decide +kernel

end Systemstat.Platform
