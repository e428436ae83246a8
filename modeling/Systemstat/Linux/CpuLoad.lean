import Systemstat.Linux.ProcStat
import Mathlib.Data.List.Forall2
import Mathlib.Tactic.NormNum

/-! # CPU load

`cpu_load` subtracts two readings of `/proc/stat` position by position. The
CPU numbers are not kept, so the positions belong to the same CPUs exactly when
one of the two lists of online CPUs continues the other.
-/

namespace Systemstat.Linux

open Nom Text

variable {w : Nat}

def cpuTime (w : Nat) (files : Files) : IoResult (List (CpuTime w)) := do
  let data ← readFile files "/proc/stat"
  parsed (procStatCpuTimes w data)

def cpuLoad (w : Nat) (files : Files) : IoResult (DelayedMeasurement Files (List CPULoad)) := do
  let times ← cpuTime w files
  return ⟨fun later => do
    let delayTimes ← cpuTime w later
    return List.zipWith (fun now prev => (now.sub prev).toCpuload) delayTimes times⟩

/-- `cpu_load().done()`, with the files at the call and at `done`. -/
def cpuLoadDone (w : Nat) (before after : Files) : IoResult (List CPULoad) := do
  let measurement ← cpuLoad w before
  measurement.done after

/-! ## Snapshots -/

/-- A reading of `/proc/stat`: the CPUs online, in ascending order, and then
lines that are no CPU lines. -/
structure Snapshot (w : Nat) extends ProcStat w where
  ascending : (cpus.map CpuRecord.cpu).Pairwise (· < ·)
  tail_other : ∀ l ∈ firstNonBlank tail, ¬ "cpu".toList <+: skip l

namespace Snapshot

def online (s : Snapshot w) : List Nat := s.cpus.map CpuRecord.cpu

def Reads (s : Snapshot w) (files : Files) : Prop :=
  readFile files "/proc/stat" = .ok s.render

end Snapshot

theorem cpuTime_snapshot {s : Snapshot w} {files : Files} (h : s.Reads files) :
    cpuTime w files = .ok (s.cpus.map CpuRecord.cpuTime) := by
  obtain ⟨rest, hy⟩ := procStatCpuTimes_file s.toProcStat
  rw [cpuTimesOf_tail s.tail_cr s.tail_other, List.append_nil] at hy
  have hread : readFile files "/proc/stat" = .ok s.render := h
  simp only [cpuTime, hread]
  exact parsed_yields hy

def loadBetween (now prev : CpuRecord w) : CPULoad := (now.cpuTime.sub prev.cpuTime).toCpuload

theorem cpuLoadDone_snapshots {prev now : Snapshot w} {before after : Files}
    (hprev : prev.Reads before) (hnow : now.Reads after) :
    cpuLoadDone w before after = .ok (List.zipWith loadBetween now.cpus prev.cpus) := by
  have hbefore := cpuTime_snapshot hprev
  have hafter := cpuTime_snapshot hnow
  have hzip : List.zipWith (fun now prev : CpuTime w => (now.sub prev).toCpuload)
      (now.cpus.map CpuRecord.cpuTime) (prev.cpus.map CpuRecord.cpuTime) =
      List.zipWith loadBetween now.cpus prev.cpus := by
    rw [List.zipWith_map]
    rfl
  simp only [cpuLoadDone, cpuLoad, hbefore, DelayedMeasurement.done, bind, Except.bind, pure,
    Except.pure, hafter, hzip]

/-! ## Each CPU with itself -/

/-- A load belongs to CPU `c` when it is the difference of two lines of `c`. -/
def LoadOf (prev now : Snapshot w) (c : Nat) (load : CPULoad) : Prop :=
  ∃ p ∈ prev.cpus, ∃ n ∈ now.cpus, p.cpu = c ∧ n.cpu = c ∧ load = loadBetween n p

/-- The loads are those of the CPUs in both snapshots, each once. -/
def EachCpuOnce (prev now : Snapshot w) (loads : List CPULoad) : Prop :=
  ∃ cs : List Nat, cs.Nodup ∧ (∀ c, c ∈ cs ↔ c ∈ prev.online ∧ c ∈ now.online) ∧
    List.Forall₂ (LoadOf prev now) cs loads

theorem forall₂_zipWith_of_isPrefix {α β γ : Type} (key : α → Nat) (key' : β → Nat) (f : α → β → γ)
    {xs : List α} {ys : List β} (h : xs.map key <+: ys.map key') :
    List.Forall₂ (fun c z => ∃ x ∈ xs, ∃ y ∈ ys, key x = c ∧ key' y = c ∧ z = f x y)
      (xs.map key) (List.zipWith f xs ys) := by
  induction xs generalizing ys with
  | nil => exact .nil
  | cons x xs ih =>
      cases ys with
      | nil => simp at h
      | cons y ys =>
          rw [List.map_cons, List.map_cons, List.cons_prefix_cons] at h
          refine .cons ⟨x, by simp, y, by simp, rfl, h.1.symm, rfl⟩ ((ih h.2).imp ?_)
          rintro c z ⟨x', hx', y', hy', hkey, hkey', hz⟩
          exact ⟨x', by simp [hx'], y', by simp [hy'], hkey, hkey', hz⟩

theorem Snapshot.nodup_online (s : Snapshot w) : s.online.Nodup :=
  s.ascending.imp fun h => h.ne

/-- When one list of CPUs continues the other, positions belong to the same CPU. -/
theorem eachCpuOnce_of_isPrefix {prev now : Snapshot w}
    (h : prev.online <+: now.online ∨ now.online <+: prev.online) :
    EachCpuOnce prev now (List.zipWith loadBetween now.cpus prev.cpus) := by
  rcases h with h | h
  · refine ⟨prev.online, prev.nodup_online, fun c => ?_, ?_⟩
    · exact ⟨fun hc => ⟨hc, h.subset hc⟩, And.left⟩
    · rw [List.zipWith_comm]
      exact forall₂_zipWith_of_isPrefix CpuRecord.cpu CpuRecord.cpu (fun p n => loadBetween n p) h
  · refine ⟨now.online, now.nodup_online, fun c => ?_, ?_⟩
    · exact ⟨fun hc => ⟨h.subset hc, hc⟩, And.right⟩
    · refine (forall₂_zipWith_of_isPrefix CpuRecord.cpu CpuRecord.cpu loadBetween h).imp ?_
      rintro c z ⟨n, hn, p, hp, hnc, hpc, hz⟩
      exact ⟨p, hp, n, hn, hpc, hnc, hz⟩

/-! ## CPUs that are mistaken for each other -/

theorem exists_split_of_not_isPrefix {α : Type} [DecidableEq α] {as bs : List α}
    (h : ¬ (as <+: bs ∨ bs <+: as)) :
    ∃ pre a as' b bs', as = pre ++ a :: as' ∧ bs = pre ++ b :: bs' ∧ a ≠ b := by
  induction as generalizing bs with
  | nil => exact absurd (.inl (List.nil_prefix)) h
  | cons a as ih =>
      cases bs with
      | nil => exact absurd (.inr (List.nil_prefix)) h
      | cons b bs =>
          by_cases hab : a = b
          · subst hab
            rw [List.cons_prefix_cons, List.cons_prefix_cons] at h
            have hrest : ¬ (as <+: bs ∨ bs <+: as) := by
              rintro (hpre | hpre)
              · exact h (.inl ⟨rfl, hpre⟩)
              · exact h (.inr ⟨rfl, hpre⟩)
            obtain ⟨pre, x, xs, y, ys, hx, hy, hne⟩ := ih hrest
            exact ⟨a :: pre, x, xs, y, ys, by rw [hx]; rfl, by rw [hy]; rfl, hne⟩
          · exact ⟨[], a, as, b, bs, rfl, rfl, hab⟩

/-- The smaller of the first two different CPUs is missing from the other list. -/
theorem not_mem_of_lt {pre bs : List Nat} {a b : Nat} {as : List Nat}
    (ha : (pre ++ a :: as).Pairwise (· < ·)) (hb : (pre ++ b :: bs).Pairwise (· < ·))
    (hab : a < b) : a ∉ pre ++ b :: bs := by
  rw [List.pairwise_append] at ha hb
  intro hm
  rcases List.mem_append.mp hm with hm | hm
  · exact (ha.2.2 a hm a (by simp)).false
  · rcases List.mem_cons.mp hm with rfl | hm
    · omega
    · have := List.rel_of_pairwise_cons hb.2.1 hm
      omega

def userRecord (c : Nat) (user : BitVec w) : CpuRecord w :=
  ⟨c, [(0, user), (0, 0#w), (0, 0#w), (0, 0#w), (0, 0#w), (0, 0#w)], le_refl 6⟩

def userSnapshot (online : List Nat) (hne : online ≠ []) (h : online.Pairwise (· < ·))
    (user : Nat → BitVec w) : Snapshot w where
  aggregate := []
  aggregate_body := by decide
  cpus := online.map fun c => userRecord c (user c)
  cpus_ne := by simpa using hne
  tail := []
  tail_cr := by simp
  tail_ended := .inl rfl
  ascending := by simpa [Function.comp_def, userRecord] using h
  tail_other := by simp [firstNonBlank, lines]

theorem loadBetween_user_eq_zero_iff (c d : Nat) (u v : BitVec w) :
    (loadBetween (userRecord c u) (userRecord d v)).user = 0 ↔ u ≤ v := by
  have hsub : (userRecord c u).cpuTime.sub (userRecord d v).cpuTime =
      ⟨saturatingSub u v, 0#w, 0#w, 0#w, 0#w, 0#w⟩ := by
    simp [CpuTime.sub, CpuRecord.cpuTime, CpuRecord.counter, userRecord, saturatingSub]
  have hzero : saturatingSub u v = 0#w ↔ u ≤ v := by
    rw [← BitVec.toNat_inj, saturatingSub_toNat, BitVec.toNat_zero, BitVec.le_def]
    omega
  rw [loadBetween, hsub, ← hzero]
  by_cases h : saturatingSub u v = 0#w
  · simp [CpuTime.toCpuload, h]
  · have hne : (saturatingSub u v).toNat ≠ 0 := by
      rwa [← BitVec.toNat_inj, BitVec.toNat_zero] at h
    simp [CpuTime.toCpuload, h, hne]

theorem exists_mem_of_forall₂ {α β : Type} {R : α → β → Prop} {xs : List α} {ys : List β}
    (h : List.Forall₂ R xs ys) {y : β} (hy : y ∈ ys) : ∃ x ∈ xs, R x y := by
  induction h with
  | nil => cases hy
  | cons hxy _ ih =>
      rcases List.mem_cons.mp hy with rfl | hy
      · exact ⟨_, List.mem_cons_self, hxy⟩
      · obtain ⟨x, hx, hR⟩ := ih hy
        exact ⟨x, List.mem_cons_of_mem _ hx, hR⟩

/-- Counters that tell the first mismatched pair from every CPU's own. -/
theorem not_eachCpuOnce {pre as bs : List Nat} {a b : Nat} {prevUser nowUser : Nat → BitVec w}
    (ha : (pre ++ a :: as).Pairwise (· < ·)) (hb : (pre ++ b :: bs).Pairwise (· < ·))
    (hpair : ¬ nowUser b ≤ prevUser a)
    (hown : ∀ c, c ∈ pre ++ a :: as → c ∈ pre ++ b :: bs → nowUser c ≤ prevUser c) :
    let prev := userSnapshot (pre ++ a :: as) (by simp) ha prevUser
    let now := userSnapshot (pre ++ b :: bs) (by simp) hb nowUser
    ¬ EachCpuOnce prev now (List.zipWith loadBetween now.cpus prev.cpus) := by
  rintro prev now ⟨cs, _, hcs, hloads⟩
  have hmem : loadBetween (userRecord b (nowUser b)) (userRecord a (prevUser a)) ∈
      List.zipWith loadBetween now.cpus prev.cpus := by
    simp only [now, prev, userSnapshot, List.map_append, List.map_cons]
    rw [List.zipWith_append (by simp)]
    simp
  obtain ⟨c, hc, p, hp, n, hn, hpc, hnc, hload⟩ := exists_mem_of_forall₂ hloads hmem
  obtain ⟨c₁, hc₁, rfl⟩ := List.mem_map.mp hp
  obtain ⟨c₂, hc₂, rfl⟩ := List.mem_map.mp hn
  have hc₁' : c₁ = c := hpc
  have hc₂' : c₂ = c := hnc
  subst hc₁' hc₂'
  have hzero := (loadBetween_user_eq_zero_iff c₂ c₂ _ _).mpr (hown c₂ hc₁ hc₂)
  rw [← hload] at hzero
  exact hpair ((loadBetween_user_eq_zero_iff _ _ _ _).mp hzero)

theorem exists_not_eachCpuOnce (hw : 0 < w) {as bs : List Nat} (ha : as.Pairwise (· < ·))
    (hb : bs.Pairwise (· < ·)) (h : ¬ (as <+: bs ∨ bs <+: as)) :
    ∃ prev now : Snapshot w, prev.online = as ∧ now.online = bs ∧
      ¬ EachCpuOnce prev now (List.zipWith loadBetween now.cpus prev.cpus) := by
  obtain ⟨pre, a, as, b, bs, rfl, rfl, hne⟩ := exists_split_of_not_isPrefix h
  have hone : ¬ 1#w ≤ 0#w := by
    rw [BitVec.le_def, BitVec.toNat_zero, BitVec.toNat_one hw]
    omega
  have honline : ∀ (online : List Nat) (hne : online ≠ []) (h : online.Pairwise (· < ·))
      (user : Nat → BitVec w), (userSnapshot online hne h user).online = online := by
    intro online hne h user
    simp [Snapshot.online, userSnapshot, Function.comp_def, userRecord]
  rcases Nat.lt_or_gt_of_ne hne with hab | hab
  · have hmissing := not_mem_of_lt ha hb hab
    refine ⟨_, _, honline _ (by simp) ha fun c => if c = a then 0#w else 1#w,
      honline _ (by simp) hb fun _ => 1#w, not_eachCpuOnce ha hb (by simpa using hone) ?_⟩
    intro c _ hc
    have : c ≠ a := fun heq => hmissing (heq ▸ hc)
    simp [this]
  · have hmissing := not_mem_of_lt hb ha hab
    refine ⟨_, _, honline _ (by simp) ha fun _ => 0#w,
      honline _ (by simp) hb fun c => if c = b then 1#w else 0#w,
      not_eachCpuOnce ha hb (by simpa using hone) ?_⟩
    intro c hc _
    have : c ≠ b := fun heq => hmissing (heq ▸ hc)
    simp [this]

/-- What is asked of every moment with these readings is asked of the pairing itself. -/
theorem eachCpuOnce_of_done {prev now : Snapshot w}
    (h : ∀ before after : Files, prev.Reads before → now.Reads after →
      ∃ loads, cpuLoadDone w before after = .ok loads ∧ EachCpuOnce prev now loads) :
    EachCpuOnce prev now (List.zipWith loadBetween now.cpus prev.cpus) := by
  have hprev : prev.Reads fun _ => .ok prev.render := rfl
  have hnow : now.Reads fun _ => .ok now.render := rfl
  obtain ⟨loads, hloads, heach⟩ := h _ _ hprev hnow
  rw [cpuLoadDone_snapshots hprev hnow, Except.ok.injEq] at hloads
  exact hloads ▸ heach

/-- Whatever the counters are, each CPU is compared with itself exactly when one
list of online CPUs continues the other. -/
theorem cpuLoadDone_each_cpu_iff (hw : 0 < w) {as bs : List Nat} (ha : as.Pairwise (· < ·))
    (hb : bs.Pairwise (· < ·)) :
    (∀ (prev now : Snapshot w) (before after : Files), prev.online = as → now.online = bs →
      prev.Reads before → now.Reads after →
      ∃ loads, cpuLoadDone w before after = .ok loads ∧ EachCpuOnce prev now loads) ↔
    (as <+: bs ∨ bs <+: as) := by
  constructor
  · intro h
    by_contra hnot
    obtain ⟨prev, now, hprev, hnow, hmistaken⟩ := exists_not_eachCpuOnce hw ha hb hnot
    exact hmistaken (eachCpuOnce_of_done fun before after => h prev now before after hprev hnow)
  · rintro h prev now before after rfl rfl hbefore hafter
    exact ⟨_, cpuLoadDone_snapshots hbefore hafter, eachCpuOnce_of_isPrefix h⟩

theorem cpuLoadDone_each_cpu_iff_added :
    (∀ (prev now : Snapshot 64) (before after : Files), prev.online = [0, 1] →
      now.online = [0, 1, 2] → prev.Reads before → now.Reads after →
      ∃ loads, cpuLoadDone 64 before after = .ok loads ∧ EachCpuOnce prev now loads) ↔
    ([0, 1] <+: [0, 1, 2] ∨ [0, 1, 2] <+: [0, 1]) :=
  cpuLoadDone_each_cpu_iff (by decide) (by decide) (by decide)

/-- CPU 1 goes offline between the calls, and CPU 2 is compared with it. -/
theorem cpuLoadDone_offline_cpu :
    ¬ ∀ (prev now : Snapshot 64) (before after : Files), prev.Reads before → now.Reads after →
      ∃ loads, cpuLoadDone 64 before after = .ok loads ∧ EachCpuOnce prev now loads := by
  intro h
  have hprev : ([0] ++ 1 :: [2]).Pairwise (· < ·) := by decide
  have hnow : ([0] ++ 2 :: []).Pairwise (· < ·) := by decide
  let prevUser : Nat → BitVec 64 := fun c => if c = 1 then 0 else 1
  let nowUser : Nat → BitVec 64 := fun _ => 1
  have hpair : ¬ nowUser 2 ≤ prevUser 1 := by decide
  refine not_eachCpuOnce hprev hnow hpair (fun c _ hc => ?_) (eachCpuOnce_of_done (h _ _))
  have hne : c ≠ 1 := fun heq => absurd (heq ▸ hc) (by decide)
  simp [prevUser, nowUser, hne]

end Systemstat.Linux
