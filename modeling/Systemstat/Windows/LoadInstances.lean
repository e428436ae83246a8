import Systemstat.Text.Integers
import Systemstat.Windows.CpuLoad

/-! # The instances of the processor counters

Each counter answers with an instance for every processor, named by its number, and one
for the total, in an order of its own. Whatever the four orders are, every processor
gets its four values in its place, and the total goes nowhere.
-/

namespace Systemstat.Windows

open Nom Text Collections

structure Percentages where
  user : ℚ
  idle : ℚ
  system : ℚ
  interrupt : ℚ

def Percentages.load (p : Percentages) : CPULoad :=
  ⟨p.user / 100, 0, p.system / 100, p.interrupt / 100, p.idle / 100, .zero⟩

/-- The name and the value of an item, up to where the name ends. -/
def CounterItem.entry (item : CounterItem) : Bytes × ℚ := (cString item.szName, item.doubleValue)

/-- What a counter has to show: the total, and a value for each processor. -/
def instances (total : ℚ) (values : List ℚ) : List (Bytes × ℚ) :=
  (utf8 "_Total".toList, total) ::
    values.zipIdx.map fun (value, n) => (utf8 (decimal n), value)

def ShowsInstances (values : List ℚ) (items : List CounterItem) : Prop :=
  ∃ total, (items.map CounterItem.entry).Perm (instances total values)

structure ShowsProcessors (processors : List Percentages) (items : Counters (List CounterItem)) :
    Prop where
  user : ShowsInstances (processors.map Percentages.user) items.user
  idle : ShowsInstances (processors.map Percentages.idle) items.idle
  system : ShowsInstances (processors.map Percentages.system) items.system
  interrupt : ShowsInstances (processors.map Percentages.interrupt) items.interrupt

variable {w : Nat} {values : List ℚ} {items : List CounterItem}

/-! ## Names -/

def nameNumber (w : Nat) (name : Bytes) : Option Nat :=
  (unsignedFromStr w (toStringLossy name)).map BitVec.toNat

theorem nameNumber_total : nameNumber w (utf8 "_Total".toList) = none := by
  rw [nameNumber, toStringLossy_utf8, Option.map_eq_none_iff, unsignedFromStr_eq_none_iff]
  rintro n ⟨ds, hds, rfl | hplus, _⟩
  · exact absurd (hds.2 '_' (by simp)) (by decide)
  · cases hplus

theorem nameNumber_decimal {n : Nat} (hn : n < 2 ^ w) :
    nameNumber w (utf8 (decimal n)) = some n := by
  have hvalue := ofDigitChars_decimal n
  rw [nameNumber, toStringLossy_utf8, unsignedFromStr_of_lt (decimal_isDigits n) (by omega),
    hvalue, Option.map_some, BitVec.toNat_ofNat, Nat.mod_eq_of_lt hn]

theorem decimal_ne_total (n : Nat) : decimal n ≠ "_Total".toList := by
  intro h
  have hdigit := (decimal_isDigits n).2 '_' (h ▸ by simp)
  exact absurd hdigit (by decide)

/-! ## One counter -/

theorem filter_zipIdx (values : List ℚ) (n i : Nat) :
    ((values.zipIdx i).filter fun p => p.2 = i + n).map Prod.fst = values[n]?.toList := by
  induction values generalizing n i with
  | nil => rfl
  | cons value values ih =>
      rw [List.zipIdx_cons]
      cases n with
      | zero =>
          rw [List.filter_cons_of_pos (by simp), List.getElem?_cons_zero, List.map_cons,
            List.filter_eq_nil_iff.mpr]
          · rfl
          · rintro ⟨v, k⟩ hmem
            have := List.le_snd_of_mem_zipIdx hmem
            simp
            omega
      | succ n =>
          rw [List.filter_cons_of_neg (by simp), List.getElem?_cons_succ, ← ih n (i + 1)]
          congr 2
          funext p
          simp
          omega

/-- Of what a counter has to show, only the value of one processor has a given number. -/
theorem numbered_instances (total : ℚ) (hfit : values.length ≤ 2 ^ w) (n : Nat) :
    ((instances total values).filter fun e => nameNumber w e.1 = some n).map Prod.snd =
      values[n]?.toList := by
  have hnumber : ∀ p ∈ values.zipIdx,
      decide (nameNumber w (utf8 (decimal p.2)) = some n) = decide (p.2 = 0 + n) := by
    rintro ⟨value, k⟩ hmem
    have hk : k < values.length := List.snd_lt_of_mem_zipIdx hmem
    simp [nameNumber_decimal (show k < 2 ^ w by omega)]
  rw [instances, List.filter_cons_of_neg, List.filter_map, List.map_map]
  · show ((values.zipIdx.filter fun p => nameNumber w (utf8 (decimal p.2)) = some n).map
      Prod.fst) = _
    rw [List.filter_congr hnumber, filter_zipIdx]
  · rw [nameNumber_total]
    exact of_decide_eq_false rfl

/-- So it is with the items, in whatever order they are. -/
theorem values_of_showsInstances (h : ShowsInstances values items)
    (hfit : values.length ≤ 2 ^ w) (n : Nat) :
    (items.filter fun item => item.number w = some n).map CounterItem.doubleValue =
      values[n]?.toList := by
  obtain ⟨total, hperm⟩ := h
  have hnumbered := ((hperm.filter fun e => nameNumber w e.1 = some n).map Prod.snd)
  rw [numbered_instances total hfit n, List.filter_map, List.map_map] at hnumbered
  cases hvalue : values[n]? with
  | none =>
      rw [hvalue] at hnumbered
      exact hnumbered.eq_nil
  | some value =>
      rw [hvalue] at hnumbered
      exact List.perm_singleton.mp hnumbered

theorem numbersBelow_of_showsInstances (h : ShowsInstances values items)
    (hfit : values.length ≤ 2 ^ w) : NumbersBelow w values.length items := by
  intro item hitem n hn
  have hmem : item.doubleValue ∈ values[n]?.toList := by
    rw [← values_of_showsInstances h hfit n]
    exact List.mem_map_of_mem (List.mem_filter.mpr ⟨hitem, decide_eq_true hn⟩)
  rw [Option.mem_toList] at hmem
  exact List.getElem?_eq_some_iff.mp hmem |>.1

theorem instanceCount_of_showsInstances (h : ShowsInstances values items) :
    instanceCount items = values.length := by
  obtain ⟨total, hperm⟩ := h
  have hcount := (hperm.filter fun e => toStringLossy e.1 ≠ "_Total".toList).length_eq
  have hnames : ∀ e ∈ values.zipIdx.map fun (value, n) => (utf8 (decimal n), value),
      decide (toStringLossy e.1 ≠ "_Total".toList) = true := by
    intro e he
    obtain ⟨⟨value, n⟩, _, rfl⟩ := List.mem_map.mp he
    rw [toStringLossy_utf8]
    exact decide_eq_true (decimal_ne_total n)
  rw [List.filter_map, List.length_map, instances,
    List.filter_cons_of_neg (by simp [toStringLossy_utf8]), List.filter_eq_self.mpr hnames,
    List.length_map, List.length_zipIdx] at hcount
  exact hcount

/-! ## Four counters -/

variable {processors : List Percentages}

theorem setLoads_of_showsInstances {get : Percentages → ℚ} {setField : ℚ → CPULoad → CPULoad}
    (h : ShowsInstances (processors.map get) items) (hfit : processors.length ≤ 2 ^ w)
    (before : Percentages → CPULoad) :
    setLoads w setField items (processors.map before) =
      some (processors.map fun p => setField (get p / 100) (before p)) := by
  have hvalues : (processors.map get).length ≤ 2 ^ w := by rwa [List.length_map]
  have hbelow := numbersBelow_of_showsInstances h hvalues
  have hrange : ∀ item ∈ items, ∀ n, item.number w = some n →
      n < (processors.map before).length := by
    simpa only [NumbersBelow, List.length_map] using hbelow
  obtain ⟨ret, hret⟩ : ∃ ret, setLoads w setField items (processors.map before) = some ret :=
    exists_writeAll_iff.mpr hrange
  rw [hret]
  refine congrArg some (List.ext_getElem? fun n => ?_)
  have hfold : ∀ load : CPULoad, (items.filter fun item => item.number w = some n).foldl
      (fun load item => setField (item.doubleValue / 100) load) load =
        (processors[n]?.map get).toList.foldl (fun load v => setField (v / 100) load) load := by
    intro load
    rw [← List.getElem?_map, ← values_of_showsInstances h hvalues n, List.foldl_map]
  rw [writeAll_getElem? hret n, List.getElem?_map, List.getElem?_map]
  simp only [hfold]
  cases processors[n]? <;> rfl

theorem loads_of_showsProcessors {items : Counters (List CounterItem)}
    (h : ShowsProcessors processors items) (hfit : processors.length ≤ 2 ^ w) :
    loads w items = some (processors.map Percentages.load) := by
  have hret : List.replicate (instanceCount items.user) noLoad =
      processors.map fun _ => noLoad := by
    rw [instanceCount_of_showsInstances h.user, List.length_map, List.map_const']
  rw [loads, hret, setLoads_of_showsInstances h.user hfit]
  simp only [Option.bind_eq_bind, Option.bind_some]
  rw [setLoads_of_showsInstances h.idle hfit, Option.bind_some,
    setLoads_of_showsInstances h.system hfit, Option.bind_some,
    setLoads_of_showsInstances h.interrupt hfit]
  rfl

/-- The four arrays make the loads of the processors, in the order of their numbers. -/
theorem cpuLoad_reported {items : Counters (List CounterItem)}
    (h : ShowsProcessors processors items) (hfit : processors.length ≤ 2 ^ w)
    {calls : Counters NewCalls} {later : Counters NextCalls} (hanswer : Answer calls later items) :
    ∃ m, cpuLoad w calls = .ok m ∧
      m.done later = .ok (some (processors.map Percentages.load)) := by
  obtain ⟨m, hm, hdone⟩ := cpuLoad_of_answer hanswer
  exact ⟨m, hm, by rw [hdone, loads_of_showsProcessors h hfit]⟩

theorem showsProcessors_two : ShowsProcessors [⟨40, 30, 20, 10⟩, ⟨60, 25, 10, 5⟩]
    ⟨[instanceOf "1" 60, instanceOf "_Total" 50, instanceOf "0" 40],
      [instanceOf "0" 30, instanceOf "1" 25, instanceOf "_Total" 28],
      [instanceOf "_Total" 15, instanceOf "0" 20, instanceOf "1" 10],
      [instanceOf "1" 5, instanceOf "0" 10, instanceOf "_Total" 8]⟩ where
  user := ⟨50, by decide⟩
  idle := ⟨28, by decide⟩
  system := ⟨15, by decide⟩
  interrupt := ⟨8, by decide⟩

theorem cpuLoad_reported_two : ∃ calls later m, cpuLoad 64 calls = .ok m ∧
    m.done later = .ok (some [⟨2 / 5, 0, 1 / 5, 1 / 10, 3 / 10, .zero⟩,
      ⟨3 / 5, 0, 1 / 10, 1 / 20, 1 / 4, .zero⟩]) := by
  obtain ⟨calls, later, hanswer⟩ := exists_answer _
  obtain ⟨m, hm, hdone⟩ := cpuLoad_reported (w := 64) showsProcessors_two (by decide) hanswer
  refine ⟨calls, later, m, hm, hdone.trans ?_⟩
  norm_num [Percentages.load]

end Systemstat.Windows
