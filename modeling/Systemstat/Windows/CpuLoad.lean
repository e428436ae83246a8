import Systemstat.Collections.IndexedWrites
import Systemstat.Platform.CpuLoadAggregate
import Systemstat.Text.Decimal
import Systemstat.Text.Lossy

/-! # CPU load on Windows

Four counters are queried one after the other, and each answer is an array of named
instances. The array of user times decides how many loads there are, and the names of
all four decide which of them is written to.
-/

namespace Systemstat.Windows

open Nom Text Collections

/-! ## The counters -/

/-- `PDH_FMT_COUNTERVALUE_ITEM_A`; the name is what lies at the pointer. -/
structure CounterItem where
  szName : Bytes
  doubleValue : ℚ

def CounterItem.name (item : CounterItem) : Str := toStringLossy (cString item.szName)

def CounterItem.number (w : Nat) (item : CounterItem) : Option Nat :=
  (unsignedFromStr w item.name).map BitVec.toNat

/-- One of each for the user, the idle, the system and the interrupt time. -/
structure Counters (α : Type) where
  user : α
  idle : α
  system : α
  interrupt : α

/-- The statuses of the calls in `PerformanceCounter::new`. -/
structure NewCalls where
  openQuery : BitVec 32
  addCounter : BitVec 32
  collectQueryData : BitVec 32

/-- `from_raw_os_error(status)`, unless the status is `ERROR_SUCCESS`. -/
def success (status : BitVec 32) : IoResult Unit :=
  if status = 0#32 then .ok () else .error (.os status.toInt)

def performanceCounterNew (calls : NewCalls) : IoResult Unit := do
  success calls.openQuery
  success calls.addCounter
  success calls.collectQueryData

/-- The statuses of the calls in `next_value`, the first of the two for the array being
the one that asks for its size, and the array. -/
structure NextCalls where
  collectQueryData : BitVec 32
  arraySize : BitVec 32
  arrayItems : BitVec 32
  items : List CounterItem

def pdhMoreData : BitVec 32 := 0x800007D2#32

def nextValue (calls : NextCalls) : IoResult (List CounterItem) := do
  success calls.collectQueryData
  if calls.arraySize = pdhMoreData then
    success calls.arrayItems
    return calls.items
  else
    success calls.arraySize
    return []

/-! ## The closure -/

/-- How many instances of the user time are not the total over all. -/
def instanceCount (user : List CounterItem) : Nat :=
  (user.filter fun item => item.name ≠ "_Total".toList).length

/-- `PlatformCpuLoad` has no fields on Windows; its value is the one without a share. -/
def noLoad : CPULoad := ⟨0, 0, 0, 0, 0, .zero⟩

/-- The loop over one array: `ret[n].field = value / 100`, where `none` is the panic of
an index out of range. -/
def setLoads (w : Nat) (setField : ℚ → CPULoad → CPULoad) :
    List CounterItem → List CPULoad → Option (List CPULoad) :=
  writeAll (CounterItem.number w) fun item => setField (item.doubleValue / 100)

def setUser (value : ℚ) (load : CPULoad) : CPULoad := { load with user := value }

def setIdle (value : ℚ) (load : CPULoad) : CPULoad := { load with idle := value }

def setSystem (value : ℚ) (load : CPULoad) : CPULoad := { load with system := value }

def setInterrupt (value : ℚ) (load : CPULoad) : CPULoad := { load with interrupt := value }

def loads (w : Nat) (items : Counters (List CounterItem)) : Option (List CPULoad) := do
  let ret := List.replicate (instanceCount items.user) noLoad
  let ret ← setLoads w setUser items.user ret
  let ret ← setLoads w setIdle items.idle ret
  let ret ← setLoads w setSystem items.system ret
  setLoads w setInterrupt items.interrupt ret

def cpuLoad (w : Nat) (calls : Counters NewCalls) :
    IoResult (DelayedMeasurement (Counters NextCalls) (Option (List CPULoad))) := do
  performanceCounterNew calls.user
  performanceCounterNew calls.idle
  performanceCounterNew calls.system
  performanceCounterNew calls.interrupt
  return ⟨fun later => do
    let user ← nextValue later.user
    let idle ← nextValue later.idle
    let system ← nextValue later.system
    let interrupt ← nextValue later.interrupt
    return loads w ⟨user, idle, system, interrupt⟩⟩

/-- The trait's default `cpu_load_aggregate`, over a measurement that may panic itself. -/
def cpuLoadAggregate (w : Nat) (calls : Counters NewCalls) :
    IoResult (DelayedMeasurement (Counters NextCalls) (Option CPULoad)) := do
  let measurement ← cpuLoad w calls
  return ⟨fun later => (measurement.done later).map fun ls => ls.bind Platform.aggregateLoads⟩

/-! ## Answers -/

/-- The calls of both steps that bring these four arrays. -/
structure Answer (calls : Counters NewCalls) (later : Counters NextCalls)
    (items : Counters (List CounterItem)) : Prop where
  newUser : performanceCounterNew calls.user = .ok ()
  newIdle : performanceCounterNew calls.idle = .ok ()
  newSystem : performanceCounterNew calls.system = .ok ()
  newInterrupt : performanceCounterNew calls.interrupt = .ok ()
  user : nextValue later.user = .ok items.user
  idle : nextValue later.idle = .ok items.idle
  system : nextValue later.system = .ok items.system
  interrupt : nextValue later.interrupt = .ok items.interrupt

variable {w : Nat} {items : Counters (List CounterItem)}

theorem cpuLoad_of_answer {calls : Counters NewCalls} {later : Counters NextCalls}
    (h : Answer calls later items) : ∃ m, cpuLoad w calls = .ok m ∧
      m.done later = .ok (loads w items) := by
  simp only [cpuLoad, h.newUser, h.newIdle, h.newSystem, h.newInterrupt]
  refine ⟨_, rfl, ?_⟩
  show (do
    let user ← nextValue later.user
    let idle ← nextValue later.idle
    let system ← nextValue later.system
    let interrupt ← nextValue later.interrupt
    return loads w ⟨user, idle, system, interrupt⟩ : IoResult (Option (List CPULoad))) = _
  rw [h.user, h.idle, h.system, h.interrupt]
  rfl

theorem cpuLoadAggregate_of_answer {calls : Counters NewCalls} {later : Counters NextCalls}
    (h : Answer calls later items) : ∃ m, cpuLoadAggregate w calls = .ok m ∧
      m.done later = .ok ((loads w items).bind Platform.aggregateLoads) := by
  obtain ⟨m, hm, hdone⟩ := cpuLoad_of_answer (w := w) h
  simp only [cpuLoadAggregate, hm]
  refine ⟨_, rfl, ?_⟩
  show (m.done later).map _ = _
  rw [hdone]
  rfl

theorem exists_answer (items : Counters (List CounterItem)) :
    ∃ calls later, Answer calls later items := by
  refine ⟨⟨⟨0, 0, 0⟩, ⟨0, 0, 0⟩, ⟨0, 0, 0⟩, ⟨0, 0, 0⟩⟩,
    ⟨⟨0, pdhMoreData, 0, items.user⟩, ⟨0, pdhMoreData, 0, items.idle⟩,
      ⟨0, pdhMoreData, 0, items.system⟩, ⟨0, pdhMoreData, 0, items.interrupt⟩⟩, ?_⟩
  constructor <;> rfl

/-! ## In range -/

/-- Every number in one of the arrays is below the count of instances. -/
def NumbersBelow (w : Nat) (bound : Nat) (items : List CounterItem) : Prop :=
  ∀ item ∈ items, ∀ n, item.number w = some n → n < bound

/-- One loop stays in range when its numbers do, and leaves the length to the next one. -/
theorem exists_setLoads_bind_iff {setField : ℚ → CPULoad → CPULoad} {array : List CounterItem}
    {ret : List CPULoad} {bound : Nat} (hret : ret.length = bound)
    {next : List CPULoad → Option (List CPULoad)} {P : Prop}
    (hnext : ∀ ret', ret'.length = bound → ((∃ r, next ret' = some r) ↔ P)) :
    (∃ r, (setLoads w setField array ret).bind next = some r) ↔
      (NumbersBelow w bound array ∧ P) := by
  subst hret
  constructor
  · rintro ⟨r, h⟩
    obtain ⟨ret', hset, hr⟩ := Option.bind_eq_some_iff.mp h
    exact ⟨exists_writeAll_iff.mp ⟨ret', hset⟩, (hnext ret' (writeAll_length hset)).mp ⟨r, hr⟩⟩
  · rintro ⟨hbelow, hP⟩
    obtain ⟨ret', hset⟩ := exists_writeAll_iff.mpr hbelow
    obtain ⟨r, hr⟩ := (hnext ret' (writeAll_length hset)).mpr hP
    exact ⟨r, Option.bind_eq_some_iff.mpr ⟨ret', hset, hr⟩⟩

/-- Nothing is indexed out of range exactly when no number is too large. -/
theorem exists_loads_iff : (∃ ret, loads w items = some ret) ↔
    (NumbersBelow w (instanceCount items.user) items.user ∧
      NumbersBelow w (instanceCount items.user) items.idle ∧
      NumbersBelow w (instanceCount items.user) items.system ∧
      NumbersBelow w (instanceCount items.user) items.interrupt) := by
  apply exists_setLoads_bind_iff List.length_replicate
  intro user huser
  apply exists_setLoads_bind_iff huser
  intro idle hidle
  apply exists_setLoads_bind_iff hidle
  intro system hsystem
  rw [← hsystem]
  exact exists_writeAll_iff

/-- A loop over a field other than the user time keeps the user times. -/
theorem setLoads_map_user {setField : ℚ → CPULoad → CPULoad} {array : List CounterItem}
    {ret ret' : List CPULoad} (h : setLoads w setField array ret = some ret')
    (hkeep : ∀ value load, (setField value load).user = load.user) :
    ret'.map CPULoad.user = ret.map CPULoad.user := by
  unfold setLoads at h
  apply writeAll_map _ h
  intro item load
  exact hkeep (item.doubleValue / 100) load

/-- The loops after the first keep the user times, and all keep the length. -/
theorem loads_eq_some {ret : List CPULoad} (h : loads w items = some ret) :
    ∃ first, setLoads w setUser items.user
        (List.replicate (instanceCount items.user) noLoad) = some first ∧
      ret.map CPULoad.user = first.map CPULoad.user ∧
      ret.length = instanceCount items.user := by
  obtain ⟨user, huser, h⟩ := Option.bind_eq_some_iff.mp h
  obtain ⟨idle, hidle, h⟩ := Option.bind_eq_some_iff.mp h
  obtain ⟨system, hsystem, hinterrupt⟩ := Option.bind_eq_some_iff.mp h
  have hkeep : ret.map CPULoad.user = user.map CPULoad.user := by
    rw [setLoads_map_user hinterrupt fun _ _ => rfl, setLoads_map_user hsystem fun _ _ => rfl,
      setLoads_map_user hidle fun _ _ => rfl]
  refine ⟨user, huser, hkeep, ?_⟩
  rw [writeAll_length hinterrupt, writeAll_length hsystem, writeAll_length hidle,
    writeAll_length huser, List.length_replicate]

/-! ## The user times -/

/-- Each number in the array has its load, with the value of the last instance that
carries the number. -/
def UserTimesSet (w : Nat) (user : List CounterItem) (ret : List CPULoad) : Prop :=
  ∀ pre item post n, user = pre ++ item :: post → item.number w = some n →
    (∀ other ∈ post, other.number w ≠ some n) →
    (ret.map CPULoad.user)[n]? = some (item.doubleValue / 100)

theorem userTimesSet_of_loads {ret : List CPULoad} (h : loads w items = some ret) :
    UserTimesSet w items.user ret := by
  intro pre item post n huser hnumber hpost
  obtain ⟨first, hfirst, hkeep, _⟩ := loads_eq_some h
  rw [huser] at hfirst
  obtain ⟨load, hload⟩ := writeAll_getElem?_last hnumber hpost pre hfirst
  rw [hkeep, List.getElem?_map, hload]
  rfl

/-! ## No panic -/

/-- Whatever calls bring the four arrays, there is a list of loads, with every user time
in its place, and the aggregate has a first load to begin with. -/
def NeverPanics (w : Nat) (items : Counters (List CounterItem)) : Prop :=
  ∀ calls later, Answer calls later items →
    (∃ m ret, cpuLoad w calls = .ok m ∧ m.done later = .ok (some ret) ∧
      UserTimesSet w items.user ret) ∧
    ∃ m load, cpuLoadAggregate w calls = .ok m ∧ m.done later = .ok (some load)

theorem exists_aggregateLoads_iff {ls : List CPULoad} :
    (∃ load, Platform.aggregateLoads ls = some load) ↔ 0 < ls.length := by
  cases ls with
  | nil => simp [Platform.aggregateLoads]
  | cons first it => simp [Platform.aggregateLoads]

theorem exists_loads_of_neverPanics (h : NeverPanics w items) :
    ∃ ret, loads w items = some ret ∧ 0 < ret.length := by
  obtain ⟨calls, later, hanswer⟩ := exists_answer items
  obtain ⟨m, hm, hdone⟩ := cpuLoadAggregate_of_answer (w := w) hanswer
  obtain ⟨_, m', load, hm', hload⟩ := h calls later hanswer
  rw [hm] at hm'
  cases hm'
  rw [hdone, Except.ok.injEq] at hload
  obtain ⟨ret, hret, haggregate⟩ := Option.bind_eq_some_iff.mp hload
  exact ⟨ret, hret, exists_aggregateLoads_iff.mp ⟨load, haggregate⟩⟩

/-- There is no panic exactly when there is an instance beside the total and every
number in the four arrays is below the count of such instances of the first. -/
theorem neverPanics_iff (w : Nat) (items : Counters (List CounterItem)) :
    NeverPanics w items ↔ (0 < instanceCount items.user ∧
      NumbersBelow w (instanceCount items.user) items.user ∧
      NumbersBelow w (instanceCount items.user) items.idle ∧
      NumbersBelow w (instanceCount items.user) items.system ∧
      NumbersBelow w (instanceCount items.user) items.interrupt) := by
  rw [← exists_loads_iff]
  constructor
  · intro h
    obtain ⟨ret, hret, hpos⟩ := exists_loads_of_neverPanics h
    obtain ⟨_, _, _, hlength⟩ := loads_eq_some hret
    exact ⟨by omega, ret, hret⟩
  · rintro ⟨hpos, ret, hret⟩ calls later hanswer
    obtain ⟨_, _, _, hlength⟩ := loads_eq_some hret
    obtain ⟨load, hload⟩ := exists_aggregateLoads_iff.mpr (by omega : 0 < ret.length)
    obtain ⟨m, hm, hdone⟩ := cpuLoad_of_answer (w := w) hanswer
    obtain ⟨m', hm', hdone'⟩ := cpuLoadAggregate_of_answer (w := w) hanswer
    rw [hret] at hdone hdone'
    rw [Option.bind_some, hload] at hdone'
    exact ⟨⟨m, ret, hm, hdone, userTimesSet_of_loads hret⟩, m', load, hm', hdone'⟩

def instanceOf (name : String) (value : ℚ) : CounterItem :=
  ⟨utf8 (name.toList ++ [Char.ofNat 0]), value⟩

theorem neverPanics_gap : ¬ ∀ (w : Nat) (items : Counters (List CounterItem)),
    NeverPanics w items := by
  intro h
  let times := [instanceOf "0" 40, instanceOf "2" 60, instanceOf "_Total" 50]
  obtain ⟨ret, hret, _⟩ := exists_loads_of_neverPanics (h 64 ⟨times, times, times, times⟩)
  have hnumber : (instanceOf "2" 60).number 64 = some 2 := by decide
  have hcount : instanceCount times = 2 := by decide
  have hmem : instanceOf "2" 60 ∈ times := by simp [times]
  have hbelow : 2 < instanceCount times :=
    (exists_loads_iff.mp ⟨ret, hret⟩).1 _ hmem 2 hnumber
  omega

end Systemstat.Windows
