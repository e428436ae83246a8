import Systemstat.Linux.FileValues
import Systemstat.Text.Lossy

/-! # Traffic of a network interface

Linux reads the counters of an interface from files that only exist for one that is
there. OpenBSD adds up what it finds under the name, and finds nothing under the name
of an interface that is not there.
-/

namespace Systemstat.Linux

open Nom Text

def u64FromFile : Files → String → IoResult (BitVec 64) := valueFromFile (unsignedFromStr 64)

def statsFile (interface : Str) (file : String) : String :=
  ("/sys/class/net/" ++ String.ofList interface) ++ "/statistics/" ++ file

def networkStats (files : Files) (interface : Str) : IoResult NetworkStats := do
  let rxBytes ← u64FromFile files (statsFile interface "rx_bytes")
  let txBytes ← u64FromFile files (statsFile interface "tx_bytes")
  let rxPackets ← u64FromFile files (statsFile interface "rx_packets")
  let txPackets ← u64FromFile files (statsFile interface "tx_packets")
  let rxErrors ← u64FromFile files (statsFile interface "rx_errors")
  let txErrors ← u64FromFile files (statsFile interface "tx_errors")
  return ⟨.b rxBytes, .b txBytes, rxPackets, txPackets, rxErrors, txErrors⟩

/-- An interface without files is the error of the first of them. -/
theorem networkStats_of_missing {files : Files} {interface : Str} {e : IoError}
    (h : readFile files (statsFile interface "rx_bytes") = .error e) :
    networkStats files interface = .error e := by
  rw [networkStats, u64FromFile, valueFromFile, h]
  rfl

end Systemstat.Linux

namespace Systemstat.OpenBsd

open Nom Text

structure IfData where
  ifiIbytes : BitVec 64
  ifiObytes : BitVec 64
  ifiIpackets : BitVec 64
  ifiOpackets : BitVec 64
  ifiIerrors : BitVec 64
  ifiOerrors : BitVec 64

/-- A node of the list; the name is what lies at the pointer, and the data may be null. -/
structure IfAddrs where
  ifaName : Bytes
  ifaData : Option IfData

/-- `CStr::from_ptr(ifa_name).to_str()`. -/
def IfAddrs.strNet (ifa : IfAddrs) : Option Str := toStr (cString ifa.ifaName)

structure Counters where
  rxBytes : BitVec 64
  txBytes : BitVec 64
  rxPackets : BitVec 64
  txPackets : BitVec 64
  rxErrors : BitVec 64
  txErrors : BitVec 64

namespace Counters

def zero : Counters := ⟨0, 0, 0, 0, 0, 0⟩

def add (self : Counters) (data : IfData) : Counters where
  rxBytes := self.rxBytes + data.ifiIbytes
  txBytes := self.txBytes + data.ifiObytes
  rxPackets := self.rxPackets + data.ifiIpackets
  txPackets := self.txPackets + data.ifiOpackets
  rxErrors := self.rxErrors + data.ifiIerrors
  txErrors := self.txErrors + data.ifiOerrors

/-- An addition overflows, which is a panic where overflow is checked. -/
def addOverflows (self : Counters) (data : IfData) : Bool :=
  BitVec.uaddOverflow self.rxBytes data.ifiIbytes ||
    BitVec.uaddOverflow self.txBytes data.ifiObytes ||
    BitVec.uaddOverflow self.rxPackets data.ifiIpackets ||
    BitVec.uaddOverflow self.txPackets data.ifiOpackets ||
    BitVec.uaddOverflow self.rxErrors data.ifiIerrors ||
    BitVec.uaddOverflow self.txErrors data.ifiOerrors

def toStats (self : Counters) : NetworkStats :=
  ⟨.b self.rxBytes, .b self.txBytes, self.rxPackets, self.txPackets, self.rxErrors, self.txErrors⟩

end Counters

def networkStatsLoop (interface : Str) : List IfAddrs → Counters → IoResult Counters
  | [], counters => .ok counters
  | ifa :: ifaNext, counters =>
      match ifa.strNet with
      | none => .error (.other "C string cannot be converted")
      | some strNet =>
          if interface = strNet then
            match ifa.ifaData with
            | none => networkStatsLoop interface ifaNext counters
            | some data => networkStatsLoop interface ifaNext (counters.add data)
          else networkStatsLoop interface ifaNext counters

/-- What `getifaddrs` returns is not looked at; after a failure the list is the null
pointer that it was before. -/
def networkStats (interface : Str) (getifaddrs : Except Int (List IfAddrs)) :
    IoResult NetworkStats := do
  let ifap := getifaddrs.toOption.getD []
  let counters ← networkStatsLoop interface ifap .zero
  return counters.toStats

/-! ## The loop -/

variable {interface : Str} {nodes : List IfAddrs}

def IfAddrs.HasName (ifa : IfAddrs) (interface : Str) : Prop :=
  cString ifa.ifaName = utf8 interface

instance (ifa : IfAddrs) (interface : Str) : Decidable (ifa.HasName interface) :=
  inferInstanceAs (Decidable (_ = _))

def namedData (interface : Str) (nodes : List IfAddrs) : List IfData :=
  (nodes.filter fun ifa => ifa.HasName interface).filterMap IfAddrs.ifaData

theorem hasName_iff {ifa : IfAddrs} : ifa.HasName interface ↔ ifa.strNet = some interface :=
  toStr_eq_some_iff.symm

theorem namedData_cons_of_hasName {ifa : IfAddrs} (h : ifa.HasName interface) :
    namedData interface (ifa :: nodes) = ifa.ifaData.toList ++ namedData interface nodes := by
  rw [namedData, List.filter_cons_of_pos (by simpa using h), List.filterMap_cons, namedData]
  cases ifa.ifaData with
  | none => rfl
  | some data => rfl

theorem namedData_cons_of_ne {ifa : IfAddrs} (h : ¬ ifa.HasName interface) :
    namedData interface (ifa :: nodes) = namedData interface nodes := by
  rw [namedData, List.filter_cons_of_neg (by simpa using h), namedData]

def NamesConvert (nodes : List IfAddrs) : Prop := ∀ ifa ∈ nodes, ifa.strNet.isSome

theorem networkStatsLoop_error (h : ¬ NamesConvert nodes) (counters : Counters) :
    networkStatsLoop interface nodes counters =
      .error (.other "C string cannot be converted") := by
  induction nodes generalizing counters with
  | nil => exact absurd (by simp [NamesConvert]) h
  | cons ifa nodes ih =>
      unfold networkStatsLoop
      cases hname : ifa.strNet with
      | none => rfl
      | some strNet =>
          have hrest : ¬ NamesConvert nodes := by
            intro hall
            apply h
            unfold NamesConvert
            rw [List.forall_mem_cons, hname]
            exact ⟨rfl, hall⟩
          simp only [ih hrest]
          split
          · split <;> rfl
          · rfl

/-- The data under the name is added up, and no other node is seen. -/
theorem networkStatsLoop_eq (h : NamesConvert nodes) (counters : Counters) :
    networkStatsLoop interface nodes counters =
      .ok ((namedData interface nodes).foldl Counters.add counters) := by
  induction nodes generalizing counters with
  | nil => rfl
  | cons ifa nodes ih =>
      unfold NamesConvert at h
      rw [List.forall_mem_cons] at h
      obtain ⟨strNet, hname⟩ := Option.isSome_iff_exists.mp h.1
      unfold networkStatsLoop
      simp only [hname, ih h.2]
      by_cases heq : interface = strNet
      · subst heq
        rw [if_pos rfl, namedData_cons_of_hasName (hasName_iff.mpr hname)]
        cases ifa.ifaData with
        | none => rfl
        | some data => rfl
      · have hne : ¬ ifa.HasName interface := by
          intro hsame
          rw [hasName_iff, hname, Option.some.injEq] at hsame
          exact heq hsame.symm
        rw [if_neg heq, namedData_cons_of_ne hne]

/-! ## The named interface -/

def statsOf (data : IfData) : NetworkStats where
  rxBytes := .b data.ifiIbytes
  txBytes := .b data.ifiObytes
  rxPackets := data.ifiIpackets
  txPackets := data.ifiOpackets
  rxErrors := data.ifiIerrors
  txErrors := data.ifiOerrors

def noTraffic : NetworkStats := ⟨.b 0, .b 0, 0, 0, 0, 0⟩

def additionsOverflow : List IfData → Counters → Bool
  | [], _ => false
  | data :: rest, counters =>
      counters.addOverflows data || additionsOverflow rest (counters.add data)

def Listed (interface : Str) (nodes : List IfAddrs) : Prop :=
  ∃ ifa ∈ nodes, ifa.HasName interface

/-- The stats are those of the data under the name, zero when the nodes of the name have
none, and an error when there is no node of the name. -/
structure ReportsNamed (interface : Str) (nodes : List IfAddrs) : Prop where
  data : ∀ ifa ∈ nodes, ifa.HasName interface → ∀ data, ifa.ifaData = some data →
    networkStats interface (.ok nodes) = .ok (statsOf data)
  zero : Listed interface nodes →
    (∀ ifa ∈ nodes, ifa.HasName interface → ifa.ifaData = none) →
    networkStats interface (.ok nodes) = .ok noTraffic
  absent : ¬ Listed interface nodes → ∃ e, networkStats interface (.ok nodes) = .error e
  fits : additionsOverflow (namedData interface nodes) .zero = false

theorem mem_namedData {data : IfData} : data ∈ namedData interface nodes ↔
    ∃ ifa ∈ nodes, ifa.HasName interface ∧ ifa.ifaData = some data := by
  simp only [namedData, List.mem_filterMap, List.mem_filter, decide_eq_true_eq, and_assoc]

theorem networkStats_error (interface : Str) (h : ¬ NamesConvert nodes) : ∃ e,
    networkStats interface (.ok nodes) = .error e := by
  refine ⟨.other "C string cannot be converted", ?_⟩
  show (networkStatsLoop interface nodes .zero >>= fun counters => pure counters.toStats) = _
  rw [networkStatsLoop_error h]
  rfl

theorem networkStats_eq (interface : Str) (h : NamesConvert nodes) :
    networkStats interface (.ok nodes) =
      .ok ((namedData interface nodes).foldl Counters.add .zero).toStats := by
  show (networkStatsLoop interface nodes .zero >>= fun counters => pure counters.toStats) = _
  rw [networkStatsLoop_eq h]
  rfl

theorem toStats_add_zero (data : IfData) : (Counters.zero.add data).toStats = statsOf data := by
  simp [Counters.zero, Counters.add, Counters.toStats, statsOf]

theorem uaddOverflow_zero (x : BitVec 64) : BitVec.uaddOverflow 0#64 x = false := by
  have hlt := x.isLt
  simp only [BitVec.uaddOverflow, BitVec.toNat_zero, Nat.zero_add, decide_eq_false_iff_not]
  omega

theorem additionsOverflow_of_length_le (h : (namedData interface nodes).length ≤ 1) :
    additionsOverflow (namedData interface nodes) .zero = false := by
  cases hdata : namedData interface nodes with
  | nil => rfl
  | cons data rest =>
      rw [hdata, List.length_cons] at h
      obtain rfl : rest = [] := List.length_eq_zero_iff.mp (by omega)
      simp [additionsOverflow, Counters.addOverflows, Counters.zero, uaddOverflow_zero]

theorem listed_of_mem_namedData {data : IfData} (h : data ∈ namedData interface nodes) :
    Listed interface nodes := by
  obtain ⟨ifa, hifa, hname, _⟩ := mem_namedData.mp h
  exact ⟨ifa, hifa, hname⟩

/-- A list of convertible names with the interface among them. -/
theorem reportsNamed_of_listed (hone : (namedData interface nodes).length ≤ 1)
    (hconvert : NamesConvert nodes) (hlisted : Listed interface nodes) :
    ReportsNamed interface nodes := by
  have hstats := networkStats_eq interface hconvert
  refine ⟨?_, ?_, fun habsent => absurd hlisted habsent, additionsOverflow_of_length_le hone⟩
  · intro ifa hifa hname data hdata
    have hmem : data ∈ namedData interface nodes := mem_namedData.mpr ⟨ifa, hifa, hname, hdata⟩
    obtain ⟨only, honly⟩ := List.length_eq_one_iff.mp
      (Nat.le_antisymm hone (List.length_pos_of_mem hmem))
    rw [honly, List.mem_singleton] at hmem
    rw [hstats, honly, ← hmem]
    exact congrArg Except.ok (toStats_add_zero data)
  · intro _ hnone
    have hnil : namedData interface nodes = [] := by
      rw [List.eq_nil_iff_forall_not_mem]
      intro data hmem
      obtain ⟨ifa, hifa, hname, hdata⟩ := mem_namedData.mp hmem
      rw [hnone ifa hifa hname] at hdata
      cases hdata
    rw [hstats, hnil]
    rfl

/-- A name that cannot be converted is an error, whatever else is in the list. -/
theorem reportsNamed_of_unconvertible (hone : (namedData interface nodes).length ≤ 1)
    (hconvert : ¬ NamesConvert nodes) (hlisted : ¬ Listed interface nodes) :
    ReportsNamed interface nodes where
  data ifa hifa hname := absurd ⟨ifa, hifa, hname⟩ hlisted
  zero h := absurd h hlisted
  absent _ := networkStats_error interface hconvert
  fits := additionsOverflow_of_length_le hone

theorem ReportsNamed.exists_ok (h : ReportsNamed interface nodes)
    (hlisted : Listed interface nodes) :
    ∃ stats, networkStats interface (.ok nodes) = .ok stats := by
  by_cases hnone : ∀ ifa ∈ nodes, ifa.HasName interface → ifa.ifaData = none
  · exact ⟨noTraffic, h.zero hlisted hnone⟩
  · push Not at hnone
    obtain ⟨ifa, hifa, hname, hsome⟩ := hnone
    obtain ⟨data, hdata⟩ := Option.ne_none_iff_exists'.mp hsome
    exact ⟨statsOf data, h.data ifa hifa hname data hdata⟩

/-- Under the name of an interface that is not there, Linux finds an error and OpenBSD an
interface without traffic. -/
theorem networkStats_unlisted (hconvert : NamesConvert nodes) (hlisted : ¬ Listed interface nodes)
    {files : Linux.Files} {e : IoError}
    (hmissing : Linux.readFile files (Linux.statsFile interface "rx_bytes") = .error e) :
    Linux.networkStats files interface = .error e ∧
      networkStats interface (.ok nodes) = .ok noTraffic := by
  have hnil : namedData interface nodes = [] :=
    List.eq_nil_iff_forall_not_mem.mpr fun _ hmem => hlisted (listed_of_mem_namedData hmem)
  refine ⟨Linux.networkStats_of_missing hmissing, ?_⟩
  rw [networkStats_eq _ hconvert, hnil]
  rfl

/-- The named interface is reported exactly when it is in the list and all names in the
list can be converted, or neither. -/
theorem reportsNamed_iff (hone : (namedData interface nodes).length ≤ 1) :
    ReportsNamed interface nodes ↔ (Listed interface nodes ↔ NamesConvert nodes) := by
  by_cases hconvert : NamesConvert nodes
  · constructor
    · intro h
      refine iff_of_true ?_ hconvert
      by_contra habsent
      obtain ⟨e, he⟩ := h.absent habsent
      rw [networkStats_eq _ hconvert] at he
      cases he
    · exact fun h => reportsNamed_of_listed hone hconvert (h.mpr hconvert)
  · constructor
    · intro h
      refine iff_of_false (fun hlisted => ?_) hconvert
      obtain ⟨stats, hstats⟩ := h.exists_ok hlisted
      obtain ⟨e, he⟩ := networkStats_error interface hconvert
      rw [hstats] at he
      cases he
    · exact fun h =>
        reportsNamed_of_unconvertible hone hconvert fun hlisted => hconvert (h.mp hlisted)

def nodeOf (name : String) (data : Option IfData) : IfAddrs :=
  ⟨utf8 (name.toList ++ [Char.ofNat 0]), data⟩

theorem strNet_nodeOf {name : String} (h : Char.ofNat 0 ∉ name.toList) (data : Option IfData) :
    (nodeOf name data).strNet = some name.toList :=
  toStr_eq_some_iff.mpr (cString_utf8 h)

/-- The link layer comes between the addresses, and has the data. -/
theorem reportsNamed_iff_between :
    ReportsNamed "em0".toList
      [nodeOf "lo0" (some ⟨1, 1, 1, 1, 0, 0⟩), nodeOf "em0" none,
        nodeOf "em0" (some ⟨64, 32, 2, 1, 0, 0⟩)] ↔
    (Listed "em0".toList
      [nodeOf "lo0" (some ⟨1, 1, 1, 1, 0, 0⟩), nodeOf "em0" none,
        nodeOf "em0" (some ⟨64, 32, 2, 1, 0, 0⟩)] ↔
      NamesConvert [nodeOf "lo0" (some ⟨1, 1, 1, 1, 0, 0⟩), nodeOf "em0" none,
        nodeOf "em0" (some ⟨64, 32, 2, 1, 0, 0⟩)]) :=
  reportsNamed_iff (by decide)

/-- A mistyped name is an interface without traffic. -/
theorem reportsNamed_mistyped : ¬ ∀ (interface : Str) (nodes : List IfAddrs),
    (namedData interface nodes).length ≤ 1 → ReportsNamed interface nodes := by
  intro h
  let nodes := [nodeOf "em0" (some ⟨64, 32, 2, 1, 0, 0⟩)]
  have hconvert : NamesConvert nodes := by
    intro ifa hifa
    rw [List.mem_singleton.mp hifa, strNet_nodeOf (by decide)]
    rfl
  have hlisted : ¬ Listed "em9".toList nodes := by
    rintro ⟨ifa, hifa, hname⟩
    rw [List.mem_singleton.mp hifa] at hname
    exact absurd hname (by decide)
  obtain ⟨e, he⟩ := (h "em9".toList nodes (by decide)).absent hlisted
  rw [networkStats_eq _ hconvert] at he
  cases he

end Systemstat.OpenBsd
