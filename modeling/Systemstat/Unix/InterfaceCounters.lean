import Systemstat.Collections.FirstError
import Systemstat.Linux.FileValues
import Systemstat.Unix.NetworkStats

/-! # Counters in files

Each of the six counters that Linux reports is the number in a file. The numbers are
read in a fixed order, and the first file that has none decides the error. A kernel that
shows one interface as such files, or as the data of a node, is reported the same.
-/

namespace Systemstat.Linux

open Nom Text Collections

/-! ## A number in a file -/

/-- The file holds the number, with an optional plus and with newlines behind it. -/
def FileWrites (files : Files) (path : String) (n : Nat) : Prop :=
  ∃ s k, readFile files path = .ok (s ++ List.replicate k '\n') ∧ WritesNat s n

/-- The file cannot be read, or it holds no number that fits. -/
def FileFails (files : Files) (path : String) (e : IoError) : Prop :=
  readFile files path = .error e ∨
    (∃ s, readFile files path = .ok s) ∧ (∀ n, FileWrites files path n → 2 ^ 64 ≤ n) ∧
      e = .other ("File: \"" ++ path ++ "\" doesn't contain an int value")

theorem fileWrites_iff {files : Files} {path : String} {s : Str}
    (hread : readFile files path = .ok s) (n : Nat) :
    FileWrites files path n ↔ WritesNat (s.rdropWhile fun c => c == '\n') n := by
  constructor
  · rintro ⟨t, k, ht, hwrites⟩
    rw [hread, Except.ok.injEq] at ht
    rwa [ht, rdropWhile_newlines (noNewlineEnd_of_writesNat hwrites)]
  · intro hwrites
    obtain ⟨k, hk⟩ := exists_newlines s
    exact ⟨_, k, by rw [hread, ← hk], hwrites⟩

theorem u64FromFile_eq_ok_iff {files : Files} {path : String} {x : BitVec 64} :
    u64FromFile files path = .ok x ↔ FileWrites files path x.toNat := by
  rw [u64FromFile, valueFromFile_eq_ok_iff fun s hs =>
    noNewlineEnd_of_writesNat (unsignedFromStr_eq_some_iff.mp hs)]
  simp only [unsignedFromStr_eq_some_iff, FileWrites]

theorem u64FromFile_eq_error_iff {files : Files} {path : String} {e : IoError} :
    u64FromFile files path = .error e ↔ FileFails files path e := by
  unfold FileFails
  cases hread : readFile files path with
  | error e' =>
      simp [u64FromFile, valueFromFile, hread, bind, Except.bind]
  | ok s =>
      have hnone : (∀ n, FileWrites files path n → 2 ^ 64 ≤ n) ↔
          unsignedFromStr 64 (s.rdropWhile fun c => c == '\n') = none := by
        simp only [fileWrites_iff hread, unsignedFromStr_eq_none_iff]
      rw [hnone]
      simp only [u64FromFile, valueFromFile, hread, bind, Except.bind]
      cases unsignedFromStr 64 (s.rdropWhile fun c => c == '\n') <;> simp [eq_comm]

/-! ## The six files -/

def statsFiles : List String :=
  ["rx_bytes", "tx_bytes", "rx_packets", "tx_packets", "rx_errors", "tx_errors"]

def statsNumbers (stats : NetworkStats) : List (BitVec 64) :=
  [stats.rxBytes.bytes, stats.txBytes.bytes, stats.rxPackets, stats.txPackets, stats.rxErrors,
    stats.txErrors]

theorem statsNumbers_injective : Function.Injective statsNumbers := by
  rintro ⟨⟨a⟩, ⟨b⟩, c, d, e, f⟩ ⟨⟨a'⟩, ⟨b'⟩, c', d', e', f'⟩ h
  simp only [statsNumbers, List.cons.injEq, and_true] at h
  obtain ⟨rfl, rfl, rfl, rfl, rfl, rfl⟩ := h
  rfl

/-- The six reads are a loop over the files that leaves at the first error. -/
theorem networkStats_eq_pushAll (files : Files) (interface : Str) :
    (networkStats files interface).map statsNumbers =
      pushAll (fun file => u64FromFile files (statsFile interface file)) statsFiles [] := by
  simp only [networkStats, statsFiles, pushAll]
  cases u64FromFile files (statsFile interface "rx_bytes") with
  | error e => rfl
  | ok rxBytes =>
  cases u64FromFile files (statsFile interface "tx_bytes") with
  | error e => rfl
  | ok txBytes =>
  cases u64FromFile files (statsFile interface "rx_packets") with
  | error e => rfl
  | ok rxPackets =>
  cases u64FromFile files (statsFile interface "tx_packets") with
  | error e => rfl
  | ok txPackets =>
  cases u64FromFile files (statsFile interface "rx_errors") with
  | error e => rfl
  | ok rxErrors =>
  cases u64FromFile files (statsFile interface "tx_errors") with
  | error e => rfl
  | ok txErrors => rfl

theorem networkStats_eq_ok_iff {files : Files} {interface : Str} {stats : NetworkStats} :
    networkStats files interface = .ok stats ↔
      List.Forall₂ (fun file x => u64FromFile files (statsFile interface file) = .ok x)
        statsFiles (statsNumbers stats) := by
  have hloop := networkStats_eq_pushAll files interface
  constructor
  · intro h
    rw [h] at hloop
    obtain ⟨xs, hxs, hfiles⟩ := pushAll_eq_ok_iff.mp hloop.symm
    rw [List.nil_append] at hxs
    rwa [hxs]
  · intro h
    rw [pushAll_eq_ok_iff.mpr ⟨_, rfl, h⟩, List.nil_append] at hloop
    cases hstats : networkStats files interface with
    | error e =>
        rw [hstats] at hloop
        cases hloop
    | ok stats' =>
        rw [hstats] at hloop
        exact congrArg _ (statsNumbers_injective (Except.ok.inj hloop))

/-- The stats are the numbers of the six files, and an error is that of the first file
that fails, however the files behind it fare. -/
structure StatsOutcome (files : Files) (interface : Str) : Prop where
  ok : ∀ stats, networkStats files interface = .ok stats ↔
    List.Forall₂ (fun file (x : BitVec 64) =>
      FileWrites files (statsFile interface file) x.toNat) statsFiles (statsNumbers stats)
  error : ∀ e, networkStats files interface = .error e ↔
    ∃ before file behind, statsFiles = before ++ file :: behind ∧
      (∀ f ∈ before, ∃ n < 2 ^ 64, FileWrites files (statsFile interface f) n) ∧
      FileFails files (statsFile interface file) e

theorem networkStats_outcome (files : Files) (interface : Str) : StatsOutcome files interface where
  ok stats := by
    simp only [networkStats_eq_ok_iff, u64FromFile_eq_ok_iff]
  error e := by
    have hwritten : ∀ path, (∃ x, u64FromFile files path = .ok x) ↔
        ∃ n < 2 ^ 64, FileWrites files path n := by
      intro path
      simp only [u64FromFile_eq_ok_iff]
      constructor
      · rintro ⟨x, hx⟩
        exact ⟨x.toNat, x.isLt, hx⟩
      · rintro ⟨n, hn, hwrites⟩
        exact ⟨BitVec.ofNat 64 n, by rwa [BitVec.toNat_ofNat, Nat.mod_eq_of_lt hn]⟩
    have hloop := networkStats_eq_pushAll files interface
    have herror : networkStats files interface = .error e ↔
        pushAll (fun file => u64FromFile files (statsFile interface file)) statsFiles [] =
          .error e := by
      rw [← hloop]
      cases networkStats files interface <;> simp [Except.map]
    rw [herror, pushAll_eq_error_iff]
    simp only [hwritten, u64FromFile_eq_error_iff]

end Systemstat.Linux

/-! ## One interface on two platforms -/

namespace Systemstat.Unix

open Nom Text OpenBsd

structure TrafficTable where
  entries : List (Str × IfData)
  distinct : (entries.map Prod.fst).Nodup
  name_nul : ∀ e ∈ entries, Char.ofNat 0 ∉ e.1

def FilesShow (files : Linux.Files) (interface : Str) (data : IfData) : Prop :=
  List.Forall₂ (fun file (x : BitVec 64) =>
      Linux.readFile files (Linux.statsFile interface file) = .ok (decimal x.toNat ++ ['\n']))
    Linux.statsFiles (Linux.statsNumbers (statsOf data))

theorem u64FromFile_of_filesShow {files : Linux.Files} {interface : Str} {data : IfData}
    (h : FilesShow files interface data) :
    List.Forall₂ (fun file x =>
        Linux.u64FromFile files (Linux.statsFile interface file) = .ok x)
      Linux.statsFiles (Linux.statsNumbers (statsOf data)) :=
  h.imp fun _ x hread =>
    Linux.u64FromFile_eq_ok_iff.mpr ⟨_, 1, hread, decimal_writesNat x.toNat⟩

def linkNode (e : Str × IfData) : IfAddrs := ⟨utf8 (e.1 ++ [Char.ofNat 0]), some e.2⟩

def addrNode (name : Str) : IfAddrs := ⟨utf8 (name ++ [Char.ofNat 0]), none⟩

/-- The list has a node with the data of each interface, and nodes without data for the
addresses, in whatever order. -/
def NodesShow (nodes : List IfAddrs) (table : TrafficTable) : Prop :=
  ∃ names : List Str, (∀ name ∈ names, name ∈ table.entries.map Prod.fst) ∧
    nodes.Perm (table.entries.map linkNode ++ names.map addrNode)

variable {table : TrafficTable} {nodes : List IfAddrs} {interface : Str}

theorem strNet_of_name {name : Str} (h : Char.ofNat 0 ∉ name) (data : Option IfData) :
    IfAddrs.strNet ⟨utf8 (name ++ [Char.ofNat 0]), data⟩ = some name :=
  toStr_eq_some_iff.mpr (cString_utf8 h)

theorem namesConvert_of_nodesShow (h : NodesShow nodes table) : NamesConvert nodes := by
  obtain ⟨names, hnames, hperm⟩ := h
  intro ifa hifa
  rcases List.mem_append.mp (hperm.mem_iff.mp hifa) with hlink | haddr
  · obtain ⟨e, he, rfl⟩ := List.mem_map.mp hlink
    rw [linkNode, strNet_of_name (table.name_nul e he)]
    rfl
  · obtain ⟨name, hname, rfl⟩ := List.mem_map.mp haddr
    obtain ⟨e, he, rfl⟩ := List.mem_map.mp (hnames name hname)
    rw [addrNode, strNet_of_name (table.name_nul e he)]
    rfl

theorem namedData_links (interface : Str) (entries : List (Str × IfData))
    (hnul : ∀ e ∈ entries, Char.ofNat 0 ∉ e.1) :
    namedData interface (entries.map linkNode) =
      (entries.filter fun e => e.1 = interface).map Prod.snd := by
  induction entries with
  | nil => rfl
  | cons e entries ih =>
      obtain ⟨he, hrest⟩ := List.forall_mem_cons.mp hnul
      have hname : (linkNode e).strNet = some e.1 := strNet_of_name he _
      rw [List.map_cons]
      by_cases heq : e.1 = interface
      · rw [namedData_cons_of_hasName (hasName_iff.mpr (by rw [hname, heq])), ih hrest,
          List.filter_cons_of_pos (by simpa using heq)]
        rfl
      · rw [namedData_cons_of_ne (by rw [hasName_iff, hname]; simpa using heq), ih hrest,
          List.filter_cons_of_neg (by simpa using heq)]

theorem filter_name_eq {entries : List (Str × IfData)} (hnodup : (entries.map Prod.fst).Nodup)
    {e : Str × IfData} (he : e ∈ entries) : (entries.filter fun e' => e'.1 = e.1) = [e] := by
  induction entries with
  | nil => cases he
  | cons e' entries ih =>
      obtain ⟨hfirst, hrest⟩ := List.nodup_cons.mp hnodup
      rcases List.mem_cons.mp he with rfl | hmem
      · rw [List.filter_cons_of_pos (by simp), List.filter_eq_nil_iff.mpr]
        intro e' he' hname
        exact hfirst (List.mem_map.mpr ⟨e', he', of_decide_eq_true hname⟩)
      · rw [List.filter_cons_of_neg, ih hrest hmem]
        intro hname
        exact hfirst (of_decide_eq_true hname ▸ List.mem_map_of_mem hmem)

theorem namedData_of_nodesShow (h : NodesShow nodes table) {e : Str × IfData}
    (he : e ∈ table.entries) : namedData e.1 nodes = [e.2] := by
  obtain ⟨names, _, hperm⟩ := h
  have haddrs : ((names.map addrNode).filter fun ifa => ifa.HasName e.1).filterMap
      IfAddrs.ifaData = [] := by
    rw [List.filterMap_eq_nil_iff]
    intro ifa hifa
    obtain ⟨name, _, rfl⟩ := List.mem_map.mp (List.mem_of_mem_filter hifa)
    rfl
  have hlinks := namedData_links e.1 table.entries table.name_nul
  rw [filter_name_eq table.distinct he] at hlinks
  have hnamed := (hperm.filter fun ifa => ifa.HasName e.1).filterMap IfAddrs.ifaData
  rw [List.filter_append, List.filterMap_append, haddrs, List.append_nil] at hnamed
  exact List.perm_singleton.mp (hnamed.trans (.of_eq hlinks))

/-- The counters of every interface of the table are reported by both platforms. -/
theorem networkStats_agree {files : Linux.Files}
    (hfiles : ∀ e ∈ table.entries, FilesShow files e.1 e.2) (hnodes : NodesShow nodes table) :
    ∀ e ∈ table.entries, Linux.networkStats files e.1 = .ok (statsOf e.2) ∧
      OpenBsd.networkStats e.1 (.ok nodes) = .ok (statsOf e.2) := by
  intro e he
  constructor
  · exact Linux.networkStats_eq_ok_iff.mpr (u64FromFile_of_filesShow (hfiles e he))
  · rw [networkStats_eq e.1 (namesConvert_of_nodesShow hnodes), namedData_of_nodesShow hnodes he]
    exact congrArg _ (toStats_add_zero e.2)

def filesOf (entries : List (Str × IfData)) : Linux.Files := fun path =>
  let shown := entries.flatMap fun e =>
    (Linux.statsFiles.zip (Linux.statsNumbers (statsOf e.2))).map fun (file, x) =>
      (Linux.statsFile e.1 file, x)
  match shown.lookup path with
  | some x => .ok (decimal x.toNat ++ ['\n'])
  | none => .error (.os 2)

def loopbackAndWired : TrafficTable where
  entries := [("lo0".toList, ⟨1, 1, 1, 1, 0, 0⟩), ("em0".toList, ⟨640, 320, 20, 10, 3, 4⟩)]
  distinct := by decide
  name_nul := by decide

theorem filesShow_loopbackAndWired : ∀ e ∈ loopbackAndWired.entries,
    FilesShow (filesOf loopbackAndWired.entries) e.1 e.2 := by
  unfold FilesShow
  decide +kernel

/-- The addresses of an interface may come before its data. -/
theorem nodesShow_loopbackAndWired : NodesShow
    [addrNode "em0".toList, linkNode ("em0".toList, ⟨640, 320, 20, 10, 3, 4⟩),
      linkNode ("lo0".toList, ⟨1, 1, 1, 1, 0, 0⟩)] loopbackAndWired :=
  ⟨["em0".toList], by decide,
    ((List.Perm.swap _ _ _).trans (.cons _ (.swap _ _ _))).trans (.swap _ _ _)⟩

theorem networkStats_agree_wired :
    Linux.networkStats (filesOf loopbackAndWired.entries) "em0".toList =
        .ok ⟨.b 640, .b 320, 20, 10, 3, 4⟩ ∧
      OpenBsd.networkStats "em0".toList
        (.ok [addrNode "em0".toList, linkNode ("em0".toList, ⟨640, 320, 20, 10, 3, 4⟩),
          linkNode ("lo0".toList, ⟨1, 1, 1, 1, 0, 0⟩)]) = .ok ⟨.b 640, .b 320, 20, 10, 3, 4⟩ :=
  networkStats_agree filesShow_loopbackAndWired nodesShow_loopbackAndWired
    ("em0".toList, ⟨640, 320, 20, 10, 3, 4⟩) (by simp [loopbackAndWired])

end Systemstat.Unix
