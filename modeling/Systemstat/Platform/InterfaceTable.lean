import Systemstat.Windows.NetworkInterfaces

/-! # One table of interfaces on two platforms

What a system has configured: interfaces with addresses and the lengths of their
prefixes. The BSDs, macOS and Linux list it as nodes, one for each address, with the
mask as an address of its own; Windows lists it as adapters with the length. Both
implementations of `networks` report the table, and so they agree.
-/

namespace Systemstat.Platform

open Nom Text Bytes Collections Unix Systemstat.Windows

/-! ## The table -/

inductive Configured
  | v4 (octets : Vector (BitVec 8) 4) (bits : Fin 33)
  | v6 (octets : Vector (BitVec 8) 16) (bits : Fin 129)

structure Interface where
  name : Str
  friendlyName : Str
  addrs : List Configured

structure InterfaceTable where
  interfaces : List Interface
  distinct : (interfaces.map Interface.name).Nodup
  name_nul : ∀ i ∈ interfaces, Char.ofNat 0 ∉ i.name
  friendlyName_nul : ∀ i ∈ interfaces, Char.ofNat 0 ∉ i.friendlyName

/-- What is reported of a configured address: the address, and the mask of its prefix. -/
def Describes : Configured → NetworkAddrs → Prop
  | .v4 octets bits, reported => reported.addr = .v4 ⟨octets⟩ ∧
      ∃ mask, reported.netmask = .v4 ⟨mask⟩ ∧ IsPrefixMask mask bits
  | .v6 octets bits, reported => reported.addr = .v6 ⟨octets⟩ ∧
      ∃ mask, reported.netmask = .v6 ⟨mask⟩ ∧ IsPrefixMask mask bits

theorem Describes.unique {a : Configured} {r r' : NetworkAddrs} (h : Describes a r)
    (h' : Describes a r') : r = r' := by
  obtain ⟨addr, netmask⟩ := r
  obtain ⟨addr', netmask'⟩ := r'
  cases a with
  | v4 octets bits =>
      obtain ⟨rfl, mask, rfl, hmask⟩ := h
      obtain ⟨rfl, mask', rfl, hmask'⟩ := h'
      rw [hmask.unique hmask']
  | v6 octets bits =>
      obtain ⟨rfl, mask, rfl, hmask⟩ := h
      obtain ⟨rfl, mask', rfl, hmask'⟩ := h'
      rw [hmask.unique hmask']

/-- The map has the interfaces of the table and nothing else, each under its name. -/
structure Reports (title : Interface → Str) (table : InterfaceTable) (map : NetworkMap) :
    Prop where
  keys : ∀ name, name ∈ map ↔ name ∈ table.interfaces.map Interface.name
  entry : ∀ i ∈ table.interfaces, ∃ network, map[i.name]? = some network ∧
    network.name = title i ∧ List.Forall₂ Describes i.addrs network.addrs

/-- Two reports of a table differ in the titles at most. -/
theorem Reports.addrs_eq {title title' : Interface → Str} {table : InterfaceTable}
    {map map' : NetworkMap} (h : Reports title table map) (h' : Reports title' table map')
    (name : Str) : map[name]?.map Network.addrs = map'[name]?.map Network.addrs := by
  by_cases hname : name ∈ table.interfaces.map Interface.name
  · obtain ⟨i, hi, rfl⟩ := List.mem_map.mp hname
    obtain ⟨network, hget, _, haddrs⟩ := h.entry i hi
    obtain ⟨network', hget', _, haddrs'⟩ := h'.entry i hi
    have hunique : Relator.RightUnique Describes := fun _ _ _ hr hr' => hr.unique hr'
    rw [hget, hget', Option.map_some, Option.map_some, hunique.forall₂ haddrs haddrs']
  · have hnone : map[name]? = none :=
      Std.TreeMap.getElem?_eq_none fun hmem => hname ((h.keys name).mp hmem)
    have hnone' : map'[name]? = none :=
      Std.TreeMap.getElem?_eq_none fun hmem => hname ((h'.keys name).mp hmem)
    rw [hnone, hnone']

/-! ## The nodes of `getifaddrs` -/

def HoldsV4 (target : Target) (addr : Option SockAddr) (octets : Vector (BitVec 8) 4) : Prop :=
  ∃ sa, addr = some sa ∧ sa.saFamily = target.afInet ∧
    ∀ i, (hi : i < 4) → sa.saData (2 + i) = octets[i]

def HoldsV6 (target : Target) (addr : Option SockAddr) (octets : Vector (BitVec 8) 16) : Prop :=
  ∃ sa, addr = some sa ∧ sa.saFamily = target.afInet6 ∧ sa.s6Addr = octets

/-- A node that lists the address, with the mask of its prefix. -/
def NodePresents (target : Target) : Configured → IfAddrs → Prop
  | .v4 octets bits, ifa => HoldsV4 target ifa.ifaAddr octets ∧
      ∃ mask, HoldsV4 target ifa.ifaNetmask mask ∧ IsPrefixMask mask bits
  | .v6 octets bits, ifa => HoldsV6 target ifa.ifaAddr octets ∧
      ∃ mask, HoldsV6 target ifa.ifaNetmask mask ∧ IsPrefixMask mask bits

def cName (name : Str) : Bytes := utf8 (name ++ [Char.ofNat 0])

/-- Every interface has a node, if only one of a family that is not kept; nodes of
different interfaces may be mixed, and those of one list its addresses in order. -/
structure NodesPresent (target : Target) (table : InterfaceTable) (nodes : List IfAddrs) :
    Prop where
  known : ∀ ifa ∈ nodes, ∃ i ∈ table.interfaces, ifa.ifaName = cName i.name
  listed : ∀ i ∈ table.interfaces, ∃ ifa ∈ nodes, ifa.ifaName = cName i.name
  addrs : ∀ i ∈ table.interfaces, List.Forall₂ (NodePresents target) i.addrs
    (nodes.filter fun ifa => ifa.ifaName = cName i.name ∧ familySupported target ifa.ifaAddr)

variable {target : Target}

theorem parseAddr_of_holdsV4 {addr : Option SockAddr} {octets : Vector (BitVec 8) 4}
    (h : HoldsV4 target addr octets) : parseAddr target addr = .v4 ⟨octets⟩ := by
  obtain ⟨sa, rfl, hfamily, hoctets⟩ := h
  simp only [parseAddr, if_pos hfamily, IpAddr.v4.injEq, Ipv4Addr.new, Ipv4Addr.mk.injEq]
  apply Vector.ext
  intro i hi
  have hi' := hoctets i hi
  interval_cases i <;> exact hi'

theorem parseAddr_of_holdsV6 {addr : Option SockAddr} {octets : Vector (BitVec 8) 16}
    (hlittle : target.byteOrder = .little) (h : HoldsV6 target addr octets) :
    parseAddr target addr = .v6 ⟨octets⟩ := by
  obtain ⟨sa, rfl, hfamily, rfl⟩ := h
  rw [parseAddr_reported target hfamily, hlittle]
  rfl

theorem describes_of_nodePresents (hlittle : target.byteOrder = .little) {a : Configured}
    {ifa : IfAddrs} (h : NodePresents target a ifa) : Describes a (addrsOf target ifa) := by
  cases a with
  | v4 octets bits =>
      obtain ⟨haddr, mask, hmask, hbits⟩ := h
      exact ⟨parseAddr_of_holdsV4 haddr, mask, parseAddr_of_holdsV4 hmask, hbits⟩
  | v6 octets bits =>
      obtain ⟨haddr, mask, hmask, hbits⟩ := h
      exact ⟨parseAddr_of_holdsV6 hlittle haddr, mask, parseAddr_of_holdsV6 hlittle hmask, hbits⟩

variable {table : InterfaceTable} {nodes : List IfAddrs} {i : Interface}

/-- A node belongs to an interface by its bytes exactly when it does by its name. -/
theorem node_name_iff (h : NodesPresent target table nodes) {ifa : IfAddrs} (hifa : ifa ∈ nodes)
    (hi : i ∈ table.interfaces) : ifa.name = i.name ↔ ifa.ifaName = cName i.name := by
  constructor
  · intro hname
    obtain ⟨i', hi', hbytes⟩ := h.known ifa hifa
    rw [IfAddrs.name_utf8 (table.name_nul i' hi') hbytes] at hname
    rw [hbytes, hname]
  · exact IfAddrs.name_utf8 (table.name_nul i hi)

theorem networksLoop_reports (hlittle : target.byteOrder = .little)
    (h : NodesPresent target table nodes) :
    Reports Interface.name table (networksLoop target nodes ∅) := by
  constructor
  · intro name
    rw [Std.TreeMap.mem_iff_isSome_getElem?, getElem?_networksLoop]
    have hkeys : name ∈ nodes.map IfAddrs.name ↔
        name ∈ table.interfaces.map Interface.name := by
      simp only [List.mem_map]
      constructor
      · rintro ⟨ifa, hifa, rfl⟩
        obtain ⟨i, hi, hbytes⟩ := h.known ifa hifa
        exact ⟨i, hi, ((node_name_iff h hifa hi).mpr hbytes).symm⟩
      · rintro ⟨i, hi, rfl⟩
        obtain ⟨ifa, hifa, hbytes⟩ := h.listed i hi
        exact ⟨ifa, hifa, (node_name_iff h hifa hi).mpr hbytes⟩
    rw [← hkeys]
    by_cases hname : name ∈ nodes.map IfAddrs.name
    · rw [if_pos hname]
      exact iff_of_true rfl hname
    · rw [if_neg hname]
      exact iff_of_false Bool.false_ne_true hname
  · intro i hi
    obtain ⟨ifa, hifa, hbytes⟩ := h.listed i hi
    have hmem : i.name ∈ nodes.map IfAddrs.name :=
      List.mem_map.mpr ⟨ifa, hifa, (node_name_iff h hifa hi).mpr hbytes⟩
    have hfilter : (nodes.filter fun ifa =>
        ifa.name = i.name ∧ familySupported target ifa.ifaAddr) =
        nodes.filter fun ifa =>
          ifa.ifaName = cName i.name ∧ familySupported target ifa.ifaAddr := by
      apply List.filter_congr
      intro ifa hifa
      rw [decide_eq_decide, node_name_iff h hifa hi]
    refine ⟨_, by rw [getElem?_networksLoop, if_pos hmem], rfl, ?_⟩
    rw [hfilter, List.forall₂_map_right_iff]
    exact (h.addrs i hi).imp fun _ _ => describes_of_nodePresents hlittle

/-! ## The adapters of Windows -/

def UnicastPresents : Configured → UnicastAddress → Prop
  | .v4 octets bits, u => HoldsV4 Windows.target u.lpSockaddr octets ∧
      u.onLinkPrefixLength.toNat = bits
  | .v6 octets bits, u => HoldsV6 Windows.target u.lpSockaddr octets ∧
      u.onLinkPrefixLength.toNat = bits

structure AdapterPresents (i : Interface) (adapter : AdapterAddresses) : Prop where
  name : adapter.adapterName = cName i.name
  friendlyName : ∃ behind, adapter.friendlyName = some (utf16 i.friendlyName ++ 0#16 :: behind)
  addrs : List.Forall₂ UnicastPresents i.addrs adapter.firstUnicastAddress

/-- One adapter for each interface, in any order. -/
def AdaptersPresent (table : InterfaceTable) (adapters : List AdapterAddresses) : Prop :=
  ∃ interfaces, interfaces.Perm table.interfaces ∧
    List.Forall₂ AdapterPresents interfaces adapters

theorem describes_of_unicastPresents {a : Configured} {u : UnicastAddress}
    (h : UnicastPresents a u) :
    Describes a (parseAddrAndNetmask u.lpSockaddr u.onLinkPrefixLength) := by
  have hreported := parseAddrAndNetmask_reported u
  cases a with
  | v4 octets bits =>
      obtain ⟨⟨sa, hsa, hfamily, hoctets⟩, hbits⟩ := h
      obtain ⟨haddr, hmask⟩ := hreported.v4 sa hsa hfamily
      have hlt := bits.isLt
      rw [if_pos (by omega), hbits] at hmask
      refine ⟨haddr.trans ?_, hmask⟩
      rw [IpAddr.v4.injEq, Ipv4Addr.mk.injEq]
      apply Vector.ext
      intro k hk
      rw [Vector.getElem_ofFn]
      exact hoctets k hk
  | v6 octets bits =>
      obtain ⟨⟨sa, hsa, hfamily, rfl⟩, hbits⟩ := h
      obtain ⟨haddr, hmask⟩ := hreported.v6 sa hsa hfamily
      have hlt := bits.isLt
      rw [if_pos (by omega), hbits] at hmask
      exact ⟨haddr, hmask⟩

theorem adapter_name {adapter : AdapterAddresses} (hi : i ∈ table.interfaces)
    (h : AdapterPresents i adapter) : adapter.name = i.name := by
  rw [AdapterAddresses.name, h.name]
  exact cCharArrayToString_utf8 (table.name_nul i hi)

theorem map_name_of_present (table : InterfaceTable) {interfaces : List Interface}
    {adapters : List AdapterAddresses} (hmem : ∀ i ∈ interfaces, i ∈ table.interfaces)
    (h : List.Forall₂ AdapterPresents interfaces adapters) :
    adapters.map AdapterAddresses.name = interfaces.map Interface.name := by
  induction h with
  | nil => rfl
  | cons hadapter _ ih =>
      rw [List.map_cons, List.map_cons, adapter_name (hmem _ (by simp)) hadapter,
        ih fun i hi => hmem i (by simp [hi])]

theorem exists_split_of_forall₂ {α β : Type} {R : α → β → Prop} {xs : List α} {ys : List β}
    (h : List.Forall₂ R xs ys) {x : α} (hx : x ∈ xs) : ∃ xs₁ xs₂ ys₁ y ys₂,
      xs = xs₁ ++ x :: xs₂ ∧ ys = ys₁ ++ y :: ys₂ ∧ R x y ∧ List.Forall₂ R xs₂ ys₂ := by
  induction h with
  | nil => cases hx
  | @cons a b as bs hab hrest ih =>
      rcases List.mem_cons.mp hx with rfl | hx
      · exact ⟨[], as, [], b, bs, rfl, rfl, hab, hrest⟩
      · obtain ⟨xs₁, xs₂, ys₁, y, ys₂, rfl, rfl, hxy, hpost⟩ := ih hx
        exact ⟨a :: xs₁, xs₂, b :: ys₁, y, ys₂, rfl, rfl, hxy, hpost⟩

theorem adaptersLoop_reports {adapters : List AdapterAddresses}
    (h : AdaptersPresent table adapters) :
    Reports Interface.friendlyName table (adaptersLoop adapters ∅) := by
  obtain ⟨interfaces, hperm, hpresent⟩ := h
  have hnames := map_name_of_present table (fun _ hi => hperm.subset hi) hpresent
  have hdistinct : (interfaces.map Interface.name).Nodup :=
    (hperm.map Interface.name).nodup_iff.mpr table.distinct
  constructor
  · intro name
    rw [mem_adaptersLoop, hnames, (hperm.map Interface.name).mem_iff]
  · intro i hi
    obtain ⟨pre, post, pre', adapter, post', rfl, hsplit', hadapter, hpost⟩ :=
      exists_split_of_forall₂ hpresent (hperm.symm.subset hi)
    have hname := adapter_name hi hadapter
    have hpostNames := map_name_of_present table (fun j hj => hperm.subset (by simp [hj])) hpost
    have hlast : adapter.name ∉ post'.map AdapterAddresses.name := by
      rw [List.map_append, List.map_cons] at hdistinct
      rw [hname, hpostNames]
      exact (List.nodup_cons.mp (List.nodup_append.mp hdistinct).2.1).1
    obtain ⟨behind, hfriendly⟩ := hadapter.friendlyName
    refine ⟨adapter.network, ?_, ?_, ?_⟩
    · rw [← hname, hsplit']
      exact getElem?_adaptersLoop_last hlast
    · rw [AdapterAddresses.network, hfriendly]
      exact u16ArrayToString_utf16 (table.friendlyName_nul i hi) behind
    · rw [AdapterAddresses.network, List.forall₂_map_right_iff]
      exact hadapter.addrs.imp fun _ _ => describes_of_unicastPresents

/-! ## Agreement -/

/-- Both maps report the table, with the same addresses for each interface. -/
structure TableReported (table : InterfaceTable) (map map' : NetworkMap) : Prop where
  named : Reports Interface.name table map
  friendlyNamed : Reports Interface.friendlyName table map'
  agree : ∀ name : Str, map[name]?.map Network.addrs = map'[name]?.map Network.addrs

/-- The calls answer from the table as soon as the buffer is large enough, and no other way. -/
structure ShowsTable (calls : AdapterCalls) (need : Nat) (table : InterfaceTable) : Prop where
  answers : Answers calls need
  noFailure : ¬ SomeFailure calls
  adapters : ∀ round size adapters, calls.getAdaptersAddresses round size = .success adapters →
    AdaptersPresent table adapters

/-- Whatever the order of the nodes and of the adapters and the sizes that the calls ask for,
the two platforms report one table. -/
theorem networks_agree (hlittle : target.byteOrder = .little)
    (hnodes : NodesPresent target table nodes) {calls : AdapterCalls} {need : Nat}
    (hcalls : ShowsTable calls need table) (hneed : need < 2 ^ 31) (checked : Bool) (rounds : Nat)
    (henough : need ≤ 15000 * 2 ^ rounds) :
    ∃ map events map', networks target (.ok nodes) = .ok map ∧
      get checked calls (rounds + 1) = some (events, .returned (.ok map')) ∧
      TableReported table map map' := by
  obtain ⟨loopEvents, result, hrun, hfailure⟩ :=
    retryLoop_ends hcalls.answers hneed checked rounds 0 workingBufferSizel henough
  obtain ⟨events, hget⟩ := get_of_retryLoop hrun
  cases result with
  | error e => exact absurd (hfailure e rfl) hcalls.noFailure
  | ok filled =>
      obtain ⟨round, size, adapters, _, hreply, hmade⟩ := get_adapters hget
      have hmap := networksLoop_reports hlittle hnodes
      have hmap' := adaptersLoop_reports (hcalls.adapters round size adapters hreply)
      rw [← hmade] at hmap'
      exact ⟨_, events, _, rfl, hget, hmap, hmap', hmap.addrs_eq hmap'⟩

/-- A loopback interface, and one with addresses of both families. -/
def twoInterfaces : InterfaceTable where
  interfaces := [⟨"lo".toList, "Loopback".toList, [.v4 #v[127, 0, 0, 1] 8]⟩,
    ⟨"eth".toList, "LAN".toList, [.v4 #v[10, 0, 0, 2] 24, .v6 (loopback 0).s6Addr 128]⟩]
  distinct := by decide
  name_nul := by decide
  friendlyName_nul := by decide

theorem holdsV4_ipv4SockAddr {target : Target} (htarget : target.afInet = 2) (a b c d : BitVec 8) :
    HoldsV4 target (some (ipv4SockAddr a b c d)) #v[a, b, c, d] := by
  refine ⟨_, rfl, htarget.symm, ?_⟩
  intro i hi
  interval_cases i <;> rfl

def linuxTarget : Target := ⟨.little, 2, 10, by decide⟩

/-- The nodes of the two are mixed, and one is of the link layer. -/
def twoInterfacesNodes : List IfAddrs :=
  [⟨cName "eth".toList, some ⟨17, fun _ => 0⟩, none⟩,
    ⟨cName "eth".toList, some (ipv4SockAddr 10 0 0 2), some (ipv4SockAddr 255 255 255 0)⟩,
    ⟨cName "lo".toList, some (ipv4SockAddr 127 0 0 1), some (ipv4SockAddr 255 0 0 0)⟩,
    ⟨cName "eth".toList, some (loopback 10), some ⟨10, fun _ => 255⟩⟩]

theorem nodesPresent_two : NodesPresent linuxTarget twoInterfaces twoInterfacesNodes where
  known := by simp [twoInterfaces, twoInterfacesNodes]
  listed := by simp [twoInterfaces, twoInterfacesNodes]
  addrs := by
    have hlo : twoInterfacesNodes.filter (fun ifa => ifa.ifaName = cName "lo".toList ∧
        familySupported linuxTarget ifa.ifaAddr) = [twoInterfacesNodes[2]] := by rfl
    have heth : twoInterfacesNodes.filter (fun ifa => ifa.ifaName = cName "eth".toList ∧
        familySupported linuxTarget ifa.ifaAddr) =
          [twoInterfacesNodes[1], twoInterfacesNodes[3]] := by rfl
    intro i hi
    rcases List.mem_pair.mp hi with rfl | rfl
    · rw [hlo]
      refine .cons ⟨holdsV4_ipv4SockAddr rfl 127 0 0 1, _, holdsV4_ipv4SockAddr rfl 255 0 0 0, ?_⟩
        .nil
      decide
    · rw [heth]
      refine .cons ⟨holdsV4_ipv4SockAddr rfl 10 0 0 2, _,
        holdsV4_ipv4SockAddr rfl 255 255 255 0, ?_⟩ (.cons ⟨⟨_, rfl, rfl, rfl⟩, _,
          ⟨_, rfl, rfl, rfl⟩, ?_⟩ .nil)
      · decide
      · decide

def twoInterfacesAdapters : List AdapterAddresses :=
  [⟨cName "eth".toList, [⟨some (ipv4SockAddr 10 0 0 2), 24⟩, ⟨some (loopback 23), 128⟩],
      some (utf16 "LAN".toList ++ [0#16])⟩,
    ⟨cName "lo".toList, [⟨some (ipv4SockAddr 127 0 0 1), 8⟩],
      some (utf16 "Loopback".toList ++ [0#16])⟩]

theorem adaptersPresent_two : AdaptersPresent twoInterfaces twoInterfacesAdapters := by
  refine ⟨_, List.reverse_perm twoInterfaces.interfaces, ?_⟩
  exact .cons ⟨rfl, ⟨[], rfl⟩, .cons ⟨holdsV4_ipv4SockAddr rfl 10 0 0 2, rfl⟩
      (.cons ⟨⟨_, rfl, rfl, rfl⟩, rfl⟩ .nil)⟩
    (.cons ⟨rfl, ⟨[], rfl⟩, .cons ⟨holdsV4_ipv4SockAddr rfl 127 0 0 1, rfl⟩ .nil⟩ .nil)

theorem showsTable_two :
    ShowsTable (callsNeeding 20000 twoInterfacesAdapters) 20000 twoInterfaces where
  answers := callsNeeding_answers 20000 twoInterfacesAdapters
  noFailure := by
    rintro ⟨round, size, code, h⟩
    simp only [callsNeeding] at h
    split at h
    · cases h
    · cases h
  adapters round size adapters h := by
    simp only [callsNeeding] at h
    split at h
    · cases h
    · cases h
      exact adaptersPresent_two

theorem networks_agree_two : ∃ map events map',
    networks linuxTarget (.ok twoInterfacesNodes) = .ok map ∧
      get true (callsNeeding 20000 twoInterfacesAdapters) 2 =
        some (events, .returned (.ok map')) ∧
      TableReported twoInterfaces map map' :=
  networks_agree rfl nodesPresent_two showsTable_two (by decide) true 1 (by decide)

end Systemstat.Platform
