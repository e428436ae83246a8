import Systemstat.Collections.GroupFold
import Systemstat.Text.Lossy
import Systemstat.Unix.Addr

/-! # Network interfaces

`getifaddrs` lists one node for each address, and `networks` packs the nodes of a
name into one object. Every node of a supported family is in the object of its
name, once and in the order of the list.
-/

namespace Systemstat.Unix

open Nom Text Collections

/-- A node of the list; the name is what lies at the pointer. -/
structure IfAddrs where
  ifaName : Bytes
  ifaAddr : Option SockAddr
  ifaNetmask : Option SockAddr

def IfAddrs.name (ifa : IfAddrs) : Str := toStringLossy (cString ifa.ifaName)

/-- A name in UTF-8 is decoded as it is. -/
theorem IfAddrs.name_utf8 {ifa : IfAddrs} {s : Str} (h : Char.ofNat 0 ∉ s)
    (hname : ifa.ifaName = utf8 (s ++ [Char.ofNat 0])) : ifa.name = s := by
  rw [IfAddrs.name, hname, cString_utf8 h, toStringLossy_utf8]

abbrev NetworkMap := Std.TreeMap Str Network

def networksLoop (target : Target) : List IfAddrs → NetworkMap → NetworkMap
  | [], result => result
  | ifa :: ifaNext, result =>
      let name := ifa.name
      let result := result.alter name fun entry =>
        let entry := entry.getD ⟨name, []⟩
        let addr := parseAddr target ifa.ifaAddr
        if addr ≠ .unsupported then
          some { entry with addrs := entry.addrs ++ [⟨addr, parseAddr target ifa.ifaNetmask⟩] }
        else some entry
      networksLoop target ifaNext result

/-- `getifaddrs` fails with a number, or answers with the list. -/
def networks (target : Target) (getifaddrs : Except Int (List IfAddrs)) : IoResult NetworkMap :=
  match getifaddrs with
  | .error _ => .error (.other "getifaddrs() failed")
  | .ok ifap => .ok (networksLoop target ifap ∅)

/-! ## The loop as grouping -/

variable (target : Target)

/-- What is kept of a node: a null address is, and one of a known family. -/
def familySupported : Option SockAddr → Bool
  | none => true
  | some addr => addr.saFamily = target.afInet ∨ addr.saFamily = target.afInet6

theorem parseAddr_ne_unsupported_iff (addr : Option SockAddr) :
    parseAddr target addr ≠ .unsupported ↔ familySupported target addr = true := by
  cases addr with
  | none => simp [parseAddr, familySupported]
  | some addr =>
      simp only [parseAddr, familySupported, decide_eq_true_eq]
      by_cases hinet : addr.saFamily = target.afInet
      · simp [hinet]
      · by_cases hinet6 : addr.saFamily = target.afInet6
        · simp [hinet6, target.afInet_ne.symm]
        · simp [hinet, hinet6]

def addrsOf (ifa : IfAddrs) : NetworkAddrs :=
  ⟨parseAddr target ifa.ifaAddr, parseAddr target ifa.ifaNetmask⟩

def pushAddrs (net : Network) (ifa : IfAddrs) : Network :=
  if familySupported target ifa.ifaAddr then { net with addrs := net.addrs ++ [addrsOf target ifa] }
  else net

theorem networksLoop_eq (nodes : List IfAddrs) (result : NetworkMap) :
    networksLoop target nodes result =
      nodes.foldl (groupStep IfAddrs.name (fun name => ⟨name, []⟩) (pushAddrs target)) result := by
  induction nodes generalizing result with
  | nil => rfl
  | cons ifa nodes ih =>
      rw [List.foldl_cons, ← ih, networksLoop, groupStep]
      congr 2
      funext entry
      simp only [pushAddrs, addrsOf, parseAddr_ne_unsupported_iff]
      split <;> rfl

theorem foldl_pushAddrs (nodes : List IfAddrs) (net : Network) :
    nodes.foldl (pushAddrs target) net =
      ⟨net.name, net.addrs ++
        (nodes.filter fun ifa => familySupported target ifa.ifaAddr).map (addrsOf target)⟩ := by
  induction nodes generalizing net with
  | nil => simp
  | cons ifa nodes ih =>
      rw [List.foldl_cons, ih, pushAddrs]
      by_cases h : familySupported target ifa.ifaAddr = true
      · simp [h]
      · simp [h]

/-! ## Every node in its place -/

/-- Nothing is lost, duplicated or misfiled. -/
structure Filed (nodes : List IfAddrs) (map : NetworkMap) : Prop where
  keys : ∀ name, name ∈ map ↔ name ∈ nodes.map IfAddrs.name
  entry : ∀ name net, map[name]? = some net → net.name = name ∧
    net.addrs = (nodes.filter fun ifa =>
      ifa.name = name ∧ familySupported target ifa.ifaAddr).map (addrsOf target)
  empty : ∀ name ∈ nodes.map IfAddrs.name,
    (∀ ifa ∈ nodes, ifa.name = name → familySupported target ifa.ifaAddr = false) →
    map[name]? = some ⟨name, []⟩
  total : (map.toList.map fun e => e.2.addrs.length).sum =
    (nodes.filter fun ifa => familySupported target ifa.ifaAddr).length

theorem getElem?_networksLoop (nodes : List IfAddrs) (name : Str) :
    (networksLoop target nodes ∅)[name]? = if name ∈ nodes.map IfAddrs.name then
      some ⟨name, (nodes.filter fun ifa =>
        ifa.name = name ∧ familySupported target ifa.ifaAddr).map (addrsOf target)⟩
    else none := by
  have hfilter : (withKey IfAddrs.name name nodes).filter
      (fun ifa => familySupported target ifa.ifaAddr) =
      nodes.filter fun ifa => ifa.name = name ∧ familySupported target ifa.ifaAddr := by
    rw [withKey, List.filter_filter]
    apply List.filter_congr
    intro ifa _
    rw [Bool.decide_and, Bool.and_comm, Bool.decide_eq_true]
  have hgroup := getElem?_group IfAddrs.name (fun name => ⟨name, []⟩) (pushAddrs target) nodes name
  rw [foldl_pushAddrs, hfilter, List.nil_append] at hgroup
  rw [networksLoop_eq, ← group]
  by_cases hname : name ∈ nodes.map IfAddrs.name
  · rw [if_pos hname] at hgroup ⊢
    exact hgroup
  · rw [if_neg hname] at hgroup ⊢
    exact hgroup

theorem addrs_networksLoop (nodes : List IfAddrs) :
    ((networksLoop target nodes ∅).toList.map fun e => e.2.addrs.length).sum =
      (nodes.filter fun ifa => familySupported target ifa.ifaAddr).length := by
  have hstep : ∀ (net : Network) (ifa : IfAddrs), (pushAddrs target net ifa).addrs.length =
      net.addrs.length + if familySupported target ifa.ifaAddr then 1 else 0 := by
    intro net ifa
    unfold pushAddrs
    split
    · exact List.length_append
    · rfl
  have hsum := sum_group IfAddrs.name (fun name => ⟨name, []⟩) (pushAddrs target)
    (fun net => net.addrs.length) _ (fun _ => rfl) hstep nodes
  rw [networksLoop_eq, ← group, hsum, sum_one_filter]

theorem networks_filed (nodes : List IfAddrs) :
    ∃ map, networks target (.ok nodes) = .ok map ∧ Filed target nodes map := by
  refine ⟨networksLoop target nodes ∅, rfl, ?_⟩
  constructor
  · intro name
    rw [networksLoop_eq]
    exact mem_group IfAddrs.name _ (pushAddrs target) nodes name
  · intro name net hget
    rw [getElem?_networksLoop] at hget
    split at hget
    · cases hget
      exact ⟨rfl, rfl⟩
    · cases hget
  · intro name hname hnone
    rw [getElem?_networksLoop, if_pos hname]
    have hfilter : (nodes.filter fun ifa =>
        ifa.name = name ∧ familySupported target ifa.ifaAddr) = [] := by
      simpa [List.filter_eq_nil_iff] using hnone
    rw [hfilter, List.map_nil]
  · exact addrs_networksLoop target nodes

end Systemstat.Unix
