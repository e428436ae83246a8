import Systemstat.Collections.PointerChain
import Systemstat.Trace.Resources
import Systemstat.Unix.NetworkStats
import Systemstat.Unix.Networks

/-! # The lists of `getifaddrs` in memory

`getifaddrs` hands out cells that the caller has to give back with one call of
`freeifaddrs`, and the two loops over them follow the pointers. Both see the nodes in
their order and no cell that is not theirs. The one gives the list back on every way out,
the other keeps it when it comes to a name that it cannot convert.
-/

namespace Systemstat.Unix

open Pointers Text Trace

variable {α ν : Type}

/-- What `getifaddrs` hands out: cells that end in a null pointer. -/
structure AddressList (α ν : Type) where
  heap : Heap α ν
  ifap : Option α
  cells : List (α × ν)
  chain : Chain heap ifap cells

namespace AddressList

def addresses (list : AddressList α ν) : List α := list.cells.map Prod.fst

def nodes (list : AddressList α ν) : List ν := list.cells.map Prod.snd

/-- The cells are there from `getifaddrs` to `freeifaddrs`. -/
def acquired (list : AddressList α ν) : List (Event α) := list.addresses.map .acquire

def freed (list : AddressList α ν) : List (Event α) := list.addresses.map .release

def heapOfTwo (first last : ν) : Heap (Fin 2) ν := fun p =>
  some (if p = 0 then ⟨first, some 1⟩ else ⟨last, none⟩)

def two (first last : ν) : AddressList (Fin 2) ν where
  heap := heapOfTwo first last
  ifap := some 0
  cells := [(0, first), (1, last)]
  chain := by
    have hfirst : heapOfTwo first last 0 = some ⟨first, some 1⟩ := rfl
    have hlast : heapOfTwo first last 1 = some ⟨last, none⟩ := rfl
    exact .cons hfirst (.cons hlast .nil)

end AddressList

def rounds : Except Int (AddressList α ν) → Nat
  | .error _ => 0
  | .ok list => list.cells.length

section Held

variable [DecidableEq α] (list : AddressList α ν)

theorem holds_acquired {held rs : List α} (h : (rs ++ held).Nodup) :
    holds held (rs.map Event.acquire) = some (rs.reverse ++ held) := by
  induction rs generalizing held with
  | nil => rfl
  | cons r rs ih =>
      have hcons : (r :: (rs ++ held)).Nodup := h
      have hperm : (rs ++ r :: held).Nodup := List.nodup_middle.mpr hcons
      have hr : r ∉ held := fun hmem =>
        (List.nodup_cons.mp hcons).1 (List.mem_append_right rs hmem)
      rw [List.map_cons, holds, holdStep, if_neg hr, Option.bind_some, ih hperm,
        List.reverse_cons, List.append_assoc, List.singleton_append]

/-- A loop reads the cells of the list alone, and holds them all when it ends. -/
theorem holds_visited {visited : List α} (h : visited <+: list.addresses) :
    holds [] (list.acquired ++ visited.map .use) = some list.addresses.reverse := by
  have hacquired : holds [] list.acquired = some list.addresses.reverse := by
    have hnodup : (list.addresses ++ []).Nodup := by
      rw [List.append_nil]
      exact list.chain.nodup
    rw [AddressList.acquired, holds_acquired hnodup, List.append_nil]
  rw [holds_append, hacquired]
  refine holds_of_uses fun e he => ?_
  obtain ⟨p, hp, rfl⟩ := List.mem_map.mp he
  exact ⟨p, List.mem_reverse.mpr (h.subset hp), rfl⟩

theorem clean_freed {visited : List α} (h : visited <+: list.addresses) :
    Clean (list.acquired ++ visited.map .use ++ list.freed) := by
  have hnodup : list.addresses.Nodup := list.chain.nodup
  obtain ⟨held, hholds, _, hmem⟩ := exists_holds_releases (List.nodup_reverse.mpr hnodup) hnodup
    fun r hr => List.mem_reverse.mpr hr
  have hnil : held = [] := List.eq_nil_iff_forall_not_mem.mpr fun q hq =>
    ((hmem q).mp hq).2 (List.mem_reverse.mp ((hmem q).mp hq).1)
  rw [Clean, holds_append, holds_visited list h, Option.bind_some, AddressList.freed, hholds, hnil]

theorem not_clean_unfreed {visited : List α} (h : visited <+: list.addresses)
    (hnodes : list.nodes ≠ []) : ¬ Clean (list.acquired ++ visited.map .use) := by
  intro hclean
  rw [Clean, holds_visited list h, Option.some.injEq, List.reverse_eq_nil_iff] at hclean
  apply hnodes
  rw [AddressList.nodes, List.map_eq_nil_iff]
  exact List.map_eq_nil_iff.mp hclean

end Held

/-! ## `networks` -/

def networksBody (target : Target) (ifa : IfAddrs) (result : NetworkMap) :
    Except IoError NetworkMap :=
  .ok (networksLoop target [ifa] result)

/-- `networks`, with what it does with the cells; `ifirst` gives the list back. -/
def networksWalk (target : Target) (fuel : Nat) :
    Except Int (AddressList α IfAddrs) → Option (List (Event α) × Walk (IoResult NetworkMap))
  | .error _ => some ([], .returned (.error (.other "getifaddrs() failed")))
  | .ok list =>
      (walk list.heap (networksBody target) fuel list.ifap ∅).map fun (visited, result) =>
        (list.acquired ++ visited.map .use ++
          match result with
          | .returned (.ok _) => list.freed
          | _ => [], result)

theorem loop_networksBody (target : Target) (cells : List (α × IfAddrs)) (result : NetworkMap) :
    (loop (networksBody target) cells result).2 =
      .ok (networksLoop target (cells.map Prod.snd) result) := by
  induction cells generalizing result with
  | nil => rfl
  | cons cell cells ih => exact ih (networksLoop target [cell.2] result)

/-- On memory that keeps no promise the loop returns exactly where the list ends. -/
theorem networksBody_returns_iff (target : Target) (heap : Heap α IfAddrs) (ifap : Option α) :
    (∃ fuel visited map, walk heap (networksBody target) fuel ifap ∅ =
      some (visited, .returned (.ok map))) ↔ ∃ cells, Chain heap ifap cells :=
  walk_returns_iff (fun ifa result => ⟨networksLoop target [ifa] result, rfl⟩) ∅

/-- Following the pointers is the loop over the nodes, whatever list the system hands
out: no cell is read that is not there, and every cell is given back once. -/
theorem networksWalk_refines [DecidableEq α] (target : Target)
    (getifaddrs : Except Int (AddressList α IfAddrs)) (spare : Nat) :
    ∃ events, networksWalk target (rounds getifaddrs + spare + 1) getifaddrs =
      some (events, .returned (networks target (getifaddrs.map AddressList.nodes))) ∧
      Clean events := by
  cases getifaddrs with
  | error code => exact ⟨[], rfl, clean_nil⟩
  | ok list =>
      have hfuel : list.cells.length < list.cells.length + spare + 1 := by omega
      have hprefix : (loop (networksBody target) list.cells (∅ : NetworkMap)).1 <+:
          list.addresses := loop_visited_prefix list.cells _
      have hresult := loop_networksBody target list.cells ∅
      have hwalk : walk list.heap (networksBody target) _ list.ifap ∅ = _ :=
        walk_of_chain list.chain hfuel ∅
      rw [hresult] at hwalk
      refine ⟨_, ?_, clean_freed list hprefix⟩
      rw [networksWalk, rounds, hwalk]
      rfl

def loopbackNode (family : Nat) : IfAddrs :=
  ⟨utf8 ("lo0".toList ++ [Char.ofNat 0]), some (loopback family), none⟩

theorem networksWalk_refines_loopback : ∃ events,
    networksWalk ⟨.little, 2, 10, by decide⟩ 3 (.ok (.two (loopbackNode 2) (loopbackNode 10))) =
      some (events, .returned (networks ⟨.little, 2, 10, by decide⟩
        (.ok [loopbackNode 2, loopbackNode 10]))) ∧
      Clean events :=
  networksWalk_refines _ (.ok (.two (loopbackNode 2) (loopbackNode 10))) 0

end Systemstat.Unix

/-! ## `network_stats` of OpenBSD -/

namespace Systemstat.OpenBsd

open Nom Text Pointers Trace Unix

variable {α : Type}

def networkStatsBody (interface : Str) (ifa : IfAddrs) (counters : Counters) :
    IoResult Counters :=
  networkStatsLoop interface [ifa] counters

/-- `network_stats`, with what it does with the cells: an error on the way returns
without a call of `freeifaddrs`. After a failure of `getifaddrs` there are no cells. -/
def networkStatsWalk (interface : Str) (fuel : Nat) :
    Except Int (AddressList α IfAddrs) → Option (List (Event α) × Walk (IoResult NetworkStats))
  | .error _ => some ([], .returned (.ok Counters.zero.toStats))
  | .ok list =>
      (walk list.heap (networkStatsBody interface) fuel list.ifap .zero).map
        fun (visited, result) =>
          match result with
          | .faulted => (list.acquired ++ visited.map .use, .faulted)
          | .returned (.error e) => (list.acquired ++ visited.map .use, .returned (.error e))
          | .returned (.ok counters) =>
              (list.acquired ++ visited.map .use ++ list.freed, .returned (.ok counters.toStats))

theorem loop_networkStatsBody (interface : Str) (cells : List (α × IfAddrs))
    (counters : Counters) : (loop (networkStatsBody interface) cells counters).2 =
      networkStatsLoop interface (cells.map Prod.snd) counters := by
  induction cells generalizing counters with
  | nil => rfl
  | cons cell cells ih =>
      rw [loop, List.map_cons]
      unfold networkStatsLoop
      simp only [networkStatsBody, networkStatsLoop]
      cases cell.2.strNet with
      | none => rfl
      | some strNet =>
          by_cases hname : interface = strNet
          · simp only [if_pos hname]
            cases cell.2.ifaData with
            | none => exact ih counters
            | some data => exact ih (counters.add data)
          · simp only [if_neg hname]
            exact ih counters

/-- What the loop over the list does before the caller sees the result. -/
theorem networkStatsWalk_of_list (interface : Str) (list : AddressList α IfAddrs) (spare : Nat) :
    ∃ visited, visited <+: list.addresses ∧
      networkStatsWalk interface (list.cells.length + spare + 1) (.ok list) =
        some (list.acquired ++ visited.map .use ++
          match networkStatsLoop interface list.nodes .zero with
          | .ok _ => list.freed
          | .error _ => [],
          .returned (networkStats interface (.ok list.nodes))) := by
  have hfuel : list.cells.length < list.cells.length + spare + 1 := by omega
  have hwalk : walk list.heap (networkStatsBody interface) _ list.ifap Counters.zero = _ :=
    walk_of_chain list.chain hfuel Counters.zero
  rw [loop_networkStatsBody interface list.cells .zero] at hwalk
  have hstats : networkStats interface (.ok list.nodes) =
      networkStatsLoop interface list.nodes .zero >>= fun counters => pure counters.toStats := rfl
  refine ⟨(loop (networkStatsBody interface) list.cells Counters.zero).1,
    loop_visited_prefix list.cells _, ?_⟩
  rw [networkStatsWalk, hwalk, hstats, AddressList.nodes]
  cases networkStatsLoop interface (list.cells.map Prod.snd) .zero with
  | error e => exact congrArg (fun events => some (events, _)) (List.append_nil _).symm
  | ok counters => rfl

/-- Following the pointers is the loop over the nodes, and the list is given back exactly
when there is none or all its names can be converted. -/
theorem networkStatsWalk_clean_iff [DecidableEq α] (interface : Str)
    (getifaddrs : Except Int (AddressList α IfAddrs)) (spare : Nat) :
    ∃ events, networkStatsWalk interface (rounds getifaddrs + spare + 1) getifaddrs =
      some (events, .returned (networkStats interface (getifaddrs.map AddressList.nodes))) ∧
      (Clean events ↔ ∀ list, getifaddrs = .ok list → NamesConvert list.nodes) := by
  cases getifaddrs with
  | error code => exact ⟨[], rfl, iff_of_true clean_nil fun list h => by cases h⟩
  | ok list =>
      obtain ⟨visited, hprefix, hwalk⟩ := networkStatsWalk_of_list interface list spare
      refine ⟨_, hwalk, ?_⟩
      by_cases hconvert : NamesConvert list.nodes
      · rw [networkStatsLoop_eq hconvert .zero]
        refine iff_of_true (clean_freed list hprefix) fun list' h => ?_
        cases h
        exact hconvert
      · -- A name that cannot be converted is that of a cell, so something is still held.
        have hnodes : list.nodes ≠ [] := by
          intro hnil
          apply hconvert
          rw [hnil]
          exact fun ifa hifa => absurd hifa List.not_mem_nil
        rw [networkStatsLoop_error hconvert .zero]
        simp only [List.append_nil]
        exact iff_of_false (not_clean_unfreed list hprefix hnodes) fun hall =>
          hconvert (hall list rfl)

/-- The list is kept where the second name cannot be converted, and given back where both
can. -/
theorem networkStatsWalk_clean_iff_unconvertible :
    (∃ events, networkStatsWalk "em0".toList 3 (.ok (.two (nodeOf "em0" none) ⟨[0xff], none⟩)) =
        some (events, .returned (networkStats "em0".toList
          (.ok [nodeOf "em0" none, ⟨[0xff], none⟩]))) ∧ ¬ Clean events) ∧
    ∃ events, networkStatsWalk "em0".toList 3 (.ok (.two (nodeOf "em0" none) (nodeOf "lo0" none))) =
        some (events, .returned (networkStats "em0".toList
          (.ok [nodeOf "em0" none, nodeOf "lo0" none]))) ∧ Clean events := by
  constructor
  · obtain ⟨events, hwalk, hclean⟩ := networkStatsWalk_clean_iff "em0".toList
      (.ok (.two (nodeOf "em0" none) ⟨[0xff], none⟩)) 0
    refine ⟨events, hwalk, fun h => ?_⟩
    have hname := hclean.mp h _ rfl ⟨[0xff], none⟩ (by simp [AddressList.nodes, AddressList.two])
    revert hname
    decide
  · obtain ⟨events, hwalk, hclean⟩ := networkStatsWalk_clean_iff "em0".toList
      (.ok (.two (nodeOf "em0" none) (nodeOf "lo0" none))) 0
    refine ⟨events, hwalk, hclean.mpr fun list h ifa hifa => ?_⟩
    cases h
    rcases List.mem_pair.mp hifa with rfl | rfl
    · rw [strNet_nodeOf (by decide)]
      rfl
    · rw [strNet_nodeOf (by decide)]
      rfl

end Systemstat.OpenBsd
