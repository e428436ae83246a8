import Systemstat.Data
import Mathlib.Tactic.IntervalCases

/-! # Socket addresses

`parse_addr` reads an address of the kernel's octet by octet for IPv4, and through
words of the machine's own byte order for IPv6. The octets come out in their order
on a little-endian machine; on the other kind those of each word change places.
-/

namespace Systemstat.Unix

open Bytes

structure Target where
  byteOrder : ByteOrder
  afInet : Nat
  afInet6 : Nat
  afInet_ne : afInet ≠ afInet6

structure SockAddr where
  saFamily : Nat
  behindFamily : Nat → BitVec 8

namespace SockAddr

def saData (addr : SockAddr) (i : Nat) : BitVec 8 := addr.behindFamily i

/-- `sin6_addr` comes after the port and the flow information. -/
def s6Addr (addr : SockAddr) : Vector (BitVec 8) 16 :=
  Vector.ofFn fun i => addr.behindFamily (6 + i.val)

end SockAddr

def parseAddr (target : Target) : Option SockAddr → IpAddr
  | none => .empty
  | some addr =>
      if addr.saFamily = target.afInet then
        .v4 (.new (addr.saData 2) (addr.saData 3) (addr.saData 4) (addr.saData 5))
      else if addr.saFamily = target.afInet6 then
        let a : Vector (BitVec 8) (2 * 8) := addr.s6Addr.reverse
        let a := words target.byteOrder a
        .v6 (.new a[7] a[6] a[5] a[4] a[3] a[2] a[1] a[0])
      else .unsupported

/-! ## IPv6 octets -/

theorem reverse_eq_of_eight {α : Type} (a : Vector α 8) :
    #v[a[7], a[6], a[5], a[4], a[3], a[2], a[1], a[0]] = a.reverse := by
  apply Vector.ext
  intro i hi
  interval_cases i <;> simp

/-- The two reversals undo each other, and leave the words read in the other order. -/
theorem parseAddr_v6 (target : Target) {addr : SockAddr} (h : addr.saFamily = target.afInet6) :
    parseAddr target (some addr) =
      .v6 ⟨octets (n := 8) .big (words (n := 8) target.byteOrder.other addr.s6Addr)⟩ := by
  have hreverse := words_reverse (n := 8) target.byteOrder addr.s6Addr
  have hne : addr.saFamily ≠ target.afInet := by
    rw [h]
    exact target.afInet_ne.symm
  simp only [parseAddr, if_neg hne, if_pos h, Ipv6Addr.new, reverse_eq_of_eight]
  rw [hreverse, Vector.reverse_reverse]

def reportedOctets : ByteOrder → Vector (BitVec 8) 16 → Vector (BitVec 8) 16
  | .little, os => os
  | .big, os => swapPairs (n := 8) os

theorem parseAddr_reported (target : Target) {addr : SockAddr}
    (h : addr.saFamily = target.afInet6) :
    parseAddr target (some addr) = .v6 ⟨reportedOctets target.byteOrder addr.s6Addr⟩ := by
  rw [parseAddr_v6 target h]
  cases target.byteOrder with
  | little => exact congrArg (fun os => IpAddr.v6 ⟨os⟩) (octets_words (n := 8) .big addr.s6Addr)
  | big =>
      exact congrArg (fun os => IpAddr.v6 ⟨os⟩) (octets_other_words (n := 8) .little addr.s6Addr)

theorem reportedOctets_injective (order : ByteOrder) {os os' : Vector (BitVec 8) 16}
    (h : reportedOctets order os = reportedOctets order os') : os = os' := by
  cases order with
  | little => exact h
  | big => exact swapPairs_injective (n := 8) h

/-- The address is reported with its own octets, and no other one is reported as equal. -/
structure KeepsOctets (target : Target) (addr : SockAddr) : Prop where
  exact : parseAddr target (some addr) = .v6 ⟨addr.s6Addr⟩
  distinct : ∀ other : SockAddr, other.saFamily = target.afInet6 →
    parseAddr target (some other) = parseAddr target (some addr) → other.s6Addr = addr.s6Addr

/-- On a big-endian machine only an address whose segments have two equal octets is
reported as it is. -/
theorem parseAddr_keepsOctets_iff (target : Target) {addr : SockAddr}
    (h : addr.saFamily = target.afInet6) :
    KeepsOctets target addr ↔ target.byteOrder = .little ∨
      ∀ k, (hk : k < 8) → addr.s6Addr[2 * k] = addr.s6Addr[2 * k + 1] := by
  have hexact : KeepsOctets target addr ↔
      reportedOctets target.byteOrder addr.s6Addr = addr.s6Addr := by
    constructor
    · intro hkeeps
      have hreported := (parseAddr_reported target h).symm.trans hkeeps.exact
      rwa [IpAddr.v6.injEq, Ipv6Addr.mk.injEq] at hreported
    · intro hreported
      refine ⟨by rw [parseAddr_reported target h, hreported], fun other hother heq => ?_⟩
      rw [parseAddr_reported target h, parseAddr_reported target hother, IpAddr.v6.injEq,
        Ipv6Addr.mk.injEq] at heq
      exact reportedOctets_injective target.byteOrder heq
  rw [hexact]
  cases target.byteOrder with
  | little => exact iff_of_true rfl (.inl rfl)
  | big =>
      have hswap := swapPairs_eq_iff (n := 8) addr.s6Addr
      exact hswap.trans ⟨.inr, fun hk => hk.resolve_left ByteOrder.noConfusion⟩

/-- The loopback address `::1`, as it lies behind the family. -/
def loopback (afInet6 : Nat) : SockAddr := ⟨afInet6, fun i => if i = 21 then 1 else 0⟩

theorem parseAddr_keepsOctets_iff_loopback :
    KeepsOctets ⟨.little, 2, 10, by decide⟩ (loopback 10) ↔ ByteOrder.little = .little ∨
      ∀ k, (hk : k < 8) → (loopback 10).s6Addr[2 * k] = (loopback 10).s6Addr[2 * k + 1] :=
  parseAddr_keepsOctets_iff _ rfl

/-- `::1` becomes `::100` on a big-endian machine. -/
theorem parseAddr_big_endian : ¬ ∀ (target : Target) (addr : SockAddr),
    addr.saFamily = target.afInet6 → KeepsOctets target addr := by
  intro h
  have hexact := (h ⟨.big, 2, 10, by decide⟩ (loopback 10) rfl).exact
  revert hexact
  decide +kernel

end Systemstat.Unix
