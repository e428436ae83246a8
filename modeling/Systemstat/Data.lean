import Systemstat.Bytes.Order
import Systemstat.Nom.Parser
import Mathlib.Algebra.Field.Rat

/-! # Data structures that represent system information

The records every platform fills. A machine integer is a `BitVec` of its width,
so its arithmetic wraps as it does in a build without overflow checks; `w` is
the width of `usize`. An `f32` is read as an exact rational.
-/

namespace Systemstat

open Nom

/-! ## Errors and deferred results -/

/-- `io::Error`, by what the program builds it from. -/
inductive IoError
  | os (code : Int)
  | invalidData (err : Err)
  | notFound (message : String)
  | other (message : String)
  deriving DecidableEq, Repr

abbrev IoResult (α : Type) := Except IoError α

/-- A measurement that is finished later: `σ` is the system that `done` then finds. -/
structure DelayedMeasurement (σ α : Type) where
  res : σ → IoResult α

def DelayedMeasurement.done {σ α : Type} (m : DelayedMeasurement σ α) (sys : σ) : IoResult α :=
  m.res sys

/-- What a sequence returns has gone through its first part. -/
theorem exists_of_bind_eq_ok {α β : Type} {r : IoResult α} {f : α → IoResult β} {b : β}
    (h : r >>= f = .ok b) : ∃ a, r = .ok a ∧ f a = .ok b := by
  cases r with
  | error e => cases h
  | ok a => exact ⟨a, rfl, h⟩

theorem toOption_eq_some_iff {α : Type} {r : IoResult α} {a : α} :
    r.toOption = some a ↔ r = .ok a := by
  cases r with
  | ok b => simp [Except.toOption]
  | error e => simp [Except.toOption]

theorem toOption_eq_none_iff {α : Type} {r : IoResult α} :
    r.toOption = none ↔ ∃ e, r = .error e := by
  cases r with
  | ok a => simp [Except.toOption]
  | error e => simp [Except.toOption]

/-! ## Machine integers and sizes -/

def saturatingSub {w : Nat} (l r : BitVec w) : BitVec w := if r ≤ l then l - r else 0#w

theorem saturatingSub_toNat {w : Nat} (l r : BitVec w) :
    (saturatingSub l r).toNat = l.toNat - r.toNat := by
  unfold saturatingSub
  by_cases h : r ≤ l
  · rw [if_pos h, BitVec.toNat_sub_of_le h]
  · rw [if_neg h, BitVec.toNat_zero]
    rw [BitVec.le_def] at h
    omega

/-- `as u64` from `i32` copies the sign. -/
def i32AsU64 (x : BitVec 32) : BitVec 64 := x.signExtend 64

theorem i32AsU64_toNat (x : BitVec 32) : (i32AsU64 x).toNat =
    if 0 ≤ x.toInt then x.toInt.toNat else 2 ^ 64 - x.toInt.natAbs := by
  have hsign : (i32AsU64 x).toInt = x.toInt := BitVec.toInt_signExtend_of_le (by decide)
  have hword := BitVec.toInt_eq_toNat_cond (i32AsU64 x)
  have hlt := (i32AsU64 x).isLt
  rw [hsign] at hword
  by_cases hneg : 0 ≤ x.toInt
  · rw [if_pos hneg]
    split at hword <;> omega
  · rw [if_neg hneg]
    split at hword <;> omega

theorem ne_zero_of_toInt_ne {x : BitVec 32} (h : x.toInt ≠ 0) : x ≠ 0#32 := by
  rintro rfl
  exact h rfl

structure ByteSize where
  bytes : BitVec 64
  deriving DecidableEq, Repr

namespace ByteSize

def b (size : BitVec 64) : ByteSize := ⟨size⟩

def kib (size : BitVec 64) : ByteSize := ⟨size * 1024#64⟩

instance : Add ByteSize := ⟨fun l r => ⟨l.bytes + r.bytes⟩⟩

end ByteSize

def saturatingSubBytes (l r : ByteSize) : ByteSize := .b (saturatingSub l.bytes r.bytes)

/-! ## Memory -/

/-- `π` is the `PlatformMemory` of a platform. -/
structure Memory (π : Type) where
  total : ByteSize
  free : ByteSize
  platformMemory : π

structure Swap (π : Type) where
  total : ByteSize
  free : ByteSize
  platformSwap : π

/-! ## CPU load -/

@[ext] structure PlatformCpuLoad where
  iowait : ℚ
  deriving DecidableEq, Repr

namespace PlatformCpuLoad

def avgAdd (self rhs : PlatformCpuLoad) : PlatformCpuLoad := ⟨(self.iowait + rhs.iowait) / 2⟩

def zero : PlatformCpuLoad := ⟨0⟩

def ofInput (input : ℚ) : PlatformCpuLoad := ⟨input⟩

def sum (self : PlatformCpuLoad) : ℚ := self.iowait

end PlatformCpuLoad

@[ext] structure CPULoad where
  user : ℚ
  nice : ℚ
  system : ℚ
  interrupt : ℚ
  idle : ℚ
  platform : PlatformCpuLoad
  deriving DecidableEq, Repr

def CPULoad.avgAdd (self rhs : CPULoad) : CPULoad where
  user := (self.user + rhs.user) / 2
  nice := (self.nice + rhs.nice) / 2
  system := (self.system + rhs.system) / 2
  interrupt := (self.interrupt + rhs.interrupt) / 2
  idle := (self.idle + rhs.idle) / 2
  platform := self.platform.avgAdd rhs.platform

structure CpuTime (w : Nat) where
  user : BitVec w
  nice : BitVec w
  system : BitVec w
  interrupt : BitVec w
  idle : BitVec w
  other : BitVec w
  deriving DecidableEq, Repr

namespace CpuTime

variable {w : Nat}

def sub (self rhs : CpuTime w) : CpuTime w where
  user := saturatingSub self.user rhs.user
  nice := saturatingSub self.nice rhs.nice
  system := saturatingSub self.system rhs.system
  interrupt := saturatingSub self.interrupt rhs.interrupt
  idle := saturatingSub self.idle rhs.idle
  other := saturatingSub self.other rhs.other

def toCpuload (self : CpuTime w) : CPULoad :=
  let total := self.user + self.nice + self.system + self.interrupt + self.idle + self.other
  if total = 0#w then ⟨0, 0, 0, 0, 0, .zero⟩
  else
    { user := (self.user.toNat : ℚ) / (total.toNat : ℚ)
      nice := (self.nice.toNat : ℚ) / (total.toNat : ℚ)
      system := (self.system.toNat : ℚ) / (total.toNat : ℚ)
      interrupt := (self.interrupt.toNat : ℚ) / (total.toNat : ℚ)
      idle := (self.idle.toNat : ℚ) / (total.toNat : ℚ)
      platform := .ofInput ((self.other.toNat : ℚ) / (total.toNat : ℚ)) }

end CpuTime

/-! ## Battery, filesystems and devices -/

/-- `remaining_time` is a `Duration` of whole seconds. -/
structure BatteryLife where
  remainingCapacity : ℚ
  remainingTime : Nat
  deriving DecidableEq, Repr

structure Filesystem (w : Nat) where
  files : BitVec w
  filesTotal : BitVec w
  filesAvail : BitVec w
  free : ByteSize
  avail : ByteSize
  total : ByteSize
  nameMax : BitVec w
  fsType : Str
  fsMountedFrom : Str
  fsMountedOn : Str
  deriving DecidableEq, Repr

structure BlockDeviceStats (w : Nat) where
  name : Str
  readIos : BitVec w
  readMerges : BitVec w
  readSectors : BitVec w
  readTicks : BitVec w
  writeIos : BitVec w
  writeMerges : BitVec w
  writeSectors : BitVec w
  writeTicks : BitVec w
  inFlight : BitVec w
  ioTicks : BitVec w
  timeInQueue : BitVec w
  deriving DecidableEq, Repr

/-! ## Networks -/

/-- Octets as they stand in memory, the most significant one first. -/
structure Ipv4Addr where
  octets : Vector (BitVec 8) 4
  deriving DecidableEq, Repr

def Ipv4Addr.new (a b c d : BitVec 8) : Ipv4Addr := ⟨#v[a, b, c, d]⟩

structure Ipv6Addr where
  octets : Vector (BitVec 8) 16
  deriving DecidableEq, Repr

/-- Each segment is stored with its high octet first. -/
def Ipv6Addr.new (a b c d e f g h : BitVec 16) : Ipv6Addr :=
  ⟨Bytes.octets (n := 8) .big #v[a, b, c, d, e, f, g, h]⟩

inductive IpAddr
  | empty
  | unsupported
  | v4 (addr : Ipv4Addr)
  | v6 (addr : Ipv6Addr)
  deriving DecidableEq, Repr

structure NetworkAddrs where
  addr : IpAddr
  netmask : IpAddr
  deriving DecidableEq, Repr

structure Network where
  name : Str
  addrs : List NetworkAddrs
  deriving DecidableEq, Repr

structure NetworkStats where
  rxBytes : ByteSize
  txBytes : ByteSize
  rxPackets : BitVec 64
  txPackets : BitVec 64
  rxErrors : BitVec 64
  txErrors : BitVec 64
  deriving DecidableEq, Repr

structure SocketStats (w : Nat) where
  tcpSocketsInUse : BitVec w
  tcpSocketsOrphaned : BitVec w
  udpSocketsInUse : BitVec w
  tcp6SocketsInUse : BitVec w
  udp6SocketsInUse : BitVec w
  deriving DecidableEq, Repr

end Systemstat
