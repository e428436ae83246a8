import Systemstat.Bsd.Memory
import Systemstat.Linux.MeminfoLines

/-! # Swap

`to_swap` on four platforms. OpenBSD and NetBSD take what is in use off the total, and
Windows has the total bound what is free. Linux publishes two numbers of
`/proc/meminfo` as they are, whether or not they go together.
-/

namespace Systemstat

def Swap.Bounded {π : Type} (s : Swap π) : Prop := s.free.bytes ≤ s.total.bytes

theorem saturatingSubBytes_le (l r : ByteSize) : (saturatingSubBytes l r).bytes ≤ l.bytes := by
  show saturatingSub l.bytes r.bytes ≤ l.bytes
  rw [BitVec.le_def, saturatingSub_toNat]
  omega

end Systemstat

/-! ## Windows -/

namespace Systemstat.Windows

structure MemoryStatusEx where
  dwMemoryLoad : BitVec 32
  ullTotalPhys : BitVec 64
  ullAvailPhys : BitVec 64
  ullTotalPageFile : BitVec 64
  ullAvailPageFile : BitVec 64
  ullTotalVirtual : BitVec 64
  ullAvailVirtual : BitVec 64
  ullAvailExtendedVirtual : BitVec 64

structure PlatformMemory where
  load : BitVec 32
  totalPhys : ByteSize
  availPhys : ByteSize
  totalPagefile : ByteSize
  availPagefile : ByteSize
  totalVirt : ByteSize
  availVirt : ByteSize
  availExt : ByteSize

def cmpMin (v1 v2 : ByteSize) : ByteSize := if v2.bytes < v1.bytes then v2 else v1

theorem cmpMin_le (v1 v2 : ByteSize) : (cmpMin v1 v2).bytes ≤ v1.bytes := by
  unfold cmpMin
  by_cases h : v2.bytes < v1.bytes
  · rw [if_pos h]
    exact BitVec.le_of_lt h
  · rw [if_neg h]
    exact BitVec.le_refl _

namespace PlatformMemory

/-- The error of the call is its last OS error. -/
def new (globalMemoryStatusEx : Except Int MemoryStatusEx) : IoResult PlatformMemory :=
  match globalMemoryStatusEx with
  | .error code => .error (.os code)
  | .ok status => .ok {
      load := status.dwMemoryLoad
      totalPhys := .b status.ullTotalPhys
      availPhys := .b status.ullAvailPhys
      totalPagefile := .b status.ullTotalPageFile
      availPagefile := .b status.ullAvailPageFile
      totalVirt := .b status.ullTotalVirtual
      availVirt := .b status.ullAvailVirtual
      availExt := .b status.ullAvailExtendedVirtual }

def toMemory (self : PlatformMemory) : Memory PlatformMemory where
  total := self.totalPhys
  free := self.availPhys
  platformMemory := self

/-- Despite the name, the page file includes both physical and swap memory. -/
def toSwap (self : PlatformMemory) : Swap PlatformMemory :=
  let total := saturatingSubBytes self.totalPagefile self.totalPhys
  let free := saturatingSubBytes self.availPagefile self.availPhys
  { total := total, free := cmpMin total free, platformSwap := self }

theorem toSwap_bounded (self : PlatformMemory) : self.toSwap.Bounded := cmpMin_le _ _

end PlatformMemory

end Systemstat.Windows

/-! ## OpenBSD -/

namespace Systemstat.OpenBsd

theorem PlatformMemory.toSwap_bounded (self : PlatformMemory) : self.toSwap.Bounded :=
  saturatingSubBytes_le self.sw self.swinuse

end Systemstat.OpenBsd

/-! ## NetBSD -/

namespace Systemstat.NetBsd

open Bsd

structure UvmexpSysctl where
  pageshift : BitVec 64
  npages : BitVec 64
  free : BitVec 64
  active : BitVec 64
  inactive : BitVec 64
  paging : BitVec 64
  wired : BitVec 64
  swpages : BitVec 64
  swpginuse : BitVec 64
  swpgonly : BitVec 64
  anonpages : BitVec 64
  filepages : BitVec 64
  execpages : BitVec 64

structure PlatformMemory where
  pageshift : BitVec 64
  total : ByteSize
  active : ByteSize
  inactive : ByteSize
  wired : ByteSize
  anon : ByteSize
  files : ByteSize
  exec : ByteSize
  free : ByteSize
  paging : ByteSize
  sw : ByteSize
  swinuse : ByteSize
  swonly : ByteSize

namespace PlatformMemory

/-- `(pages << pageshift) as u64`; without a check of the amount it is taken modulo 64. -/
def pageBytes (pageshift pages : BitVec 64) : ByteSize := .b (pages <<< (pageshift.toNat % 64))

def new (uvmexp : Option UvmexpSysctl) : IoResult PlatformMemory := do
  let uvmInfo ← sysctl uvmexp
  return {
    pageshift := uvmInfo.pageshift
    total := pageBytes uvmInfo.pageshift uvmInfo.npages
    active := pageBytes uvmInfo.pageshift uvmInfo.active
    inactive := pageBytes uvmInfo.pageshift uvmInfo.inactive
    wired := pageBytes uvmInfo.pageshift uvmInfo.wired
    anon := pageBytes uvmInfo.pageshift uvmInfo.anonpages
    files := pageBytes uvmInfo.pageshift uvmInfo.filepages
    exec := pageBytes uvmInfo.pageshift uvmInfo.execpages
    free := pageBytes uvmInfo.pageshift uvmInfo.free
    paging := pageBytes uvmInfo.pageshift uvmInfo.paging
    sw := pageBytes uvmInfo.pageshift uvmInfo.swpages
    swinuse := pageBytes uvmInfo.pageshift uvmInfo.swpginuse
    swonly := pageBytes uvmInfo.pageshift uvmInfo.swpgonly }

def toMemory (self : PlatformMemory) : Memory PlatformMemory where
  total := self.total
  free := self.free
  platformMemory := self

def toSwap (self : PlatformMemory) : Swap PlatformMemory where
  total := self.sw
  free := saturatingSubBytes self.sw self.swinuse
  platformSwap := self

theorem toSwap_bounded (self : PlatformMemory) : self.toSwap.Bounded :=
  saturatingSubBytes_le self.sw self.swinuse

end PlatformMemory

end Systemstat.NetBsd

/-! ## Linux -/

namespace Systemstat.Linux

open Nom

variable {w : Nat} {text : Str}

def SwapBounded (w : Nat) (text : Str) : Prop :=
  ∀ (files : Files) (info : Sysinfo w), readFile files "/proc/meminfo" = .ok text →
    ∃ pm, PlatformMemory.new w files info = .ok pm ∧ pm.toSwap.Bounded

theorem new_of_entries {files : Files} (hfile : readFile files "/proc/meminfo" = .ok text)
    (info : Sysinfo w) :
    PlatformMemory.new w files info = .ok ⟨(sizedEntries w text).foldl insertSized ∅⟩ := by
  obtain ⟨rest, hy⟩ := procMeminfo_entries w text
  exact PlatformMemory.new_of_text hfile hy info

theorem toSwap_bounded_iff (w : Nat) (text : Str) :
    (PlatformMemory.toSwap ⟨(sizedEntries w text).foldl insertSized ∅⟩).Bounded ↔
      lastKib w text "SwapFree" * 1024 % 2 ^ 64 ≤ lastKib w text "SwapTotal" * 1024 % 2 ^ 64 := by
  rw [Swap.Bounded, PlatformMemory.toSwap, get_entries, get_entries, BitVec.le_def,
    kibSize_toNat, kibSize_toNat]

theorem swapBounded_iff_toSwap : SwapBounded w text ↔
    (PlatformMemory.toSwap ⟨(sizedEntries w text).foldl insertSized ∅⟩).Bounded := by
  constructor
  · intro h
    obtain ⟨pm, hnew, hbounded⟩ := h (fun _ => .ok text) ⟨0, 0, 0, 0, 0, 0, 0⟩ rfl
    rw [new_of_entries rfl, Except.ok.injEq] at hnew
    rwa [hnew]
  · exact fun h files info hfile => ⟨_, new_of_entries hfile info, h⟩

end Systemstat.Linux

/-! ## Every platform -/

namespace Systemstat.Platform

/-- Only Linux can report more free swap than there is. It does so exactly when the last
`SwapFree` of the text is larger than its last `SwapTotal`. -/
theorem swap_bounded_iff (w : Nat) :
    (∀ text, Linux.SwapBounded w text ↔
      Linux.lastKib w text "SwapFree" * 1024 % 2 ^ 64 ≤
        Linux.lastKib w text "SwapTotal" * 1024 % 2 ^ 64) ∧
    (∀ status pm, Windows.PlatformMemory.new status = .ok pm → pm.toSwap.Bounded) ∧
    (∀ getpagesize uvmexp bcachestats pm,
      OpenBsd.PlatformMemory.new getpagesize uvmexp bcachestats = .ok pm → pm.toSwap.Bounded) ∧
    ∀ uvmexp pm, NetBsd.PlatformMemory.new uvmexp = .ok pm → pm.toSwap.Bounded := by
  refine ⟨fun text => ?_, ?_, ?_, ?_⟩
  · exact Linux.swapBounded_iff_toSwap.trans (Linux.toSwap_bounded_iff w text)
  · exact fun _ pm _ => pm.toSwap_bounded
  · exact fun _ _ _ pm _ => pm.toSwap_bounded
  · exact fun _ pm _ => pm.toSwap_bounded

theorem swap_bounded_no_total : ¬ ∀ text, Linux.SwapBounded 64 text := by
  intro h
  have hle := (Linux.toSwap_bounded_iff 64 _).mp
    (Linux.swapBounded_iff_toSwap.mp (h "SwapFree: 6143996 kB\n".toList))
  revert hle
  decide

end Systemstat.Platform
