import Systemstat.Bsd.MemoryReport
import Systemstat.Trace.Readings

/-! # Memory while the pages move

`memory_and_swap` makes one call after the other, and pages change their kind in between.
NetBSD learns all from one call. OpenBSD has the buffers from a later call than the rest,
so it may count a page twice and report more free memory than there is. FreeBSD takes
every count from a call of its own, and its total with them.
-/

namespace Systemstat

structure PlatformSwap where
  total : ByteSize
  avail : ByteSize
  used : ByteSize
  pagesize : ByteSize
  encrypted : Bool

end Systemstat

namespace Systemstat.Platform

open Readings

variable {ι : Type} {ο : ι → Type} {π σ : Type}

/-- The default `memory_and_swap`. Do swap first, in order to fail fast if it's not
implemented. -/
def memoryAndSwap (swap : Reads ο IoError (Swap σ)) (memory : Reads ο IoError (Memory π)) :
    Reads ο IoError (Memory π × Swap σ) := do
  let swap ← swap
  let memory ← memory
  return (memory, swap)

end Systemstat.Platform

/-! ## The calls -/

namespace Systemstat.FreeBsd

open Bsd Readings Reads

variable {w : Nat}

inductive VmQuestion
  | active
  | inactive
  | wired
  | cache
  | free
  | zfsArc

def VmStats.answer (stats : VmStats w) : VmQuestion → Option (BitVec w)
  | .active => stats.active
  | .inactive => stats.inactive
  | .wired => stats.wired
  | .cache => stats.cache
  | .free => stats.free
  | .zfsArc => stats.zfsArc

abbrev VmReads (w : Nat) (α : Type) := Reads (fun _ : VmQuestion => Option (BitVec w)) IoError α

/-- `memory`, one call after the other; those for the cache and the ARC may fail. -/
def memoryReads (w : Nat) (getpagesize : BitVec 32) : VmReads w (Memory PlatformMemory) := do
  let active ← query .active fun answer => sysctl answer
  let inactive ← query .inactive fun answer => sysctl answer
  let wired ← query .wired fun answer => sysctl answer
  let cache ← query .cache fun answer => .ok answer
  let free ← query .free fun answer => sysctl answer
  query .zfsArc fun zfsArc =>
    memory getpagesize ⟨some active, some inactive, some wired, cache, some free, zfsArc⟩

def swapReads (w : Nat) : VmReads w (Swap PlatformSwap) := throw (.other "Not supported")

def memoryAndSwapReads (w : Nat) (getpagesize : BitVec 32) :
    VmReads w (Memory PlatformMemory × Swap PlatformSwap) :=
  Platform.memoryAndSwap (swapReads w) (memoryReads w getpagesize)

/-- In a still kernel the calls make the memory that is computed from all counters at once. -/
theorem memoryReads_still (stats : VmStats w) (getpagesize : BitVec 32) (t : Nat) :
    (moving (fun _ => stats.answer) (memoryReads w getpagesize) t).1 =
      memory getpagesize stats := by
  obtain ⟨active, inactive, wired, cache, free, zfsArc⟩ := stats
  simp only [moving_still, memoryReads, still_bind, still_query, VmStats.answer]
  cases active <;> cases inactive <;> cases wired <;> cases free <;> rfl

end Systemstat.FreeBsd

namespace Systemstat.OpenBsd

open Bsd Readings Reads

inductive UvmQuestion
  | vmUvmexp
  | vfsBcachestat

abbrev UvmAnswer : UvmQuestion → Type
  | .vmUvmexp => Option Uvmexp
  | .vfsBcachestat => Option Bcachestats

def uvmAnswer (uvmexp : Option Uvmexp) (bcachestats : Option Bcachestats) : ∀ q, UvmAnswer q
  | .vmUvmexp => uvmexp
  | .vfsBcachestat => bcachestats

namespace PlatformMemory

def newReads (getpagesize : BitVec 32) : Reads UvmAnswer IoError PlatformMemory := do
  let uvmInfo ← query .vmUvmexp fun answer => sysctl answer
  query .vfsBcachestat fun answer => new getpagesize (some uvmInfo) answer

theorem newReads_still (getpagesize : BitVec 32) (uvmexp : Option Uvmexp)
    (bcachestats : Option Bcachestats) (t : Nat) :
    (moving (fun _ => uvmAnswer uvmexp bcachestats) (newReads getpagesize) t).1 =
      new getpagesize uvmexp bcachestats := by
  simp only [moving_still, newReads, still_bind, still_query, uvmAnswer]
  cases uvmexp <;> rfl

end PlatformMemory

def memoryAndSwapReads (getpagesize : BitVec 32) :
    Reads UvmAnswer IoError (Memory PlatformMemory × Swap PlatformMemory) := do
  let pm ← PlatformMemory.newReads getpagesize
  return (pm.toMemory, pm.toSwap)

end Systemstat.OpenBsd

namespace Systemstat.NetBsd

open Bsd Readings Reads

def memoryAndSwapReads : Reads (fun _ : Unit => Option UvmexpSysctl) IoError
    (Memory PlatformMemory × Swap PlatformMemory) := do
  let pm ← query () fun answer => PlatformMemory.new answer
  return (pm.toMemory, pm.toSwap)

end Systemstat.NetBsd

namespace Systemstat.MacOs

open Bsd Readings Reads

structure XswUsage where
  xsuTotal : BitVec 64
  xsuAvail : BitVec 64
  xsuUsed : BitVec 64
  xsuPagesize : BitVec 32
  xsuEncrypted : BitVec 32

def swap (xswUsage : Option XswUsage) : IoResult (Swap PlatformSwap) := do
  let xswUsage ← sysctl xswUsage
  let ps : PlatformSwap := {
    total := .b xswUsage.xsuTotal
    used := .b xswUsage.xsuUsed
    avail := .b xswUsage.xsuAvail
    pagesize := .b (xswUsage.xsuPagesize.setWidth 64)
    encrypted := xswUsage.xsuEncrypted != 0 }
  return { total := ps.total, free := ps.avail, platformSwap := ps }

inductive VmQuestion
  | swapUsage
  | physPages
  | vmInfo64

abbrev VmAnswer : VmQuestion → Type
  | .swapUsage => Option XswUsage
  | .physPages => BitVec 64
  | .vmInfo64 => Option VmStatistics64

def vmAnswer (xswUsage : Option XswUsage) (physPages : BitVec 64)
    (stat : Option VmStatistics64) : ∀ q, VmAnswer q
  | .swapUsage => xswUsage
  | .physPages => physPages
  | .vmInfo64 => stat

def totalPages (physPages : BitVec 64) : IoResult (BitVec 64) :=
  if physPages = -1#64 then .error (.other "sysconf(_SC_PHYS_PAGES) failed") else .ok physPages

def memoryReads (getpagesize : BitVec 32) : Reads VmAnswer IoError (Memory PlatformMemory) := do
  let total ← query .physPages fun answer => totalPages answer
  query .vmInfo64 fun stat => memory getpagesize total stat

def swapReads : Reads VmAnswer IoError (Swap PlatformSwap) :=
  query .swapUsage fun answer => swap answer

def memoryAndSwapReads (getpagesize : BitVec 32) :
    Reads VmAnswer IoError (Memory PlatformMemory × Swap PlatformSwap) :=
  Platform.memoryAndSwap swapReads (memoryReads getpagesize)

theorem memoryReads_still (xswUsage : Option XswUsage) (physPages : BitVec 64)
    (stat : Option VmStatistics64) (getpagesize : BitVec 32) (t : Nat) :
    (moving (fun _ => vmAnswer xswUsage physPages stat) (memoryReads getpagesize) t).1 =
      memory getpagesize physPages stat := by
  simp only [moving_still, memoryReads, still_bind, still_query]
  show (totalPages physPages >>= fun total => memory getpagesize total stat) = _
  by_cases hfailed : physPages = -1#64
  · have herror : memory getpagesize physPages stat =
        .error (.other "sysconf(_SC_PHYS_PAGES) failed") := if_pos hfailed
    rw [herror, totalPages, if_pos hfailed]
    rfl
  · rw [totalPages, if_neg hfailed]
    rfl

end Systemstat.MacOs

/-! ## Pages that move -/

namespace Systemstat.Bsd

open Arith

structure SwapSpace where
  total : Nat
  used : Nat
  used_le : used ≤ total

/-- A machine at every moment. Its pages change their kind, but none is added. -/
structure MovingMachine where
  machine : Nat → PageMachine
  swap : Nat → SwapSpace
  same_k : ∀ n n', (machine n).k = (machine n').k
  same_pages : ∀ n n', (machine n).pages = (machine n').pages
  swap_addressable : ∀ n, (swap n).total * (machine n).pageSize < 2 ^ 64

namespace MovingMachine

variable (m : MovingMachine)

def pages : Nat := (m.machine 0).pages

def pageSize : Nat := (m.machine 0).pageSize

def getpagesize : BitVec 32 := (m.machine 0).getpagesize

theorem pages_eq (n : Nat) : (m.machine n).pages = m.pages := m.same_pages n 0

theorem pageSize_eq (n : Nat) : (m.machine n).pageSize = m.pageSize := by
  unfold PageMachine.pageSize pageSize
  rw [m.same_k n 0]
  rfl

theorem getpagesize_eq (n : Nat) : (m.machine n).getpagesize = m.getpagesize := by
  unfold PageMachine.getpagesize getpagesize
  rw [m.same_k n 0]
  rfl

def swapPages (n : Nat) : PageMachine where
  k := (m.machine n).k
  pages := (m.swap n).total
  active := 0
  inactive := 0
  wired := 0
  cache := 0
  paging := (m.swap n).used
  free := 0
  low := (m.machine n).low
  high := (m.machine n).high
  disjoint := by have := (m.swap n).used_le; omega
  addressable := m.swap_addressable n

theorem swapPages_getpagesize (n : Nat) : (m.swapPages n).getpagesize = m.getpagesize :=
  m.getpagesize_eq n

theorem swapPages_pageSize (n : Nat) : (m.swapPages n).pageSize = m.pageSize := m.pageSize_eq n

theorem pageSize_pos : 0 < m.pageSize := Nat.two_pow_pos _

end MovingMachine

structure ReportsSwap {π : Type} (swap : Swap π) (s : SwapSpace) (pageSize : Nat) : Prop where
  total : swap.total.Is (s.total * pageSize)
  free : swap.free.Is ((s.total - s.used) * pageSize)

theorem reportsSwap_of_used {π : Type} {swap : Swap π} {s : SwapSpace} {pageSize : Nat}
    {used : ByteSize} (htotal : swap.total.Is (s.total * pageSize))
    (hused : used.Is (s.used * pageSize))
    (hfree : swap.free = saturatingSubBytes swap.total used) : ReportsSwap swap s pageSize where
  total := htotal
  free := by
    rw [hfree, Nat.sub_mul]
    exact htotal.saturatingSub hused

end Systemstat.Bsd

/-! ## FreeBSD -/

namespace Systemstat.FreeBsd

open Bsd Readings Reads

variable {w : Nat}

def readFrom (stats : Nat → VmStats w) (t : Nat) : VmStats w where
  active := (stats t).active
  inactive := (stats (t + 1)).inactive
  wired := (stats (t + 2)).wired
  cache := (stats (t + 3)).cache
  free := (stats (t + 4)).free
  zfsArc := (stats (t + 5)).zfsArc

/-- Pages as six calls from `t` on count them. A page may be counted more than once. -/
def countedFrom (m : MovingMachine) (t : Nat) (hroom : 5 * (m.pages * m.pageSize) < 2 ^ 64) :
    PageMachine where
  k := (m.machine t).k
  pages := 5 * m.pages
  active := (m.machine t).active
  inactive := (m.machine (t + 1)).inactive
  wired := (m.machine (t + 2)).wired
  cache := (m.machine (t + 3)).cache
  paging := 0
  free := (m.machine (t + 4)).free
  low := (m.machine t).low
  high := (m.machine t).high
  disjoint := by
    have hle : ∀ n, (m.machine n).active ≤ m.pages ∧ (m.machine n).inactive ≤ m.pages ∧
        (m.machine n).wired ≤ m.pages ∧ (m.machine n).cache ≤ m.pages ∧
        (m.machine n).free ≤ m.pages := by
      intro n
      have := (m.machine n).disjoint
      rw [m.pages_eq n] at this
      omega
    have := hle t
    have := hle (t + 1)
    have := hle (t + 2)
    have := hle (t + 3)
    have := hle (t + 4)
    omega
  addressable := by
    have hsize : 2 ^ (m.machine t).k = m.pageSize := m.pageSize_eq t
    rw [hsize, Nat.mul_assoc]
    exact hroom

theorem moving_memoryReads {stats : Nat → VmStats w} {t : Nat} {getpagesize : BitVec 32}
    {mem : Memory PlatformMemory} (h : memory getpagesize (readFrom stats t) = .ok mem) :
    moving (fun n => (stats n).answer) (memoryReads w getpagesize) t = (.ok mem, t + 6) := by
  have hcall : ∀ (q : VmQuestion) (n : Nat) {x : BitVec w}, sysctl ((stats n).answer q) = .ok x →
      moving (fun n => (stats n).answer)
        (query q fun answer => sysctl answer : VmReads w (BitVec w)) n = (.ok x, n + 1) := by
    intro q n x hx
    rw [moving_query, hx]
  have hsome : ∀ {o : Option (BitVec w)} {x : BitVec w}, sysctl o = .ok x → o = some x := by
    intro o x hx
    cases o with
    | none => cases hx
    | some y =>
        cases hx
        rfl
  obtain ⟨active, hactive, hrest⟩ := exists_of_bind_eq_ok h
  obtain ⟨inactive, hinactive, hrest⟩ := exists_of_bind_eq_ok hrest
  obtain ⟨wired, hwired, hrest⟩ := exists_of_bind_eq_ok hrest
  obtain ⟨free, hfree, _⟩ := exists_of_bind_eq_ok hrest
  have hcache : moving (fun n => (stats n).answer)
      (query .cache fun answer => .ok answer : VmReads w (Option (BitVec w))) (t + 3) =
        (.ok (stats (t + 3)).cache, t + 4) := rfl
  have hfound : readFrom stats t = ⟨some active, some inactive, some wired,
      (stats (t + 3)).cache, some free, (stats (t + 5)).zfsArc⟩ := by
    rw [← hsome hactive, ← hsome hinactive, ← hsome hwired, ← hsome hfree]
    rfl
  rw [memoryReads, moving_bind_of_ok (hcall .active t hactive),
    moving_bind_of_ok (hcall .inactive _ hinactive), moving_bind_of_ok (hcall .wired _ hwired),
    moving_bind_of_ok hcache, moving_bind_of_ok (hcall .free _ hfree),
    moving_query, ← h, hfound]
  rfl

structure Displays (m : MovingMachine) (arc : Nat → Nat) (stats : Nat → VmStats w) : Prop where
  memory : ∀ n, Shows (m.machine n) (arc n) (stats n)
  room : ∀ n, 5 * (m.pages * m.pageSize) + arc n < 2 ^ 64

/-- Every count is of a moment of its own, and both figures are made of the same counts. -/
def ReadsSixTimes (m : MovingMachine) (arc : Nat → Nat) (t : Nat)
    (mem : Memory PlatformMemory) : Prop :=
  Reports mem
    (((m.machine t).active + (m.machine (t + 1)).inactive + (m.machine (t + 3)).cache +
        (m.machine (t + 4)).free) * m.pageSize +
      max ((m.machine (t + 2)).wired * m.pageSize) (arc (t + 5)))
    (((m.machine (t + 1)).inactive + (m.machine (t + 3)).cache + (m.machine (t + 4)).free) *
      m.pageSize + arc (t + 5))

theorem memory_moving {m : MovingMachine} {arc : Nat → Nat} {stats : Nat → VmStats w}
    (h : Displays m arc stats) (t : Nat) :
    ∃ mem, moving (fun n => (stats n).answer) (memoryReads w m.getpagesize) t =
      (.ok mem, t + 6) ∧ ReadsSixTimes m arc t mem := by
  have hcounted := h.room (t + 5)
  have hsize : (countedFrom m t (by omega)).pageSize = m.pageSize := m.pageSize_eq t
  have hshows : Shows (countedFrom m t (by omega)) (arc (t + 5)) (readFrom stats t) := {
    width := (h.memory t).width
    active := (h.memory t).active
    inactive := (h.memory (t + 1)).inactive
    wired := (h.memory (t + 2)).wired
    cache := (h.memory (t + 3)).cache
    free := (h.memory (t + 4)).free
    zfsArc := (h.memory (t + 5)).zfsArc
    addressable := by
      rw [hsize]
      show 5 * m.pages * m.pageSize + arc (t + 5) < 2 ^ 64
      rw [Nat.mul_assoc]
      exact hcounted }
  obtain ⟨mem, hmem, hreports⟩ := memory_reports hshows
  have hgetpagesize : (countedFrom m t (by omega)).getpagesize = m.getpagesize :=
    m.getpagesize_eq t
  rw [hgetpagesize] at hmem
  rw [hsize] at hreports
  exact ⟨mem, moving_memoryReads hmem, hreports⟩

/-- The swap is asked for first, and nothing else then. -/
theorem moving_memoryAndSwapReads (world : Nat → VmQuestion → Option (BitVec w))
    (getpagesize : BitVec 32) (t : Nat) :
    moving world (memoryAndSwapReads w getpagesize) t = (.error (.other "Not supported"), t) :=
  moving_bind_of_error rfl _

end Systemstat.FreeBsd

/-! ## OpenBSD -/

namespace Systemstat.OpenBsd

open Bsd Readings Reads

structure ShowsSwap (s : SwapSpace) (uvmexp : Uvmexp) : Prop where
  swpages : uvmexp.swpages.toInt = s.total
  swpginuse : uvmexp.swpginuse.toInt = s.used

/-- The counters at each moment. The size of memory and of swap space in kibibytes has 31
bits. -/
structure Displays (m : MovingMachine) (uvmexp : Nat → Uvmexp)
    (bcachestats : Nat → Bcachestats) : Prop where
  memory : ∀ n, Shows (m.machine n) (uvmexp n) (bcachestats n)
  swap : ∀ n, ShowsSwap (m.swap n) (uvmexp n)
  memory_small : ∀ n, (m.machine n).pages * 2 ^ ((m.machine n).k - 10) < 2 ^ 31
  swap_small : ∀ n, (m.swap n).total * 2 ^ ((m.machine n).k - 10) < 2 ^ 31

/-- The buffers are of the second call, all else of the first. More memory is free than
there is where pages that were free at the first call are buffers at the second. -/
structure ReadsTwice (m : MovingMachine) (t : Nat) (mem : Memory PlatformMemory)
    (swap : Swap PlatformMemory) : Prop where
  total : mem.total.Is (m.pages * m.pageSize)
  free : mem.free.Is (((m.machine t).inactive + (m.machine (t + 1)).cache + (m.machine t).free +
    (m.machine t).paging) * m.pageSize)
  bounded : mem.free.bytes ≤ mem.total.bytes ↔ (m.machine t).inactive +
    (m.machine (t + 1)).cache + (m.machine t).free + (m.machine t).paging ≤ m.pages
  swap : ReportsSwap swap (m.swap t) m.pageSize

variable {m : MovingMachine} {uvmexp : Nat → Uvmexp} {bcachestats : Nat → Bcachestats}

theorem moving_memoryAndSwapReads {t : Nat} {getpagesize : BitVec 32} {pm : PlatformMemory}
    (h : PlatformMemory.new getpagesize (some (uvmexp t)) (some (bcachestats (t + 1))) = .ok pm) :
    moving (fun n => uvmAnswer (some (uvmexp n)) (some (bcachestats n)))
      (memoryAndSwapReads getpagesize) t = (.ok (pm.toMemory, pm.toSwap), t + 2) := by
  have hnew : moving (fun n => uvmAnswer (some (uvmexp n)) (some (bcachestats n)))
      (PlatformMemory.newReads getpagesize) t = (.ok pm, t + 2) := by
    rw [← h]
    rfl
  rw [memoryAndSwapReads, moving_bind_of_ok hnew, moving_pure]

theorem memoryAndSwap_reports (h : Displays m uvmexp bcachestats) (t : Nat) :
    ∃ mem swap, moving (fun n => uvmAnswer (some (uvmexp n)) (some (bcachestats n)))
        (memoryAndSwapReads m.getpagesize) t = (.ok (mem, swap), t + 2) ∧
      ReadsTwice m t mem swap := by
  have hfirst := h.memory t
  have hsecond := h.memory (t + 1)
  have hsmall := h.memory_small t
  have hsize : m.pages * m.pageSize < 2 ^ 41 := by
    have hkib := two_pow_eq_kib (m.machine t).low
    rw [← m.pages_eq t, ← m.pageSize_eq t, PageMachine.pageSize, hkib, ← Nat.mul_assoc]
    omega
  have hdisjoint := (m.machine t).disjoint
  have hdisjoint' := (m.machine (t + 1)).disjoint
  have htotalIs := PageMachine.kibibytesI32_is hfirst.npages (Nat.le_refl _) hsmall
  have hinactiveIs := PageMachine.kibibytesI32_is hfirst.inactive (by omega) hsmall
  have hcacheIs := PageMachine.shl_is (m := m.machine (t + 1)) hsecond.numbufpages (by omega)
  have hfreeIs := PageMachine.kibibytesI32_is hfirst.free (by omega) hsmall
  have hpagingIs := PageMachine.kibibytesI32_is hfirst.paging (by omega) hsmall
  have hswIs := PageMachine.kibibytesI32_is (m := m.swapPages t) (h.swap t).swpages
    (Nat.le_refl _) (h.swap_small t)
  have hswinuseIs := PageMachine.kibibytesI32_is (m := m.swapPages t) (h.swap t).swpginuse
    (m.swap t).used_le (h.swap_small t)
  simp only [m.getpagesize_eq, m.pageSize_eq, m.pages_eq, m.swapPages_getpagesize,
    m.swapPages_pageSize] at htotalIs hinactiveIs hcacheIs hfreeIs hpagingIs hswIs hswinuseIs
  rw [m.pages_eq] at hdisjoint hdisjoint'
  have hkinds : ∀ {n}, n ≤ m.pages → n * m.pageSize ≤ m.pages * m.pageSize := fun hn =>
    Nat.mul_le_mul_right _ hn
  have hinactive := hkinds (show (m.machine t).inactive ≤ m.pages by omega)
  have hcache := hkinds (show (m.machine (t + 1)).cache ≤ m.pages by omega)
  have hfree := hkinds (show (m.machine t).free ≤ m.pages by omega)
  have hpaging := hkinds (show (m.machine t).paging ≤ m.pages by omega)
  have hsum := ((hinactiveIs.add hcacheIs (by omega)).add hfreeIs (by omega)).add
    hpagingIs (by omega)
  simp only [← Nat.add_mul] at hsum
  refine ⟨_, _, moving_memoryAndSwapReads rfl, {
    total := htotalIs
    free := hsum
    bounded := (hsum.le_iff htotalIs).trans (Nat.mul_le_mul_right_iff m.pageSize_pos)
    swap := reportsSwap_of_used hswIs hswinuseIs rfl }⟩

end Systemstat.OpenBsd

/-! ## NetBSD -/

namespace Systemstat.NetBsd

open Bsd Readings Reads

structure ShowsSwap (s : SwapSpace) (uvmexp : UvmexpSysctl) : Prop where
  swpages : uvmexp.swpages.toNat = s.total
  swpginuse : uvmexp.swpginuse.toNat = s.used

structure Displays (m : MovingMachine) (uvmexp : Nat → UvmexpSysctl) : Prop where
  memory : ∀ n, Shows (m.machine n) (uvmexp n)
  swap : ∀ n, ShowsSwap (m.swap n) (uvmexp n)

structure ReadsOnce (m : MovingMachine) (t : Nat) (mem : Memory PlatformMemory)
    (swap : Swap PlatformMemory) : Prop where
  memory : Reports mem (m.pages * m.pageSize) ((m.machine t).free * m.pageSize)
  swap : ReportsSwap swap (m.swap t) m.pageSize

theorem memoryAndSwap_reports {m : MovingMachine} {uvmexp : Nat → UvmexpSysctl}
    (h : Displays m uvmexp) (t : Nat) :
    ∃ mem swap, moving (fun n (_ : Unit) => some (uvmexp n)) memoryAndSwapReads t =
      (.ok (mem, swap), t + 1) ∧ ReadsOnce m t mem swap := by
  obtain ⟨mem, hmem, hreports⟩ := memory_reports (h.memory t)
  have hshift : (uvmexp t).pageshift.toNat = (m.swapPages t).k := (h.memory t).pageshift
  have hswIs := pageBytes_is (m := m.swapPages t) hshift (h.swap t).swpages (Nat.le_refl _)
  have hswinuseIs := pageBytes_is (m := m.swapPages t) hshift (h.swap t).swpginuse
    (m.swap t).used_le
  rw [m.swapPages_pageSize] at hswIs hswinuseIs
  rw [m.pages_eq, m.pageSize_eq] at hreports
  cases hmem
  exact ⟨_, _, rfl, ⟨hreports, reportsSwap_of_used hswIs hswinuseIs rfl⟩⟩

end Systemstat.NetBsd

/-! ## macOS -/

namespace Systemstat.MacOs

open Bsd Readings Reads

structure ShowsSwap (s : SwapSpace) (pageSize : Nat) (xswUsage : XswUsage) : Prop where
  xsuTotal : xswUsage.xsuTotal.toNat = s.total * pageSize
  xsuAvail : xswUsage.xsuAvail.toNat = (s.total - s.used) * pageSize

theorem swap_reports {s : SwapSpace} {pageSize : Nat} {xswUsage : XswUsage}
    (h : ShowsSwap s pageSize xswUsage) :
    ∃ ps, swap (some xswUsage) = .ok ps ∧ ReportsSwap ps s pageSize :=
  ⟨_, rfl, h.xsuTotal, h.xsuAvail⟩

structure Displays (m : MovingMachine) (xswUsage : Nat → XswUsage)
    (physPages : Nat → BitVec 64) (stat : Nat → VmStatistics64) : Prop where
  memory : ∀ n, Shows (m.machine n) (physPages n) (stat n)
  swap : ∀ n, ShowsSwap (m.swap n) m.pageSize (xswUsage n)

/-- The swap space is of the first call, and the free memory of the third. -/
structure ReadsThreeTimes (m : MovingMachine) (t : Nat) (mem : Memory PlatformMemory)
    (swap : Swap PlatformSwap) : Prop where
  memory : Reports mem (m.pages * m.pageSize)
    (((m.machine (t + 2)).free + (m.machine (t + 2)).inactive) * m.pageSize)
  swap : ReportsSwap swap (m.swap t) m.pageSize

variable {m : MovingMachine} {xswUsage : Nat → XswUsage} {physPages : Nat → BitVec 64}
  {stat : Nat → VmStatistics64}

theorem moving_memoryReads {t : Nat} {getpagesize : BitVec 32} {mem : Memory PlatformMemory}
    (h : memory getpagesize (physPages t) (some (stat (t + 1))) = .ok mem) :
    moving (fun n => vmAnswer (some (xswUsage n)) (physPages n) (some (stat n)))
      (memoryReads getpagesize) t = (.ok mem, t + 2) := by
  have hne : physPages t ≠ -1#64 := by
    intro hfailed
    rw [memory, if_pos hfailed] at h
    cases h
  have htotal : moving (fun n => vmAnswer (some (xswUsage n)) (physPages n) (some (stat n)))
      (query .physPages fun answer => totalPages answer : Reads VmAnswer IoError (BitVec 64)) t =
        (.ok (physPages t), t + 1) := by
    rw [moving_query]
    show (totalPages (physPages t), t + 1) = _
    rw [totalPages, if_neg hne]
  rw [memoryReads, moving_bind_of_ok htotal, moving_query]
  exact congrArg (·, t + 2) h

theorem memoryAndSwap_reports (h : Displays m xswUsage physPages stat) (t : Nat) :
    ∃ mem swap, moving (fun n => vmAnswer (some (xswUsage n)) (physPages n) (some (stat n)))
        (memoryAndSwapReads m.getpagesize) t = (.ok (mem, swap), t + 3) ∧
      ReadsThreeTimes m t mem swap := by
  have hmixed : Shows (m.machine (t + 2)) (physPages (t + 1)) (stat (t + 2)) := {
    physPages := by rw [(h.memory (t + 1)).physPages, m.same_pages]
    inactive := (h.memory (t + 2)).inactive
    free := (h.memory (t + 2)).free }
  obtain ⟨mem, hmem, hreports⟩ := memory_reports hmixed
  rw [m.getpagesize_eq] at hmem
  rw [m.pages_eq, m.pageSize_eq] at hreports
  obtain ⟨ps, hps, hswaps⟩ := swap_reports (h.swap t)
  have hfirst : moving (fun n => vmAnswer (some (xswUsage n)) (physPages n) (some (stat n)))
      swapReads t = (.ok ps, t + 1) := by
    rw [← hps]
    rfl
  refine ⟨mem, ps, ?_, ⟨hreports, hswaps⟩⟩
  rw [memoryAndSwapReads, Platform.memoryAndSwap, moving_bind_of_ok hfirst,
    moving_bind_of_ok (moving_memoryReads hmem), moving_pure]

end Systemstat.MacOs

/-! ## One machine -/

namespace Systemstat.Bsd

open Readings Reads

/-- Of a machine whose pages move between the calls, NetBSD reports one moment, macOS one
moment for the swap space and a later one for memory. OpenBSD may report more free memory
than there is, exactly where pages that it counted as free have become buffers. FreeBSD
never does, and it has no swap. -/
theorem memoryAndSwap_moving (m : MovingMachine) :
    (∀ {w : Nat} (arc : Nat → Nat) (stats : Nat → FreeBsd.VmStats w),
      FreeBsd.Displays m arc stats → ∀ t,
      (∃ mem, moving (fun n => (stats n).answer) (FreeBsd.memoryReads w m.getpagesize) t =
        (.ok mem, t + 6) ∧ FreeBsd.ReadsSixTimes m arc t mem) ∧
      moving (fun n => (stats n).answer) (FreeBsd.memoryAndSwapReads w m.getpagesize) t =
        (.error (.other "Not supported"), t)) ∧
    (∀ uvmexp bcachestats, OpenBsd.Displays m uvmexp bcachestats → ∀ t, ∃ mem swap,
      moving (fun n => OpenBsd.uvmAnswer (some (uvmexp n)) (some (bcachestats n)))
        (OpenBsd.memoryAndSwapReads m.getpagesize) t = (.ok (mem, swap), t + 2) ∧
      OpenBsd.ReadsTwice m t mem swap) ∧
    (∀ uvmexp, NetBsd.Displays m uvmexp → ∀ t, ∃ mem swap,
      moving (fun n (_ : Unit) => some (uvmexp n)) NetBsd.memoryAndSwapReads t =
        (.ok (mem, swap), t + 1) ∧ NetBsd.ReadsOnce m t mem swap) ∧
    ∀ xswUsage physPages stat, MacOs.Displays m xswUsage physPages stat → ∀ t, ∃ mem swap,
      moving (fun n => MacOs.vmAnswer (some (xswUsage n)) (physPages n) (some (stat n)))
        (MacOs.memoryAndSwapReads m.getpagesize) t = (.ok (mem, swap), t + 3) ∧
      MacOs.ReadsThreeTimes m t mem swap := by
  refine ⟨?freeBsd, ?openBsd, ?netBsd, ?macOs⟩
  case freeBsd =>
    intro w arc stats h t
    exact ⟨FreeBsd.memory_moving h t, FreeBsd.moving_memoryAndSwapReads _ _ t⟩
  case openBsd => exact fun uvmexp bcachestats => OpenBsd.memoryAndSwap_reports
  case netBsd => exact fun uvmexp => NetBsd.memoryAndSwap_reports
  case macOs => exact fun xswUsage physPages stat => MacOs.memoryAndSwap_reports

/-- Free pages, before and after many of them have become buffers. -/
def unbuffered : PageMachine :=
  { fourGib with
    active := 10000, inactive := 10000, wired := 20000, cache := 0, free := 1000000
    disjoint := by decide }

def buffered : PageMachine :=
  { unbuffered with cache := 100000, free := 900000, disjoint := by decide }

def bufferedAt (n : Nat) : PageMachine := if n = 0 then unbuffered else buffered

theorem forall_bufferedAt {P : PageMachine → Prop} (hbefore : P unbuffered)
    (hafter : P buffered) (n : Nat) : P (bufferedAt n) := by
  by_cases hn : n = 0
  · rw [bufferedAt, if_pos hn]
    exact hbefore
  · rw [bufferedAt, if_neg hn]
    exact hafter

def buffersGrow : MovingMachine where
  machine := bufferedAt
  swap _ := ⟨262144, 1024, by decide⟩
  same_k n n' := by
    rw [forall_bufferedAt (P := fun m => m.k = 12) rfl rfl n,
      forall_bufferedAt (P := fun m => m.k = 12) rfl rfl n']
  same_pages n n' := by
    rw [forall_bufferedAt (P := fun m => m.pages = 1048576) rfl rfl n,
      forall_bufferedAt (P := fun m => m.pages = 1048576) rfl rfl n']
  swap_addressable :=
    forall_bufferedAt (P := fun m => 262144 * m.pageSize < 2 ^ 64) (by decide) (by decide)

/-! What the four kernels show of it. -/

def shownVmStats (m : PageMachine) : FreeBsd.VmStats 64 :=
  ⟨some 10000, some 10000, some 20000, some (.ofNat 64 m.cache), some (.ofNat 64 m.free), none⟩

def shownUvmexp (m : PageMachine) : OpenBsd.Uvmexp :=
  ⟨1048576, .ofNat 32 m.free, 10000, 10000, 8, 20000, 262144, 1024, 0⟩

def shownBcachestats (m : PageMachine) : OpenBsd.Bcachestats := ⟨.ofNat 64 m.cache⟩

def shownUvmexpSysctl (m : PageMachine) : NetBsd.UvmexpSysctl :=
  ⟨12, 1048576, .ofNat 64 m.free, 10000, 10000, 8, 20000, 262144, 1024, 0, 0, 0, 0⟩

def shownVmStatistics (m : PageMachine) : MacOs.VmStatistics64 :=
  ⟨.ofNat 32 m.free, 10000, 10000, 20000, 0, 0, 0, 0, 0, 0, 0⟩

theorem freeBsd_displays_buffersGrow :
    FreeBsd.Displays buffersGrow (fun _ => 0) fun n => shownVmStats (bufferedAt n) where
  memory := forall_bufferedAt (P := fun m => FreeBsd.Shows m 0 (shownVmStats m))
    ⟨by decide, rfl, rfl, rfl, rfl, rfl, rfl, by decide⟩
    ⟨by decide, rfl, rfl, rfl, rfl, rfl, rfl, by decide⟩
  room _ := by decide

theorem openBsd_displays_buffersGrow :
    OpenBsd.Displays buffersGrow (fun n => shownUvmexp (bufferedAt n))
      fun n => shownBcachestats (bufferedAt n) where
  memory := forall_bufferedAt
    (P := fun m => OpenBsd.Shows m (shownUvmexp m) (shownBcachestats m))
    ⟨by decide, by decide, by decide, by decide, by decide⟩
    ⟨by decide, by decide, by decide, by decide, by decide⟩
  swap _ := ⟨rfl, rfl⟩
  memory_small :=
    forall_bufferedAt (P := fun m => m.pages * 2 ^ (m.k - 10) < 2 ^ 31) (by decide) (by decide)
  swap_small :=
    forall_bufferedAt (P := fun m => 262144 * 2 ^ (m.k - 10) < 2 ^ 31) (by decide) (by decide)

theorem netBsd_displays_buffersGrow :
    NetBsd.Displays buffersGrow fun n => shownUvmexpSysctl (bufferedAt n) where
  memory := forall_bufferedAt (P := fun m => NetBsd.Shows m (shownUvmexpSysctl m))
    ⟨rfl, rfl, rfl⟩ ⟨rfl, rfl, rfl⟩
  swap _ := ⟨rfl, rfl⟩

def shownXswUsage : MacOs.XswUsage := ⟨1073741824, 1069547520, 4194304, 4096, 0⟩

theorem macOs_displays_buffersGrow :
    MacOs.Displays buffersGrow (fun _ => shownXswUsage) (fun _ => 1048576)
      fun n => shownVmStatistics (bufferedAt n) where
  memory := forall_bufferedAt (P := fun m => MacOs.Shows m 1048576 (shownVmStatistics m))
    ⟨by decide, by decide, by decide⟩ ⟨by decide, by decide, by decide⟩
  swap _ := by
    have hsize : buffersGrow.pageSize = 4096 := by decide
    rw [hsize]
    exact ⟨show shownXswUsage.xsuTotal.toNat = 262144 * 4096 by decide,
      show shownXswUsage.xsuAvail.toNat = (262144 - 1024) * 4096 by decide⟩

/-- On OpenBSD there is more free memory than memory here, but not on FreeBSD. -/
theorem memoryAndSwap_moving_buffers :
    (∃ mem, moving (fun n => (shownVmStats (bufferedAt n)).answer)
        (FreeBsd.memoryReads 64 buffersGrow.getpagesize) 0 = (.ok mem, 6) ∧
      mem.free.bytes ≤ mem.total.bytes) ∧
    (∃ mem swap, moving (fun n => OpenBsd.uvmAnswer (some (shownUvmexp (bufferedAt n)))
          (some (shownBcachestats (bufferedAt n))))
        (OpenBsd.memoryAndSwapReads buffersGrow.getpagesize) 0 = (.ok (mem, swap), 2) ∧
      mem.total.bytes < mem.free.bytes) ∧
    (∃ mem swap, moving (fun n (_ : Unit) => some (shownUvmexpSysctl (bufferedAt n)))
        NetBsd.memoryAndSwapReads 0 = (.ok (mem, swap), 1) ∧
      NetBsd.ReadsOnce buffersGrow 0 mem swap) ∧
    ∃ mem swap, moving (fun n => MacOs.vmAnswer (some shownXswUsage) 1048576
          (some (shownVmStatistics (bufferedAt n))))
        (MacOs.memoryAndSwapReads buffersGrow.getpagesize) 0 = (.ok (mem, swap), 3) ∧
      MacOs.ReadsThreeTimes buffersGrow 0 mem swap := by
  obtain ⟨freeBsd, openBsd, netBsd, macOs⟩ := memoryAndSwap_moving buffersGrow
  refine ⟨?_, ?_, netBsd _ netBsd_displays_buffersGrow 0,
    macOs _ _ _ macOs_displays_buffersGrow 0⟩
  · obtain ⟨mem, hreads, h⟩ := (freeBsd _ _ freeBsd_displays_buffersGrow 0).1
    exact ⟨mem, hreads, h.bounded⟩
  · obtain ⟨mem, swap, hreads, h⟩ := openBsd _ _ openBsd_displays_buffersGrow 0
    refine ⟨mem, swap, hreads, BitVec.not_le.mp fun hle => ?_⟩
    exact absurd (h.bounded.mp hle) (by decide)

end Systemstat.Bsd
