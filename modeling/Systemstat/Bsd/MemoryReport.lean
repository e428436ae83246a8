import Systemstat.Linux.Memory
import Systemstat.Platform.Swap

/-! # Memory on the BSDs and macOS

One machine, whose pages are of one kind each. The four systems count them in words of
their own and turn them into bytes on different ways, and each decides for itself which
kinds are free memory. None of them reports more free memory than there is.
-/

namespace Systemstat

def ByteSize.Is (size : ByteSize) (n : Nat) : Prop := size.bytes.toNat = n

theorem ByteSize.Is.add {l r : ByteSize} {a b : Nat} (hl : l.Is a) (hr : r.Is b)
    (hfits : a + b < 2 ^ 64) : (l + r).Is (a + b) := by
  unfold ByteSize.Is at hl hr ⊢
  rw [← hl, ← hr] at hfits ⊢
  exact Linux.add_bytes_toNat hfits

theorem ByteSize.Is.saturatingSub {l r : ByteSize} {a b : Nat} (hl : l.Is a) (hr : r.Is b) :
    (saturatingSubBytes l r).Is (a - b) := by
  unfold ByteSize.Is at hl hr ⊢
  rw [← hl, ← hr]
  exact saturatingSub_toNat l.bytes r.bytes

theorem ByteSize.Is.le_iff {l r : ByteSize} {a b : Nat} (hl : l.Is a) (hr : r.Is b) :
    l.bytes ≤ r.bytes ↔ a ≤ b := by
  unfold ByteSize.Is at hl hr
  rw [BitVec.le_def, hl, hr]

namespace Bsd

open Arith

/-! ## The machine -/

/-- The kinds of pages; a page that is of none of them is used in some other way. -/
structure PageMachine where
  k : Nat
  pages : Nat
  active : Nat
  inactive : Nat
  wired : Nat
  cache : Nat
  paging : Nat
  free : Nat
  low : 10 ≤ k
  high : k ≤ 30
  disjoint : active + inactive + wired + cache + paging + free ≤ pages
  addressable : pages * 2 ^ k < 2 ^ 64

namespace PageMachine

variable (m : PageMachine)

def pageSize : Nat := 2 ^ m.k

def getpagesize : BitVec 32 := BitVec.ofNat 32 (2 ^ m.k)

variable {m}

theorem mul_pageSize_lt {n : Nat} (h : n ≤ m.pages) : n * m.pageSize < 2 ^ 64 :=
  Nat.lt_of_le_of_lt (Nat.mul_le_mul_right _ h) m.addressable

theorem sizes_le : m.active * m.pageSize + m.inactive * m.pageSize + m.wired * m.pageSize +
    m.cache * m.pageSize + m.paging * m.pageSize + m.free * m.pageSize ≤ m.pages * m.pageSize := by
  simp only [← Nat.add_mul]
  exact Nat.mul_le_mul_right _ m.disjoint

theorem kibibytesU64_is {w n : Nat} {x : BitVec w} (hx : x.toNat = n) (h : n ≤ m.pages) :
    (ByteSize.kib (kibibytesU64 (pageshift m.getpagesize) x)).Is (n * m.pageSize) := by
  have hfits : x.toNat * 2 ^ m.k < 2 ^ 64 := by
    rw [hx]
    exact mul_pageSize_lt h
  have hexact := pagesExact_kibibytesU64 m.low m.high hfits
  rw [← pageshift_two_pow m.low m.high, hx] at hexact
  exact hexact.bytes

theorem shl_is {n : Nat} {x : BitVec 64} (hx : x.toNat = n) (h : n ≤ m.pages) :
    (ByteSize.kib (shl x (pageshift m.getpagesize))).Is (n * m.pageSize) := by
  have hfits : x.toNat * 2 ^ m.k < 2 ^ 64 := by
    rw [hx]
    exact mul_pageSize_lt h
  have hexact := pagesExact_shl m.low m.high hfits
  rw [← pageshift_two_pow m.low m.high, hx] at hexact
  exact hexact.bytes

/-- A machine whose memory in kibibytes has 31 bits is counted in signed words. -/
theorem kibibytesI32_is {n : Nat} {x : BitVec 32} (hx : x.toInt = n) (h : n ≤ m.pages)
    (hsmall : m.pages * 2 ^ (m.k - 10) < 2 ^ 31) :
    (ByteSize.kib (kibibytesI32 (pageshift m.getpagesize) x)).Is (n * m.pageSize) := by
  have hnat : x.toNat = n := by
    have hcast := toNat_cast_of_toInt x
    rw [if_pos (by omega)] at hcast
    omega
  have hclear : x.toNat * 2 ^ (m.k - 10) < 2 ^ 31 := by
    rw [hnat]
    exact Nat.lt_of_le_of_lt (Nat.mul_le_mul_right _ h) hsmall
  have hexact := (pagesExact_kibibytesI32_iff m.low m.high (by omega)).mpr hclear
  rw [← pageshift_two_pow m.low m.high, hnat] at hexact
  exact hexact.bytes

end PageMachine

structure Reports {π : Type} (mem : Memory π) (total free : Nat) : Prop where
  total : mem.total.Is total
  free : mem.free.Is free
  bounded : mem.free.bytes ≤ mem.total.bytes

theorem reports_of_le {π : Type} {mem : Memory π} {total free : Nat} (htotal : mem.total.Is total)
    (hfree : mem.free.Is free) (hle : free ≤ total) : Reports mem total free where
  total := htotal
  free := hfree
  bounded := (hfree.le_iff htotal).mpr hle

end Bsd

end Systemstat

/-! ## FreeBSD -/

namespace Systemstat.FreeBsd

open Bsd

/-- The counters of the machine. Those of the cache and of the ARC may be missing, and
the ARC is usually a part of what is wired. -/
structure Shows {w : Nat} (m : PageMachine) (arc : Nat) (stats : VmStats w) : Prop where
  width : w ≤ 64
  active : stats.active.map BitVec.toNat = some m.active
  inactive : stats.inactive.map BitVec.toNat = some m.inactive
  wired : stats.wired.map BitVec.toNat = some m.wired
  cache : (stats.cache.getD 0#w).toNat = m.cache
  free : stats.free.map BitVec.toNat = some m.free
  zfsArc : (stats.zfsArc.getD 0#w).toNat = arc
  addressable : m.pages * m.pageSize + arc < 2 ^ 64

theorem arc_is {w : Nat} {m : PageMachine} {arc : Nat} {stats : VmStats w}
    (h : Shows m arc stats) :
    (ByteSize.b ((zfsArcSize stats).toOption.getD 0#64)).Is arc := by
  have harc := h.zfsArc
  have hwidth := h.width
  unfold zfsArcSize
  cases hstats : stats.zfsArc with
  | none =>
      rw [hstats] at harc
      exact harc
  | some size =>
      rw [hstats] at harc
      show (size.setWidth 64).toNat = arc
      have hlt : size.toNat < 2 ^ 64 :=
        Nat.lt_of_lt_of_le size.isLt (Nat.pow_le_pow_right (by decide) hwidth)
      rw [BitVec.toNat_setWidth, Nat.mod_eq_of_lt hlt]
      exact harc

theorem memory_reports {w : Nat} {m : PageMachine} {arc : Nat} {stats : VmStats w}
    (h : Shows m arc stats) : ∃ mem, memory m.getpagesize stats = .ok mem ∧
      Reports mem
        ((m.active + m.inactive + m.cache + m.free) * m.pageSize + max (m.wired * m.pageSize) arc)
        ((m.inactive + m.cache + m.free) * m.pageSize + arc) := by
  obtain ⟨active, hactive, hactive'⟩ := Option.map_eq_some_iff.mp h.active
  obtain ⟨inactive, hinactive, hinactive'⟩ := Option.map_eq_some_iff.mp h.inactive
  obtain ⟨wired, hwired, hwired'⟩ := Option.map_eq_some_iff.mp h.wired
  obtain ⟨free, hfree, hfree'⟩ := Option.map_eq_some_iff.mp h.free
  have hdisjoint := m.disjoint
  have hactiveIs := PageMachine.kibibytesU64_is (m := m) hactive' (by omega)
  have hinactiveIs := PageMachine.kibibytesU64_is (m := m) hinactive' (by omega)
  have hwiredIs := PageMachine.kibibytesU64_is (m := m) hwired' (by omega)
  have hcacheIs := PageMachine.kibibytesU64_is (m := m) h.cache (by omega)
  have hfreeIs := PageMachine.kibibytesU64_is (m := m) hfree' (by omega)
  have harcIs := arc_is h
  have hsizes := m.sizes_le
  have haddressable := h.addressable
  refine ⟨_, by simp only [memory, hactive, hinactive, hwired, hfree]; rfl, reports_of_le ?_ ?_ ?_⟩
  · -- The ARC is taken off the wired pages and added again.
    have hsum := (((((hactiveIs.add hinactiveIs (by omega)).add
      (hwiredIs.saturatingSub harcIs) (by omega)).add hcacheIs (by omega)).add
      harcIs (by omega)).add hfreeIs (by omega))
    refine hsum.trans ?_
    simp only [Nat.add_mul]
    omega
  · have hsum := (((hinactiveIs.add hcacheIs (by omega)).add harcIs (by omega)).add
      hfreeIs (by omega))
    refine hsum.trans ?_
    simp only [Nat.add_mul]
    omega
  · simp only [Nat.add_mul]
    omega

end Systemstat.FreeBsd

/-! ## OpenBSD -/

namespace Systemstat.OpenBsd

open Bsd

def memory (getpagesize : BitVec 32) (uvmexp : Option Uvmexp) (bcachestats : Option Bcachestats) :
    IoResult (Memory PlatformMemory) :=
  (PlatformMemory.new getpagesize uvmexp bcachestats).map PlatformMemory.toMemory

/-- The counters of the machine; the cache is that of the buffers. -/
structure Shows (m : PageMachine) (uvmexp : Uvmexp) (bcachestats : Bcachestats) : Prop where
  npages : uvmexp.npages.toInt = m.pages
  inactive : uvmexp.inactive.toInt = m.inactive
  paging : uvmexp.paging.toInt = m.paging
  free : uvmexp.free.toInt = m.free
  numbufpages : bcachestats.numbufpages.toNat = m.cache

theorem memory_reports {m : PageMachine} {uvmexp : Uvmexp} {bcachestats : Bcachestats}
    (h : Shows m uvmexp bcachestats) (hsmall : m.pages * 2 ^ (m.k - 10) < 2 ^ 31) :
    ∃ mem, memory m.getpagesize (some uvmexp) (some bcachestats) = .ok mem ∧
      Reports mem (m.pages * m.pageSize)
        ((m.inactive + m.cache + m.free + m.paging) * m.pageSize) := by
  have hdisjoint := m.disjoint
  have htotalIs := PageMachine.kibibytesI32_is h.npages (Nat.le_refl _) hsmall
  have hinactiveIs := PageMachine.kibibytesI32_is h.inactive (by omega) hsmall
  have hcacheIs := PageMachine.shl_is (m := m) h.numbufpages (by omega)
  have hfreeIs := PageMachine.kibibytesI32_is h.free (by omega) hsmall
  have hpagingIs := PageMachine.kibibytesI32_is h.paging (by omega) hsmall
  have hsizes := m.sizes_le
  have haddressable : m.pages * m.pageSize < 2 ^ 64 := m.addressable
  refine ⟨_, rfl, reports_of_le htotalIs ?_ ?_⟩
  · have hsum := ((hinactiveIs.add hcacheIs (by omega)).add hfreeIs (by omega)).add
      hpagingIs (by omega)
    refine hsum.trans ?_
    simp only [Nat.add_mul]
  · exact Nat.mul_le_mul_right _ (by omega)

end Systemstat.OpenBsd

/-! ## NetBSD -/

namespace Systemstat.NetBsd

open Bsd

def memory (uvmexp : Option UvmexpSysctl) : IoResult (Memory PlatformMemory) :=
  (PlatformMemory.new uvmexp).map PlatformMemory.toMemory

structure Shows (m : PageMachine) (uvmexp : UvmexpSysctl) : Prop where
  pageshift : uvmexp.pageshift.toNat = m.k
  npages : uvmexp.npages.toNat = m.pages
  free : uvmexp.free.toNat = m.free

theorem pageBytes_is {m : PageMachine} {shift pages : BitVec 64} {n : Nat}
    (hshift : shift.toNat = m.k) (hpages : pages.toNat = n) (h : n ≤ m.pages) :
    (PlatformMemory.pageBytes shift pages).Is (n * m.pageSize) := by
  have hhigh := m.high
  show (pages <<< (shift.toNat % 64)).toNat = _
  rw [hshift, Nat.mod_eq_of_lt (by omega), BitVec.toNat_shiftLeft, Nat.shiftLeft_eq, hpages]
  exact Nat.mod_eq_of_lt (PageMachine.mul_pageSize_lt h)

/-- Only free pages are free memory here. -/
theorem memory_reports {m : PageMachine} {uvmexp : UvmexpSysctl} (h : Shows m uvmexp) :
    ∃ mem, memory (some uvmexp) = .ok mem ∧
      Reports mem (m.pages * m.pageSize) (m.free * m.pageSize) := by
  have hdisjoint := m.disjoint
  exact ⟨_, rfl, reports_of_le (pageBytes_is h.pageshift h.npages (Nat.le_refl _))
    (pageBytes_is h.pageshift h.free (by omega)) (Nat.mul_le_mul_right _ (by omega))⟩

end Systemstat.NetBsd

/-! ## macOS -/

namespace Systemstat.MacOs

open Bsd

structure Shows (m : PageMachine) (physPages : BitVec 64) (stat : VmStatistics64) : Prop where
  physPages : physPages.toNat = m.pages
  inactive : stat.inactiveCount.toNat = m.inactive
  free : stat.freeCount.toNat = m.free

theorem memory_reports {m : PageMachine} {physPages : BitVec 64} {stat : VmStatistics64}
    (h : Shows m physPages stat) : ∃ mem, memory m.getpagesize physPages (some stat) = .ok mem ∧
      Reports mem (m.pages * m.pageSize) ((m.free + m.inactive) * m.pageSize) := by
  have hdisjoint := m.disjoint
  have hlow : 2 ≤ m.pageSize := Nat.le_self_pow (by have := m.low; omega) 2
  have haddressable : m.pages * m.pageSize < 2 ^ 64 := m.addressable
  have hne : physPages ≠ -1#64 := by
    rintro rfl
    have hpages : m.pages = 2 ^ 64 - 1 := h.physPages.symm
    have := Nat.mul_le_mul_left m.pages hlow
    omega
  have hfreeIs := PageMachine.kibibytesU64_is (m := m) h.free (by omega)
  have hinactiveIs := PageMachine.kibibytesU64_is (m := m) h.inactive (by omega)
  have hsizes := m.sizes_le
  rw [memory, if_neg hne]
  refine ⟨_, rfl, reports_of_le (PageMachine.shl_is h.physPages (Nat.le_refl _)) ?_ ?_⟩
  · refine (hfreeIs.add hinactiveIs (by omega)).trans ?_
    rw [Nat.add_mul]
  · exact Nat.mul_le_mul_right _ (by omega)

end Systemstat.MacOs

/-! ## One machine -/

namespace Systemstat.Bsd

/-- What the four systems say of the machine. FreeBSD counts what it knows, and the ARC
at most once; the others have a count of all pages. -/
theorem memory_reported (m : PageMachine) :
    (∀ {w arc : Nat} (stats : FreeBsd.VmStats w), FreeBsd.Shows m arc stats →
      ∃ mem, FreeBsd.memory m.getpagesize stats = .ok mem ∧
        Reports mem
          ((m.active + m.inactive + m.cache + m.free) * m.pageSize +
            max (m.wired * m.pageSize) arc)
          ((m.inactive + m.cache + m.free) * m.pageSize + arc)) ∧
    (∀ uvmexp bcachestats, OpenBsd.Shows m uvmexp bcachestats →
      m.pages * 2 ^ (m.k - 10) < 2 ^ 31 →
      ∃ mem, OpenBsd.memory m.getpagesize (some uvmexp) (some bcachestats) = .ok mem ∧
        Reports mem (m.pages * m.pageSize)
          ((m.inactive + m.cache + m.free + m.paging) * m.pageSize)) ∧
    (∀ uvmexp, NetBsd.Shows m uvmexp → ∃ mem, NetBsd.memory (some uvmexp) = .ok mem ∧
      Reports mem (m.pages * m.pageSize) (m.free * m.pageSize)) ∧
    ∀ physPages stat, MacOs.Shows m physPages stat →
      ∃ mem, MacOs.memory m.getpagesize physPages (some stat) = .ok mem ∧
        Reports mem (m.pages * m.pageSize) ((m.free + m.inactive) * m.pageSize) :=
  ⟨fun _ => FreeBsd.memory_reports, fun _ _ => OpenBsd.memory_reports,
    fun _ => NetBsd.memory_reports, fun _ _ => MacOs.memory_reports⟩

/-- Pages of 4 KiB, 4 GiB of them; the ARC is 512 MiB of what is wired. -/
def fourGib : PageMachine :=
  ⟨12, 1048576, 300000, 200000, 250000, 50000, 8, 248568, by decide, by decide, by decide,
    by decide⟩

theorem memory_reported_four_gib :
    (∃ mem, FreeBsd.memory fourGib.getpagesize
        ⟨some 300000#64, some 200000#64, some 250000#64, some 50000#64, some 248568#64,
          some 536870912#64⟩ = .ok mem ∧ Reports mem 4294934528 2579005440) ∧
    (∃ mem, OpenBsd.memory fourGib.getpagesize
        (some ⟨1048576, 248568, 300000, 200000, 8, 250000, 0, 0, 0⟩) (some ⟨50000⟩) = .ok mem ∧
      Reports mem 4294967296 2042167296) ∧
    (∃ mem, NetBsd.memory
        (some ⟨12, 1048576, 248568, 300000, 200000, 8, 250000, 0, 0, 0, 0, 0, 0⟩) = .ok mem ∧
      Reports mem 4294967296 1018134528) ∧
    ∃ mem, MacOs.memory fourGib.getpagesize 1048576
        (some ⟨248568, 300000, 200000, 250000, 0, 0, 0, 0, 0, 0, 0⟩) = .ok mem ∧
      Reports mem 4294967296 1837334528 := by
  obtain ⟨freeBsd, openBsd, netBsd, macOs⟩ := memory_reported fourGib
  have hfreeBsd : FreeBsd.Shows fourGib 536870912
      ⟨some 300000#64, some 200000#64, some 250000#64, some 50000#64, some 248568#64,
        some 536870912#64⟩ := ⟨by decide, rfl, rfl, rfl, rfl, rfl, rfl, by decide⟩
  refine ⟨freeBsd _ hfreeBsd, openBsd _ _ ?_ (by decide), netBsd _ ⟨rfl, rfl, rfl⟩,
    macOs _ _ ⟨rfl, rfl, rfl⟩⟩
  exact ⟨by decide, by decide, by decide, by decide, rfl⟩

end Systemstat.Bsd
