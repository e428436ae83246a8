import Systemstat.Bsd.PageShift

/-! # Memory on the BSDs and macOS

The page counters of three kernels, and what each platform publishes of them. On
OpenBSD a counter is shifted as the `c_int` that it is, on the others as a `u64`.
-/

namespace Systemstat.Bsd

/-- The macro `sysctl!`; `none` is a call that fails. -/
def sysctl {α : Type} : Option α → IoResult α
  | some data => .ok data
  | none => .error (.other "sysctl() failed")

end Systemstat.Bsd

/-! ## OpenBSD -/

namespace Systemstat.OpenBsd

open Bsd

structure Uvmexp where
  npages : BitVec 32
  free : BitVec 32
  active : BitVec 32
  inactive : BitVec 32
  paging : BitVec 32
  wired : BitVec 32
  swpages : BitVec 32
  swpginuse : BitVec 32
  swpgonly : BitVec 32

structure Bcachestats where
  numbufpages : BitVec 64

structure PlatformMemory where
  total : ByteSize
  active : ByteSize
  inactive : ByteSize
  wired : ByteSize
  cache : ByteSize
  free : ByteSize
  paging : ByteSize
  sw : ByteSize
  swinuse : ByteSize
  swonly : ByteSize

namespace PlatformMemory

def new (getpagesize : BitVec 32) (uvmexp : Option Uvmexp) (bcachestats : Option Bcachestats) :
    IoResult PlatformMemory := do
  let uvmInfo ← sysctl uvmexp
  let bcacheInfo ← sysctl bcachestats
  let shift := pageshift getpagesize
  return {
    total := .kib (kibibytesI32 shift uvmInfo.npages)
    active := .kib (kibibytesI32 shift uvmInfo.active)
    inactive := .kib (kibibytesI32 shift uvmInfo.inactive)
    wired := .kib (kibibytesI32 shift uvmInfo.wired)
    cache := .kib (shl bcacheInfo.numbufpages shift)
    free := .kib (kibibytesI32 shift uvmInfo.free)
    paging := .kib (kibibytesI32 shift uvmInfo.paging)
    sw := .kib (kibibytesI32 shift uvmInfo.swpages)
    swinuse := .kib (kibibytesI32 shift uvmInfo.swpginuse)
    swonly := .kib (kibibytesI32 shift uvmInfo.swpgonly) }

def toMemory (self : PlatformMemory) : Memory PlatformMemory where
  total := self.total
  free := self.inactive + self.cache + self.free + self.paging
  platformMemory := self

def toSwap (self : PlatformMemory) : Swap PlatformMemory where
  total := self.sw
  free := saturatingSubBytes self.sw self.swinuse
  platformSwap := self

def counters (self : PlatformMemory) (uvmexp : Uvmexp) : List (BitVec 32 × ByteSize) :=
  [(uvmexp.npages, self.total), (uvmexp.active, self.active), (uvmexp.inactive, self.inactive),
    (uvmexp.wired, self.wired), (uvmexp.free, self.free), (uvmexp.paging, self.paging),
    (uvmexp.swpages, self.sw), (uvmexp.swpginuse, self.swinuse), (uvmexp.swpgonly, self.swonly)]

end PlatformMemory

end Systemstat.OpenBsd

/-! ## FreeBSD -/

namespace Systemstat.FreeBsd

open Bsd

/-- The counters under `vm.stats.vm`, and the size of the ARC in bytes. -/
structure VmStats (w : Nat) where
  active : Option (BitVec w)
  inactive : Option (BitVec w)
  wired : Option (BitVec w)
  cache : Option (BitVec w)
  free : Option (BitVec w)
  zfsArc : Option (BitVec w)

structure PlatformMemory where
  active : ByteSize
  inactive : ByteSize
  wired : ByteSize
  cache : ByteSize
  zfsArc : ByteSize
  free : ByteSize

variable {w : Nat}

def zfsArcSize (stats : VmStats w) : IoResult (BitVec 64) := do
  let zfsArc ← sysctl stats.zfsArc
  return zfsArc.setWidth 64

/-- A `cache` that cannot be read stays zero. -/
def memory (getpagesize : BitVec 32) (stats : VmStats w) : IoResult (Memory PlatformMemory) := do
  let active ← sysctl stats.active
  let inactive ← sysctl stats.inactive
  let wired ← sysctl stats.wired
  let cache := stats.cache.getD 0#w
  let free ← sysctl stats.free
  let arc := ByteSize.b ((zfsArcSize stats).toOption.getD 0#64)
  let shift := pageshift getpagesize
  let pmem : PlatformMemory := {
    active := .kib (kibibytesU64 shift active)
    inactive := .kib (kibibytesU64 shift inactive)
    wired := saturatingSubBytes (.kib (kibibytesU64 shift wired)) arc
    cache := .kib (kibibytesU64 shift cache)
    zfsArc := arc
    free := .kib (kibibytesU64 shift free) }
  return {
    total := pmem.active + pmem.inactive + pmem.wired + pmem.cache + arc + pmem.free
    free := pmem.inactive + pmem.cache + arc + pmem.free
    platformMemory := pmem }

end Systemstat.FreeBsd

/-! ## macOS -/

namespace Systemstat.MacOs

open Bsd

structure VmStatistics64 where
  freeCount : BitVec 32
  activeCount : BitVec 32
  inactiveCount : BitVec 32
  wireCount : BitVec 32
  purgeableCount : BitVec 32
  speculativeCount : BitVec 32
  compressorPageCount : BitVec 32
  throttledCount : BitVec 32
  externalPageCount : BitVec 32
  internalPageCount : BitVec 32
  totalUncompressedPagesInCompressor : BitVec 64

structure PlatformMemory where
  total : ByteSize
  active : ByteSize
  inactive : ByteSize
  wired : ByteSize
  free : ByteSize
  purgeable : ByteSize
  speculative : ByteSize
  compressor : ByteSize
  throttled : ByteSize
  external : ByteSize
  internal : ByteSize
  uncompressedInCompressor : ByteSize

/-- `hostStatistics64` is `none` when the call does not succeed. -/
def memory (getpagesize : BitVec 32) (physPages : BitVec 64)
    (hostStatistics64 : Option VmStatistics64) : IoResult (Memory PlatformMemory) :=
  if physPages = -1#64 then .error (.other "sysconf(_SC_PHYS_PAGES) failed")
  else
    match hostStatistics64 with
    | none => .error (.other "host_statistics64() failed")
    | some stat =>
        let shift := pageshift getpagesize
        let pmem : PlatformMemory := {
          total := .kib (shl physPages shift)
          active := .kib (kibibytesU64 shift stat.activeCount)
          inactive := .kib (kibibytesU64 shift stat.inactiveCount)
          wired := .kib (kibibytesU64 shift stat.wireCount)
          free := .kib (kibibytesU64 shift stat.freeCount)
          purgeable := .kib (kibibytesU64 shift stat.purgeableCount)
          speculative := .kib (kibibytesU64 shift stat.speculativeCount)
          compressor := .kib (kibibytesU64 shift stat.compressorPageCount)
          throttled := .kib (kibibytesU64 shift stat.throttledCount)
          external := .kib (kibibytesU64 shift stat.externalPageCount)
          internal := .kib (kibibytesU64 shift stat.internalPageCount)
          uncompressedInCompressor :=
            .kib (kibibytesU64 shift stat.totalUncompressedPagesInCompressor) }
        .ok { total := pmem.total, free := pmem.free + pmem.inactive, platformMemory := pmem }

def PlatformMemory.counters (self : PlatformMemory) (stat : VmStatistics64) :
    List (BitVec 32 × ByteSize) :=
  [(stat.activeCount, self.active), (stat.inactiveCount, self.inactive),
    (stat.wireCount, self.wired), (stat.freeCount, self.free),
    (stat.purgeableCount, self.purgeable), (stat.speculativeCount, self.speculative),
    (stat.compressorPageCount, self.compressor), (stat.throttledCount, self.throttled),
    (stat.externalPageCount, self.external), (stat.internalPageCount, self.internal)]

end Systemstat.MacOs

/-! ## Pages into bytes -/

namespace Systemstat.Bsd

variable {k w : Nat}

/-- What OpenBSD publishes of its counters. A counter of `uvmexp` is right exactly when
its size in kibibytes has 31 bits. -/
structure OpenBsdPages (k : Nat) (uvmexp : OpenBsd.Uvmexp) (bcachestats : OpenBsd.Bcachestats)
    (m : OpenBsd.PlatformMemory) : Prop where
  counters : ∀ n size, (n, size) ∈ m.counters uvmexp → 0 ≤ n.toInt →
    (PagesExact k n.toNat
        (kibibytesI32 (pageshift (BitVec.ofNat 32 (2 ^ k))) n) size ↔
      n.toNat * 2 ^ (k - 10) < 2 ^ 31)
  cache : 0 ≤ bcachestats.numbufpages.toInt → bcachestats.numbufpages.toNat * 2 ^ k < 2 ^ 64 →
    PagesExact k bcachestats.numbufpages.toNat
      (shl bcachestats.numbufpages (pageshift (BitVec.ofNat 32 (2 ^ k)))) m.cache

theorem openBsd_pages (hlow : 10 ≤ k) (hhigh : k ≤ 30) (uvmexp : OpenBsd.Uvmexp)
    (bcachestats : OpenBsd.Bcachestats) :
    ∃ m, OpenBsd.PlatformMemory.new (BitVec.ofNat 32 (2 ^ k)) (some uvmexp) (some bcachestats) =
      .ok m ∧ OpenBsdPages k uvmexp bcachestats m := by
  have hshift := pageshift_two_pow hlow hhigh
  refine ⟨_, rfl, ?_, ?_⟩
  · intro n size hmem hn
    have hsize : size = .kib (kibibytesI32
        (pageshift (BitVec.ofNat 32 (2 ^ k))) n) := by
      simp only [OpenBsd.PlatformMemory.counters, List.mem_cons, List.not_mem_nil, or_false,
        Prod.mk.injEq] at hmem
      rcases hmem with ⟨rfl, rfl⟩ | ⟨rfl, rfl⟩ | ⟨rfl, rfl⟩ | ⟨rfl, rfl⟩ | ⟨rfl, rfl⟩ |
        ⟨rfl, rfl⟩ | ⟨rfl, rfl⟩ | ⟨rfl, rfl⟩ | ⟨rfl, rfl⟩ <;> rfl
    rw [hsize, hshift]
    exact pagesExact_kibibytesI32_iff hlow hhigh hn
  · intro _ hfits
    show PagesExact k _ _ (.kib (shl bcachestats.numbufpages _))
    rw [hshift]
    exact pagesExact_shl hlow hhigh hfits

structure FreeBsdPages (k : Nat) (active inactive wired cache free : BitVec w)
    (m : FreeBsd.PlatformMemory) : Prop where
  counters : ∀ n size, (n, size) ∈
      [(active, m.active), (inactive, m.inactive), (cache, m.cache), (free, m.free)] →
    n.toNat * 2 ^ k < 2 ^ 64 →
    PagesExact k n.toNat (kibibytesU64 (pageshift (BitVec.ofNat 32 (2 ^ k))) n) size
  wired : wired.toNat * 2 ^ k < 2 ^ 64 → ∃ size,
    PagesExact k wired.toNat (kibibytesU64 (pageshift (BitVec.ofNat 32 (2 ^ k))) wired) size ∧
      m.wired = saturatingSubBytes size m.zfsArc

theorem freeBsd_pages (hlow : 10 ≤ k) (hhigh : k ≤ 30) (active inactive wired free : BitVec w)
    (cache zfsArc : Option (BitVec w)) :
    ∃ mem, FreeBsd.memory (BitVec.ofNat 32 (2 ^ k))
        ⟨some active, some inactive, some wired, cache, some free, zfsArc⟩ = .ok mem ∧
      FreeBsdPages k active inactive wired (cache.getD 0#w) free mem.platformMemory := by
  have hshift := pageshift_two_pow hlow hhigh
  refine ⟨_, rfl, ?_, ?_⟩
  · intro n size hmem hfits
    have hsize : size = .kib (kibibytesU64 (pageshift (BitVec.ofNat 32 (2 ^ k))) n) := by
      simp only [List.mem_cons, List.not_mem_nil, or_false, Prod.mk.injEq] at hmem
      rcases hmem with ⟨rfl, rfl⟩ | ⟨rfl, rfl⟩ | ⟨rfl, rfl⟩ | ⟨rfl, rfl⟩ <;> rfl
    rw [hsize, hshift]
    exact pagesExact_kibibytesU64 hlow hhigh hfits
  · intro hfits
    refine ⟨.kib (kibibytesU64 (pageshift (BitVec.ofNat 32 (2 ^ k))) wired), ?_, rfl⟩
    rw [hshift]
    exact pagesExact_kibibytesU64 hlow hhigh hfits

structure MacOsPages (k : Nat) (physPages : BitVec 64) (stat : MacOs.VmStatistics64)
    (m : MacOs.PlatformMemory) : Prop where
  total : physPages.toNat * 2 ^ k < 2 ^ 64 → PagesExact k physPages.toNat
    (shl physPages (pageshift (BitVec.ofNat 32 (2 ^ k)))) m.total
  counters : ∀ n size, (n, size) ∈ m.counters stat → n.toNat * 2 ^ k < 2 ^ 64 →
    PagesExact k n.toNat (kibibytesU64 (pageshift (BitVec.ofNat 32 (2 ^ k))) n) size
  uncompressed : stat.totalUncompressedPagesInCompressor.toNat * 2 ^ k < 2 ^ 64 →
    PagesExact k stat.totalUncompressedPagesInCompressor.toNat
      (kibibytesU64 (pageshift (BitVec.ofNat 32 (2 ^ k)))
        stat.totalUncompressedPagesInCompressor) m.uncompressedInCompressor

theorem macOs_pages (hlow : 10 ≤ k) (hhigh : k ≤ 30) {physPages : BitVec 64}
    (hphys : 0 ≤ physPages.toInt) (stat : MacOs.VmStatistics64) :
    ∃ mem, MacOs.memory (BitVec.ofNat 32 (2 ^ k)) physPages (some stat) = .ok mem ∧
      MacOsPages k physPages stat mem.platformMemory := by
  have hshift := pageshift_two_pow hlow hhigh
  have hne : physPages ≠ -1#64 := by
    rintro rfl
    exact absurd hphys (by decide)
  rw [MacOs.memory, if_neg hne]
  refine ⟨_, rfl, ?_, ?_, ?_⟩
  · intro hfits
    show PagesExact k _ _ (.kib (shl physPages _))
    rw [hshift]
    exact pagesExact_shl hlow hhigh hfits
  · intro n size hmem hfits
    have hsize : size = .kib (kibibytesU64 (pageshift (BitVec.ofNat 32 (2 ^ k))) n) := by
      simp only [MacOs.PlatformMemory.counters, List.mem_cons, List.not_mem_nil, or_false,
        Prod.mk.injEq] at hmem
      rcases hmem with ⟨rfl, rfl⟩ | ⟨rfl, rfl⟩ | ⟨rfl, rfl⟩ | ⟨rfl, rfl⟩ | ⟨rfl, rfl⟩ |
        ⟨rfl, rfl⟩ | ⟨rfl, rfl⟩ | ⟨rfl, rfl⟩ | ⟨rfl, rfl⟩ | ⟨rfl, rfl⟩ <;> rfl
    rw [hsize, hshift]
    exact pagesExact_kibibytesU64 hlow hhigh hfits
  · intro hfits
    show PagesExact k _ _
      (.kib (kibibytesU64 _ stat.totalUncompressedPagesInCompressor))
    rw [hshift]
    exact pagesExact_kibibytesU64 hlow hhigh hfits

/-- The loop finds the shift, and the sizes are exact on every platform and for every
count, except on OpenBSD for one whose size in kibibytes has 32 bits or more. -/
structure PagesPublished (k w : Nat) : Prop where
  shift : pageshift (BitVec.ofNat 32 (2 ^ k)) = BitVec.ofNat 32 (k - 10)
  openBsd : ∀ uvmexp bcachestats, ∃ m, OpenBsd.PlatformMemory.new (BitVec.ofNat 32 (2 ^ k))
    (some uvmexp) (some bcachestats) = .ok m ∧ OpenBsdPages k uvmexp bcachestats m
  freeBsd : ∀ (active inactive wired free : BitVec w) (cache zfsArc : Option (BitVec w)),
    ∃ mem, FreeBsd.memory (BitVec.ofNat 32 (2 ^ k))
        ⟨some active, some inactive, some wired, cache, some free, zfsArc⟩ = .ok mem ∧
      FreeBsdPages k active inactive wired (cache.getD 0#w) free mem.platformMemory
  macOs : ∀ (physPages : BitVec 64) (stat : MacOs.VmStatistics64), 0 ≤ physPages.toInt →
    ∃ mem, MacOs.memory (BitVec.ofNat 32 (2 ^ k)) physPages (some stat) = .ok mem ∧
      MacOsPages k physPages stat mem.platformMemory

theorem pagesPublished {k : Nat} (hlow : 10 ≤ k) (hhigh : k ≤ 30) (w : Nat) :
    PagesPublished k w where
  shift := pageshift_two_pow hlow hhigh
  openBsd := openBsd_pages hlow hhigh
  freeBsd := freeBsd_pages hlow hhigh
  macOs _ stat hphys := macOs_pages hlow hhigh hphys stat

theorem pagesPublished_four_kib : PagesPublished 12 64 := pagesPublished (by decide) (by decide) 64

theorem pages_two_tebibytes : ¬ ∀ (k : Nat) (uvmexp : OpenBsd.Uvmexp)
    (bcachestats : OpenBsd.Bcachestats) (m : OpenBsd.PlatformMemory), 10 ≤ k → k ≤ 30 →
    OpenBsd.PlatformMemory.new (BitVec.ofNat 32 (2 ^ k)) (some uvmexp) (some bcachestats) =
      .ok m →
    0 ≤ uvmexp.npages.toInt → uvmexp.npages.toNat * 2 ^ k < 2 ^ 64 →
    m.total.bytes.toNat = uvmexp.npages.toNat * 2 ^ k := by
  intro h
  let uvmexp : OpenBsd.Uvmexp := ⟨0x20000000, 0, 0, 0, 0, 0, 0, 0, 0⟩
  have hshift : pageshift (BitVec.ofNat 32 (2 ^ 12)) = BitVec.ofNat 32 (12 - 10) :=
    pageshift_two_pow (by decide) (by decide)
  have htotal := h 12 uvmexp ⟨0⟩ _ (by decide) (by decide) rfl (by decide) (by decide)
  change (ByteSize.kib (kibibytesI32
    (pageshift (BitVec.ofNat 32 (2 ^ 12))) 0x20000000)).bytes.toNat = _ at htotal
  rw [hshift] at htotal
  revert htotal
  decide

end Systemstat.Bsd
