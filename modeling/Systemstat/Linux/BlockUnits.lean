import Systemstat.Arith.Words
import Systemstat.Linux.MountAt

/-! # The unit of a filesystem's sizes

`statvfs` counts blocks in fragments of `f_frsize` bytes, while `stat_mount` takes
each count times `f_bsize`, the preferred size of a transfer.
-/

namespace Systemstat.Linux

open Nom Text Arith

/-- What the kernel knows of a filesystem: the fields that `stat_mount` reads, and the
unit of the counts, which it does not. -/
structure StatvfsReading extends Statvfs where
  fFrsize : BitVec 64

abbrev Kernel := Bytes → Except Int StatvfsReading

def Kernel.statvfs (kernel : Kernel) : StatvfsCall := fun path =>
  (kernel path).map StatvfsReading.toStatvfs

def targetPath (target : Str) : Bytes := cString (utf8 (target ++ [Char.ofNat 0]))

theorem statPath_eq (mount : ProcMountsData) : statPath mount = targetPath mount.target := rfl

def statMountOverflows (statvfs : StatvfsCall) (mount : ProcMountsData) : Bool :=
  match statvfs (statPath mount) with
  | .ok info => info.fBfree.umulOverflow info.fBsize || info.fBavail.umulOverflow info.fBsize ||
      info.fBlocks.umulOverflow info.fBsize
  | .error _ => false

namespace StatvfsReading

structure Fits (r : StatvfsReading) : Prop where
  total : r.fBlocks.toNat * r.fFrsize.toNat < 2 ^ 64
  free : r.fBfree.toNat * r.fFrsize.toNat < 2 ^ 64
  avail : r.fBavail.toNat * r.fFrsize.toNat < 2 ^ 64

structure Sizes {w : Nat} (r : StatvfsReading) (f : Filesystem w) : Prop where
  total : f.total.bytes.toNat = r.fBlocks.toNat * r.fFrsize.toNat
  free : f.free.bytes.toNat = r.fBfree.toNat * r.fFrsize.toNat
  avail : f.avail.bytes.toNat = r.fBavail.toNat * r.fFrsize.toNat

/-- The two sizes of a block are one, or there is nothing to count. -/
def UnitsAgree (r : StatvfsReading) : Prop :=
  r.fBsize = r.fFrsize ∨ (r.fBlocks = 0 ∧ r.fBfree = 0 ∧ r.fBavail = 0)

end StatvfsReading

/-! ## One filesystem -/

variable {w : Nat} {kernel : Kernel} {files : Files}

theorem exists_statMount {mount : ProcMountsData} {r : StatvfsReading}
    (h : kernel (statPath mount) = .ok r) : ∃ f, statMount w kernel.statvfs mount = .ok f := by
  have hcall : kernel.statvfs (statPath mount) = .ok r.toStatvfs := by
    rw [Kernel.statvfs, h]
    rfl
  unfold statMount
  rw [hcall]
  exact ⟨_, rfl⟩

theorem statMountOverflows_eq_false_iff {mount : ProcMountsData} {r : StatvfsReading}
    (h : kernel (statPath mount) = .ok r) : statMountOverflows kernel.statvfs mount = false ↔
      r.fBfree.toNat * r.fBsize.toNat < 2 ^ 64 ∧ r.fBavail.toNat * r.fBsize.toNat < 2 ^ 64 ∧
      r.fBlocks.toNat * r.fBsize.toNat < 2 ^ 64 := by
  have hcall : kernel.statvfs (statPath mount) = .ok r.toStatvfs := by
    rw [Kernel.statvfs, h]
    rfl
  simp only [statMountOverflows, hcall, Bool.or_eq_false_iff, umulOverflow_eq_false_iff,
    and_assoc]

/-- No product overflows and each is the size in bytes, exactly when the units agree. -/
theorem statMount_sizes_iff {mount : ProcMountsData} {r : StatvfsReading} {f : Filesystem w}
    (hkernel : kernel (statPath mount) = .ok r) (hfits : r.Fits)
    (hf : statMount w kernel.statvfs mount = .ok f) :
    (statMountOverflows kernel.statvfs mount = false ∧ r.Sizes f) ↔ r.UnitsAgree := by
  obtain ⟨info, hinfo, _, hfree, havail, htotal⟩ := statMount_eq_ok hf
  rw [Kernel.statvfs, hkernel] at hinfo
  cases hinfo
  have hsizes : r.Sizes f ↔
      (r.fBlocks.toNat * r.fBsize.toNat) % 2 ^ 64 = r.fBlocks.toNat * r.fFrsize.toNat ∧
      (r.fBfree.toNat * r.fBsize.toNat) % 2 ^ 64 = r.fBfree.toNat * r.fFrsize.toNat ∧
      (r.fBavail.toNat * r.fBsize.toNat) % 2 ^ 64 = r.fBavail.toNat * r.fFrsize.toNat := by
    rw [← BitVec.toNat_mul, ← BitVec.toNat_mul, ← BitVec.toNat_mul, ← hfree, ← havail, ← htotal]
    exact ⟨fun h => ⟨h.total, h.free, h.avail⟩, fun h => ⟨h.1, h.2.1, h.2.2⟩⟩
  have hexact : (statMountOverflows kernel.statvfs mount = false ∧ r.Sizes f) ↔
      r.fBlocks.toNat * r.fBsize.toNat = r.fBlocks.toNat * r.fFrsize.toNat ∧
      r.fBfree.toNat * r.fBsize.toNat = r.fBfree.toNat * r.fFrsize.toNat ∧
      r.fBavail.toNat * r.fBsize.toNat = r.fBavail.toNat * r.fFrsize.toNat := by
    have htotal' := hfits.total
    have hfree' := hfits.free
    have havail' := hfits.avail
    rw [statMountOverflows_eq_false_iff hkernel, hsizes]
    omega
  rw [hexact, toNat_mul_eq_mul_iff, toNat_mul_eq_mul_iff, toNat_mul_eq_mul_iff,
    StatvfsReading.UnitsAgree, or_and_left, or_and_left]
  rfl

/-! ## Every filesystem -/

theorem mounts_eq_ok {statvfs : StatvfsCall} {fs : List (Filesystem w)}
    (h : mounts w statvfs files = .ok fs) : ∃ table, mountTable files = .ok table ∧
      ∀ f, f ∈ fs ↔ ∃ mount ∈ table, statMount w statvfs mount = .ok f := by
  obtain ⟨table, htable, hfs⟩ := exists_of_bind_eq_ok h
  cases hfs
  refine ⟨table, htable, fun f => ?_⟩
  simp only [List.mem_filterMap, toOption_eq_some_iff]

theorem mountAt_eq_ok {statvfs : StatvfsCall} {path : Bytes} {f : Filesystem w}
    (h : mountAt w statvfs files path = .ok f) : ∃ table, mountTable files = .ok table ∧
      ∃ mount ∈ table, statMount w statvfs mount = .ok f := by
  obtain ⟨table, htable, hrest⟩ := exists_of_bind_eq_ok h
  obtain ⟨mount, hfound, hstat⟩ := exists_of_bind_eq_ok hrest
  cases hfind : findMount table path with
  | none =>
      rw [hfind] at hfound
      cases hfound
  | some found =>
      rw [hfind] at hfound
      cases hfound
      exact ⟨table, htable, mount, List.mem_of_find?_eq_some hfind, hstat⟩

/-- The sizes that `mounts` and `mount_at` publish are those in bytes, and no product
on the way to them overflows, wherever the sizes have 64 bits. -/
structure SizesInBytes (w : Nat) (kernel : Kernel) (files : Files) : Prop where
  mounts : ∀ fs, mounts w kernel.statvfs files = .ok fs → ∀ f ∈ fs,
    ∀ r, kernel (targetPath f.fsMountedOn) = .ok r → r.Fits → r.Sizes f
  mountAt : ∀ path f, mountAt w kernel.statvfs files path = .ok f →
    ∀ r, kernel (targetPath f.fsMountedOn) = .ok r → r.Fits → r.Sizes f
  noOverflow : ∀ table, mountTable files = .ok table → ∀ mount ∈ table,
    ∀ r, kernel (statPath mount) = .ok r → r.Fits →
      statMountOverflows kernel.statvfs mount = false

theorem sizesInBytes_iff (w : Nat) (kernel : Kernel) (files : Files) :
    SizesInBytes w kernel files ↔ ∀ table, mountTable files = .ok table → ∀ mount ∈ table,
      ∀ r, kernel (statPath mount) = .ok r → r.Fits → r.UnitsAgree := by
  constructor
  · intro h table htable mount hmount r hr hfits
    obtain ⟨f, hf⟩ := exists_statMount (w := w) hr
    have hall : mounts w kernel.statvfs files =
        .ok (table.filterMap fun mount => (statMount w kernel.statvfs mount).toOption) := by
      rw [mounts, htable]
      rfl
    obtain ⟨table', htable', hmem⟩ := mounts_eq_ok hall
    rw [htable] at htable'
    cases htable'
    have hsizes := h.mounts _ hall f ((hmem f).mpr ⟨mount, hmount, hf⟩) r
      (by rw [statMount_mountedOn hf, ← statPath_eq]; exact hr) hfits
    exact (statMount_sizes_iff hr hfits hf).mp
      ⟨h.noOverflow table htable mount hmount r hr hfits, hsizes⟩
  · intro h
    -- a filesystem comes from an entry of the table, and its target says which reading it is of
    have hsizes : ∀ table, mountTable files = .ok table → ∀ mount ∈ table,
        ∀ f : Filesystem w, statMount w kernel.statvfs mount = .ok f →
        ∀ r, kernel (targetPath f.fsMountedOn) = .ok r → r.Fits → r.Sizes f := by
      intro table htable mount hmount f hf r hr hfits
      rw [statMount_mountedOn hf, ← statPath_eq] at hr
      exact ((statMount_sizes_iff hr hfits hf).mpr (h table htable mount hmount r hr hfits)).2
    constructor
    · intro fs hfs f hf
      obtain ⟨table, htable, hmem⟩ := mounts_eq_ok hfs
      obtain ⟨mount, hmount, hstat⟩ := (hmem f).mp hf
      exact hsizes table htable mount hmount f hstat
    · intro path f hf
      obtain ⟨table, htable, mount, hmount, hstat⟩ := mountAt_eq_ok hf
      exact hsizes table htable mount hmount f hstat
    · intro table htable mount hmount r hr hfits
      obtain ⟨f, hf⟩ := exists_statMount (w := 64) hr
      exact ((statMount_sizes_iff hr hfits hf).mpr (h table htable mount hmount r hr hfits)).1

/-- Ten blocks of 512 bytes, on a filesystem that likes to transfer 4096 at a time. -/
theorem sizesInBytes_small_fragments :
    ¬ ∀ (w : Nat) (kernel : Kernel) (files : Files), SizesInBytes w kernel files := by
  intro h
  let kernel : Kernel := fun _ => .ok ⟨tenBlocks, 512⟩
  let files : Files := fun _ => .ok "/dev/a / ext4 rw\n".toList
  have hmounts : mounts 64 kernel.statvfs files = .ok [⟨3, 4, 1, .b 24576, .b 20480, .b 40960,
      255, "ext4".toList, "/dev/a".toList, ['/']⟩] := by decide
  have hsizes := (h 64 kernel files).mounts _ hmounts _ List.mem_cons_self _ rfl
    (by constructor <;> decide)
  have htotal := hsizes.total
  revert htotal
  decide

end Systemstat.Linux
