import Systemstat.Arith.Words
import Systemstat.Data
import Systemstat.Text.Lossy

/-! # Filesystems on the BSDs

`statfs_to_fs` of FreeBSD and of OpenBSD. The counts of free blocks and inodes go
below zero where the reserve is in use, and are cast to unsigned words before they
are multiplied by the block size and published.
-/

namespace Systemstat.Bsd

open Nom Text

/-! ## The readings -/

/-- What `statfs_to_fs` has before it multiplies: every number in the type it is cast to. -/
structure StatfsWords (w : Nat) where
  files : BitVec w
  ffree : BitVec w
  bfree : BitVec 64
  bavail : BitVec 64
  blocks : BitVec 64
  bsize : BitVec 64
  nameMax : BitVec w
  fstypename : Bytes
  mntfromname : Bytes
  mntonname : Bytes

namespace StatfsWords

variable {w : Nat}

def toFs (fs : StatfsWords w) : Filesystem w where
  files := saturatingSub fs.files fs.ffree
  filesTotal := fs.files
  filesAvail := fs.ffree
  free := .b (fs.bfree * fs.bsize)
  avail := .b (fs.bavail * fs.bsize)
  total := .b (fs.blocks * fs.bsize)
  nameMax := fs.nameMax
  fsType := toStringLossy (cString fs.fstypename)
  fsMountedFrom := toStringLossy (cString fs.mntfromname)
  fsMountedOn := toStringLossy (cString fs.mntonname)

def overflows (fs : StatfsWords w) : Bool :=
  fs.bfree.umulOverflow fs.bsize || fs.bavail.umulOverflow fs.bsize ||
    fs.blocks.umulOverflow fs.bsize

end StatfsWords

structure Figures where
  files : Nat
  ffree : Int
  bfree : Nat
  bavail : Int
  blocks : Nat
  bsize : Nat

end Systemstat.Bsd

namespace Systemstat.FreeBsd

open Text

/-- `struct statfs`; `f_bavail` and `f_ffree` are signed. -/
structure Statfs where
  fFiles : BitVec 64
  fFfree : BitVec 64
  fBfree : BitVec 64
  fBsize : BitVec 64
  fBavail : BitVec 64
  fBlocks : BitVec 64
  fNamemax : BitVec 32
  fFstypename : Bytes
  fMntfromname : Bytes
  fMntonname : Bytes

namespace Statfs

def words (w : Nat) (fs : Statfs) : Bsd.StatfsWords w where
  files := fs.fFiles.setWidth w
  ffree := fs.fFfree.signExtend w
  bfree := fs.fBfree
  bavail := fs.fBavail
  blocks := fs.fBlocks
  bsize := fs.fBsize
  nameMax := fs.fNamemax.setWidth w
  fstypename := fs.fFstypename
  mntfromname := fs.fMntfromname
  mntonname := fs.fMntonname

def figures (fs : Statfs) : Bsd.Figures where
  files := fs.fFiles.toNat
  ffree := fs.fFfree.toInt
  bfree := fs.fBfree.toNat
  bavail := fs.fBavail.toInt
  blocks := fs.fBlocks.toNat
  bsize := fs.fBsize.toNat

end Statfs

def statfsToFs (w : Nat) (fs : Statfs) : Filesystem w := (fs.words w).toFs

end Systemstat.FreeBsd

namespace Systemstat.OpenBsd

open Text

/-- `struct statfs`; `f_bavail` is signed, and the block size has 32 bits. -/
structure Statfs where
  fFiles : BitVec 64
  fFfree : BitVec 64
  fBfree : BitVec 64
  fBsize : BitVec 32
  fBavail : BitVec 64
  fBlocks : BitVec 64
  fNamemax : BitVec 32
  fFstypename : Bytes
  fMntfromname : Bytes
  fMntonname : Bytes

namespace Statfs

def words (w : Nat) (fs : Statfs) : Bsd.StatfsWords w where
  files := fs.fFiles.setWidth w
  ffree := fs.fFfree.setWidth w
  bfree := fs.fBfree
  bavail := fs.fBavail
  blocks := fs.fBlocks
  bsize := fs.fBsize.setWidth 64
  nameMax := fs.fNamemax.setWidth w
  fstypename := fs.fFstypename
  mntfromname := fs.fMntfromname
  mntonname := fs.fMntonname

def figures (fs : Statfs) : Bsd.Figures where
  files := fs.fFiles.toNat
  ffree := fs.fFfree.toNat
  bfree := fs.fBfree.toNat
  bavail := fs.fBavail.toInt
  blocks := fs.fBlocks.toNat
  bsize := fs.fBsize.toNat

end Statfs

def statfsToFs (w : Nat) (fs : Statfs) : Filesystem w := (fs.words w).toFs

end Systemstat.OpenBsd

namespace Systemstat.Bsd

open Arith

variable {w : Nat}

/-! ## From integers to words -/

structure StatfsWords.StandFor (words : StatfsWords w) (f : Figures) : Prop where
  files : (words.files.toNat : Int) = f.files % 2 ^ w
  ffree : (words.ffree.toNat : Int) = f.ffree % 2 ^ w
  bfree : words.bfree.toNat = f.bfree
  bavail : (words.bavail.toNat : Int) = if 0 ≤ f.bavail then f.bavail else f.bavail + 2 ^ 64
  blocks : words.blocks.toNat = f.blocks
  bsize : words.bsize.toNat = f.bsize

theorem freeBsd_standFor (fs : FreeBsd.Statfs) : (fs.words w).StandFor fs.figures where
  files := toNat_setWidth_cast fs.fFiles w
  ffree := toNat_signExtend_cast fs.fFfree w
  bfree := rfl
  bavail := toNat_cast_of_toInt fs.fBavail
  blocks := rfl
  bsize := rfl

theorem openBsd_standFor (fs : OpenBsd.Statfs) : (fs.words w).StandFor fs.figures where
  files := toNat_setWidth_cast fs.fFiles w
  ffree := toNat_setWidth_cast fs.fFfree w
  bfree := rfl
  bavail := toNat_cast_of_toInt fs.fBavail
  blocks := rfl
  bsize := by
    have hlt := fs.fBsize.isLt
    show (fs.fBsize.setWidth 64).toNat = fs.fBsize.toNat
    rw [BitVec.toNat_setWidth, Nat.mod_eq_of_lt (by omega)]

/-! ## The order of the published figures -/

structure InOrder (fs : Filesystem w) : Prop where
  avail_le_free : fs.avail.bytes ≤ fs.free.bytes
  free_le_total : fs.free.bytes ≤ fs.total.bytes
  filesAvail_le : fs.filesAvail ≤ fs.filesTotal

/-- What a filesystem says: the counts are in order as integers, and its size in bytes
has 64 bits. -/
structure Figures.Consistent (f : Figures) : Prop where
  bavail_le : f.bavail ≤ f.bfree
  bfree_le : f.bfree ≤ f.blocks
  ffree_le : f.ffree ≤ f.files
  fits : f.blocks * f.bsize < 2 ^ 64

/-- The available blocks, as an unsigned word, are no more than the free ones. -/
def Figures.BlocksKept (f : Figures) : Prop :=
  0 ≤ f.bavail ∨ f.bsize = 0 ∨ 2 ^ 64 ≤ f.bfree - f.bavail

/-- A `usize` of 64 bits loses the sign and nothing else; taken apart at the width of a
narrower one, the free and the used inodes carry nothing into the upper part. -/
def Figures.InodesKept (w : Nat) (f : Figures) : Prop :=
  (64 ≤ w → 0 ≤ f.ffree ∨ 2 ^ w ≤ f.files - f.ffree) ∧
    (w < 64 → f.files / 2 ^ w = f.ffree / 2 ^ w + (f.files - f.ffree) / 2 ^ w)

theorem inodes_iff {words : StatfsWords w} {f : Figures} (h : words.StandFor f)
    (hc : f.Consistent) (hfiles : f.files < 2 ^ 64) (hffree : -2 ^ 63 ≤ f.ffree) :
    words.ffree ≤ words.files ↔ f.InodesKept w := by
  have hle := hc.ffree_le
  have hpos : (0 : Int) < 2 ^ w := Int.pow_pos (by omega)
  rw [BitVec.le_def, ← Int.ofNat_le, h.files, h.ffree, Figures.InodesKept]
  by_cases hw : 64 ≤ w
  · have hpow : (2 : Int) ^ 64 ≤ 2 ^ w := pow_le_pow_right₀ (by omega) hw
    rw [emod_le_emod_iff_of_fits (by omega) hle (by omega) (by omega)]
    constructor
    · intro hkept
      exact ⟨fun _ => hkept, fun hlt => absurd hw (by omega)⟩
    · intro hkept
      exact hkept.1 hw
  · rw [emod_le_emod_iff hpos]
    constructor
    · intro hkept
      exact ⟨fun hge => absurd hge hw, fun _ => hkept⟩
    · intro hkept
      exact hkept.2 (by omega)

/-- Once the size fits, everything turns on the product with the available blocks. -/
theorem blocks_iff {words : StatfsWords w} {f : Figures} (h : words.StandFor f)
    (hc : f.Consistent) :
    (words.overflows = false ∧ words.toFs.avail.bytes ≤ words.toFs.free.bytes ∧
      words.toFs.free.bytes ≤ words.toFs.total.bytes) ↔
    words.bavail.toNat * f.bsize ≤ f.bfree * f.bsize := by
  have hfree : f.bfree * f.bsize ≤ f.blocks * f.bsize := Nat.mul_le_mul_right _ hc.bfree_le
  have hfits := hc.fits
  have hover : words.overflows = false ↔ words.bavail.toNat * f.bsize < 2 ^ 64 := by
    simp only [StatfsWords.overflows, Bool.or_eq_false_iff, umulOverflow_eq_false_iff, h.bfree,
      h.bsize, h.blocks]
    omega
  have hproduct : ∀ x : BitVec 64, x.toNat * f.bsize < 2 ^ 64 →
      (x * words.bsize).toNat = x.toNat * f.bsize := by
    intro x hx
    rw [← h.bsize] at hx ⊢
    exact toNat_mul_of_lt hx
  have hfree' := hproduct words.bfree (by rw [h.bfree]; omega)
  have htotal' := hproduct words.blocks (by rw [h.blocks]; omega)
  rw [h.bfree] at hfree'
  rw [h.blocks] at htotal'
  show (words.overflows = false ∧ words.bavail * words.bsize ≤ words.bfree * words.bsize ∧
    words.bfree * words.bsize ≤ words.blocks * words.bsize) ↔ _
  rw [hover, BitVec.le_def, BitVec.le_def, hfree', htotal']
  constructor
  · intro hkept
    rw [hproduct words.bavail hkept.1] at hkept
    exact hkept.2.1
  · intro hle
    rw [hproduct words.bavail (by omega)]
    exact ⟨by omega, hle, hfree⟩

theorem blocksKept_iff {words : StatfsWords w} {f : Figures} (h : words.StandFor f)
    (hc : f.Consistent) :
    words.bavail.toNat * f.bsize ≤ f.bfree * f.bsize ↔ f.BlocksKept := by
  have hword := h.bavail
  have hle := hc.bavail_le
  unfold Figures.BlocksKept
  rcases Nat.eq_zero_or_pos f.bsize with hzero | hpos
  · rw [hzero]
    exact iff_of_true (by omega) (.inr (.inl rfl))
  · rw [Nat.mul_le_mul_right_iff hpos]
    by_cases hneg : 0 ≤ f.bavail
    · rw [if_pos hneg] at hword
      exact iff_of_true (by omega) (.inl hneg)
    · rw [if_neg hneg] at hword
      omega

theorem inOrder_iff {words : StatfsWords w} {f : Figures} (h : words.StandFor f)
    (hc : f.Consistent) (hfiles : f.files < 2 ^ 64) (hffree : -2 ^ 63 ≤ f.ffree) :
    (words.overflows = false ∧ InOrder words.toFs) ↔ (f.BlocksKept ∧ f.InodesKept w) := by
  rw [← blocksKept_iff h hc, ← blocks_iff h hc, ← inodes_iff h hc hfiles hffree]
  constructor
  · intro ho
    exact ⟨⟨ho.1, ho.2.avail_le_free, ho.2.free_le_total⟩, ho.2.filesAvail_le⟩
  · intro ho
    exact ⟨ho.1.1, ho.1.2.1, ho.1.2.2, ho.2⟩

/-- On both systems the order of the counts survives the casts exactly when the counts
that may be negative are not, or are cast to something harmless. -/
theorem statfsToFs_inOrder_iff (w : Nat) :
    (∀ fs : FreeBsd.Statfs, fs.figures.Consistent →
      (((fs.words w).overflows = false ∧ InOrder (FreeBsd.statfsToFs w fs)) ↔
        (fs.figures.BlocksKept ∧ fs.figures.InodesKept w))) ∧
    ∀ fs : OpenBsd.Statfs, fs.figures.Consistent →
      (((fs.words w).overflows = false ∧ InOrder (OpenBsd.statfsToFs w fs)) ↔
        (fs.figures.BlocksKept ∧ fs.figures.InodesKept w)) := by
  constructor
  · intro fs hc
    exact inOrder_iff (freeBsd_standFor fs) hc fs.fFiles.isLt (BitVec.le_toInt fs.fFfree)
  · intro fs hc
    have hffree : -2 ^ 63 ≤ fs.figures.ffree := by
      show -2 ^ 63 ≤ (fs.fFfree.toNat : Int)
      omega
    exact inOrder_iff (openBsd_standFor fs) hc fs.fFiles.isLt hffree

/-- A disk of a hundred blocks, eight of them a reserve. -/
def freeBsdReserved (bfree bavail : BitVec 64) : FreeBsd.Statfs :=
  ⟨50, 20, bfree, 4096, bavail, 100, 255, [], [], []⟩

def openBsdReserved (bfree bavail : BitVec 64) : OpenBsd.Statfs :=
  ⟨50, 20, bfree, 4096, bavail, 100, 255, [], [], []⟩

theorem statfsToFs_inOrder_iff_half :
    ((((freeBsdReserved 50 42).words 64).overflows = false ∧
        InOrder (FreeBsd.statfsToFs 64 (freeBsdReserved 50 42))) ↔
      ((freeBsdReserved 50 42).figures.BlocksKept ∧
        (freeBsdReserved 50 42).figures.InodesKept 64)) ∧
    ((((openBsdReserved 50 42).words 64).overflows = false ∧
        InOrder (OpenBsd.statfsToFs 64 (openBsdReserved 50 42))) ↔
      ((openBsdReserved 50 42).figures.BlocksKept ∧
        (openBsdReserved 50 42).figures.InodesKept 64)) :=
  ⟨(statfsToFs_inOrder_iff 64).1 _ (by constructor <;> decide),
    (statfsToFs_inOrder_iff 64).2 _ (by constructor <;> decide)⟩

theorem statfsToFs_negative_avail : ¬ ∀ (w : Nat) (fs : FreeBsd.Statfs),
    fs.figures.Consistent →
    (fs.words w).overflows = false ∧ InOrder (FreeBsd.statfsToFs w fs) := by
  intro h
  have hright := (h 64 (freeBsdReserved 4 (-4)) (by constructor <;> decide)).1
  revert hright
  decide

end Systemstat.Bsd
