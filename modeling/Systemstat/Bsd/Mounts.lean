import Systemstat.Bsd.Statfs
import Systemstat.Collections.Covering
import Systemstat.Linux.MountAt
import Mathlib.Data.List.Find

/-! # Mounts on the BSDs and macOS

`getmntinfo` lists the mounts in the order they were made. FreeBSD and OpenBSD have a
`mount_at` of their own, which asks the kernel for the filesystem at a path; macOS has the
default, which searches the list. The first finds what is on top, the second what was
mounted first.
-/

namespace Systemstat.MacOs

open Text

/-- `struct statfs`; no count is signed, and the names have a length that is not told. -/
structure Statfs where
  fFiles : BitVec 64
  fFfree : BitVec 64
  fBfree : BitVec 64
  fBsize : BitVec 32
  fBavail : BitVec 64
  fBlocks : BitVec 64
  fFstypename : Bytes
  fMntfromname : Bytes
  fMntonname : Bytes

def Statfs.words (w : Nat) (x : Statfs) : Bsd.StatfsWords w where
  files := x.fFiles.setWidth w
  ffree := x.fFfree.setWidth w
  bfree := x.fBfree
  bavail := x.fBavail
  blocks := x.fBlocks
  bsize := x.fBsize.setWidth 64
  nameMax := 256
  fstypename := x.fFstypename
  mntfromname := x.fMntfromname
  mntonname := x.fMntonname

def statfsToFs (w : Nat) (x : Statfs) : Filesystem w := (x.words w).toFs

end Systemstat.MacOs

namespace Systemstat.Bsd

open Nom Text Covering Platform

variable {σ : Type} {w : Nat}

/-- `getmntinfo` fails with a list of no mounts. -/
def mounts (statfsToFs : σ → Filesystem w) (getmntinfo : List σ) :
    IoResult (List (Filesystem w)) :=
  if getmntinfo.length < 1 then .error (.other "getmntinfo() failed")
  else .ok (getmntinfo.map statfsToFs)

/-- `io::Error`, and that of a path which is no C string. -/
inductive PathError
  | invalidInput (message : String)
  | io (e : IoError)
  deriving DecidableEq, Repr

def cStringNew (bytes : Bytes) : Except PathError Bytes :=
  if 0 ∈ bytes then .error (.invalidInput "data provided contains a nul byte") else .ok bytes

def mountAt (statfsToFs : σ → Filesystem w) (statfs : Bytes → Option σ) (path : Bytes) :
    Except PathError (Filesystem w) := do
  let path ← cStringNew path
  match statfs path with
  | none => .error (.io (.other "statfs() failed"))
  | some sfs => .ok (statfsToFs sfs)

end Systemstat.Bsd

namespace Systemstat.FreeBsd

open Text

def mounts (w : Nat) : List Statfs → IoResult (List (Filesystem w)) :=
  Bsd.mounts (statfsToFs w)

def mountAt (w : Nat) :
    (Bytes → Option Statfs) → Bytes → Except Bsd.PathError (Filesystem w) :=
  Bsd.mountAt (statfsToFs w)

end Systemstat.FreeBsd

namespace Systemstat.OpenBsd

open Text

def mounts (w : Nat) : List Statfs → IoResult (List (Filesystem w)) :=
  Bsd.mounts (statfsToFs w)

def mountAt (w : Nat) :
    (Bytes → Option Statfs) → Bytes → Except Bsd.PathError (Filesystem w) :=
  Bsd.mountAt (statfsToFs w)

end Systemstat.OpenBsd

namespace Systemstat.MacOs

open Text

def mounts (w : Nat) : List Statfs → IoResult (List (Filesystem w)) :=
  Bsd.mounts (statfsToFs w)

/-- There is no override here. -/
def mountAt (w : Nat) (getmntinfo : List Statfs) (path : Bytes) : IoResult (Filesystem w) :=
  Platform.mountAt (mounts w getmntinfo) path

end Systemstat.MacOs

/-! ## The kernel's table -/

namespace Systemstat.Bsd

open Nom Text Covering Platform

variable {σ : Type} {w : Nat} {words : σ → StatfsWords w}

def place (words : σ → StatfsWords w) (m : σ) : List Component :=
  components (cString (words m).mntonname)

/-- The mounts in the order they were made. No two are published alike, and their names
are text. A path leads to a place, links and `..` followed; the name of a mount that is on
top leads to its own. -/
structure MountTable (words : σ → StatfsWords w) where
  table : List σ
  mounted : table ≠ []
  distinct : (table.map fun m => (words m).toFs).Nodup
  text : ∀ m ∈ table, ∃ name : Str, cString (words m).mntonname = utf8 name
  resolve : Bytes → Option (List Component)
  own : ∀ m ∈ table, onTop (place words) table (place words m) = some m →
    resolve (cString (words m).mntonname) = some (place words m)

namespace MountTable

/-- The call answers for what is on top at the place that the path leads to. -/
def statfs (k : MountTable words) (path : Bytes) : Option σ :=
  (k.resolve path).bind (onTop (place words) k.table)

variable {k : MountTable words} {before after : List σ} {m : σ} {path : Bytes}

theorem fsMountedOn (hm : m ∈ k.table) :
    utf8 (words m).toFs.fsMountedOn = cString (words m).mntonname := by
  obtain ⟨name, hname⟩ := k.text m hm
  show utf8 (toStringLossy (cString (words m).mntonname)) = _
  rw [hname, toStringLossy_utf8]

theorem mem_of_split (hsplit : k.table = before ++ m :: after) : m ∈ k.table := by
  rw [hsplit]
  simp

theorem nodup (k : MountTable words) : k.table.Nodup := .of_map _ k.distinct

theorem eq_of_toFs_eq {m' : σ} (hm : m ∈ k.table) (hm' : m' ∈ k.table)
    (h : (words m').toFs = (words m).toFs) : m' = m :=
  List.inj_on_of_nodup_map k.distinct hm' hm h

/-! ## What a call gives -/

/-- The records of the list that a call can give at all, and what it gives for their own
names. `Hidden` says of a mount, from those before and those after it, that it is not
found. -/
structure Reaches {ε : Type} (k : MountTable words)
    (mountAt : Bytes → Except ε (Filesystem w)) (Hidden : List σ → σ → List σ → Prop) :
    Prop where
  listed : ∀ path f, mountAt path = .ok f → ∃ m ∈ k.table, f = (words m).toFs
  reached : ∀ before m after, k.table = before ++ m :: after →
    ((∃ path, mountAt path = .ok (words m).toFs) ↔ ¬ Hidden before m after)
  own : ∀ before m after, k.table = before ++ m :: after → ¬ Hidden before m after →
    mountAt (utf8 (words m).toFs.fsMountedOn) = .ok (words m).toFs

def CoveredLater (words : σ → StatfsWords w) (_ : List σ) (m : σ) (after : List σ) : Prop :=
  ∃ m' ∈ after, place words m' <+: place words m

def MountedEarlier (words : σ → StatfsWords w) (before : List σ) (m : σ) (_ : List σ) : Prop :=
  ∃ m' ∈ before, place words m' = place words m

/-! ## The override -/

theorem nul_notMem_cString (bytes : Bytes) : 0 ∉ cString bytes := by
  intro h
  have hne := List.mem_takeWhile_imp h
  simp at hne

theorem mountAt_eq_ok_iff {statfsToFs : σ → Filesystem w} {statfs : Bytes → Option σ}
    {f : Filesystem w} : mountAt statfsToFs statfs path = .ok f ↔
      0 ∉ path ∧ ∃ sfs, statfs path = some sfs ∧ statfsToFs sfs = f := by
  unfold mountAt cStringNew
  by_cases hnul : 0 ∈ path
  · simp [hnul, bind, Except.bind]
  · cases hcall : statfs path <;> simp [hnul, hcall, bind, Except.bind]

theorem mountAt_own (hm : m ∈ k.table)
    (hown : onTop (place words) k.table (place words m) = some m) :
    mountAt (fun fs => (words fs).toFs) k.statfs (utf8 (words m).toFs.fsMountedOn) =
      .ok (words m).toFs := by
  rw [fsMountedOn hm, mountAt_eq_ok_iff]
  refine ⟨nul_notMem_cString _, m, ?_, rfl⟩
  rw [statfs, k.own m hm hown, Option.bind_some, hown]

/-- What is found anywhere is on top where it stands. -/
theorem onTop_of_mountAt (hm : m ∈ k.table)
    (h : mountAt (fun fs => (words fs).toFs) k.statfs path = .ok (words m).toFs) :
    onTop (place words) k.table (place words m) = some m := by
  obtain ⟨_, sfs, hsfs, hrecord⟩ := mountAt_eq_ok_iff.mp h
  obtain ⟨q, _, htop⟩ := Option.bind_eq_some_iff.mp hsfs
  rw [eq_of_toFs_eq hm (onTop_mem htop) hrecord] at htop
  exact onTop_own htop

theorem mountAt_reaches (k : MountTable words) :
    k.Reaches (mountAt (fun fs => (words fs).toFs) k.statfs) (CoveredLater words) where
  listed path f h := by
    obtain ⟨_, sfs, hsfs, rfl⟩ := mountAt_eq_ok_iff.mp h
    obtain ⟨q, _, htop⟩ := Option.bind_eq_some_iff.mp hsfs
    exact ⟨sfs, onTop_mem htop, rfl⟩
  reached before m after hsplit := by
    have hm := mem_of_split hsplit
    have htop : onTop (place words) k.table (place words m) = some m ↔
        ∀ m' ∈ after, ¬ place words m' <+: place words m := onTop_own_iff k.nodup hsplit
    constructor
    · intro ⟨path, hpath⟩ ⟨m', hm', hcover⟩
      exact htop.mp (onTop_of_mountAt hm hpath) m' hm' hcover
    · intro hhidden
      exact ⟨_, mountAt_own hm (htop.mpr fun m' hm' hcover => hhidden ⟨m', hm', hcover⟩)⟩
  own before m after hsplit hhidden := by
    refine mountAt_own (mem_of_split hsplit) ((onTop_own_iff k.nodup hsplit).mpr ?_)
    exact fun m' hm' hcover => hhidden ⟨m', hm', hcover⟩

/-! ## The default -/

theorem mounts_eq (k : MountTable words) : mounts (fun fs => (words fs).toFs) k.table =
    .ok (k.table.map fun fs => (words fs).toFs) := by
  have hlength := List.length_pos_iff.mpr k.mounted
  rw [mounts, if_neg (by omega)]

/-- The search is for a place, and it takes the first mount there. -/
theorem default_eq_ok_iff {f : Filesystem w} :
    Platform.mountAt (mounts (fun fs => (words fs).toFs) k.table) path = .ok f ↔
      ∃ m, atBottom (place words) k.table (components path) = some m ∧ (words m).toFs = f := by
  have hsearch : k.table.find? ((fun mount => samePath (utf8 mount.fsMountedOn) path) ∘
      fun fs => (words fs).toFs) = atBottom (place words) k.table (components path) := by
    refine List.find?_congr fun m hm => ?_
    show samePath (utf8 (words m).toFs.fsMountedOn) path = _
    rw [fsMountedOn hm, Bool.eq_iff_iff, decide_eq_true_iff]
    exact beq_iff_eq
  rw [mounts_eq, Platform.mountAt]
  show okOrElse _ ((k.table.map _).find? _) = _ ↔ _
  rw [List.find?_map, hsearch]
  cases atBottom (place words) k.table (components path) <;> simp [okOrElse]

theorem default_of_split (hsplit : k.table = before ++ m :: after) :
    Platform.mountAt (mounts (fun fs => (words fs).toFs) k.table) path = .ok (words m).toFs ↔
      place words m = components path ∧ ∀ m' ∈ before, place words m' ≠ components path := by
  rw [default_eq_ok_iff, ← atBottom_eq_some_iff k.nodup hsplit]
  constructor
  · intro ⟨m', hm', hrecord⟩
    rwa [← eq_of_toFs_eq (mem_of_split hsplit) (List.mem_of_find?_eq_some hm') hrecord]
  · exact fun hm => ⟨m, hm, rfl⟩

theorem default_reaches (k : MountTable words) :
    k.Reaches (Platform.mountAt (mounts (fun fs => (words fs).toFs) k.table))
      (MountedEarlier words) where
  listed path f h := by
    obtain ⟨m, hm, rfl⟩ := default_eq_ok_iff.mp h
    exact ⟨m, List.mem_of_find?_eq_some hm, rfl⟩
  reached before m after hsplit := by
    constructor
    · intro ⟨path, hpath⟩ ⟨m', hm', hsame⟩
      obtain ⟨hplace, hbefore⟩ := (default_of_split hsplit).mp hpath
      exact hbefore m' hm' (hsame.trans hplace)
    · intro hhidden
      refine ⟨cString (words m).mntonname, (default_of_split hsplit).mpr ⟨rfl, ?_⟩⟩
      exact fun m' hm' hsame => hhidden ⟨m', hm', hsame⟩
  own before m after hsplit hhidden := by
    rw [fsMountedOn (mem_of_split hsplit)]
    refine (default_of_split hsplit).mpr ⟨rfl, ?_⟩
    exact fun m' hm' hsame => hhidden ⟨m', hm', hsame⟩

/-! ## Both -/

/-- A call gives back every record of the list for its own name. -/
def GivesAll {ε : Type} (k : MountTable words) (mountAt : Bytes → Except ε (Filesystem w)) :
    Prop :=
  ∀ m ∈ k.table, mountAt (utf8 (words m).toFs.fsMountedOn) = .ok (words m).toFs

theorem Reaches.givesAll_iff {ε : Type} {mountAt : Bytes → Except ε (Filesystem w)}
    {Hidden : List σ → σ → List σ → Prop} (h : k.Reaches mountAt Hidden) :
    k.GivesAll mountAt ↔
      ∀ before m after, k.table = before ++ m :: after → ¬ Hidden before m after := by
  constructor
  · intro hall before m after hsplit
    exact (h.reached before m after hsplit).mp ⟨_, hall m (mem_of_split hsplit)⟩
  · intro hhidden m hm
    obtain ⟨before, after, hsplit⟩ := List.append_of_mem hm
    exact h.own before m after hsplit (hhidden before m after hsplit)

theorem givesAll_mountAt_iff (k : MountTable words) :
    k.GivesAll (mountAt (fun fs => (words fs).toFs) k.statfs) ↔
      Uncovered (place words) k.table := by
  rw [k.mountAt_reaches.givesAll_iff, uncovered_iff]
  simp only [CoveredLater, not_exists, not_and]

/-- What nothing is mounted over is not mounted at a place of another. -/
theorem givesAll_default (h : Uncovered (place words) k.table) :
    k.GivesAll (Platform.mountAt (mounts (fun fs => (words fs).toFs) k.table)) := by
  rw [k.default_reaches.givesAll_iff]
  intro before m after hsplit ⟨m', hm', hsame⟩
  obtain ⟨before', between, rfl⟩ := List.append_of_mem hm'
  have hcover := uncovered_iff.mp h before' m' (between ++ m :: after)
    (by rw [hsplit, List.append_assoc, List.cons_append]) m (by simp)
  exact hcover (hsame ▸ List.prefix_refl _)

end MountTable

structure MountsByName (k : MountTable words) (mounts : IoResult (List (Filesystem w)))
    (mountAt : Bytes → Except PathError (Filesystem w)) : Prop where
  override : k.Reaches mountAt (MountTable.CoveredLater words)
  default : k.Reaches (Platform.mountAt mounts) (MountTable.MountedEarlier words)
  agree : k.GivesAll mountAt ∧ k.GivesAll (Platform.mountAt mounts) ↔
    Uncovered (place words) k.table

theorem mountsByName (k : MountTable words) :
    MountsByName k (mounts (fun fs => (words fs).toFs) k.table)
      (mountAt (fun fs => (words fs).toFs) k.statfs) where
  override := k.mountAt_reaches
  default := k.default_reaches
  agree := by
    rw [k.givesAll_mountAt_iff]
    exact ⟨And.left, fun h => ⟨h, MountTable.givesAll_default h⟩⟩

/-- The overrides of FreeBSD and OpenBSD find a mount unless a later one is over it, the
default unless an earlier one is at the same place. Both find every mount exactly when
none is over another. -/
theorem mountAt_finds (w : Nat) :
    (∀ k : MountTable (FreeBsd.Statfs.words w),
      MountsByName k (FreeBsd.mounts w k.table) (FreeBsd.mountAt w k.statfs)) ∧
    (∀ k : MountTable (OpenBsd.Statfs.words w),
      MountsByName k (OpenBsd.mounts w k.table) (OpenBsd.mountAt w k.statfs)) ∧
    ∀ k : MountTable (MacOs.Statfs.words w),
      k.Reaches (MacOs.mountAt w k.table) (MountTable.MountedEarlier (MacOs.Statfs.words w)) :=
  ⟨fun k => mountsByName k, fun k => mountsByName k, fun k => k.default_reaches⟩

/-- A table with a filesystem over another; every path is its own place. -/
def stackedTable : MountTable (FreeBsd.Statfs.words 64) where
  table := [⟨0, 0, 0, 512, 0, 9, 255, utf8 "ufs".toList, utf8 "ada0".toList, utf8 "/mnt".toList⟩,
    ⟨0, 0, 0, 512, 0, 8, 255, utf8 "zfs".toList, utf8 "tank".toList, utf8 "/mnt".toList⟩]
  mounted := List.cons_ne_nil _ _
  distinct := by decide
  text m hm := by
    rcases List.mem_pair.mp hm with rfl | rfl <;> exact ⟨"/mnt".toList, by decide⟩
  resolve path := some (components path)
  own _ _ _ := rfl

theorem mountAt_finds_stacked :
    MountsByName stackedTable (FreeBsd.mounts 64 stackedTable.table)
      (FreeBsd.mountAt 64 stackedTable.statfs) ∧
    (FreeBsd.mountAt 64 stackedTable.statfs (utf8 "/mnt".toList)).map Filesystem.total =
      .ok (.b 4096) ∧
    (Platform.mountAt (FreeBsd.mounts 64 stackedTable.table)
      (utf8 "/mnt".toList)).map Filesystem.total = .ok (.b 4608) :=
  ⟨(mountAt_finds 64).1 stackedTable, by decide, by decide⟩

end Systemstat.Bsd
