import Systemstat.Linux.MountAt

/-! # Mounts over mounts

A target may occur in the table several times, in the order the filesystems were
mounted there. `statvfs` answers for the last of them, and `mount_at` takes the
names of the first, so the record it returns describes one filesystem exactly when
the two have the same names.
-/

namespace Systemstat.Linux

open Nom Text

/-- An entry of the table with the figures of its filesystem. -/
structure Mounted where
  data : ProcMountsData
  figures : Statvfs

variable {w : Nat} {statvfs : StatvfsCall}

/-- What is visible at a path: the filesystem that was mounted there last. -/
def visible (ms : List Mounted) (path : Bytes) : Option Mounted :=
  ms.reverse.find? fun m => samePath (utf8 m.data.target) path

def mountedAt (ms : List Mounted) (path : Bytes) : List Mounted :=
  ms.filter fun m => samePath (utf8 m.data.target) path

/-- The call on a target answers for the filesystem that was mounted there last. -/
def AnswersForLast (statvfs : StatvfsCall) (ms : List Mounted) : Prop :=
  ∀ m ∈ ms, ∀ last, visible ms (utf8 m.data.target) = some last →
    statvfs (statPath m.data) = .ok last.figures

/-- The names and the figures of the record are those of one mount. -/
structure Describes (f : Filesystem w) (m : Mounted) : Prop where
  fsType : f.fsType = m.data.fstype
  mountedFrom : f.fsMountedFrom = m.data.source
  figures : ∃ mount, statMount w (fun _ => .ok m.figures) mount = .ok f

/-! ## The two entries -/

theorem samePath_congr {a b : Bytes} (h : samePath a b = true) (c : Bytes) :
    samePath c a = samePath c b := by
  rw [Bool.eq_iff_iff]
  exact ⟨fun ha => samePath_trans ha h, fun hb => samePath_trans hb (samePath_symm h)⟩

theorem visible_congr {a b : Bytes} (h : samePath a b = true) (ms : List Mounted) :
    visible ms a = visible ms b := by
  simp only [visible, samePath_congr h]

theorem findMount_eq_head? (ms : List Mounted) (path : Bytes) :
    findMount (ms.map Mounted.data) path = (mountedAt ms path).head?.map Mounted.data := by
  rw [findMount, List.find?_map, mountedAt, List.head?_filter]
  rfl

/-- Where something is visible, the table has a first entry too. -/
theorem exists_first {ms : List Mounted} {path : Bytes} {last : Mounted}
    (h : visible ms path = some last) : ∃ first, (mountedAt ms path).head? = some first := by
  have hsame := List.find?_some h
  have hmem : last ∈ mountedAt ms path :=
    List.mem_filter.mpr ⟨List.mem_reverse.mp (List.mem_of_find?_eq_some h), hsame⟩
  cases hms : mountedAt ms path with
  | nil =>
      rw [hms] at hmem
      cases hmem
  | cons first rest => exact ⟨first, rfl⟩

theorem mem_of_first {ms : List Mounted} {path : Bytes} {first : Mounted}
    (h : (mountedAt ms path).head? = some first) :
    first ∈ ms ∧ samePath (utf8 first.data.target) path = true :=
  List.mem_filter.mp (List.mem_of_head? h)

/-- The names are those of the first entry, and the figures those of the last. -/
theorem mountAt_of_visible (w : Nat) (ms : List Mounted) (hlast : AnswersForLast statvfs ms)
    {files : Files} (htable : mountTable files = .ok (ms.map Mounted.data)) {path : Bytes}
    {last : Mounted} (hvisible : visible ms path = some last) :
    ∃ first, (mountedAt ms path).head? = some first ∧
      mountAt w statvfs files path = statMount w (fun _ => .ok last.figures) first.data := by
  obtain ⟨first, hfirst⟩ := exists_first hvisible
  obtain ⟨hmem, hsame⟩ := mem_of_first hfirst
  have hfind : findMount (ms.map Mounted.data) path = some first.data := by
    rw [findMount_eq_head?, hfirst, Option.map_some]
  refine ⟨first, hfirst, ?_⟩
  have hcall : statvfs (statPath first.data) = .ok last.figures :=
    hlast first hmem last (by rw [visible_congr hsame, hvisible])
  simp only [mountAt, htable, bind, Except.bind, hfind, Platform.okOrElse, statMount, hcall]

/-- One device mounted twice at a target, with another one in between. -/
def remounted : List Mounted :=
  [⟨⟨"/dev/a".toList, "/mnt".toList, "ext4".toList⟩, tenBlocks⟩,
    ⟨⟨"/dev/b".toList, "/srv".toList, "xfs".toList⟩, { tenBlocks with fBlocks := 20 }⟩,
    ⟨⟨"/dev/b".toList, "/mnt/".toList, "xfs".toList⟩, { tenBlocks with fBlocks := 20 }⟩,
    ⟨⟨"/dev/a".toList, "/mnt".toList, "ext4".toList⟩, { tenBlocks with fBlocks := 30 }⟩]

def remountedStatvfs : StatvfsCall := fun path =>
  if path = utf8 "/srv".toList then .ok { tenBlocks with fBlocks := 20 }
  else .ok { tenBlocks with fBlocks := 30 }

def remountedTable : Str :=
  "/dev/a /mnt ext4 rw\n/dev/b /srv xfs rw\n/dev/b /mnt/ xfs rw\n/dev/a /mnt ext4 rw\n".toList

theorem answersForLast_remounted : AnswersForLast remountedStatvfs remounted := by
  intro m hm last hvisible
  simp only [remounted, List.mem_cons, List.not_mem_nil, or_false] at hm
  rcases hm with rfl | rfl | rfl | rfl <;>
  · cases hvisible
    rfl

def overMounted : List Mounted :=
  [⟨⟨"/dev/a".toList, "/mnt".toList, "ext4".toList⟩, tenBlocks⟩,
    ⟨⟨"/dev/b".toList, "/mnt".toList, "xfs".toList⟩, { tenBlocks with fBlocks := 20 }⟩]

end Systemstat.Linux
