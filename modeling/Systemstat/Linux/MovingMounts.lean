import Systemstat.Linux.OverMount
import Systemstat.Trace.Readings

/-! # Mounts that come and go

`mounts` reads the table and then asks for the figures of one target after the other, and
`mount_at` reads it and asks for those of one. Filesystems are mounted and unmounted in
between. A record has its names from the table and its figures from what was on top at the
target later, so it may be that of no filesystem.
-/

namespace Systemstat.Linux

open Nom Text Collections Readings Reads

variable {w : Nat}

/-! ## The calls -/

inductive MountQuestion
  | procMounts
  | statvfs (path : Bytes)

abbrev MountAnswer : MountQuestion → Type
  | .procMounts => IoResult Str
  | .statvfs _ => Except Int Statvfs

abbrev MountReads (α : Type) := Reads MountAnswer IoError α

def mountAnswer (files : Files) (statvfs : StatvfsCall) : ∀ q, MountAnswer q
  | .procMounts => readFile files "/proc/mounts"
  | .statvfs path => statvfs path

def mountTableReads : MountReads (List ProcMountsData) :=
  query .procMounts fun answer => do
    let data ← answer
    parsed (procMounts data)

def statMountReads (w : Nat) (mount : ProcMountsData) : MountReads (Filesystem w) :=
  query (.statvfs (statPath mount)) fun answer => statMount w (fun _ => answer) mount

/-- An entry whose figures cannot be had is left out. -/
def statMountOkReads (w : Nat) (mount : ProcMountsData) : MountReads (Option (Filesystem w)) :=
  query (.statvfs (statPath mount)) fun answer =>
    .ok (statMount w (fun _ => answer) mount).toOption

def mountsReads (w : Nat) : MountReads (List (Filesystem w)) := do
  let mounts ← mountTableReads
  let filesystems ← collect (statMountOkReads w) mounts
  return filesystems.filterMap id

def mountAtReads (w : Nat) (path : Bytes) : MountReads (Filesystem w) := do
  let mounts ← mountTableReads
  let mount ← lift (Platform.okOrElse (.notFound "No such mount") (findMount mounts path))
  statMountReads w mount

theorem mountTableReads_still (files : Files) (statvfs : StatvfsCall) :
    still (mountAnswer files statvfs) mountTableReads = mountTable files := rfl

theorem mountsReads_still (files : Files) (statvfs : StatvfsCall) (t : Nat) :
    (moving (fun _ => mountAnswer files statvfs) (mountsReads w) t).1 =
      mounts w statvfs files := by
  rw [moving_still, mountsReads, still_bind, mountTableReads_still, mounts]
  cases mountTable files with
  | error e => rfl
  | ok table =>
      have hcollect : still (mountAnswer files statvfs) (collect (statMountOkReads w) table) =
          .ok (table.map fun mount => (statMount w statvfs mount).toOption) := by
        rw [still_collect_nil]
        refine pushAll_eq_ok_iff.mpr ⟨_, rfl, List.forall₂_map_right_iff.mpr ?_⟩
        exact List.forall₂_same.mpr fun _ _ => rfl
      show still _ (collect (statMountOkReads w) table >>= fun filesystems =>
        pure (filesystems.filterMap id)) = _
      rw [still_bind, hcollect]
      show Except.ok _ = Except.ok _
      rw [List.filterMap_map]
      rfl

theorem mountAtReads_still (files : Files) (statvfs : StatvfsCall) (path : Bytes) (t : Nat) :
    (moving (fun _ => mountAnswer files statvfs) (mountAtReads w path) t).1 =
      mountAt w statvfs files path := by
  simp only [moving_still, mountAtReads, still_bind, still_lift]
  rfl

/-! ## A moving table -/

/-- The mounts at each moment, in the order they were made. The table shows them all. A call
on a target may fail, and where it does not it answers for what was mounted there last. -/
structure MovingMounts where
  table : Nat → List Mounted
  files : Nat → Files
  statvfs : Nat → StatvfsCall
  shown : ∀ n, mountTable (files n) = .ok ((table n).map Mounted.data)
  noNul : ∀ n, ∀ m ∈ table n, Char.ofNat 0 ∉ m.data.target
  answers : ∀ n path last figures, visible (table n) path = some last →
    statvfs n path = .ok figures → figures = last.figures

namespace MovingMounts

variable (k : MovingMounts)

def answer (n : Nat) : ∀ q, MountAnswer q := mountAnswer (k.files n) (k.statvfs n)

theorem moving_mountTableReads (t : Nat) :
    moving k.answer mountTableReads t = (.ok ((k.table t).map Mounted.data), t + 1) := by
  rw [← k.shown t]
  rfl

/-- What comes of an entry whose target is asked for at a moment. It has its names from the
entry, and is that of the filesystem on top there exactly when they are its names too. -/
inductive Published (entry : Mounted) (n : Nat) : Option (Filesystem w) → Prop
  | fails {errno : Int} : k.statvfs n (utf8 entry.data.target) = .error errno →
      Published entry n none
  | record {info : Statvfs} {f : Filesystem w} :
      k.statvfs n (utf8 entry.data.target) = .ok info →
      statMount w (fun _ => .ok info) entry.data = .ok f →
      (∀ last, visible (k.table n) (utf8 entry.data.target) = some last →
        (Describes f last ↔
          entry.data.fstype = last.data.fstype ∧ entry.data.source = last.data.source)) →
      Published entry n (some f)

theorem published {t : Nat} {entry : Mounted} (h : entry ∈ k.table t) (n : Nat) :
    k.Published entry n (statMount w (k.statvfs n) entry.data).toOption := by
  have hpath : statPath entry.data = utf8 entry.data.target := cString_utf8 (k.noNul t entry h)
  cases hcall : k.statvfs n (utf8 entry.data.target) with
  | error errno =>
      have hnone : (statMount w (k.statvfs n) entry.data).toOption = none :=
        statMount_toOption_eq_none.mpr ⟨errno, by rw [hpath, hcall]⟩
      rw [hnone]
      exact .fails hcall
  | ok info =>
      obtain ⟨f, hf⟩ : ∃ f : Filesystem w, statMount w (fun _ => .ok info) entry.data = .ok f :=
        ⟨_, rfl⟩
      have hsame : statMount w (k.statvfs n) entry.data = .ok f := by
        rw [← hf, statMount, hpath, hcall]
        rfl
      rw [hsame]
      refine .record hcall hf fun last hlast => ?_
      have hfigures := k.answers n _ last info hlast hcall
      cases hf
      constructor
      · exact fun hdesc => ⟨hdesc.fsType, hdesc.mountedFrom⟩
      · exact fun hnames => ⟨hnames.1, hnames.2, entry.data, by rw [← hfigures]; rfl⟩

def records (w t : Nat) : List (Option (Filesystem w)) :=
  ((k.table t).zipIdx (t + 1)).map fun p => (statMount w (k.statvfs p.2) p.1.data).toOption

theorem moving_mountsReads (w t : Nat) : moving k.answer (mountsReads w) t =
    (.ok ((k.records w t).filterMap id), t + 1 + (k.table t).length) := by
  have hcollect : moving k.answer (collect (statMountOkReads w) ((k.table t).map Mounted.data))
      (t + 1) = (.ok ((((k.table t).map Mounted.data).zipIdx (t + 1)).map fun p =>
        (statMount w (k.statvfs p.2) p.1).toOption), t + 1 + (k.table t).length) := by
    have hlength : (k.table t).length = ((k.table t).map Mounted.data).length :=
      (List.length_map Mounted.data).symm
    rw [hlength]
    exact moving_collect_zipIdx (fun _ _ => rfl) _ _
  rw [mountsReads, moving_bind_of_ok (k.moving_mountTableReads t), moving_bind_of_ok hcollect,
    moving_pure, List.zipIdx_map, List.map_map, records]
  rfl

theorem moving_mountAtReads (w : Nat) (t : Nat) (path : Bytes) :
    moving k.answer (mountAtReads w path) t =
      match (mountedAt (k.table t) path).head? with
      | none => (.error (.notFound "No such mount"), t + 1)
      | some entry => (statMount w (k.statvfs (t + 1)) entry.data, t + 2) := by
  rw [mountAtReads, moving_bind_of_ok (k.moving_mountTableReads t), findMount_eq_head?]
  cases (mountedAt (k.table t) path).head? with
  | none => exact moving_bind_of_error (moving_lift _ _ _) _
  | some entry =>
      have hmount : moving k.answer (lift (Platform.okOrElse (.notFound "No such mount")
          (some entry.data)) : MountReads ProcMountsData) (t + 1) = (.ok entry.data, t + 1) :=
        moving_lift k.answer _ (t + 1)
      rw [Option.map_some, moving_bind_of_ok hmount, statMountReads, moving_query]
      rfl

end MovingMounts

/-- What `mounts` returns when it is called at `t`: in the order of the table, what comes of
each entry at its own moment, without those whose call fails. -/
def MountsMoved (k : MovingMounts) (w t : Nat) : Prop :=
  ∃ os : List (Option (Filesystem w)),
    List.Forall₂ (fun p o => k.Published p.1 p.2 o) ((k.table t).zipIdx (t + 1)) os ∧
    moving k.answer (mountsReads w) t =
      (.ok (os.filterMap id), t + 1 + (k.table t).length)

/-- What `mount_at` returns when it is called at `t`: what comes of the first entry at the
path, or an error where there is none. -/
structure MountAtMoved (k : MovingMounts) (w t : Nat) (path : Bytes) : Prop where
  missing : mountedAt (k.table t) path = [] →
    moving k.answer (mountAtReads w path) t = (.error (.notFound "No such mount"), t + 1)
  found : ∀ entry, (mountedAt (k.table t) path).head? = some entry →
    ∃ r : IoResult (Filesystem w), moving k.answer (mountAtReads w path) t = (r, t + 2) ∧
      k.Published entry (t + 1) r.toOption

theorem mem_of_visible {ms : List Mounted} {path : Bytes} {last : Mounted}
    (h : visible ms path = some last) : last ∈ ms :=
  List.mem_reverse.mp (List.mem_of_find?_eq_some h)

theorem visible_overMounted {path : Bytes} {last : Mounted}
    (h : visible overMounted path = some last) :
    last.figures = { tenBlocks with fBlocks := 20 } := by
  by_cases hsame : samePath (utf8 "/mnt".toList) path
  · have htop : visible overMounted path = overMounted[1]? :=
      List.find?_cons_of_pos (by exact hsame)
    rw [htop] at h
    cases h
    rfl
  · have hnone : visible overMounted path = none := by
      rw [visible, List.find?_eq_none]
      intro m hm
      rcases List.mem_pair.mp (List.mem_reverse.mp hm) with rfl | rfl <;> exact hsame
    rw [hnone] at h
    cases h

/-- Two filesystems, of which the one is mounted over and the other unmounted while the
table is read. -/
def beforeOverMounted : List Mounted :=
  [⟨⟨"/dev/c".toList, "/srv".toList, "btrfs".toList⟩, tenBlocks⟩,
    ⟨⟨"/dev/a".toList, "/mnt".toList, "ext4".toList⟩, tenBlocks⟩]

def overMountedLater : MovingMounts where
  table n := if n = 0 then beforeOverMounted else overMounted
  files n := if n = 0 then fun _ => .ok "/dev/c /srv btrfs rw\n/dev/a /mnt ext4 rw\n".toList
    else fun _ => .ok "/dev/a /mnt ext4 rw\n/dev/b /mnt xfs rw\n".toList
  statvfs n path := if n = 0 then .ok tenBlocks
    else if path = utf8 "/srv".toList then .error 2 else .ok { tenBlocks with fBlocks := 20 }
  shown n := by
    by_cases hn : n = 0
    · simp only [if_pos hn]
      decide
    · simp only [if_neg hn]
      decide
  noNul n := by
    by_cases hn : n = 0
    · simp only [if_pos hn]
      decide
    · simp only [if_neg hn]
      decide
  answers n path last figures hlast hcall := by
    by_cases hn : n = 0
    · simp only [if_pos hn] at hlast hcall
      cases hcall
      rcases List.mem_pair.mp (mem_of_visible hlast) with rfl | rfl
      · rfl
      · rfl
    · simp only [if_neg hn] at hlast hcall
      rw [visible_overMounted hlast]
      split at hcall
      · cases hcall
      · cases hcall
        rfl

/-- The one is left out, and the other has the size of the filesystem on top. -/
example : (moving overMountedLater.answer (mountsReads 64) 0).1.map
    (List.map fun f => (f.fsType, f.total)) = .ok [("ext4".toList, .b 81920)] := by decide

end Systemstat.Linux
