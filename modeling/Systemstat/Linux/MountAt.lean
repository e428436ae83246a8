import Systemstat.Linux.ProcMounts
import Systemstat.Text.Path

/-! # Filesystems by path

`mounts` stats every entry of the table and drops those that fail, and the
default `mount_at` of the trait searches what is left. The override for Linux
searches the table first and stats one entry.
-/

namespace Systemstat.Platform

open Text

def okOrElse {α : Type} (e : IoError) : Option α → IoResult α
  | some a => .ok a
  | none => .error e

/-- The trait's default `mount_at` over an implementation of `mounts`. -/
def mountAt {w : Nat} (mounts : IoResult (List (Filesystem w))) (path : Bytes) :
    IoResult (Filesystem w) := do
  let mounts ← mounts
  okOrElse (.notFound "No such mount")
    (mounts.find? fun mount => samePath (utf8 mount.fsMountedOn) path)

end Systemstat.Platform

namespace Systemstat.Linux

open Nom Text

/-- `struct statvfs`, as far as it is read; each field as wide as a `u64`. -/
structure Statvfs where
  fFiles : BitVec 64
  fFfree : BitVec 64
  fFavail : BitVec 64
  fBfree : BitVec 64
  fBavail : BitVec 64
  fBlocks : BitVec 64
  fBsize : BitVec 64
  fNamemax : BitVec 64
  deriving DecidableEq, Repr

/-- The system call: figures for the path in a C string, or an error number. -/
abbrev StatvfsCall := Bytes → Except Int Statvfs

def statPath (mount : ProcMountsData) : Bytes := cString (utf8 (mount.target ++ [Char.ofNat 0]))

def statMount (w : Nat) (statvfs : StatvfsCall) (mount : ProcMountsData) :
    IoResult (Filesystem w) :=
  match statvfs (statPath mount) with
  | .ok info => .ok {
      files := saturatingSub (info.fFiles.setWidth w) (info.fFfree.setWidth w)
      filesTotal := info.fFiles.setWidth w
      filesAvail := info.fFavail.setWidth w
      free := .b (info.fBfree * info.fBsize)
      avail := .b (info.fBavail * info.fBsize)
      total := .b (info.fBlocks * info.fBsize)
      nameMax := info.fNamemax.setWidth w
      fsType := mount.fstype
      fsMountedFrom := mount.source
      fsMountedOn := mount.target }
  | .error errno => .error (.os errno)

def mountTable (files : Files) : IoResult (List ProcMountsData) := do
  let data ← readFile files "/proc/mounts"
  parsed (procMounts data)

def mounts (w : Nat) (statvfs : StatvfsCall) (files : Files) : IoResult (List (Filesystem w)) := do
  let mounts ← mountTable files
  return mounts.filterMap fun mount => (statMount w statvfs mount).toOption

/-- The entry that `mount_at` stats. -/
def findMount (mounts : List ProcMountsData) (path : Bytes) : Option ProcMountsData :=
  mounts.find? fun mount => samePath (utf8 mount.target) path

def mountAt (w : Nat) (statvfs : StatvfsCall) (files : Files) (path : Bytes) :
    IoResult (Filesystem w) := do
  let mounts ← mountTable files
  let mount ← Platform.okOrElse (.notFound "No such mount") (findMount mounts path)
  statMount w statvfs mount

/-! ## Searching before and after a partial map -/

/-- Elements that the search cannot tell apart succeed or fail together, so the
first match may be mapped before or after it is found. -/
theorem find?_filterMap_of_agree {α β : Type} {xs : List α} {p : α → Bool} {f : α → Option β}
    {q : β → Bool} (hq : ∀ x b, f x = some b → q b = p x)
    (h : ∀ x ∈ xs, ∀ y ∈ xs, p x = true → p y = true → f x = none → f y = none) :
    (xs.filterMap f).find? q = (xs.find? p).bind f := by
  induction xs with
  | nil => rfl
  | cons x xs ih =>
      have hrest := ih fun a ha b hb => h a (by simp [ha]) b (by simp [hb])
      cases hp : p x with
      | false =>
          rw [List.find?_cons_of_neg (by simp [hp]), ← hrest]
          cases hf : f x with
          | none => rw [List.filterMap_cons_none hf]
          | some b =>
              rw [List.filterMap_cons_some hf, List.find?_cons_of_neg (by simp [hq x b hf, hp])]
      | true =>
          rw [List.find?_cons_of_pos (by simp [hp]), Option.bind_some]
          cases hf : f x with
          | some b =>
              rw [List.filterMap_cons_some hf, List.find?_cons_of_pos (by simp [hq x b hf, hp])]
          | none =>
              rw [List.filterMap_cons_none hf, List.find?_eq_none]
              intro b hb hqb
              obtain ⟨y, hy, hfy⟩ := List.mem_filterMap.mp hb
              rw [hq y b hfy] at hqb
              rw [h x (by simp) y (by simp [hy]) hp hqb hf] at hfy
              cases hfy

/-! ## The two searches -/

variable {w : Nat} {statvfs : StatvfsCall}

theorem statMount_eq_ok {mount : ProcMountsData} {f : Filesystem w}
    (h : statMount w statvfs mount = .ok f) : ∃ info, statvfs (statPath mount) = .ok info ∧
      f.fsMountedOn = mount.target ∧ f.free.bytes = info.fBfree * info.fBsize ∧
      f.avail.bytes = info.fBavail * info.fBsize ∧
      f.total.bytes = info.fBlocks * info.fBsize := by
  unfold statMount at h
  cases hcall : statvfs (statPath mount) with
  | error errno =>
      rw [hcall] at h
      cases h
  | ok info =>
      rw [hcall] at h
      cases h
      exact ⟨info, rfl, rfl, rfl, rfl, rfl⟩

theorem statMount_mountedOn {mount : ProcMountsData} {f : Filesystem w}
    (h : statMount w statvfs mount = .ok f) : f.fsMountedOn = mount.target := by
  obtain ⟨_, _, htarget, _⟩ := statMount_eq_ok h
  exact htarget

theorem statMount_toOption_eq_none {mount : ProcMountsData} :
    (statMount w statvfs mount).toOption = none ↔
      ∃ errno, statvfs (statPath mount) = .error errno := by
  unfold statMount
  cases statvfs (statPath mount) with
  | error errno => simp [Except.toOption]
  | ok info => simp [Except.toOption]

/-- The call does not tell apart targets that are equal as paths. -/
def PathsAgree (statvfs : StatvfsCall) : Prop :=
  ∀ l r : ProcMountsData, samePath (utf8 l.target) (utf8 r.target) = true →
    statvfs (statPath l) = statvfs (statPath r)

/-- Over one table, stating the first match is searching what could be stated. -/
theorem find?_mounts (hsame : PathsAgree statvfs) (table : List ProcMountsData) (path : Bytes) :
    (table.filterMap fun mount => (statMount w statvfs mount).toOption).find?
        (fun mount => samePath (utf8 mount.fsMountedOn) path) =
      (findMount table path).bind fun mount => (statMount w statvfs mount).toOption := by
  refine find?_filterMap_of_agree
    (fun mount f hf => by rw [statMount_mountedOn (toOption_eq_some_iff.mp hf)]) ?_
  intro l _ r _ hl hr hfail
  rw [statMount_toOption_eq_none] at hfail ⊢
  rwa [← hsame l r (samePath_trans hl (samePath_symm hr))]

theorem toOption_okOrElse {α : Type} (e : IoError) (o : Option α) :
    (Platform.okOrElse e o).toOption = o := by
  cases o <;> rfl

theorem toOption_bind {α β : Type} (r : IoResult α) (f : α → IoResult β) :
    (r >>= f).toOption = r.toOption.bind fun a => (f a).toOption := by
  cases r <;> rfl

theorem mountAt_toOption (hsame : PathsAgree statvfs) (files : Files) (path : Bytes) :
    (mountAt w statvfs files path).toOption =
      (Platform.mountAt (mounts w statvfs files) path).toOption := by
  have hdefault : Platform.mountAt (mounts w statvfs files) path = (do
      let table ← mountTable files
      Platform.okOrElse (.notFound "No such mount")
        ((table.filterMap fun mount => (statMount w statvfs mount).toOption).find?
          fun mount => samePath (utf8 mount.fsMountedOn) path)) := by
    rw [Platform.mountAt, mounts]
    cases mountTable files <;> rfl
  rw [hdefault, mountAt]
  simp only [toOption_bind, toOption_okOrElse, find?_mounts hsame]

/-- The override and the default return the same filesystem, and fail on the same paths. -/
theorem mountAt_iff_default (w : Nat) (statvfs : StatvfsCall) (hsame : PathsAgree statvfs)
    (files : Files) (path : Bytes) :
    (∀ f, mountAt w statvfs files path = .ok f ↔
      Platform.mountAt (mounts w statvfs files) path = .ok f) ∧
    ((∃ e, mountAt w statvfs files path = .error e) ↔
      ∃ e, Platform.mountAt (mounts w statvfs files) path = .error e) := by
  have heq := mountAt_toOption (w := w) hsame files path
  constructor
  · intro f
    rw [← toOption_eq_some_iff, ← toOption_eq_some_iff, heq]
  · rw [← toOption_eq_none_iff, ← toOption_eq_none_iff, heq]

def tenBlocks : Statvfs := ⟨4, 1, 1, 6, 5, 10, 4096, 255⟩

/-- A table with a target that is there twice, and with one that is no absolute path. -/
def repeatedTable : Files := fun _ => .ok
  "/dev/a / ext4 rw\n/dev/b /mnt xfs rw\n/dev/c gone btrfs rw\n/dev/d /mnt/ ext4 rw\n".toList

/-- The call answers for absolute paths only. -/
def absoluteOnly : StatvfsCall := fun path =>
  if path.head? = some 47 then .ok tenBlocks else .error 2

theorem head?_statPath_eq_iff {mount : ProcMountsData} :
    (statPath mount).head? = some 47 ↔ (utf8 mount.target).head? = some 47 := by
  have happend : utf8 (mount.target ++ [Char.ofNat 0]) = utf8 mount.target ++ [0] := by
    rw [utf8, List.flatMap_append]
    rfl
  rw [statPath, cString, happend]
  cases utf8 mount.target with
  | nil => decide
  | cons b path =>
      by_cases hb : b = 0
      · subst hb
        simp
      · simp [hb]
theorem pathsAgree_absoluteOnly : PathsAgree absoluteOnly := by
  have habsolute : ∀ mount : ProcMountsData, (statPath mount).head? = some 47 ↔
      (components (utf8 mount.target)).head? = some .rootDir := by
    intro mount
    rw [head?_components_eq_rootDir_iff, head?_statPath_eq_iff]
  intro l r hsame
  rw [samePath, beq_iff_eq] at hsame
  simp only [absoluteOnly, habsolute, hsame]

theorem mountAt_iff_default_repeated :
    ((∀ f, mountAt 64 absoluteOnly repeatedTable (utf8 "/mnt".toList) = .ok f ↔
        Platform.mountAt (mounts 64 absoluteOnly repeatedTable) (utf8 "/mnt".toList) = .ok f) ∧
      ((∃ e, mountAt 64 absoluteOnly repeatedTable (utf8 "/mnt".toList) = .error e) ↔
        ∃ e, Platform.mountAt (mounts 64 absoluteOnly repeatedTable) (utf8 "/mnt".toList) =
          .error e)) ∧
    (mountAt 64 absoluteOnly repeatedTable (utf8 "/mnt".toList)).map (·.fsMountedFrom) =
      .ok "/dev/b".toList ∧
    ((∃ e, mountAt 64 absoluteOnly repeatedTable (utf8 "gone".toList) = .error e) ↔
      ∃ e, Platform.mountAt (mounts 64 absoluteOnly repeatedTable) (utf8 "gone".toList) =
        .error e) ∧
    (mountAt 64 absoluteOnly repeatedTable (utf8 "gone".toList)).map (·.fsMountedFrom) =
      .error (.os 2) :=
  ⟨mountAt_iff_default 64 absoluteOnly pathsAgree_absoluteOnly repeatedTable _, by decide,
    (mountAt_iff_default 64 absoluteOnly pathsAgree_absoluteOnly repeatedTable _).2, by decide⟩

end Systemstat.Linux
