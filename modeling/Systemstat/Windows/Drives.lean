import Systemstat.Collections.FirstError
import Systemstat.Windows.Strings

/-! # Drives

The logical drives come in one buffer, each name with a zero behind it and one more at
the end. Every drive is asked about in its order, and the first that does not answer is
the error of the whole list; removable ones that have no volume count as answering.
-/

namespace Systemstat.Windows

open Nom Text Collections

variable {w : Nat}

/-! ## The calls -/

/-- The two calls of `GetLogicalDriveStringsW`, and the buffer that the second fills. -/
structure LogicalDrives where
  logicalDrives : BitVec 32
  getLogicalDrives : BitVec 32
  u16s : Units
  lastOsError : Int

/-- `GetVolumeInformationW`, and `GetDriveTypeW` of the same name. A call that fails writes
no names, and of the length, which is 0 to begin with, what it leaves is read. -/
structure VolumeInformation where
  succeeds : Bool
  volumeName : Units
  maxComponentLength : BitVec 32
  fsName : Units
  driveType : BitVec 32
  lastOsError : Int

structure DiskSpace where
  succeeds : Bool
  avail : BitVec 64
  total : BitVec 64
  free : BitVec 64
  lastOsError : Int

/-- `unwritten` is what lies at the buffer for the name of a volume, and behind it, before
anything is written there. -/
structure DriveCalls where
  logicalDrives : LogicalDrives
  volumeInformation : Units → VolumeInformation
  unwritten : Units → Units
  diskSpace : Units → DiskSpace

def getVolumeInformation (calls : DriveCalls) (name : Units) :
    IoResult (BitVec 32 × Str × Str) :=
  let volume := calls.volumeInformation name
  if volume.succeeds then
    .ok (volume.maxComponentLength, u16ArrayToString (some volume.fsName),
      u16ArrayToString (some volume.volumeName))
  -- the call has failed, and its buffer is read all the same
  else if volume.driveType = 2 then
    .ok (volume.maxComponentLength, "REM".toList, u16ArrayToString (some (calls.unwritten name)))
  else if volume.driveType = 5 then
    .ok (volume.maxComponentLength, "CDROM".toList, u16ArrayToString (some (calls.unwritten name)))
  else .error (.os volume.lastOsError)

def getDiskSpaceExt (calls : DriveCalls) (name : Units) :
    IoResult (BitVec 64 × BitVec 64 × BitVec 64) :=
  let space := calls.diskSpace name
  if space.succeeds then .ok (space.total, space.avail, space.free)
  else .error (.os space.lastOsError)

/-- The body of the loop over the drives. -/
def driveFilesystem (w : Nat) (calls : DriveCalls) (us : Units) : IoResult (Filesystem w) := do
  let name := decodeUtf16 us
  let (max, fs, tag) ← getVolumeInformation calls us
  if max = 0 then
    return {
      nameMax := max.setWidth w
      fsType := fs
      fsMountedFrom := tag
      fsMountedOn := name
      total := .b 0
      avail := .b 0
      free := .b 0
      files := 0
      filesTotal := 0
      filesAvail := 0 }
  else
    let (total, avail, free) ← getDiskSpaceExt calls us
    return {
      nameMax := max.setWidth w
      fsType := fs
      fsMountedFrom := tag
      fsMountedOn := name
      total := .b total
      avail := .b avail
      free := .b free
      files := 0
      filesTotal := 0
      filesAvail := 0 }

def driveNames (u16s : Units) : List Units := (u16s.splitOn 0#16).filter fun us => !us.isEmpty

/-- `drives`; the second call leaves out the last zero in what it returns. -/
def drives (w : Nat) (calls : DriveCalls) : IoResult (List (Filesystem w)) :=
  let logical := calls.logicalDrives
  if logical.getLogicalDrives + 1 ≠ logical.logicalDrives then .error (.os logical.lastOsError)
  else
    let u16s := logical.u16s.take logical.logicalDrives.toNat
    pushAll (driveFilesystem w calls) (driveNames u16s) []

/-! ## The buffer -/

/-- The name of a drive, any text without a zero. -/
structure DriveName where
  text : Str
  text_ne : text ≠ []
  text_nul : Char.ofNat 0 ∉ text

def DriveName.units (name : DriveName) : Units := utf16 name.text

theorem DriveName.units_ne_nil (name : DriveName) : name.units ≠ [] := by
  intro hnil
  have hdecode := decodeUtf16_utf16 name.text
  rw [← DriveName.units, hnil, decodeUtf16] at hdecode
  exact name.text_ne hdecode.symm

theorem DriveName.decode_units (name : DriveName) : decodeUtf16 name.units = name.text :=
  decodeUtf16_utf16 name.text

def driveBuffer (names : List DriveName) : Units :=
  names.flatMap (fun name => name.units ++ [0#16]) ++ [0#16]

theorem driveNames_driveBuffer (names : List DriveName) :
    driveNames (driveBuffer names) = names.map DriveName.units := by
  induction names with
  | nil => rfl
  | cons name names ih =>
      have hzero : 0#16 ∉ name.units := fun hmem => utf16_ne_zero name.text_nul 0#16 hmem rfl
      have hbuffer : driveBuffer (name :: names) = name.units ++ 0#16 :: driveBuffer names := by
        simp [driveBuffer]
      have hkept : (name.units :: (driveBuffer names).splitOn 0#16).filter (fun us => !us.isEmpty) =
          name.units :: driveNames (driveBuffer names) :=
        List.filter_cons_of_pos (by simpa using name.units_ne_nil)
      rw [hbuffer, driveNames, List.splitOn_append_cons_self_of_not_mem hzero, hkept, ih,
        List.map_cons]

/-- The system lists these drives, in the format that it is documented to use. -/
structure ListsDrives (calls : DriveCalls) (names : List DriveName) : Prop where
  size : calls.logicalDrives.logicalDrives.toNat = (driveBuffer names).length
  copied : calls.logicalDrives.getLogicalDrives + 1 = calls.logicalDrives.logicalDrives
  buffer : ∃ behind, calls.logicalDrives.u16s = driveBuffer names ++ behind

theorem drives_of_listsDrives {calls : DriveCalls} {names : List DriveName}
    (h : ListsDrives calls names) : drives w calls =
      pushAll (driveFilesystem w calls) (names.map DriveName.units) [] := by
  obtain ⟨behind, hbuffer⟩ := h.buffer
  have htake : calls.logicalDrives.u16s.take calls.logicalDrives.logicalDrives.toNat =
      driveBuffer names := by
    rw [hbuffer, h.size, List.take_left]
  rw [drives, if_neg (not_not.mpr h.copied), htake]
  show pushAll (driveFilesystem w calls) (driveNames (driveBuffer names)) [] = _
  rw [driveNames_driveBuffer]

/-! ## Each drive -/

variable (calls : DriveCalls) (name : DriveName)

def VolumeAnswers : Prop :=
  (calls.volumeInformation name.units).succeeds ∨
    (calls.volumeInformation name.units).driveType = 2 ∨
    (calls.volumeInformation name.units).driveType = 5

/-- The volume is known and, if it has a file system, its sizes are. -/
def DriveAnswers : Prop :=
  VolumeAnswers calls name ∧
    ((calls.volumeInformation name.units).maxComponentLength ≠ 0 →
      (calls.diskSpace name.units).succeeds)

instance : Decidable (VolumeAnswers calls name) := inferInstanceAs (Decidable (_ ∨ _ ∨ _))

instance : Decidable (DriveAnswers calls name) := inferInstanceAs (Decidable (_ ∧ _))

def driveError : IoError :=
  if VolumeAnswers calls name then .os (calls.diskSpace name.units).lastOsError
  else .os (calls.volumeInformation name.units).lastOsError

def labelUnits : Units :=
  if (calls.volumeInformation name.units).succeeds then
    (calls.volumeInformation name.units).volumeName
  else calls.unwritten name.units

structure DriveReported (fs : Filesystem w) : Prop where
  mountedOn : fs.fsMountedOn = name.text
  mountedFrom : fs.fsMountedFrom = u16ArrayToString (some (labelUnits calls name))
  fsType : fs.fsType = if (calls.volumeInformation name.units).succeeds then
      u16ArrayToString (some (calls.volumeInformation name.units).fsName)
    else if (calls.volumeInformation name.units).driveType = 2 then "REM".toList
    else "CDROM".toList
  nameMax : fs.nameMax = (calls.volumeInformation name.units).maxComponentLength.setWidth w
  sizes : (fs.total, fs.avail, fs.free) =
    if (calls.volumeInformation name.units).maxComponentLength = 0 then (.b 0, .b 0, .b 0)
    else (.b (calls.diskSpace name.units).total, .b (calls.diskSpace name.units).avail,
      .b (calls.diskSpace name.units).free)
  files : fs.files = 0 ∧ fs.filesTotal = 0 ∧ fs.filesAvail = 0

theorem getVolumeInformation_cases :
    (VolumeAnswers calls name ∧ getVolumeInformation calls name.units =
      .ok ((calls.volumeInformation name.units).maxComponentLength,
        if (calls.volumeInformation name.units).succeeds then
          u16ArrayToString (some (calls.volumeInformation name.units).fsName)
        else if (calls.volumeInformation name.units).driveType = 2 then "REM".toList
        else "CDROM".toList,
        u16ArrayToString (some (labelUnits calls name)))) ∨
    (¬ VolumeAnswers calls name ∧ getVolumeInformation calls name.units =
      .error (.os (calls.volumeInformation name.units).lastOsError)) := by
  unfold VolumeAnswers getVolumeInformation labelUnits
  by_cases hsucceeds : (calls.volumeInformation name.units).succeeds = true
  · exact .inl ⟨.inl hsucceeds, by simp only [hsucceeds, if_true]⟩
  · by_cases hrem : (calls.volumeInformation name.units).driveType = 2
    · exact .inl ⟨.inr (.inl hrem), by simp only [if_neg hsucceeds, if_pos hrem]⟩
    · by_cases hcdrom : (calls.volumeInformation name.units).driveType = 5
      · exact .inl ⟨.inr (.inr hcdrom), by simp only [if_neg hsucceeds, if_neg hrem, if_pos hcdrom]⟩
      · refine .inr ⟨?_, by simp only [if_neg hsucceeds, if_neg hrem, if_neg hcdrom]⟩
        rintro (h | h | h)
        · exact hsucceeds h
        · exact hrem h
        · exact hcdrom h

theorem getDiskSpaceExt_cases :
    ((calls.diskSpace name.units).succeeds ∧ getDiskSpaceExt calls name.units =
      .ok ((calls.diskSpace name.units).total, (calls.diskSpace name.units).avail,
        (calls.diskSpace name.units).free)) ∨
    (¬ (calls.diskSpace name.units).succeeds ∧ getDiskSpaceExt calls name.units =
      .error (.os (calls.diskSpace name.units).lastOsError)) := by
  unfold getDiskSpaceExt
  by_cases hsucceeds : (calls.diskSpace name.units).succeeds = true
  · exact .inl ⟨hsucceeds, if_pos hsucceeds⟩
  · exact .inr ⟨hsucceeds, if_neg hsucceeds⟩

theorem driveFilesystem_cases (w : Nat) :
    (DriveAnswers calls name ∧ ∃ fs, driveFilesystem w calls name.units = .ok fs ∧
      DriveReported calls name fs) ∨
    (¬ DriveAnswers calls name ∧
      driveFilesystem w calls name.units = .error (driveError calls name)) := by
  rcases getVolumeInformation_cases calls name with ⟨hvolume, hinfo⟩ | ⟨hvolume, hinfo⟩
  · by_cases hmax : (calls.volumeInformation name.units).maxComponentLength = 0
    · have hanswers : DriveAnswers calls name := ⟨hvolume, fun hne => absurd hmax hne⟩
      simp only [driveFilesystem, hinfo, bind, Except.bind, if_pos hmax]
      exact .inl ⟨hanswers, _, rfl, name.decode_units, rfl, rfl, rfl, (if_pos hmax).symm,
        rfl, rfl, rfl⟩
    · simp only [driveFilesystem, hinfo, bind, Except.bind, if_neg hmax]
      rcases getDiskSpaceExt_cases calls name with ⟨hspace, hsizes⟩ | ⟨hspace, hsizes⟩
      · simp only [hsizes]
        exact .inl ⟨⟨hvolume, fun _ => hspace⟩, _, rfl, name.decode_units, rfl, rfl, rfl,
          (if_neg hmax).symm, rfl, rfl, rfl⟩
      · simp only [hsizes, driveError, if_pos hvolume]
        exact .inr ⟨fun hanswers => hspace (hanswers.2 hmax), trivial⟩
  · simp only [driveFilesystem, hinfo, bind, Except.bind, driveError, if_neg hvolume]
    exact .inr ⟨fun hanswers => hvolume hanswers.1, trivial⟩

/-! ## The list -/

variable {calls : DriveCalls} {names : List DriveName}

/-- Every drive in order, or the error of the first that does not answer. -/
structure DrivesReported (w : Nat) (calls : DriveCalls) (names : List DriveName) : Prop where
  all : (∀ name ∈ names, DriveAnswers calls name) →
    ∃ fss, drives w calls = .ok fss ∧ List.Forall₂ (DriveReported calls) names fss
  first : ∀ pre name post, names = pre ++ name :: post →
    (∀ other ∈ pre, DriveAnswers calls other) → ¬ DriveAnswers calls name →
    drives w calls = .error (driveError calls name)

theorem driveFilesystem_of_answers (w : Nat) {name : DriveName} (h : DriveAnswers calls name) :
    ∃ fs, driveFilesystem w calls name.units = .ok fs ∧ DriveReported calls name fs := by
  rcases driveFilesystem_cases calls name w with ⟨_, hok⟩ | ⟨hnot, _⟩
  · exact hok
  · exact absurd h hnot

theorem exists_filesystems (w : Nat) (h : ∀ name ∈ names, DriveAnswers calls name) :
    ∃ fss, List.Forall₂ (fun us fs => driveFilesystem w calls us = .ok fs)
        (names.map DriveName.units) fss ∧ List.Forall₂ (DriveReported calls) names fss := by
  induction names with
  | nil => exact ⟨[], .nil, .nil⟩
  | cons name names ih =>
      obtain ⟨fs, hfs, hreported⟩ := driveFilesystem_of_answers w (h name (by simp))
      obtain ⟨fss, hfss, hall⟩ := ih fun other hother => h other (by simp [hother])
      exact ⟨fs :: fss, .cons hfs hfss, .cons hreported hall⟩

theorem drives_reported (w : Nat) (h : ListsDrives calls names) :
    DrivesReported w calls names where
  all hanswers := by
    obtain ⟨fss, hfss, hreported⟩ := exists_filesystems w hanswers
    refine ⟨fss, ?_, hreported⟩
    rw [drives_of_listsDrives h]
    exact pushAll_eq_ok_iff.mpr ⟨fss, (List.nil_append fss).symm, hfss⟩
  first pre name post hsplit hpre hnot := by
    have herror : driveFilesystem w calls name.units = .error (driveError calls name) := by
      rcases driveFilesystem_cases calls name w with ⟨hanswers, _⟩ | ⟨_, herror⟩
      · exact absurd hanswers hnot
      · exact herror
    rw [drives_of_listsDrives h]
    refine pushAll_eq_error_iff.mpr ⟨pre.map DriveName.units, name.units,
      post.map DriveName.units, by rw [hsplit, List.map_append, List.map_cons], ?_, herror⟩
    intro us hus
    obtain ⟨other, hother, rfl⟩ := List.mem_map.mp hus
    obtain ⟨fs, hfs, _⟩ := driveFilesystem_of_answers w (hpre other hother)
    exact ⟨fs, hfs⟩

/-- A system disk, and a CD drive that has no volume. -/
def twoDrives : List DriveName :=
  [⟨"C:\\".toList, by decide, by decide⟩, ⟨"D:\\".toList, by decide, by decide⟩]

def twoDriveCalls : DriveCalls where
  logicalDrives := ⟨9, 8, driveBuffer twoDrives, 0⟩
  volumeInformation us :=
    if us = utf16 "C:\\".toList then ⟨true, [0], 255, utf16 "NTFS".toList ++ [0], 3, 0⟩
    else ⟨false, [0], 0, [0], 5, 21⟩
  unwritten _ := [0xCDCD, 0]
  diskSpace us := if us = utf16 "C:\\".toList then ⟨true, 40, 100, 50, 0⟩ else ⟨false, 0, 0, 0, 21⟩

theorem drives_reported_two : DrivesReported 64 twoDriveCalls twoDrives :=
  drives_reported 64 ⟨by decide, by decide, [], (List.append_nil _).symm⟩

end Systemstat.Windows
