import Systemstat.Arith.Words
import Systemstat.Linux.ProcMeminfo

/-! # Memory

`PlatformMemory` is the map of `/proc/meminfo`, or one that is filled from `sysinfo`
where there is no procfs. The same formula for the free memory is applied to both,
though the second map knows nothing of the page cache.
-/

namespace Systemstat.Linux

open Nom Text Arith

variable {w : Nat}

def memoryStats (w : Nat) (files : Files) : IoResult MemInfoMap := do
  let data ← readFile files "/proc/meminfo"
  parsed (procMeminfo w data)

/-- `struct sysinfo`, as far as it is read; a `c_ulong` is as wide as a `usize`. The
fields are zero where the call fails. -/
structure Sysinfo (w : Nat) where
  totalram : BitVec w
  freeram : BitVec w
  sharedram : BitVec w
  bufferram : BitVec w
  totalswap : BitVec w
  freeswap : BitVec w
  memUnit : BitVec 32

structure PlatformMemory where
  meminfo : MemInfoMap

namespace PlatformMemory

/-- `info.field as u64 * unit`. -/
def inUnits (info : Sysinfo w) (field : BitVec w) : ByteSize :=
  .b (field.setWidth 64 * info.memUnit.setWidth 64)

/-- The product overflows, which is a panic where overflow is checked. -/
def unitsOverflow (info : Sysinfo w) (field : BitVec w) : Bool :=
  BitVec.umulOverflow (field.setWidth 64) (info.memUnit.setWidth 64)

/-- If there's no procfs, e.g. in a chroot without mounting it or something. -/
def fallback (info : Sysinfo w) : MemInfoMap :=
  ((((((∅ : MemInfoMap).insert "MemTotal".toList (inUnits info info.totalram)).insert
    "MemFree".toList (inUnits info info.freeram)).insert
    "Shmem".toList (inUnits info info.sharedram)).insert
    "Buffers".toList (inUnits info info.bufferram)).insert
    "SwapTotal".toList (inUnits info info.totalswap)).insert
    "SwapFree".toList (inUnits info info.freeswap)

/-- One of the six products overflows. -/
def fallbackOverflows (info : Sysinfo w) : Bool :=
  unitsOverflow info info.totalram || unitsOverflow info info.freeram ||
    unitsOverflow info info.sharedram || unitsOverflow info info.bufferram ||
    unitsOverflow info info.totalswap || unitsOverflow info info.freeswap

def new (w : Nat) (files : Files) (info : Sysinfo w) : IoResult PlatformMemory :=
  match memoryStats w files with
  | .ok meminfo => .ok ⟨meminfo⟩
  | .error _ => .ok ⟨fallback info⟩

/-- `meminfo.get(key).copied().unwrap_or(ByteSize::b(0))`. -/
def get (self : PlatformMemory) (key : String) : ByteSize :=
  self.meminfo[key.toList]?.getD (.b 0#64)

def toMemory (self : PlatformMemory) : Memory PlatformMemory where
  total := self.get "MemTotal"
  free := saturatingSubBytes
    (self.get "MemFree" + self.get "Buffers" + self.get "Cached" + self.get "SReclaimable")
    (self.get "Shmem")
  platformMemory := self

def toSwap (self : PlatformMemory) : Swap PlatformMemory where
  total := self.get "SwapTotal"
  free := self.get "SwapFree"
  platformSwap := self

end PlatformMemory

def memory (w : Nat) (files : Files) (info : Sysinfo w) : IoResult (Memory PlatformMemory) := do
  let pm ← PlatformMemory.new w files info
  return pm.toMemory

/-! ## The formula -/

theorem add_bytes_toNat {l r : ByteSize} (h : l.bytes.toNat + r.bytes.toNat < 2 ^ 64) :
    (l + r).bytes.toNat = l.bytes.toNat + r.bytes.toNat := by
  show (l.bytes + r.bytes).toNat = _
  rw [BitVec.toNat_add, Nat.mod_eq_of_lt h]

/-- A map with these sizes of free memory, buffers, page cache, reclaimable slab and
shared memory. -/
structure PlatformMemory.Holds (pm : PlatformMemory) (f b c r s : Nat) : Prop where
  memFree : (pm.get "MemFree").bytes.toNat = f
  buffers : (pm.get "Buffers").bytes.toNat = b
  cached : (pm.get "Cached").bytes.toNat = c
  sReclaimable : (pm.get "SReclaimable").bytes.toNat = r
  shmem : (pm.get "Shmem").bytes.toNat = s

theorem toMemory_free {self : PlatformMemory} {f b c r s : Nat} (h : self.Holds f b c r s)
    (hsum : f + b + c + r < 2 ^ 64) : self.toMemory.free.bytes.toNat = f + b + c + r - s := by
  have hf := h.memFree
  have hb := h.buffers
  have hc := h.cached
  have hr := h.sReclaimable
  have hfb := add_bytes_toNat (l := self.get "MemFree") (r := self.get "Buffers") (by omega)
  have hfbc := add_bytes_toNat (l := self.get "MemFree" + self.get "Buffers")
    (r := self.get "Cached") (by omega)
  have hfbcr := add_bytes_toNat (l := self.get "MemFree" + self.get "Buffers" + self.get "Cached")
    (r := self.get "SReclaimable") (by omega)
  show (saturatingSub _ _).toNat = _
  rw [saturatingSub_toNat, hfbcr, hfbc, hfb, hf, hb, hc, hr, h.shmem]

/-! ## The two maps -/

/-- The state of the kernel, in kibibytes: it counts in pages, which are whole ones. The
shared memory is part of the page cache. -/
structure KernelMemory where
  memFree : Nat
  buffers : Nat
  cached : Nat
  sReclaimable : Nat
  shmem : Nat
  shmem_le : shmem ≤ cached
  fits : 1024 * (memFree + buffers + cached + sReclaimable) < 2 ^ 64

/-- The value that counts for a key: that of the last line with it. -/
def Shows (lines : List (MemInfoLine w)) (key : String) (value : Nat) : Prop :=
  ∃ pre l post, lines = pre ++ l :: post ∧ l.sized = true ∧ l.key = key.toList ∧
    l.value = value ∧ ∀ m ∈ post, m.sized = true → m.key ≠ key.toList

/-- What `/proc/meminfo` and `sysinfo` say of one state. -/
structure KernelReport (w : Nat) (mem : KernelMemory) where
  lines : List (MemInfoLine w)
  memFree_shown : Shows lines "MemFree" mem.memFree
  buffers_shown : Shows lines "Buffers" mem.buffers
  cached_shown : Shows lines "Cached" mem.cached
  sReclaimable_shown : Shows lines "SReclaimable" mem.sReclaimable
  shmem_shown : Shows lines "Shmem" mem.shmem
  info : Sysinfo w
  freeram_eq : info.freeram.toNat * info.memUnit.toNat = 1024 * mem.memFree
  bufferram_eq : info.bufferram.toNat * info.memUnit.toNat = 1024 * mem.buffers
  sharedram_eq : info.sharedram.toNat * info.memUnit.toNat = 1024 * mem.shmem

variable {mem : KernelMemory}

namespace PlatformMemory

theorem get_of_shows {lines : List (MemInfoLine w)} {map : MemInfoMap}
    (hmap : Yields (procMeminfo w) (unlines (lines.map MemInfoLine.line)) [] map)
    {key : String} {value : Nat} (h : Shows lines key value) :
    ((⟨map⟩ : PlatformMemory).get key).bytes.toNat = 1024 * value := by
  obtain ⟨pre, l, post, hlines, hsized, hkey, hvalue, hlast⟩ := h
  obtain ⟨map', hy, _, hget⟩ := procMeminfo_render lines
  rw [← (hmap.unique hy).2] at hget
  obtain ⟨size, hsize, hbytes⟩ := hget pre l post hlines hsized (by rw [hkey]; exact hlast)
  rw [hkey] at hsize
  rw [get, hsize, Option.getD_some, hbytes, hvalue]

/-- A file that can be read has a map, whatever its text. -/
theorem new_of_text {files : Files} {text rest : Str} {map : MemInfoMap}
    (hfile : readFile files "/proc/meminfo" = .ok text)
    (hmap : Yields (procMeminfo w) text rest map) (info : Sysinfo w) :
    new w files info = .ok ⟨map⟩ := by
  have hstats : memoryStats w files = .ok map := by
    simp only [memoryStats, hfile]
    exact parsed_yields hmap
  rw [new, hstats]

theorem new_of_file {report : KernelReport w mem} {files : Files}
    (hfile : readFile files "/proc/meminfo" =
      .ok (unlines (report.lines.map MemInfoLine.line))) :
    ∃ pm, new w files report.info = .ok pm ∧
      pm.Holds (1024 * mem.memFree) (1024 * mem.buffers) (1024 * mem.cached)
        (1024 * mem.sReclaimable) (1024 * mem.shmem) := by
  obtain ⟨map, hy, _⟩ := procMeminfo_render report.lines
  refine ⟨⟨map⟩, new_of_text hfile hy report.info, ?_⟩
  constructor
  · exact get_of_shows hy report.memFree_shown
  · exact get_of_shows hy report.buffers_shown
  · exact get_of_shows hy report.cached_shown
  · exact get_of_shows hy report.sReclaimable_shown
  · exact get_of_shows hy report.shmem_shown

theorem memUnit_toNat (info : Sysinfo w) :
    (info.memUnit.setWidth 64).toNat = info.memUnit.toNat := by
  have hlt := info.memUnit.isLt
  rw [BitVec.toNat_setWidth, Nat.mod_eq_of_lt (by omega)]

theorem unitsOverflow_eq_false {info : Sysinfo w} {field : BitVec w} {kib : Nat}
    (h : field.toNat * info.memUnit.toNat = 1024 * kib) (hfits : 1024 * kib < 2 ^ 64) :
    unitsOverflow info field = false := by
  have hle : (field.setWidth 64).toNat * info.memUnit.toNat ≤ 1024 * kib := by
    rw [BitVec.toNat_setWidth, ← h]
    exact Nat.mul_le_mul_right _ (Nat.mod_le _ _)
  rw [unitsOverflow, BitVec.umulOverflow, memUnit_toNat, decide_eq_false_iff_not]
  omega

theorem inUnits_toNat {info : Sysinfo w} {field : BitVec w} {kib : Nat}
    (h : field.toNat * info.memUnit.toNat = 1024 * kib) (hfits : 1024 * kib < 2 ^ 64) :
    (inUnits info field).bytes.toNat = 1024 * kib := by
  have hproduct : (inUnits info field).bytes.toNat =
      field.toNat * info.memUnit.toNat % 2 ^ 64 := by
    show (field.setWidth 64 * info.memUnit.setWidth 64).toNat = _
    rw [BitVec.toNat_mul, memUnit_toNat, BitVec.toNat_setWidth, Nat.mod_mul_mod]
  rw [hproduct, h, Nat.mod_eq_of_lt hfits]

def fallbackEntries (info : Sysinfo w) : List (Option (Str × ByteSize)) :=
  [some ("MemTotal".toList, inUnits info info.totalram),
    some ("MemFree".toList, inUnits info info.freeram),
    some ("Shmem".toList, inUnits info info.sharedram),
    some ("Buffers".toList, inUnits info info.bufferram),
    some ("SwapTotal".toList, inUnits info info.totalswap),
    some ("SwapFree".toList, inUnits info info.freeswap)]

theorem fallback_get (info : Sysinfo w) (key : String) :
    (⟨fallback info⟩ : PlatformMemory).get key =
      ((fallbackEntries info).filterMap (sizeFor key.toList)).getLast?.getD (.b 0#64) := by
  have hmap : fallback info = (fallbackEntries info).foldl insertSized ∅ := rfl
  rw [get, hmap, getElem?_foldl_insertSized, Std.TreeMap.getElem?_emptyc, Option.or_none]

/-- The cache and the slab are not in the map at all. -/
theorem fallback_holds (report : KernelReport w mem) :
    (⟨fallback report.info⟩ : PlatformMemory).Holds (1024 * mem.memFree) (1024 * mem.buffers) 0 0
      (1024 * mem.shmem) := by
  have hfits := mem.fits
  have hshmem := mem.shmem_le
  constructor
  · rw [fallback_get]
    exact inUnits_toNat report.freeram_eq (by omega)
  · rw [fallback_get]
    exact inUnits_toNat report.bufferram_eq (by omega)
  · rw [fallback_get]
    rfl
  · rw [fallback_get]
    rfl
  · rw [fallback_get]
    exact inUnits_toNat report.sharedram_eq (by omega)

/-- Nothing that the free memory is made of overflows on the way. In a checked build the
fallback still panics over the size of the memory or of the swap space. -/
theorem fallbackOverflows_eq (report : KernelReport w mem) : fallbackOverflows report.info =
    (unitsOverflow report.info report.info.totalram ||
      unitsOverflow report.info report.info.totalswap ||
      unitsOverflow report.info report.info.freeswap) := by
  have hfits := mem.fits
  have hshmem := mem.shmem_le
  simp only [fallbackOverflows, unitsOverflow_eq_false report.freeram_eq (by omega),
    unitsOverflow_eq_false report.sharedram_eq (by omega),
    unitsOverflow_eq_false report.bufferram_eq (by omega), Bool.or_false]

theorem new_of_no_file {files : Files} {e : IoError}
    (hfile : readFile files "/proc/meminfo" = .error e) (info : Sysinfo w) :
    new w files info = .ok ⟨fallback info⟩ := by
  have hstats : memoryStats w files = .error e := by
    simp only [memoryStats, hfile]
    rfl
  rw [new, hstats]

end PlatformMemory

open PlatformMemory

theorem memory_of_new {files : Files} {info : Sysinfo w} {pm : PlatformMemory}
    (h : PlatformMemory.new w files info = .ok pm) : memory w files info = .ok pm.toMemory := by
  simp only [memory, h]
  rfl

/-! ## The free memory -/

/-- With a procfs and without one, the free memory is not understated, and without one
it is not more than with one. -/
def FreeNotUnderstated (report : KernelReport w mem) : Prop :=
  ∀ (files bare : Files) (e : IoError),
    readFile files "/proc/meminfo" = .ok (unlines (report.lines.map MemInfoLine.line)) →
    readFile bare "/proc/meminfo" = .error e →
    ∃ full sparse, memory w files report.info = .ok full ∧
      memory w bare report.info = .ok sparse ∧
      1024 * mem.memFree ≤ full.free.bytes.toNat ∧
      1024 * mem.memFree ≤ sparse.free.bytes.toNat ∧
      sparse.free.bytes.toNat ≤ full.free.bytes.toNat

/-- What the figure without a procfs amounts to. -/
theorem FreeNotUnderstated.sparse_le {report : KernelReport w mem} (h : FreeNotUnderstated report) :
    1024 * mem.memFree ≤ 1024 * mem.memFree + 1024 * mem.buffers + 0 + 0 - 1024 * mem.shmem := by
  have hfits := mem.fits
  have hsparse := toMemory_free (fallback_holds report) (by omega)
  have hbare := new_of_no_file (rfl : readFile (fun _ => .error (.os 2)) "/proc/meminfo" = _)
    report.info
  obtain ⟨_, sparse, _, hmem, _, hle, _⟩ := h
    (fun _ => .ok (unlines (report.lines.map MemInfoLine.line))) (fun _ => .error (.os 2))
    (.os 2) rfl rfl
  rw [memory_of_new hbare, Except.ok.injEq] at hmem
  rwa [← hmem, hsparse] at hle

/-- Without the cache that holds it, the shared memory is taken off the buffers and then
off the free memory itself. -/
theorem freeNotUnderstated_iff (report : KernelReport w mem) :
    FreeNotUnderstated report ↔ (mem.shmem ≤ mem.buffers ∨ mem.memFree = 0) := by
  constructor
  · intro h
    have hle := h.sparse_le
    omega
  · intro h files bare e hfile hbare
    have hfits := mem.fits
    have hshmem := mem.shmem_le
    obtain ⟨pm, hnew, hholds⟩ := new_of_file hfile
    have hfull := toMemory_free hholds (by omega)
    have hsparse := toMemory_free (fallback_holds report) (by omega)
    refine ⟨pm.toMemory, _, memory_of_new hnew, memory_of_new (new_of_no_file hbare report.info),
      ?_, ?_, ?_⟩
    · rw [hfull]
      omega
    · rw [hsparse]
      omega
    · rw [hfull, hsparse]
      omega

def sizedLine (key : Str) (hne : key ≠ [])
    (hplain : (key.all fun c => c != ':' && !isMultispace c) = true) (value : Nat)
    (hvalue : value < 2 ^ 32) : MemInfoLine 64 where
  key := key
  key_ne := hne
  key_plain := by simpa using hplain
  gap := 8
  value := value
  sized := true
  sized_fits _ := by omega

/-- A machine with a temporary filesystem in memory that is larger than the buffers. -/
def sharedMemory : KernelMemory := ⟨1000, 100, 5000, 200, 400, by decide, by decide⟩

def sharedReport : KernelReport 64 sharedMemory where
  lines := [sizedLine "MemFree".toList (by decide) (by decide) 1000 (by decide),
    sizedLine "Buffers".toList (by decide) (by decide) 100 (by decide),
    sizedLine "Cached".toList (by decide) (by decide) 5000 (by decide),
    sizedLine "SReclaimable".toList (by decide) (by decide) 200 (by decide),
    sizedLine "Shmem".toList (by decide) (by decide) 400 (by decide)]
  memFree_shown := ⟨[], _, _, rfl, rfl, rfl, rfl, by decide⟩
  buffers_shown := ⟨[_], _, _, rfl, rfl, rfl, rfl, by decide⟩
  cached_shown := ⟨[_, _], _, _, rfl, rfl, rfl, rfl, by decide⟩
  sReclaimable_shown := ⟨[_, _, _], _, _, rfl, rfl, rfl, rfl, by decide⟩
  shmem_shown := ⟨[_, _, _, _], _, _, rfl, rfl, rfl, rfl, by decide⟩
  info := ⟨0, 1024000, 409600, 102400, 0, 0, 1⟩
  freeram_eq := by decide
  bufferram_eq := by decide
  sharedram_eq := by decide

theorem freeNotUnderstated_shared : ¬ ∀ (w : Nat) (mem : KernelMemory)
    (report : KernelReport w mem), FreeNotUnderstated report := by
  intro h
  have hle := (h 64 sharedMemory sharedReport).sparse_le
  revert hle
  decide

end Systemstat.Linux
