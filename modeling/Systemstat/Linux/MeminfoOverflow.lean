import Systemstat.Linux.MeminfoLines

/-! # Overflow in the memory queries

The parser of `/proc/meminfo` and `to_memory` in a build that checks its arithmetic,
where a value of `none` is the panic. A number that fits a `usize` may still have no
size in bytes, and sizes that fit may have no sum. `to_swap` computes nothing.
-/

namespace Systemstat.Linux

open Nom Text Arith

variable {w : Nat}

/-! ## The checked build -/

def kibChecked (size : BitVec 64) : Option ByteSize :=
  if size.umulOverflow 1024#64 then none else some (.kib size)

/-- `ByteSize::add`. -/
def addChecked (l r : ByteSize) : Option ByteSize :=
  if l.bytes.uaddOverflow r.bytes then none else some (l + r)

def procMeminfoLineChecked (w : Nat) : Parser (Str × Option ByteSize) :=
  complete (map
    (pair (takeUntil ":".toList) (delimited (tag ":".toList) (usizeS w) (ws (tag "kB".toList))))
    fun (key, value) => (key, kibChecked (value.setWidth 64)))

def procMeminfoLineOptChecked (w : Nat) : Parser (Option (Str × Option ByteSize)) :=
  opt (procMeminfoLineChecked w)

def insertChecked (map : Option MemInfoMap) : Option (Str × Option ByteSize) → Option MemInfoMap
  | some (key, val) => do
      let map ← map
      let val ← val
      return map.insert key val
  | none => map

def procMeminfoChecked (w : Nat) : Parser (Option MemInfoMap) :=
  foldMany0
    (mapRes (verify (ws notLineEnding) fun item => !item.isEmpty)
      fun input => (procMeminfoLineOptChecked w input).value?)
    (some ∅) insertChecked

def PlatformMemory.toMemoryChecked (self : PlatformMemory) : Option (Memory PlatformMemory) := do
  let free ← addChecked (self.get "MemFree") (self.get "Buffers")
  let free ← addChecked free (self.get "Cached")
  let free ← addChecked free (self.get "SReclaimable")
  return {
    total := self.get "MemTotal"
    free := saturatingSubBytes free (self.get "Shmem")
    platformMemory := self }

/-! ## The conversions -/

/-- A `usize` has at most 64 bits. -/
theorem kibChecked_ofNat (hw : w ≤ 64) {n : Nat} (hn : n < 2 ^ w) :
    kibChecked ((BitVec.ofNat w n).setWidth 64) =
      if n * 1024 < 2 ^ 64 then some (kibSize n) else none := by
  have hle : 2 ^ w ≤ 2 ^ 64 := Nat.pow_le_pow_right (by decide) hw
  have hvalue : ((BitVec.ofNat w n).setWidth 64).toNat = n := by
    rw [BitVec.toNat_setWidth, BitVec.toNat_ofNat, Nat.mod_eq_of_lt hn, Nat.mod_eq_of_lt (by omega)]
  have hiff := umulOverflow_eq_false_iff (x := (BitVec.ofNat w n).setWidth 64) (y := 1024#64)
  have hunit : (1024#64).toNat = 1024 := rfl
  rw [hvalue, hunit] at hiff
  rw [kibChecked, kib_ofNat hn, kibSize]
  by_cases hfits : n * 1024 < 2 ^ 64
  · rw [hiff.mpr hfits, if_pos hfits, if_neg (by decide)]
  · have hover : ((BitVec.ofNat w n).setWidth 64).umulOverflow 1024#64 = true := by
      rw [← Bool.not_eq_false, hiff]
      exact hfits
    rw [hover, if_neg hfits, if_pos rfl]

theorem foldl_insertChecked_none (es : List (Option (Str × Option ByteSize))) :
    es.foldl insertChecked none = none := by
  induction es with
  | nil => rfl
  | cons e es ih =>
      cases e with
      | none => exact ih
      | some kv => exact ih

/-- Without a panic the checked entries are the others. -/
theorem foldl_insertChecked_lift (es : List (Option (Str × ByteSize))) (map : MemInfoMap) :
    (es.map fun e => e.map fun kv => (kv.1, some kv.2)).foldl insertChecked (some map) =
      some (es.foldl insertSized map) := by
  induction es generalizing map with
  | nil => rfl
  | cons e es ih =>
      cases e with
      | none => exact ih map
      | some kv => exact ih (map.insert kv.1 kv.2)

theorem foldl_insertChecked_of_mem {key : Str} {es : List (Option (Str × Option ByteSize))}
    (h : some (key, none) ∈ es) (map : Option MemInfoMap) : es.foldl insertChecked map = none := by
  induction es generalizing map with
  | nil => cases h
  | cons e es ih =>
      rw [List.foldl_cons]
      rcases List.mem_cons.mp h with rfl | h
      · cases map with
        | none => exact foldl_insertChecked_none es
        | some map => exact foldl_insertChecked_none es
      · exact ih h _

def checkedEntries (w : Nat) (s : Str) : List (Option (Str × Option ByteSize)) :=
  (meminfoLines s).map fun line => (readEntry w line).map fun e =>
    (e.1, if e.2 * 1024 < 2 ^ 64 then some (kibSize e.2) else none)

theorem procMeminfoChecked_entries (hw : w ≤ 64) (s : Str) :
    ∃ rest, Yields (procMeminfoChecked w) s rest
      ((checkedEntries w s).foldl insertChecked (some ∅)) := by
  obtain ⟨rest, hy⟩ := (ws_verify_isLineItem fun input =>
    (procMeminfoLineOptChecked w input).value?).foldMany0_yields (some ∅) insertChecked s
  have hentries : collectOk (readable fun item => if item.isEmpty then none
      else (procMeminfoLineOptChecked w item).value?) (textItems s) = checkedEntries w s := by
    refine (collectOk_keyValue w (fun kv => (kv.1, kibChecked (kv.2.setWidth 64))) s).trans ?_
    refine List.map_congr_left fun line _ => ?_
    cases hentry : readEntry w line with
    | none => rw [Option.map_none, Option.map_none]
    | some e => rw [Option.map_some, Option.map_some, kibChecked_ofNat hw (lt_of_readEntry hentry)]
  rw [hentries] at hy
  exact ⟨rest, hy⟩

/-- Every number that is read has a size in bytes. -/
def ValuesFit (w : Nat) (s : Str) : Prop := ∀ e ∈ readEntries w s, e.2 * 1024 < 2 ^ 64

instance (w : Nat) (s : Str) : Decidable (ValuesFit w s) :=
  inferInstanceAs (Decidable (∀ e ∈ readEntries w s, e.2 * 1024 < 2 ^ 64))

theorem checkedEntries_of_fit {s : Str} (h : ValuesFit w s) : checkedEntries w s =
    (sizedEntries w s).map fun e => e.map fun kv => (kv.1, some kv.2) := by
  rw [checkedEntries, sizedEntries, List.map_map]
  refine List.map_congr_left fun line hline => ?_
  rw [Function.comp_apply]
  cases hentry : readEntry w line with
  | none => rw [Option.map_none, Option.map_none, Option.map_none]
  | some e =>
      have hfits := h e (List.mem_filterMap.mpr ⟨line, hline, hentry⟩)
      rw [Option.map_some, Option.map_some, Option.map_some, if_pos hfits]

theorem exists_panic_of_not_fit {s : Str} (h : ¬ ValuesFit w s) :
    ∃ key, some (key, none) ∈ checkedEntries w s := by
  unfold ValuesFit at h
  push Not at h
  obtain ⟨e, he, hle⟩ := h
  obtain ⟨line, hline, hentry⟩ := List.mem_filterMap.mp he
  refine ⟨e.1, List.mem_map.mpr ⟨line, hline, ?_⟩⟩
  rw [hentry, Option.map_some, if_neg (by omega)]

/-- The checked parser has a map exactly when the values fit, and then the same one. -/
theorem procMeminfoChecked_map_iff (hw : w ≤ 64) {s : Str} {map : MemInfoMap} :
    (∃ rest, Yields (procMeminfoChecked w) s rest (some map)) ↔
      (ValuesFit w s ∧ map = (sizedEntries w s).foldl insertSized ∅) := by
  obtain ⟨rest, hy⟩ := procMeminfoChecked_entries hw s
  by_cases hfit : ValuesFit w s
  · rw [checkedEntries_of_fit hfit, foldl_insertChecked_lift] at hy
    constructor
    · rintro ⟨rest', hy'⟩
      exact ⟨hfit, Option.some.inj (hy'.unique hy).2⟩
    · rintro ⟨_, rfl⟩
      exact ⟨rest, hy⟩
  · obtain ⟨key, hmem⟩ := exists_panic_of_not_fit hfit
    rw [foldl_insertChecked_of_mem hmem] at hy
    constructor
    · rintro ⟨rest', hy'⟩
      cases (hy'.unique hy).2
    · exact fun h => absurd h.1 hfit

/-! ## The sum -/

theorem addChecked_of_lt {l r : ByteSize} (h : l.bytes.toNat + r.bytes.toNat < 2 ^ 64) :
    addChecked l r = some (l + r) := by
  rw [addChecked, if_neg]
  simp only [BitVec.uaddOverflow, decide_eq_true_eq]
  omega

theorem addChecked_of_le {l r : ByteSize} (h : 2 ^ 64 ≤ l.bytes.toNat + r.bytes.toNat) :
    addChecked l r = none := by
  rw [addChecked, if_pos]
  simpa only [BitVec.uaddOverflow, decide_eq_true_eq] using h

/-- Additions one after the other overflow as soon as the sum of all sizes does. -/
theorem foldlM_addChecked (l : ByteSize) (rs : List ByteSize) : rs.foldlM addChecked l =
    if l.bytes.toNat + (rs.map fun r => r.bytes.toNat).sum < 2 ^ 64
      then some (rs.foldl (· + ·) l) else none := by
  induction rs generalizing l with
  | nil =>
      have hlt := l.bytes.isLt
      rw [List.map_nil, List.sum_nil, if_pos (by omega)]
      rfl
  | cons r rs ih =>
      rw [List.foldlM_cons, List.map_cons, List.sum_cons, List.foldl_cons]
      rcases Nat.lt_or_ge (l.bytes.toNat + r.bytes.toNat) (2 ^ 64) with hlt | hge
      · rw [addChecked_of_lt hlt, Option.bind_eq_bind, Option.bind_some, ih, add_bytes_toNat hlt,
          Nat.add_assoc]
      · rw [addChecked_of_le hge, if_neg (by omega)]
        rfl

theorem toMemoryChecked_eq {self : PlatformMemory} {f b c r s : Nat} (h : self.Holds f b c r s) :
    self.toMemoryChecked = if f + b + c + r < 2 ^ 64 then some self.toMemory else none := by
  have hsum := foldlM_addChecked (self.get "MemFree")
    [self.get "Buffers", self.get "Cached", self.get "SReclaimable"]
  have hrun : self.toMemoryChecked =
      ([self.get "Buffers", self.get "Cached", self.get "SReclaimable"].foldlM addChecked
        (self.get "MemFree")).map fun free =>
          { self.toMemory with free := saturatingSubBytes free (self.get "Shmem") } := by
    simp only [PlatformMemory.toMemoryChecked, List.foldlM_cons, List.foldlM_nil,
      Option.map_eq_bind, Option.bind_eq_bind, Option.bind_assoc]
    rfl
  rw [hrun, hsum]
  simp only [List.map_cons, List.map_nil, List.sum_cons, List.sum_nil, h.memFree, h.buffers,
    h.cached, h.sReclaimable, Nat.add_zero, ← Nat.add_assoc]
  split
  · rfl
  · rfl

theorem lastKib_fits {s : Str} (h : ValuesFit w s) (key : String) :
    lastKib w s key * 1024 < 2 ^ 64 := by
  rw [lastKib, List.getLastD_eq_getLast?]
  cases hlast : (kibsOf w s key).getLast? with
  | none => exact (by decide : 0 * 1024 < 2 ^ 64)
  | some n =>
      obtain ⟨e, he, hkey⟩ := List.mem_filterMap.mp (List.mem_of_getLast? hlast)
      have hfits := h e he
      split at hkey
      · rw [Option.some.injEq] at hkey
        rwa [hkey] at hfits
      · cases hkey

theorem get_toNat_of_fit {s : Str} (h : ValuesFit w s) (key : String) :
    ((⟨(sizedEntries w s).foldl insertSized ∅⟩ : PlatformMemory).get key).bytes.toNat =
      lastKib w s key * 1024 := by
  rw [get_entries, kibSize_toNat, Nat.mod_eq_of_lt (lastKib_fits h key)]

/-! ## Every text -/

/-- The queries run through in a checked build, and a number without a size in bytes is
one of a line that is not read. -/
structure NeverOverflows (w : Nat) (s : Str) : Prop where
  queries : ∃ map rest memory, Yields (procMeminfoChecked w) s rest (some map) ∧
    (⟨map⟩ : PlatformMemory).toMemoryChecked = some memory
  unreadable : ∀ line ∈ meminfoLines s, ∀ key n, kibEntry line = some (key, n) →
    2 ^ 64 ≤ n * 1024 → (procMeminfoLineOpt w line).value? = some none

def freeKib (w : Nat) (s : Str) : Nat :=
  lastKib w s "MemFree" + lastKib w s "Buffers" + lastKib w s "Cached" +
    lastKib w s "SReclaimable"

theorem toMemoryChecked_entries {s : Str} (h : ValuesFit w s) :
    (⟨(sizedEntries w s).foldl insertSized ∅⟩ : PlatformMemory).toMemoryChecked =
      if freeKib w s * 1024 < 2 ^ 64
        then some (PlatformMemory.toMemory ⟨(sizedEntries w s).foldl insertSized ∅⟩) else none := by
  rw [toMemoryChecked_eq ⟨get_toNat_of_fit h _, get_toNat_of_fit h _, get_toNat_of_fit h _,
    get_toNat_of_fit h _, rfl⟩, freeKib, Nat.add_mul, Nat.add_mul, Nat.add_mul]

theorem value?_of_no_size {s line key : Str} {n : Nat} (h : ValuesFit w s)
    (hline : line ∈ meminfoLines s) (hentry : kibEntry line = some (key, n))
    (hle : 2 ^ 64 ≤ n * 1024) : (procMeminfoLineOpt w line).value? = some none := by
  have hread : readEntry w line = none := by
    cases hread : readEntry w line with
    | none => rfl
    | some e =>
        have hfits := h e (List.mem_filterMap.mpr ⟨line, hline, hread⟩)
        rw [readEntry, Option.filter_eq_some_iff, hentry, Option.some.injEq] at hread
        rw [← hread.1] at hfits
        omega
  have hvalue := keyValue_opt_value? w (fun kv => (kv.1, ByteSize.kib (kv.2.setWidth 64))) line
  rw [hread, Option.map_none] at hvalue
  exact hvalue

/-- The queries overflow unless every number that is read has a size in bytes and the
four that are added have one together. -/
theorem neverOverflows_iff (hw : w ≤ 64) (s : Str) :
    NeverOverflows w s ↔ (ValuesFit w s ∧ freeKib w s * 1024 < 2 ^ 64) := by
  constructor
  · intro h
    obtain ⟨map, rest, memory, hmap, hmemory⟩ := h.queries
    obtain ⟨hfit, rfl⟩ := (procMeminfoChecked_map_iff hw).mp ⟨rest, hmap⟩
    rw [toMemoryChecked_entries hfit] at hmemory
    refine ⟨hfit, ?_⟩
    by_contra hsum
    rw [if_neg hsum] at hmemory
    cases hmemory
  · rintro ⟨hfit, hsum⟩
    obtain ⟨rest, hmap⟩ := (procMeminfoChecked_map_iff hw).mpr ⟨hfit, rfl⟩
    have hmemory := toMemoryChecked_entries hfit
    rw [if_pos hsum] at hmemory
    exact ⟨⟨_, rest, _, hmap, hmemory⟩, fun line hline key n => value?_of_no_size hfit hline⟩

theorem neverOverflows_iff_thirteen_gib :
    NeverOverflows 64 "MemFree: 13160208 kB\nBuffers: 4724 kB\n".toList :=
  (neverOverflows_iff (by decide) _).mpr (by decide)

/-- The first number of kibibytes without a size in bytes. -/
theorem neverOverflows_large_value : ¬ ∀ s, NeverOverflows 64 s := by
  intro h
  obtain ⟨map, rest, _, hmap, _⟩ := (h "MemFree: 18014398509481984 kB\n".toList).queries
  have hfit := ((procMeminfoChecked_map_iff (by decide)).mp ⟨rest, hmap⟩).1
  revert hfit
  decide

end Systemstat.Linux
