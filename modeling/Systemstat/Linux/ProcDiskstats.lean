import Systemstat.Linux.Tokens

/-! # `/proc/diskstats`

A device is named by a free-form word between numeric columns. The parser keeps
the name and eleven counters by position; the statistics map keeps the first
device of each name.
-/

namespace Systemstat.Linux

open Nom Text

def procDiskstatsLine (w : Nat) : Parser (BlockDeviceStats w) :=
  ws do
    let _majorNumber ← usizeS w
    let _minorNumber ← usizeS w
    let name ← wordS
    let readIos ← usizeS w
    let readMerges ← usizeS w
    let readSectors ← usizeS w
    let readTicks ← usizeS w
    let writeIos ← usizeS w
    let writeMerges ← usizeS w
    let writeSectors ← usizeS w
    let writeTicks ← usizeS w
    let inFlight ← usizeS w
    let ioTicks ← usizeS w
    let timeInQueue ← usizeS w
    return {
      name
      readIos
      readMerges
      readSectors
      readTicks
      writeIos
      writeMerges
      writeSectors
      writeTicks
      inFlight
      ioTicks
      timeInQueue }

def procDiskstats (w : Nat) : Parser (List (BlockDeviceStats w)) :=
  many0 (ws (mapRes notLineEnding fun input => (procDiskstatsLine w input).value?))

abbrev BlockDeviceMap (w : Nat) := Std.TreeMap Str (BlockDeviceStats w)

/-- `entry(name).or_insert(stats)`. -/
def orInsert {w : Nat} (result : BlockDeviceMap w) (blkstats : BlockDeviceStats w) :
    BlockDeviceMap w := result.insertIfNew blkstats.name blkstats

def blockDeviceStatistics (w : Nat) (files : Files) : IoResult (BlockDeviceMap w) := do
  let data ← readFile files "/proc/diskstats"
  let stats ← parsed (procDiskstats w data)
  return stats.foldl orInsert ∅

/-! ## The rendered file -/

/-- The line of one device, with the number of spaces before it and between its
first columns beyond the first space. -/
structure DiskDevice (w : Nat) where
  indent : Nat
  major : BitVec w
  minorGap : Nat
  minor : BitVec w
  nameGap : Nat
  name : Str
  name_ne : name ≠ []
  name_printable : ∀ c ∈ name, isPrintable c = true
  counters : List (Nat × BitVec w)
  eleven : counters.length = 11
  more : List (Nat × Nat)

namespace DiskDevice

variable {w : Nat}

def columns (d : DiskDevice w) : Str :=
  Linux.columns (d.counters.map (fun c => (c.1, c.2.toNat)) ++ d.more)

def named (d : DiskDevice w) : Str := spaces (d.nameGap + 1) ++ (d.name ++ d.columns)

def row (d : DiskDevice w) : Str :=
  decimal d.major.toNat ++ (spaces (d.minorGap + 1) ++ (decimal d.minor.toNat ++ d.named))

def line (d : DiskDevice w) : Str := spaces d.indent ++ d.row

def counter (d : DiskDevice w) (k : Nat) : BitVec w := (d.counters.map Prod.snd).getD k 0#w

def stats (d : DiskDevice w) : BlockDeviceStats w where
  name := d.name
  readIos := d.counter 0
  readMerges := d.counter 1
  readSectors := d.counter 2
  readTicks := d.counter 3
  writeIos := d.counter 4
  writeMerges := d.counter 5
  writeSectors := d.counter 6
  writeTicks := d.counter 7
  inFlight := d.counter 8
  ioTicks := d.counter 9
  timeInQueue := d.counter 10

end DiskDevice

/-! ## One line -/

variable {w : Nat}

theorem skip_diskDevice_row (d : DiskDevice w) : skip d.row = d.row :=
  skip_spaces_decimal 0 d.major.toNat _

theorem skip_diskDevice_line (d : DiskDevice w) : skip d.line = d.row := by
  rw [DiskDevice.line, skip_append_of_multispace (spaces_multispace _), skip_diskDevice_row]

theorem diskDevice_row_body (d : DiskDevice w) : LineBody d.row := by
  have hname : LineBody d.name :=
    .of_not_multispace fun c hc => not_multispace_of_printable (d.name_printable c hc)
  have hnamed : LineBody d.named := (spaces_body _).append (hname.append (columns_body _))
  exact (decimal_body _).append ((spaces_body _).append ((decimal_body _).append hnamed))

theorem diskDevice_line_body (d : DiskDevice w) : LineBody d.line :=
  (spaces_body _).append (diskDevice_row_body d)

theorem skip_diskDevice_named (d : DiskDevice w) : skip d.named = d.name ++ d.columns := by
  obtain ⟨c, cs, hname⟩ := List.exists_cons_of_ne_nil d.name_ne
  have hc := not_multispace_of_printable (d.name_printable c (by rw [hname]; simp))
  rw [DiskDevice.named, skip_append_of_multispace (spaces_multispace _), hname]
  exact skip_cons_of_not_multispace hc _

/-- The counters are read past the name, whatever columns come after them. -/
theorem procDiskstatsLine_row (d : DiskDevice w) :
    ∃ rest, Yields (procDiskstatsLine w) d.row rest d.stats := by
  have hmajor : Yields (usizeS w) (skip d.row)
      (skip (spaces (d.minorGap + 1) ++ (decimal d.minor.toNat ++ d.named))) d.major :=
    usizeS_toNat d.major ((skip_skip _).trans (skip_diskDevice_row d))
      fun c hc => spaces_head hc ▸ rfl
  have hminor : Yields (usizeS w)
      (skip (spaces (d.minorGap + 1) ++ (decimal d.minor.toNat ++ d.named)))
      (skip d.named) d.minor :=
    usizeS_toNat d.minor ((skip_skip _).trans (skip_spaces_decimal _ _ _))
      fun c hc => spaces_head hc ▸ rfl
  have hname : Yields wordS (skip d.named) d.columns d.name :=
    skip_diskDevice_named d ▸
      wordS_yields (fun c hc => not_isSpace_of_printable (d.name_printable c hc))
        fun c hc => columns_head hc ▸ rfl
  obtain ⟨indent, major, minorGap, minor, nameGap, name, name_ne, name_printable, counters,
    eleven, more⟩ := d
  match counters, eleven with
  | [c₀, c₁, c₂, c₃, c₄, c₅, c₆, c₇, c₈, c₉, c₁₀], _ =>
      refine ⟨skip (skip (columns more)), ws_yields ?_⟩
      exact hmajor.bind <| hminor.bind <| hname.bind <|
        (usizeS_column c₀.1 c₀.2 _ rfl).bind <|
        (usizeS_column c₁.1 c₁.2 _ (skip_skip _)).bind <|
        (usizeS_column c₂.1 c₂.2 _ (skip_skip _)).bind <|
        (usizeS_column c₃.1 c₃.2 _ (skip_skip _)).bind <|
        (usizeS_column c₄.1 c₄.2 _ (skip_skip _)).bind <|
        (usizeS_column c₅.1 c₅.2 _ (skip_skip _)).bind <|
        (usizeS_column c₆.1 c₆.2 _ (skip_skip _)).bind <|
        (usizeS_column c₇.1 c₇.2 _ (skip_skip _)).bind <|
        (usizeS_column c₈.1 c₈.2 _ (skip_skip _)).bind <|
        (usizeS_column c₉.1 c₉.2 _ (skip_skip _)).bind <|
        (usizeS_column c₁₀.1 c₁₀.2 _ (skip_skip _)).bind (.pure _ _)

/-! ## The whole file -/

theorem procDiskstats_item (w : Nat) :
    IsLineItem (ws (mapRes notLineEnding fun input => (procDiskstatsLine w input).value?))
      fun input => (procDiskstatsLine w input).value? :=
  ws_mapRes_isLineItem rfl

/-- What the closure of the repetition makes of a line. -/
def procDiskstatsEntry (w : Nat) (input : Str) : Option (BlockDeviceStats w) :=
  (procDiskstatsLine w input).value?

/-- Every text has a list of devices, up to the first line that cannot be read. -/
theorem procDiskstats_yields (w : Nat) (s : Str) : ∃ rest,
    Yields (procDiskstats w) s rest (collectOk (readable (procDiskstatsEntry w)) (textItems s)) :=
  (procDiskstats_item w).many0_yields s

/-- A line that begins with two numbers and a name, and has any columns behind them. -/
def diskLine (indent minorGap nameGap : Nat) (major minor : BitVec w) (name : Str)
    (cs : List (Nat × Nat)) : Str :=
  spaces indent ++ (decimal major.toNat ++ (spaces (minorGap + 1) ++ (decimal minor.toNat ++
    (spaces (nameGap + 1) ++ (name ++ columns cs)))))

/-- It is read exactly when eleven of the columns are there and fit a word. -/
theorem readable_diskLine_iff {indent minorGap nameGap : Nat} {major minor : BitVec w} {name : Str}
    (hne : name ≠ []) (hname : ∀ c ∈ name, isPrintable c = true) (cs : List (Nat × Nat)) :
    (readable (procDiskstatsEntry w)
      (diskLine indent minorGap nameGap major minor name cs)).isSome ↔ ColumnsFit w 11 cs := by
  have hwords : LineBody name :=
    .of_not_multispace fun c hc => not_multispace_of_printable (hname c hc)
  have hbody : LineBody (diskLine indent minorGap nameGap major minor name cs) :=
    (spaces_body _).append ((decimal_body _).append ((spaces_body _).append
      ((decimal_body _).append ((spaces_body _).append (hwords.append (columns_body _))))))
  have hskip : skip (spaces (nameGap + 1) ++ (name ++ columns cs)) = name ++ columns cs := by
    obtain ⟨c, u, rfl⟩ := List.exists_cons_of_ne_nil hne
    have hc := not_multispace_of_printable (hname c List.mem_cons_self)
    rw [skip_append_of_multispace (spaces_multispace _)]
    exact skip_cons_of_not_multispace hc _
  have hread : ReadsIff (procDiskstatsLine w)
      (diskLine indent minorGap nameGap major minor name cs) (ColumnsFit w 11 cs) := by
    refine readsIff_ws ?_
    refine .bind (usizeS_toNat major ((skip_skip _).trans (skip_spaces_decimal indent _ _))
      fun c hc => spaces_head hc ▸ rfl) ?_
    refine .bind (usizeS_toNat minor ((skip_skip _).trans (skip_spaces_decimal _ _ _))
      fun c hc => spaces_head hc ▸ rfl) ?_
    rw [hskip]
    refine .bind (wordS_yields (fun c hc => not_isSpace_of_printable (hname c hc))
      fun c hc => columns_head hc ▸ rfl) ?_
    refine readsIff_column rfl fun readIos cs => ?_
    refine readsIff_column (skip_skip _) fun readMerges cs => ?_
    refine readsIff_column (skip_skip _) fun readSectors cs => ?_
    refine readsIff_column (skip_skip _) fun readTicks cs => ?_
    refine readsIff_column (skip_skip _) fun writeIos cs => ?_
    refine readsIff_column (skip_skip _) fun writeMerges cs => ?_
    refine readsIff_column (skip_skip _) fun writeSectors cs => ?_
    refine readsIff_column (skip_skip _) fun writeTicks cs => ?_
    refine readsIff_column (skip_skip _) fun inFlight cs => ?_
    refine readsIff_column (skip_skip _) fun ioTicks cs => ?_
    refine readsIff_column (skip_skip _) fun timeInQueue cs => ?_
    exact .pure (columnsFit_zero w cs) _ _
  rw [readable_of_not_mem _ hbody.not_mem_cr]
  exact hread.isSome_value?_iff

theorem diskDevice_readsLine (d : DiskDevice w) :
    ReadsLine (fun input => (procDiskstatsLine w input).value?) d.line d.stats where
  body := diskDevice_line_body d
  nonempty := by
    obtain ⟨c, cs, hmajor, _⟩ := isDigits_head (decimal_isDigits d.major.toNat)
    rw [skip_diskDevice_line, DiskDevice.row, hmajor]
    exact List.cons_ne_nil _ _
  reads := by
    obtain ⟨rest, hy⟩ := procDiskstatsLine_row d
    rw [skip_diskDevice_line]
    exact hy.value?

theorem procDiskstats_file (ds : List (DiskDevice w)) :
    Yields (procDiskstats w) (unlines (ds.map DiskDevice.line)) [] (ds.map DiskDevice.stats) :=
  ((procDiskstats_item w).reads_rendered fun d _ => diskDevice_readsLine d).many0

/-- A name keeps what the map has for it, or else gets its first device. -/
theorem getElem?_foldl_orInsert (ds : List (DiskDevice w)) (map : BlockDeviceMap w) (name : Str) :
    ((ds.map DiskDevice.stats).foldl orInsert map)[name]? =
      map[name]?.or ((ds.find? fun d => d.name == name).map DiskDevice.stats) := by
  induction ds generalizing map with
  | nil => simp
  | cons d ds ih =>
      have hname : compare d.stats.name name = .eq ↔ d.name = name := Std.compare_eq_iff_eq
      rw [List.map_cons, List.foldl_cons, ih, orInsert, Std.TreeMap.getElem?_insertIfNew]
      by_cases hd : d.name = name
      · subst hd
        rw [List.find?_cons_of_pos (by simp)]
        by_cases hm : d.name ∈ map
        · rw [if_neg fun h => h.2 hm]
          obtain ⟨stats, hstats⟩ :=
            Option.isSome_iff_exists.mp (Std.TreeMap.mem_iff_isSome_getElem?.mp hm)
          simp [hstats]
        · have hnone : map[d.name]? = none := Std.TreeMap.getElem?_eq_none hm
          rw [if_pos ⟨hname.mpr rfl, hm⟩, hnone]
          simp
      · rw [if_neg fun h => hd (hname.mp h.1), List.find?_cons_of_neg (by simpa using hd)]

/-- Round trip: the devices in order with every counter in its place, and the map
of the first device of each name. -/
theorem procDiskstats_render (ds : List (DiskDevice w)) :
    Yields (procDiskstats w) (unlines (ds.map DiskDevice.line)) [] (ds.map DiskDevice.stats) ∧
      ∀ files : Files,
        readFile files "/proc/diskstats" = .ok (unlines (ds.map DiskDevice.line)) →
        ∃ result, blockDeviceStatistics w files = .ok result ∧
          ∀ name : Str, result[name]? =
            (ds.find? fun d => d.name == name).map DiskDevice.stats := by
  refine ⟨procDiskstats_file ds, fun files hread => ?_⟩
  refine ⟨(ds.map DiskDevice.stats).foldl orInsert ∅, ?_, fun name => ?_⟩
  · have hparsed := parsed_yields (procDiskstats_file ds)
    simp only [blockDeviceStatistics, hread, bind, Except.bind, hparsed]
    rfl
  · rw [getElem?_foldl_orInsert, Std.TreeMap.getElem?_emptyc, Option.none_or]

/-- A disk, its partition, and another disk with the name of the first. -/
def namedTwice : List (DiskDevice 64) :=
  [⟨3, 8, 6, 0, 0, "sda".toList, by decide, List.all_eq_true.mp (by decide),
      [(0, 9), (0, 1), (2, 70), (0, 4), (0, 5), (0, 6), (0, 77), (0, 8), (0, 0), (0, 10), (0, 11)],
      rfl, []⟩,
    ⟨3, 8, 6, 1, 0, "sda1".toList, by decide, List.all_eq_true.mp (by decide),
      [(0, 1), (0, 1), (0, 1), (0, 1), (0, 1), (0, 1), (0, 1), (0, 1), (0, 0), (0, 1), (0, 1)],
      rfl, [(0, 0), (0, 0)]⟩,
    ⟨2, 253, 5, 0, 0, "sda".toList, by decide, List.all_eq_true.mp (by decide),
      [(0, 2), (0, 2), (0, 2), (0, 2), (0, 2), (0, 2), (0, 2), (0, 2), (0, 0), (0, 2), (0, 2)],
      rfl, []⟩]

theorem procDiskstats_render_namedTwice : ∃ result : BlockDeviceMap 64,
    blockDeviceStatistics 64 (fun _ => .ok (unlines (namedTwice.map DiskDevice.line))) =
      .ok result ∧
    result["sda".toList]? = some ⟨"sda".toList, 9, 1, 70, 4, 5, 6, 77, 8, 0, 10, 11⟩ ∧
    result["sdb".toList]? = none := by
  obtain ⟨result, hresult, hnames⟩ := (procDiskstats_render namedTwice).2
    (fun _ => .ok (unlines (namedTwice.map DiskDevice.line))) rfl
  exact ⟨result, hresult, hnames _, hnames _⟩

end Systemstat.Linux
