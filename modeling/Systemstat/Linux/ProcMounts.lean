import Systemstat.Linux.Tokens

/-! # `/proc/mounts`

The parser of the mount table, its equality with a plain reading of the
non-blank lines, and what one line can do to the entries of the others.
-/

namespace Systemstat.Linux

open Nom Text

structure ProcMountsData where
  source : Str
  target : Str
  fstype : Str
  deriving DecidableEq, Repr

def procMountsLine : Parser ProcMountsData := do
  let source ← ws wordS
  let target ← ws wordS
  let fstype ← ws wordS
  return { source, target, fstype }

/-- The closure that the repetition applies to each line. -/
def procMountsEntry (input : Str) : Option ProcMountsData :=
  if input.isEmpty then none else (procMountsLine input).value?

def procMounts : Parser (List ProcMountsData) := many1 (mapRes (ws notLineEnding) procMountsEntry)

/-! ## One line -/

def firstWord (s : Str) : Str := (skip s).takeWhile fun c => !isSpace (asU8 c)

def afterWord (s : Str) : Str := skip ((skip s).dropWhile fun c => !isSpace (asU8 c))

/-- The first three words of a line; a missing word is empty. -/
def mountOf (l : Str) : ProcMountsData where
  source := firstWord l
  target := firstWord (afterWord l)
  fstype := firstWord (afterWord (afterWord l))

theorem ws_wordS_yields (i : Str) : Yields (ws wordS) i (afterWord i) (firstWord i) :=
  ws_yields (takeWhile0_yields _ (skip i))

/-- Every line is an entry, however few words it has. -/
theorem procMountsLine_value (l : Str) : (procMountsLine l).value? = some (mountOf l) :=
  ((ws_wordS_yields l).bind ((ws_wordS_yields _).bind ((ws_wordS_yields _).bind
    (.pure _ (mountOf l))))).value?

/-- Blanks before a line do not change what it says. -/
theorem mountOf_skip (l : Str) : mountOf (skip l) = mountOf l := by
  simp only [mountOf, firstWord, afterWord, skip_skip]

theorem procMountsEntry_eq {u : Str} (hu : u ≠ []) : procMountsEntry u = some (mountOf u) := by
  rw [procMountsEntry, List.isEmpty_eq_false_iff.mpr hu]
  exact procMountsLine_value u

theorem procMounts_item : IsLineItem (mapRes (ws notLineEnding) procMountsEntry) procMountsEntry :=
  ws_notLineEnding_isLineItem rfl

/-- Only a lone carriage return makes a non-blank line unreadable. -/
theorem readable_procMountsEntry {s u : Str} (hu : u ∈ textItems s) :
    readable procMountsEntry u = if '\r' ∈ u then none else some (mountOf u) := by
  rw [readable, procMountsEntry_eq (mem_nonblank.mp hu).1]

/-! ## The plain reading -/

/-- The lines of a text, ended by `'\n'`, `"\r\n"` or the end of the text, that are
not only spaces and tabs. -/
def mountLines (s : Str) : List Str := (lines (dropCr s)).filter fun l => !isBlank l

theorem readable_of_crBeforeLf {s u : Str} (hcr : crBeforeLf s = true) (hu : u ∈ textItems s) :
    readable procMountsEntry u = some (mountOf u) := by
  obtain ⟨_, l, hl, rfl⟩ := mem_nonblank.mp hu
  rw [readable_procMountsEntry hu, if_neg]
  intro hm
  have hml : '\r' ∈ l := (List.dropWhile_suffix isMultispace).subset hm
  exact not_mem_dropCr hcr (mem_of_mem_lines hl _ hml).1

/-- The table is read as a plain reader reads its non-blank lines, and a text of
only whitespace is refused. -/
theorem procMounts_lines (s : Str) :
    (crBeforeLf s = true → mountLines s ≠ [] →
      ∃ entries, Yields procMounts s [] entries ∧
        entries.map some = (mountLines s).map fun l => (procMountsLine l).value?) ∧
    ((∀ c ∈ s, isMultispace c = true) → Fails procMounts s) := by
  constructor
  · intro hcr hne
    have hitems : textItems s = (mountLines s).map skip :=
      textItems_of_not_mem_cr (not_mem_dropCr hcr)
    have hread : ∀ u ∈ textItems s, readable procMountsEntry u = some (mountOf u) :=
      fun u hu => readable_of_crBeforeLf hcr hu
    have hcollect : collectOk (readable procMountsEntry) (textItems s) =
        (mountLines s).map mountOf := by
      rw [collectOk_eq_map hread, hitems, List.map_map]
      exact List.map_congr_left fun l _ => mountOf_skip l
    have hcollected : collectOk (readable procMountsEntry) (textItems s) ≠ [] := by
      simpa [hcollect] using hne
    obtain ⟨rest, hy, hrest⟩ := procMounts_item.many1_yields hcollected
    rw [hrest fun u hu => by rw [hread u hu]; rfl, hcollect] at hy
    refine ⟨_, hy, ?_⟩
    rw [List.map_map]
    exact List.map_congr_left fun l _ => (procMountsLine_value l).symm
  · intro hblank
    apply procMounts_item.many1_fails
    rw [textItems_blank (skip_eq_nil_iff.mpr hblank), collectOk]

/-! ## One mount beside the others -/

/-- The entries that are returned for a text, none when it is refused. -/
def mountEntries (text : Str) : List ProcMountsData := (procMounts text).value?.getD []

theorem mountEntries_eq (text : Str) :
    mountEntries text = collectOk (readable procMountsEntry) (textItems text) := by
  have hvalue : (procMounts text).value? = _ := procMounts_item.many1_value? text
  rw [mountEntries, hvalue]
  cases collectOk (readable procMountsEntry) (textItems text) <;> rfl

def isEscaped (c : Char) : Bool := c == ' ' || c == '\t' || c == '\n' || c == '\\'

/-- A line as the kernel writes it: fields joined by spaces, each without the
characters that it escapes. -/
structure MountFields where
  fields : List Str
  plain : ∀ f ∈ fields, f.any isEscaped = false

def MountFields.line (m : MountFields) : Str := [' '].intercalate m.fields

theorem mountFields_not_mem_lf (m : MountFields) : '\n' ∉ m.line := by
  intro h
  rcases mem_intercalate h with h | ⟨f, hf, h⟩
  · simp at h
  · have hplain := m.plain f hf
    rw [List.any_eq_false] at hplain
    exact hplain _ h rfl

/-- The entries of the lines before and after `l` are the same with it in its
place as without it. -/
def OthersKept (before : List Str) (l after : Str) : Prop :=
  ∃ own rest : List ProcMountsData, own.length ≤ 1 ∧
    mountEntries (unlines before ++ after) = mountEntries (unlines before) ++ rest ∧
    mountEntries (unlines before ++ (l ++ '\n' :: after)) =
      mountEntries (unlines before) ++ (own ++ rest)

/-- Some non-blank line keeps a carriage return that is neither part of its ending
nor of the blanks before it. -/
def hasLoneCr (text : Str) : Bool := (textItems text).any fun u => '\r' ∈ u

theorem readable_eq_none_iff {s u : Str} (hu : u ∈ textItems s) :
    readable procMountsEntry u = none ↔ '\r' ∈ u := by
  rw [readable_procMountsEntry hu]
  by_cases h : '\r' ∈ u <;> simp [h]

theorem hasLoneCr_iff {text : Str} :
    hasLoneCr text = true ↔ ∃ u ∈ textItems text, readable procMountsEntry u = none := by
  rw [hasLoneCr, List.any_eq_true]
  refine exists_congr fun u => and_congr_right fun hu => ?_
  rw [readable_eq_none_iff hu, decide_eq_true_eq]

/-- A mount hides those after it exactly when it has a lone carriage return, none
before it has one, and the next one could be read. -/
theorem othersKept_iff (before : List Str) (l : MountFields) (after : Str) :
    OthersKept before l.line after ↔
      (hasLoneCr (l.line ++ ['\n']) = false ∨ hasLoneCr (unlines before) = true ∨
        ∀ u ∈ (textItems after).head?, '\r' ∈ u) := by
  have hown := textItems_line_length (mountFields_not_mem_lf l)
  have hiff := collectOk_insert_iff (readable procMountsEntry) (textItems (unlines before))
    (textItems after) hown
  simp only [OthersKept, mountEntries_eq, textItems_unlines_append,
    textItems_append_newline l.line after]
  rw [hiff, hasLoneCr_iff, ← Bool.not_eq_true, hasLoneCr_iff, not_exists]
  refine or_congr ?_ (or_congr Iff.rfl ?_)
  · refine forall_congr' fun u => ?_
    rw [not_and, Option.isSome_iff_ne_none]
  · refine forall_congr' fun u => forall_congr' fun hu => ?_
    exact readable_eq_none_iff (List.mem_of_mem_head? hu)

/-- A mount point whose name has a carriage return, before the root. -/
theorem othersKept_carriage_return :
    ¬ ∀ (before : List Str) (l : MountFields) (after : Str), OthersKept before l.line after := by
  intro h
  let l : MountFields :=
    ⟨["/dev/b".toList, "/mnt/a\rb".toList, "ext4".toList, "rw".toList], by decide⟩
  obtain ⟨own, rest, _, hwithout, hwith⟩ := h [] l "/dev/a / ext4 rw\n".toList
  have hroot : mountEntries (unlines [] ++ "/dev/a / ext4 rw\n".toList) =
      [⟨"/dev/a".toList, "/".toList, "ext4".toList⟩] := by decide
  have hnone : mountEntries (unlines [] ++ (l.line ++ '\n' :: "/dev/a / ext4 rw\n".toList)) =
      [] := by decide
  have hempty : mountEntries (unlines []) = [] := by decide
  rw [hempty, hnone, List.nil_append] at hwith
  rw [hempty, hroot, (List.append_eq_nil_iff.mp hwith.symm).2] at hwithout
  cases hwithout

end Systemstat.Linux
