import Systemstat.Linux.MountAt

/-! # Mount names

The kernel writes a space, tab, newline or backslash of a mount name as an octal
escape. The parser returns the fields as they stand in the text, so a name comes
back as it was exactly when it had no such character.
-/

namespace Systemstat.Linux

open Nom Text

/-! ## The kernel's encoding -/

def escapeChar : Char → Str
  | ' ' => "\\040".toList
  | '\t' => "\\011".toList
  | '\n' => "\\012".toList
  | '\\' => "\\134".toList
  | c => [c]

def mangle (name : Str) : Str := name.flatMap escapeChar

/-- An escaped character becomes four visible ones, any other stays itself. -/
theorem escapeChar_cases (c : Char) :
    (isEscaped c = true ∧ (escapeChar c).length = 4 ∧
      (escapeChar c).all isPrintable = true) ∨
    (isEscaped c = false ∧ escapeChar c = [c]) := by
  unfold escapeChar
  split
  · exact .inl (by decide)
  · exact .inl (by decide)
  · exact .inl (by decide)
  · exact .inl (by decide)
  · exact .inr ⟨by simp_all [isEscaped], rfl⟩

theorem length_le_mangle (name : Str) : name.length ≤ (mangle name).length := by
  induction name with
  | nil => simp [mangle]
  | cons c name ih =>
      have hcons : mangle (c :: name) = escapeChar c ++ mangle name := List.flatMap_cons
      rw [hcons, List.length_append, List.length_cons]
      rcases escapeChar_cases c with ⟨_, hlen, _⟩ | ⟨_, hc⟩
      · omega
      · rw [hc, List.length_singleton]
        omega

theorem mangle_eq_self_iff (name : Str) : mangle name = name ↔ ∀ c ∈ name, isEscaped c = false := by
  induction name with
  | nil => simp [mangle]
  | cons c name ih =>
      have hcons : mangle (c :: name) = escapeChar c ++ mangle name := List.flatMap_cons
      have hle := length_le_mangle name
      rw [hcons]
      rcases escapeChar_cases c with ⟨hesc, hlen, _⟩ | ⟨hesc, hc⟩
      · constructor
        · intro h
          have hlength := congrArg List.length h
          rw [List.length_append, List.length_cons] at hlength
          omega
        · intro h
          rw [h c List.mem_cons_self] at hesc
          cases hesc
      · rw [hc, List.singleton_append, List.cons_inj_right, ih]
        simp [hesc]

/-! ## The rendered table -/

/-- A non-empty name over the visible ASCII characters, space, tab and newline. -/
structure MountName where
  chars : Str
  chars_ne : chars ≠ []
  ascii : chars.all (fun c => isPrintable c || isEscaped c) = true

structure MountRow where
  source : MountName
  target : MountName
  fstype : MountName
  others : List Str
  others_body : ∀ f ∈ others, LineBody f

namespace MountRow

def line (r : MountRow) : Str :=
  [' '].intercalate
    (mangle r.source.chars :: mangle r.target.chars :: mangle r.fstype.chars :: r.others)

/-- The mount under its real names. -/
def data (r : MountRow) : ProcMountsData := ⟨r.source.chars, r.target.chars, r.fstype.chars⟩

/-- The mount as its line spells it. -/
def spelled (r : MountRow) : ProcMountsData :=
  ⟨mangle r.source.chars, mangle r.target.chars, mangle r.fstype.chars⟩

def names (r : MountRow) : Str := r.source.chars ++ (r.target.chars ++ r.fstype.chars)

end MountRow

def renderMounts (rows : List MountRow) : Str := unlines (rows.map MountRow.line)

/-! ## One line -/

theorem mangle_printable (n : MountName) : ∀ c ∈ mangle n.chars, isPrintable c = true := by
  intro d hd
  obtain ⟨c, hc, hd⟩ := List.mem_flatMap.mp hd
  rcases escapeChar_cases c with ⟨_, _, hprint⟩ | ⟨hesc, heq⟩
  · exact List.all_eq_true.mp hprint d hd
  · rw [heq, List.mem_singleton] at hd
    have hascii := List.all_eq_true.mp n.ascii c hc
    rwa [hesc, Bool.or_false, ← hd] at hascii

theorem mangle_ne_nil (n : MountName) : mangle n.chars ≠ [] := by
  have hlen := length_le_mangle n.chars
  have hpos := List.length_pos_iff.mpr n.chars_ne
  exact List.length_pos_iff.mp (by omega)

theorem skip_mangle (n : MountName) (t : Str) :
    skip (mangle n.chars ++ t) = mangle n.chars ++ t := by
  obtain ⟨c, cs, hcs⟩ := List.exists_cons_of_ne_nil (mangle_ne_nil n)
  have hc := not_multispace_of_printable (mangle_printable n c (by rw [hcs]; simp))
  rw [hcs]
  exact skip_cons_of_not_multispace hc _

/-- A spelled name is the first word where it stands. -/
theorem words_mangle (n : MountName) {t : Str}
    (ht : ∀ c, t.head? = some c → isSpace (asU8 c) = true) :
    firstWord (mangle n.chars ++ t) = mangle n.chars ∧
      afterWord (mangle n.chars ++ t) = skip t := by
  have hword : Yields wordS (skip (mangle n.chars ++ t)) t (mangle n.chars) := by
    rw [skip_mangle]
    exact wordS_yields (fun c hc => not_isSpace_of_printable (mangle_printable n c hc)) ht
  obtain ⟨hafter, hfirst⟩ := (ws_wordS_yields _).unique (ws_yields hword)
  exact ⟨hfirst, hafter⟩

/-- A line from one of its names: the name, and a space before what follows it. -/
theorem intercalate_cons (f : Str) (fs : List Str) :
    ∃ t, [' '].intercalate (f :: fs) = f ++ t ∧ ∀ c, t.head? = some c → c = ' ' := by
  cases fs with
  | nil => exact ⟨[], by simp, by simp⟩
  | cons g fs =>
      refine ⟨' ' :: [' '].intercalate (g :: fs), by simp, ?_⟩
      intro c hc
      rw [List.head?_cons, Option.some.injEq] at hc
      exact hc.symm

theorem mountRow_line_eq (r : MountRow) : ∃ t, (∀ c, t.head? = some c → c = ' ') ∧
    r.line = mangle r.source.chars ++ (' ' :: (mangle r.target.chars ++
      (' ' :: (mangle r.fstype.chars ++ t)))) := by
  obtain ⟨t, ht, hhead⟩ := intercalate_cons (mangle r.fstype.chars) r.others
  refine ⟨t, hhead, ?_⟩
  rw [MountRow.line, List.intercalate_cons_cons, List.intercalate_cons_cons, ht]
  simp

theorem mountOf_line (r : MountRow) : mountOf r.line = r.spelled := by
  obtain ⟨t, ht, hline⟩ := mountRow_line_eq r
  have hspace : ∀ s : Str, ∀ c, (' ' :: s).head? = some c → isSpace (asU8 c) = true := by
    intro s c hc
    rw [List.head?_cons, Option.some.injEq] at hc
    subst hc
    rfl
  obtain ⟨hsource, hafter₁⟩ := words_mangle r.source (hspace (mangle r.target.chars ++
    (' ' :: (mangle r.fstype.chars ++ t))))
  obtain ⟨htarget, hafter₂⟩ := words_mangle r.target (hspace (mangle r.fstype.chars ++ t))
  obtain ⟨hfstype, _⟩ := words_mangle r.fstype (t := t) fun c hc => ht c hc ▸ rfl
  rw [skip_cons_of_multispace rfl, skip_mangle] at hafter₁ hafter₂
  rw [hline, mountOf, hsource, hafter₁, htarget, hafter₂, hfstype, MountRow.spelled]

theorem mangle_body (n : MountName) : LineBody (mangle n.chars) :=
  .of_not_multispace fun c hc => not_multispace_of_printable (mangle_printable n c hc)

theorem mountRow_line_body (r : MountRow) : LineBody r.line := by
  intro c hc
  rcases mem_intercalate hc with hc | ⟨f, hf, hc⟩
  · rw [List.mem_singleton.mp hc]
    rfl
  · simp only [List.mem_cons] at hf
    rcases hf with rfl | rfl | rfl | hf
    · exact mangle_body _ c hc
    · exact mangle_body _ c hc
    · exact mangle_body _ c hc
    · exact r.others_body f hf c hc

theorem mountRow_readsLine (r : MountRow) : ReadsLine procMountsEntry r.line r.spelled := by
  obtain ⟨t, _, hline⟩ := mountRow_line_eq r
  have hskip : skip r.line = r.line := by rw [hline, skip_mangle]
  have hne : r.line ≠ [] := by
    rw [hline]
    exact List.append_ne_nil_of_left_ne_nil (mangle_ne_nil r.source) _
  exact {
    body := mountRow_line_body r
    nonempty := by rwa [hskip]
    reads := by rw [hskip, procMountsEntry_eq hne, mountOf_line] }

/-! ## The whole table -/

theorem procMounts_rows (first : MountRow) (rows : List MountRow) :
    Yields procMounts (renderMounts (first :: rows)) []
      ((first :: rows).map MountRow.spelled) :=
  (procMounts_item.reads_rendered fun r _ => mountRow_readsLine r).many1 (by simp)

/-- The names come back: every mount in order under its real names, so that
`mount_at` finds a mount for every target and stats it by its real path. -/
def NamesSurvive (rows : List MountRow) : Prop :=
  ∃ rest entries, Yields procMounts (renderMounts rows) rest entries ∧
    entries = rows.map MountRow.data ∧
    ∀ r ∈ rows, ∃ mount, findMount entries (utf8 r.target.chars) = some mount ∧
      samePath (statPath mount) (utf8 r.target.chars) = true

theorem spelled_eq_data_iff (r : MountRow) :
    r.spelled = r.data ↔ ∀ c ∈ r.names, isEscaped c = false := by
  simp only [MountRow.spelled, MountRow.data, ProcMountsData.mk.injEq, mangle_eq_self_iff,
    MountRow.names, List.mem_append]
  constructor
  · rintro ⟨hsource, htarget, hfstype⟩ c (hc | hc | hc)
    · exact hsource c hc
    · exact htarget c hc
    · exact hfstype c hc
  · exact fun h => ⟨fun c hc => h c (.inl hc), fun c hc => h c (.inr (.inl hc)),
      fun c hc => h c (.inr (.inr hc))⟩

theorem statPath_data (r : MountRow) : statPath r.data = utf8 r.target.chars := by
  apply cString_utf8
  intro hm
  have := List.all_eq_true.mp r.target.ascii _ hm
  revert this
  decide

/-- A table of real names has a mount for each of its targets. -/
theorem findMount_data {rows : List MountRow} {r : MountRow} (hr : r ∈ rows) :
    ∃ mount, findMount (rows.map MountRow.data) (utf8 r.target.chars) = some mount ∧
      samePath (statPath mount) (utf8 r.target.chars) = true := by
  have hsome : (findMount (rows.map MountRow.data) (utf8 r.target.chars)).isSome = true := by
    rw [findMount, List.find?_isSome]
    exact ⟨r.data, List.mem_map_of_mem hr, samePath_refl _⟩
  obtain ⟨mount, hmount⟩ := Option.isSome_iff_exists.mp hsome
  have hsame := List.find?_some hmount
  obtain ⟨s, _, rfl⟩ := List.mem_map.mp (List.mem_of_find?_eq_some hmount)
  exact ⟨s.data, hmount, statPath_data s ▸ hsame⟩

/-- The names survive exactly when none of them has a space, tab, newline or backslash. -/
theorem namesSurvive_iff (first : MountRow) (rows : List MountRow) :
    NamesSurvive (first :: rows) ↔
      ∀ r ∈ first :: rows, ∀ c ∈ r.names, isEscaped c = false := by
  have hmap : (first :: rows).map MountRow.spelled = (first :: rows).map MountRow.data ↔
      ∀ r ∈ first :: rows, ∀ c ∈ r.names, isEscaped c = false := by
    rw [List.map_inj_left]
    exact forall₂_congr fun r _ => spelled_eq_data_iff r
  rw [← hmap]
  constructor
  · rintro ⟨rest, entries, hy, hentries, _⟩
    rw [← hentries]
    exact ((procMounts_rows first rows).unique hy).2
  · intro h
    have hy := procMounts_rows first rows
    rw [h] at hy
    exact ⟨[], _, hy, rfl, fun r hr => findMount_data hr⟩

/-- A volume whose mount point has a space in its name. -/
def myDisk : MountRow where
  source := ⟨"/dev/sdb1".toList, by decide, by decide⟩
  target := ⟨"/mnt/My Disk".toList, by decide, by decide⟩
  fstype := ⟨"vfat".toList, by decide, by decide⟩
  others := ["rw".toList, "0".toList, "0".toList]
  others_body := by decide

theorem namesSurvive_space :
    ¬ ∀ (first : MountRow) (rows : List MountRow), NamesSurvive (first :: rows) := by
  intro h
  obtain ⟨rest, entries, hy, hentries, _⟩ := h myDisk []
  have hspelled := ((procMounts_rows myDisk []).unique hy).2
  rw [hentries] at hspelled
  revert hspelled
  decide

end Systemstat.Linux
