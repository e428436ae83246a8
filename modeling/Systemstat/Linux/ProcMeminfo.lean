import Systemstat.Linux.Tokens
import Mathlib.Data.List.Induction

/-! # `/proc/meminfo`

The parser of the sized lines, which lets a line without a unit pass, and the
round trip with the file as the kernel writes it.
-/

namespace Systemstat.Linux

open Nom Text

/-- Parse a `/proc/meminfo` line into (key, ByteSize). -/
def procMeminfoLine (w : Nat) : Parser (Str × ByteSize) :=
  complete (map
    (pair (takeUntil ":".toList) (delimited (tag ":".toList) (usizeS w) (ws (tag "kB".toList))))
    fun (key, value) => (key, ByteSize.kib (value.setWidth 64)))

def procMeminfoLineOpt (w : Nat) : Parser (Option (Str × ByteSize)) := opt (procMeminfoLine w)

abbrev MemInfoMap := Std.TreeMap Str ByteSize

def insertSized (map : MemInfoMap) : Option (Str × ByteSize) → MemInfoMap
  | some (key, val) => map.insert key val
  | none => map

def procMeminfo (w : Nat) : Parser MemInfoMap :=
  foldMany0
    (mapRes (verify (ws notLineEnding) fun item => !item.isEmpty)
      fun input => (procMeminfoLineOpt w input).value?)
    ∅ insertSized

/-! ## The rendered file -/

structure MemInfoLine (w : Nat) where
  key : Str
  key_ne : key ≠ []
  key_plain : ∀ c ∈ key, c ≠ ':' ∧ isMultispace c = false
  gap : Nat
  value : Nat
  sized : Bool
  sized_fits : sized = true → value < 2 ^ w ∧ value * 1024 < 2 ^ 64

namespace MemInfoLine

variable {w : Nat}

def unit (l : MemInfoLine w) : Str := if l.sized then " kB".toList else []

def line (l : MemInfoLine w) : Str :=
  l.key ++ ':' :: (spaces l.gap ++ (decimal l.value ++ l.unit))

def entry (l : MemInfoLine w) : Option (Str × ByteSize) :=
  if l.sized then some (l.key, ⟨BitVec.ofNat 64 (l.value * 1024)⟩) else none

end MemInfoLine

/-! ## One line -/

variable {w : Nat}

theorem skip_memInfoLine (l : MemInfoLine w) : skip l.line = l.line := by
  obtain ⟨c, cs, hkey⟩ := List.exists_cons_of_ne_nil l.key_ne
  have hc := (l.key_plain c (by rw [hkey]; exact List.mem_cons_self)).2
  rw [MemInfoLine.line, hkey, List.cons_append]
  exact skip_cons_of_not_multispace hc _

theorem memInfoLine_ne_nil (l : MemInfoLine w) : l.line ≠ [] := by
  simp [MemInfoLine.line]

theorem memInfoLine_unit_body (l : MemInfoLine w) : LineBody l.unit := by
  unfold MemInfoLine.unit
  cases l.sized with
  | false => exact (by decide : LineBody [])
  | true => exact (by decide : LineBody " kB".toList)

theorem memInfoLine_body (l : MemInfoLine w) : LineBody l.line := by
  have hkey : LineBody l.key := .of_not_multispace fun c hc => (l.key_plain c hc).2
  have hvalue : LineBody (spaces l.gap ++ (decimal l.value ++ l.unit)) :=
    (spaces_body _).append ((decimal_body _).append (memInfoLine_unit_body l))
  exact hkey.append (hvalue.cons rfl)

theorem kib_ofNat {n : Nat} (hn : n < 2 ^ w) :
    ByteSize.kib ((BitVec.ofNat w n).setWidth 64) = ⟨BitVec.ofNat 64 (n * 1024)⟩ := by
  have hcast : (BitVec.ofNat w n).setWidth 64 = BitVec.ofNat 64 n := by
    apply BitVec.eq_of_toNat_eq
    rw [BitVec.toNat_setWidth, BitVec.toNat_ofNat, BitVec.toNat_ofNat, Nat.mod_eq_of_lt hn]
  rw [ByteSize.kib, hcast, BitVec.ofNat_mul]

theorem takeUntil_memInfoLine (l : MemInfoLine w) : Yields (takeUntil ":".toList) l.line
    (":".toList ++ (spaces l.gap ++ (decimal l.value ++ l.unit))) l.key :=
  takeUntil_yields fun h => (l.key_plain _ h).1 rfl

theorem procMeminfoLine_yields {l : MemInfoLine w} (hs : l.sized = true) :
    Yields (procMeminfoLine w) l.line [] (l.key, ⟨BitVec.ofNat 64 (l.value * 1024)⟩) := by
  have hunit : l.unit = " kB".toList := by rw [MemInfoLine.unit, if_pos hs]
  have hvalue : Yields (usizeS w) (spaces l.gap ++ (decimal l.value ++ l.unit))
      (skip l.unit) (BitVec.ofNat w l.value) := by
    refine usizeS_decimal (l.sized_fits hs).1 (skip_spaces_decimal _ _ _) fun c hc => ?_
    rw [hunit] at hc
    cases hc
    rfl
  have hkb : Yields (ws (tag "kB".toList)) (skip l.unit) [] "kB".toList := by
    rw [hunit]
    rfl
  have hpair := (takeUntil_memInfoLine l).pair ((tag_yields ":".toList _).delimited hvalue hkb)
  rw [← kib_ofNat (l.sized_fits hs).1]
  exact (hpair.map _).complete

/-- Without its unit a line is refused, whether or not its value fits. -/
theorem procMeminfoLine_fails {l : MemInfoLine w} (hs : l.sized = false) :
    Fails (procMeminfoLine w) l.line := by
  have hunit : l.unit = [] := by rw [MemInfoLine.unit, hs]; rfl
  have hskip := skip_spaces_decimal l.gap l.value l.unit
  have hend : ∀ c, l.unit.head? = some c → c.isDigit = false := by
    rw [hunit]
    exact fun c hc => nomatch hc
  have hsized : Fails (delimited (tag ":".toList) (usizeS w) (ws (tag "kB".toList)))
      (":".toList ++ (spaces l.gap ++ (decimal l.value ++ l.unit))) := by
    have htag := tag_yields ":".toList (spaces l.gap ++ (decimal l.value ++ l.unit))
    rcases Nat.lt_or_ge l.value (2 ^ w) with hlt | hge
    · refine htag.delimited_fails_third (usizeS_decimal hlt hskip hend) (ws_fails (tag_fails ?_))
      rw [hunit]
      decide
    · exact htag.delimited_fails _ (usizeS_fails_of_le hskip (decimal_isDigits _) hend
        (by rwa [ofDigitChars_decimal]))
  exact (((takeUntil_memInfoLine l).pair_fails hsized).map _).complete

theorem procMeminfoLineOpt_line (l : MemInfoLine w) :
    (procMeminfoLineOpt w l.line).value? = some l.entry := by
  unfold MemInfoLine.entry
  cases hs : l.sized with
  | false => exact (procMeminfoLine_fails hs).opt.value?
  | true => exact (procMeminfoLine_yields hs).opt.value?

/-! ## The whole file -/

/-- What one turn of the fold makes of a line: only an empty one ends it. -/
def procMeminfoItem (w : Nat) (item : Str) : Option (Option (Str × ByteSize)) :=
  if item.isEmpty then none else (procMeminfoLineOpt w item).value?

theorem procMeminfo_item (w : Nat) :
    IsLineItem (mapRes (verify (ws notLineEnding) fun item => !item.isEmpty)
      fun input => (procMeminfoLineOpt w input).value?) (procMeminfoItem w) :=
  ws_verify_isLineItem _

/-- Every text has a map, of its lines up to the first with a lone carriage return. -/
theorem procMeminfo_yields (w : Nat) (s : Str) : ∃ rest, Yields (procMeminfo w) s rest
    ((collectOk (readable (procMeminfoItem w)) (textItems s)).foldl insertSized ∅) :=
  (procMeminfo_item w).foldMany0_yields ∅ insertSized s

theorem memInfoLine_readsLine (l : MemInfoLine w) :
    ReadsLine (procMeminfoItem w) l.line l.entry where
  body := memInfoLine_body l
  nonempty := by
    rw [skip_memInfoLine]
    exact memInfoLine_ne_nil l
  reads := by
    rw [skip_memInfoLine, procMeminfoItem, List.isEmpty_eq_false_iff.mpr (memInfoLine_ne_nil l)]
    exact procMeminfoLineOpt_line l

/-! ## The map -/

theorem mem_foldl_insertSized {key : Str} (es : List (Option (Str × ByteSize)))
    (map : MemInfoMap) : key ∈ es.foldl insertSized map ↔
      key ∈ map ∨ ∃ size, some (key, size) ∈ es := by
  induction es generalizing map with
  | nil => simp
  | cons e es ih =>
      rw [List.foldl_cons, ih]
      cases e with
      | none => simp [insertSized]
      | some kv =>
          obtain ⟨k, v⟩ := kv
          simp only [insertSized, Std.TreeMap.mem_insert, Std.compare_eq_iff_eq, List.mem_cons,
            Option.some.injEq, Prod.mk.injEq]
          constructor
          · rintro ((rfl | h) | ⟨size, h⟩)
            · exact .inr ⟨v, .inl ⟨rfl, rfl⟩⟩
            · exact .inl h
            · exact .inr ⟨size, .inr h⟩
          · rintro (h | ⟨size, ⟨rfl, rfl⟩ | h⟩)
            · exact .inl (.inr h)
            · exact .inl (.inl rfl)
            · exact .inr ⟨size, h⟩

def sizeFor (key : Str) (e : Option (Str × ByteSize)) : Option ByteSize :=
  e.bind fun kv => if kv.1 = key then some kv.2 else none

theorem getElem?_insertSized (map : MemInfoMap) (e : Option (Str × ByteSize)) (key : Str) :
    (insertSized map e)[key]? = (sizeFor key e).or map[key]? := by
  cases e with
  | none => rfl
  | some kv =>
      obtain ⟨k, v⟩ := kv
      rw [insertSized, Std.TreeMap.getElem?_insert, sizeFor, Option.bind_some]
      by_cases hk : k = key
      · rw [if_pos (Std.compare_eq_iff_eq.mpr hk), if_pos hk, Option.some_or]
      · rw [if_neg fun h => hk (Std.compare_eq_iff_eq.mp h), if_neg hk, Option.none_or]

theorem getElem?_foldl_insertSized (es : List (Option (Str × ByteSize))) (map : MemInfoMap)
    (key : Str) : (es.foldl insertSized map)[key]? =
      (es.filterMap (sizeFor key)).getLast?.or map[key]? := by
  induction es using List.reverseRecOn with
  | nil => rfl
  | append_singleton es e ih =>
      rw [List.foldl_append, List.foldl_cons, List.foldl_nil, getElem?_insertSized, ih,
        List.filterMap_append, List.getLast?_append, Option.or_assoc]
      cases h : sizeFor key e <;> simp [h]

/-- An entry that no other of its key follows is the one that stays. -/
theorem getElem?_foldl_insertSized_last {key : Str} {size : ByteSize}
    (pre : List (Option (Str × ByteSize))) {post : List (Option (Str × ByteSize))}
    (h : ∀ size, some (key, size) ∉ post) (map : MemInfoMap) :
    ((pre ++ some (key, size) :: post).foldl insertSized map)[key]? = some size := by
  have hpost : post.filterMap (sizeFor key) = [] := by
    rw [List.filterMap_eq_nil_iff]
    rintro (_ | ⟨k, v⟩) hm
    · rfl
    · have hne : k ≠ key := by
        rintro rfl
        exact h v hm
      rw [sizeFor, Option.bind_some, if_neg hne]
  have hsize : sizeFor key (some (key, size)) = some size := if_pos rfl
  rw [getElem?_foldl_insertSized, List.filterMap_append, List.filterMap_cons_some hsize, hpost,
    List.getLast?_concat, Option.some_or]

/-- The file is read line by line into the map of its entries. -/
theorem procMeminfo_file (ls : List (MemInfoLine w)) :
    Yields (procMeminfo w) (unlines (ls.map MemInfoLine.line)) []
      ((ls.map MemInfoLine.entry).foldl insertSized ∅) :=
  ((procMeminfo_item w).reads_rendered fun l _ => memInfoLine_readsLine l).foldMany0 ∅ insertSized

theorem mem_map_entry {ls : List (MemInfoLine w)} {key : Str} :
    (∃ size, some (key, size) ∈ ls.map MemInfoLine.entry) ↔
      ∃ l ∈ ls, l.sized = true ∧ l.key = key := by
  constructor
  · rintro ⟨size, h⟩
    obtain ⟨l, hl, he⟩ := List.mem_map.mp h
    unfold MemInfoLine.entry at he
    by_cases hs : l.sized = true
    · rw [if_pos hs, Option.some.injEq, Prod.mk.injEq] at he
      exact ⟨l, hl, hs, he.1⟩
    · rw [if_neg hs] at he
      cases he
  · rintro ⟨l, hl, hs, rfl⟩
    exact ⟨_, List.mem_map.mpr ⟨l, hl, if_pos hs⟩⟩

/-- Round trip: the whole file is read, the keys are those of the sized lines, and
a key has 1024 times the value of the last sized line that carries it. -/
theorem procMeminfo_render (ls : List (MemInfoLine w)) :
    ∃ map, Yields (procMeminfo w) (unlines (ls.map MemInfoLine.line)) [] map ∧
      (∀ key, key ∈ map ↔ ∃ l ∈ ls, l.sized = true ∧ l.key = key) ∧
      ∀ pre l post, ls = pre ++ l :: post → l.sized = true →
        (∀ m ∈ post, m.sized = true → m.key ≠ l.key) →
        ∃ size, map[l.key]? = some size ∧ size.bytes.toNat = 1024 * l.value := by
  refine ⟨_, procMeminfo_file ls, fun key => ?_, ?_⟩
  · rw [mem_foldl_insertSized, mem_map_entry]
    simp
  · rintro pre l post rfl hs hpost
    have hentry : l.entry = some (l.key, ⟨BitVec.ofNat 64 (l.value * 1024)⟩) := if_pos hs
    have hlast : ∀ size, some (l.key, size) ∉ post.map MemInfoLine.entry := by
      intro size hm
      obtain ⟨m, hm, hms, hkey⟩ := mem_map_entry.mp ⟨size, hm⟩
      exact hpost m hm hms hkey
    refine ⟨⟨BitVec.ofNat 64 (l.value * 1024)⟩, ?_, ?_⟩
    · rw [List.map_append, List.map_cons, hentry]
      exact getElem?_foldl_insertSized_last _ hlast ∅
    · rw [BitVec.toNat_ofNat, Nat.mod_eq_of_lt (l.sized_fits hs).2, Nat.mul_comm]

end Systemstat.Linux
