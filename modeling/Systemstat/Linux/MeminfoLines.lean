import Systemstat.Linux.Memory
import Systemstat.Linux.UsizeToken

/-! # The lines of `/proc/meminfo`

Every text has a map. What is in it can be told from the lines of the text: those
before the first with a lone carriage return, and of them the ones with a key, a number
that fits a `usize` and the unit. The last line of a key is the one that counts.
-/

namespace Systemstat.Linux

open Nom Text

variable {w : Nat} {line key rest : Str} {n : Nat}

/-- The key and the number of kibibytes of a line, however large the number is. What
follows the unit does not matter. -/
def kibEntry (line : Str) : Option (Str × Nat) :=
  match line.dropWhile (fun c => c != ':') with
  | [] => none
  | _ :: t =>
      match numberAt t with
      | none => none
      | some (n, rest) =>
          if "kB".toList.isPrefixOf rest then some (line.takeWhile (fun c => c != ':'), n)
          else none

def readEntry (w : Nat) (line : Str) : Option (Str × Nat) :=
  (kibEntry line).filter fun e => e.2 < 2 ^ w

def meminfoLines (s : Str) : List Str := (textItems s).takeWhile fun line => '\r' ∉ line

def readEntries (w : Nat) (s : Str) : List (Str × Nat) :=
  (meminfoLines s).filterMap (readEntry w)

def kibsOf (w : Nat) (s : Str) (key : String) : List Nat :=
  (readEntries w s).filterMap fun e => if e.1 = key.toList then some e.2 else none

/-- The number that counts for a key, zero without a line for it. -/
def lastKib (w : Nat) (s : Str) (key : String) : Nat := (kibsOf w s key).getLastD 0

/-! ## One line -/

/-- The line parser before it converts the number. -/
def keyValue (w : Nat) : Parser (Str × BitVec w) :=
  pair (takeUntil ":".toList) (delimited (tag ":".toList) (usizeS w) (ws (tag "kB".toList)))

theorem kibEntry_of_no_colon (h : line.dropWhile (fun c => c != ':') = []) :
    kibEntry line = none := by
  rw [kibEntry, h]

theorem kibEntry_of_number {t : Str} (h : line.dropWhile (fun c => c != ':') = ':' :: t)
    (hnumber : numberAt t = some (n, rest)) : kibEntry line =
      if "kB".toList.isPrefixOf rest then some (line.takeWhile (fun c => c != ':'), n)
      else none := by
  simp only [kibEntry, h, hnumber]

theorem kibEntry_of_no_number {t : Str} (h : line.dropWhile (fun c => c != ':') = ':' :: t)
    (hnumber : numberAt t = none) : kibEntry line = none := by
  simp only [kibEntry, h, hnumber]

theorem skip_of_numberAt {t : Str} (h : numberAt t = some (n, rest)) : skip rest = rest := by
  obtain ⟨_, _, _, hw, _⟩ := readsNumber_of_numberAt h
  exact hw.after_run.dropWhile_rest

/-- The parser reads a line that has an entry, and fails recoverably on any other. -/
theorem keyValue_cases (w : Nat) (line : Str) :
    (∃ key n rest, readEntry w line = some (key, n) ∧ n < 2 ^ w ∧
      Yields (keyValue w) line rest (key, BitVec.ofNat w n)) ∨
    (readEntry w line = none ∧ Fails (keyValue w) line) := by
  rcases takeUntil_cases ':' line with ⟨hd, hfails⟩ | ⟨t, hd, hyields⟩
  · refine .inr ⟨?_, hfails.pair _⟩
    rw [readEntry, kibEntry_of_no_colon hd, Option.filter_none]
  · have htag : Yields (tag ":".toList) (':' :: t) t ":".toList := tag_yields ":".toList t
    cases hnumber : numberAt t with
    | none =>
        have hvalue := htag.delimited_fails (ws (tag "kB".toList))
          (usizeS_fails_of_numberAt_none (w := w) hnumber)
        refine .inr ⟨?_, hyields.pair_fails hvalue⟩
        rw [readEntry, kibEntry_of_no_number hd hnumber, Option.filter_none]
    | some found =>
        obtain ⟨n, rest⟩ := found
        have hentry := kibEntry_of_number hd hnumber
        have hskip := skip_of_numberAt hnumber
        rcases Nat.lt_or_ge n (2 ^ w) with hlt | hge
        · have hread := usizeS_yields_of_numberAt hnumber hlt
          by_cases hunit : "kB".toList.isPrefixOf rest = true
          · obtain ⟨behind, hbehind⟩ := List.isPrefixOf_iff_prefix.mp hunit
            have hkb : Yields (ws (tag "kB".toList)) rest (skip behind) "kB".toList := by
              apply ws_yields
              rw [hskip, ← hbehind]
              exact tag_yields "kB".toList behind
            refine .inl ⟨_, n, _, ?_, hlt, hyields.pair (htag.delimited hread hkb)⟩
            rw [readEntry, hentry, if_pos hunit]
            simp [hlt]
          · have hkb : Fails (ws (tag "kB".toList)) rest := by
              apply ws_fails
              rw [hskip]
              exact tag_fails fun h => hunit (List.isPrefixOf_iff_prefix.mpr h)
            refine .inr ⟨?_, hyields.pair_fails (htag.delimited_fails_third hread hkb)⟩
            rw [readEntry, hentry, if_neg hunit, Option.filter_none]
        · have hvalue := htag.delimited_fails (ws (tag "kB".toList))
            (usizeS_fails_of_numberAt hnumber hge)
          refine .inr ⟨?_, hyields.pair_fails hvalue⟩
          rw [readEntry, hentry]
          split
          · simp [hge]
          · rfl

/-- A conversion behind the parser is one of the entry. -/
theorem keyValue_opt_value? {α : Type} (w : Nat) (f : Str × BitVec w → α) (line : Str) :
    (opt (complete (map (keyValue w) f)) line).value? =
      some ((readEntry w line).map fun e => f (e.1, BitVec.ofNat w e.2)) := by
  rcases keyValue_cases w line with ⟨key, n, rest, hentry, _, hyields⟩ | ⟨hentry, hfails⟩
  · rw [(hyields.map f).complete.opt.value?, hentry, Option.map_some]
  · rw [(hfails.map f).complete.opt.value?, hentry, Option.map_none]

theorem lt_of_readEntry (h : readEntry w line = some (key, n)) : n < 2 ^ w := by
  rw [readEntry, Option.filter_eq_some_iff] at h
  simpa using h.2

/-! ## The whole text -/

/-- The loop has the entry of every line, converted. -/
theorem collectOk_keyValue {α : Type} (w : Nat) (f : Str × BitVec w → α) (s : Str) :
    collectOk (readable fun item => if item.isEmpty then none
        else (opt (complete (map (keyValue w) f)) item).value?) (textItems s) =
      (meminfoLines s).map fun line =>
        (readEntry w line).map fun e => f (e.1, BitVec.ofNat w e.2) := by
  apply collectOk_eq_takeWhile
  intro line hline
  have hne : line.isEmpty = false := List.isEmpty_eq_false_iff.mpr (mem_nonblank.mp hline).1
  by_cases hcr : '\r' ∈ line
  · simp only [readable_of_mem _ hcr, hcr, not_true_eq_false, decide_false, Bool.false_eq_true,
      if_false]
  · simp only [readable_of_not_mem _ hcr, hcr, not_false_eq_true, decide_true, if_true, hne,
      Bool.false_eq_true, if_false, keyValue_opt_value?]

def kibSize (n : Nat) : ByteSize := ⟨BitVec.ofNat 64 (n * 1024)⟩

theorem kibSize_toNat (n : Nat) : (kibSize n).bytes.toNat = n * 1024 % 2 ^ 64 :=
  BitVec.toNat_ofNat _ _

def sizedEntries (w : Nat) (s : Str) : List (Option (Str × ByteSize)) :=
  (meminfoLines s).map fun line => (readEntry w line).map fun e => (e.1, kibSize e.2)

/-- The map of a text is that of its entries. -/
theorem procMeminfo_entries (w : Nat) (s : Str) :
    ∃ rest, Yields (procMeminfo w) s rest ((sizedEntries w s).foldl insertSized ∅) := by
  obtain ⟨rest, hy⟩ := procMeminfo_yields w s
  have hentries : collectOk (readable (procMeminfoItem w)) (textItems s) = sizedEntries w s := by
    refine (collectOk_keyValue w (fun kv => (kv.1, ByteSize.kib (kv.2.setWidth 64))) s).trans ?_
    refine List.map_congr_left fun line _ => ?_
    cases hentry : readEntry w line with
    | none => rw [Option.map_none, Option.map_none]
    | some e => rw [Option.map_some, Option.map_some, kib_ofNat (lt_of_readEntry hentry), kibSize]
  rw [hentries] at hy
  exact ⟨rest, hy⟩

theorem filterMap_sizedEntries (w : Nat) (s : Str) (key : String) :
    (sizedEntries w s).filterMap (sizeFor key.toList) = (kibsOf w s key).map kibSize := by
  rw [sizedEntries, kibsOf, readEntries, List.filterMap_map, List.filterMap_filterMap,
    List.map_filterMap]
  refine List.filterMap_congr fun line _ => ?_
  rw [Function.comp_apply, sizeFor]
  cases readEntry w line with
  | none => rfl
  | some e =>
      rw [Option.map_some, Option.bind_some, Option.bind_some]
      by_cases hkey : e.1 = key.toList
      · rw [if_pos hkey, if_pos hkey, Option.map_some]
      · rw [if_neg hkey, if_neg hkey, Option.map_none]

theorem get_entries (w : Nat) (s : Str) (key : String) :
    (⟨(sizedEntries w s).foldl insertSized ∅⟩ : PlatformMemory).get key =
      kibSize (lastKib w s key) := by
  rw [PlatformMemory.get, getElem?_foldl_insertSized, filterMap_sizedEntries, lastKib,
    List.getLast?_map, List.getLastD_eq_getLast?, Std.TreeMap.getElem?_emptyc, Option.or_none]
  cases (kibsOf w s key).getLast? with
  | none => rfl
  | some n => rfl

end Systemstat.Linux
