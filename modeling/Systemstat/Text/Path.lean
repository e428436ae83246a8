import Systemstat.Nom.Parser

/-! # Paths

A path is a string of bytes, and two paths are equal when their components are:
repeated and trailing separators and `.` components are not seen, except for a
`.` that a relative path begins with.
-/

namespace Systemstat.Text

open Nom

abbrev Bytes := List UInt8

def utf8 (s : Str) : Bytes := s.flatMap String.utf8EncodeChar

inductive Component
  | rootDir
  | curDir
  | parentDir
  | normal (name : Bytes)
  deriving DecidableEq, Repr

/-- A component past the first: `.` and the empty one are not seen. -/
def Component.parse (name : Bytes) : Option Component :=
  if name = [] ∨ name = utf8 ['.'] then none
  else if name = utf8 ['.', '.'] then some .parentDir
  else some (.normal name)

def components (path : Bytes) : List Component :=
  match path.splitOn 47 with
  | [] => []
  | [] :: names =>
      if path = [] then [] else .rootDir :: names.filterMap Component.parse
  | first :: names =>
      if first = utf8 ['.'] then .curDir :: names.filterMap Component.parse
      else (first :: names).filterMap Component.parse

/-- `==` on paths. -/
def samePath (l r : Bytes) : Bool := components l == components r

example : samePath (utf8 "/mnt//usb/./".toList) (utf8 "/mnt/usb".toList) = true := by decide

example : samePath (utf8 "./mnt".toList) (utf8 "mnt".toList) = false := by decide

theorem samePath_refl (path : Bytes) : samePath path path = true := beq_self_eq_true _

theorem samePath_trans {a b c : Bytes} (h₁ : samePath a b = true) (h₂ : samePath b c = true) :
    samePath a c = true := by
  rw [samePath, beq_iff_eq] at h₁ h₂ ⊢
  exact h₁.trans h₂

theorem samePath_symm {a b : Bytes} (h : samePath a b = true) : samePath b a = true := by
  rw [samePath, beq_iff_eq] at h ⊢
  exact h.symm

/-! ## Absolute paths -/

theorem rootDir_notMem_parse (names : List Bytes) :
    Component.rootDir ∉ names.filterMap Component.parse := by
  intro h
  obtain ⟨name, _, hname⟩ := List.mem_filterMap.mp h
  unfold Component.parse at hname
  split at hname
  · cases hname
  · split at hname <;> cases hname

theorem head?_components_eq_rootDir_iff {path : Bytes} :
    (components path).head? = some .rootDir ↔ path.head? = some 47 := by
  cases path with
  | nil => exact iff_of_false (by decide) (by decide)
  | cons b path =>
      by_cases hb : b = 47
      · subst hb
        have hsplit : List.splitOn 47 ((47 : UInt8) :: path) = [] :: path.splitOn 47 := by
          simp [List.splitOn, List.splitOnP_cons_eq_if_modifyHead]
        simp [components, hsplit]
      · obtain ⟨first, names, hsplit⟩ : ∃ first names,
            List.splitOn 47 (b :: path) = (b :: first) :: names := by
          obtain ⟨first, names, h⟩ := List.exists_cons_of_ne_nil (List.splitOn_ne_nil 47 path)
          refine ⟨first, names, ?_⟩
          rw [List.splitOn] at h
          simp [List.splitOn, List.splitOnP_cons_eq_if_modifyHead, hb, h]
        simp only [components, hsplit]
        refine iff_of_false (fun h => ?_) (by simpa using hb)
        split at h
        · cases h
        · exact rootDir_notMem_parse _ (List.mem_of_head? h)
/-! ## C strings -/

/-- A C string ends before its first NUL byte. -/
def cString (bytes : Bytes) : Bytes := bytes.takeWhile fun b => b != 0

theorem ofNat_ne_zero {n : Nat} (h : n % 256 ≠ 0) : UInt8.ofNat n ≠ 0 := by
  intro hz
  have hnat := congrArg UInt8.toNat hz
  rw [UInt8.toNat_ofNat'] at hnat
  exact h hnat

theorem utf8EncodeChar_ne_zero {c : Char} (h : c ≠ Char.ofNat 0) :
    ∀ b ∈ String.utf8EncodeChar c, b ≠ 0 := by
  have hc : c.val.toNat ≠ 0 := fun hz => h (Char.toNat_inj.mp hz)
  intro b hb
  unfold String.utf8EncodeChar at hb
  simp only at hb
  split at hb
  · obtain rfl := List.mem_singleton.mp hb
    exact ofNat_ne_zero (by omega)
  · split at hb
    · simp only [List.mem_cons, List.not_mem_nil, or_false] at hb
      rcases hb with rfl | rfl <;> exact ofNat_ne_zero (by omega)
    · split at hb
      · simp only [List.mem_cons, List.not_mem_nil, or_false] at hb
        rcases hb with rfl | rfl | rfl <;> exact ofNat_ne_zero (by omega)
      · simp only [List.mem_cons, List.not_mem_nil, or_false] at hb
        rcases hb with rfl | rfl | rfl | rfl <;> exact ofNat_ne_zero (by omega)

/-- A text that is passed to C with a NUL at its end arrives whole when it has no
other one. -/
theorem cString_utf8 {s : Str} (h : Char.ofNat 0 ∉ s) :
    cString (utf8 (s ++ [Char.ofNat 0])) = utf8 s := by
  have hbytes : ∀ b ∈ utf8 s, (b != 0) = true := by
    intro b hb
    obtain ⟨c, hc, hb⟩ := List.mem_flatMap.mp hb
    exact bne_iff_ne.mpr (utf8EncodeChar_ne_zero (fun heq => h (heq ▸ hc)) b hb)
  have happend : utf8 (s ++ [Char.ofNat 0]) = utf8 s ++ [0] := by
    rw [utf8, List.flatMap_append]
    rfl
  rw [cString, happend, List.takeWhile_append_of_pos hbytes]
  simp

end Systemstat.Text
