import Systemstat.Linux.Tokens
import Systemstat.Text.Integers
import Mathlib.Data.List.DropRight

/-! # Values in files

`value_from_file` takes the newlines off the end of a file and parses what is left.
Which texts give a value is said without the trimming and without the parser.
-/

namespace Systemstat.Linux

open Nom Text

def valueFromFile {α : Type} (fromStr : Str → Option α) (files : Files) (path : String) :
    IoResult α := do
  let s ← readFile files path
  match fromStr (s.rdropWhile fun c => c == '\n') with
  | some value => .ok value
  | none => .error (.other ("File: \"" ++ path ++ "\" doesn't contain an int value"))

def i32FromFile : Files → String → IoResult (BitVec 32) := valueFromFile (signedFromStr 32)

/-! ## Newlines at the end -/

def NoNewlineEnd (s : Str) : Prop := ∀ hne : s ≠ [], s.getLast hne ≠ '\n'

instance (s : Str) : Decidable (NoNewlineEnd s) :=
  inferInstanceAs (Decidable (∀ hne : s ≠ [], s.getLast hne ≠ '\n'))

theorem noNewlineEnd_digits (sign : Str) {ds : Str} (hds : IsDigits ds) :
    NoNewlineEnd (sign ++ ds) := by
  intro hne hlast
  have hmem : (sign ++ ds).getLast hne ∈ ds := by
    rw [List.getLast_append_of_ne_nil hne hds.1]
    exact List.getLast_mem hds.1
  have hdigit := hds.2 _ hmem
  rw [hlast] at hdigit
  cases hdigit

theorem noNewlineEnd_of_writesNat {s : Str} {n : Nat} (h : WritesNat s n) : NoNewlineEnd s := by
  obtain ⟨ds, hds, rfl | rfl, _⟩ := h
  · exact noNewlineEnd_digits [] hds
  · exact noNewlineEnd_digits ['+'] hds

theorem noNewlineEnd_of_writesInt {s : Str} {v : Int} (h : WritesInt s v) : NoNewlineEnd s := by
  obtain ⟨n, hn, _⟩ | ⟨ds, hds, rfl, _⟩ := h
  · exact noNewlineEnd_of_writesNat hn
  · exact noNewlineEnd_digits ['-'] hds

/-- What `trim_end_matches('\n')` leaves of such a text. -/
theorem rdropWhile_newlines {s : Str} (h : NoNewlineEnd s) (k : Nat) :
    (s ++ List.replicate k '\n').rdropWhile (fun c => c == '\n') = s := by
  induction k with
  | zero =>
      rw [List.replicate_zero, List.append_nil, List.rdropWhile_eq_self_iff]
      intro hne hlast
      exact h hne (beq_iff_eq.mp hlast)
  | succ k ih =>
      rw [List.replicate_succ', ← List.append_assoc, List.rdropWhile_concat_pos _ _ _ (by rfl), ih]

theorem exists_newlines (s : Str) :
    ∃ k, s = s.rdropWhile (fun c => c == '\n') ++ List.replicate k '\n' := by
  have hnewlines : ∀ c ∈ s.rtakeWhile (fun c => c == '\n'), c = '\n' := by
    intro c hc
    exact beq_iff_eq.mp (List.mem_rtakeWhile_imp (p := fun c => c == '\n') hc)
  refine ⟨(s.rtakeWhile fun c => c == '\n').length, ?_⟩
  rw [← List.eq_replicate_iff.mpr ⟨rfl, hnewlines⟩, List.rdropWhile_append_rtakeWhile]

/-! ## The texts that give a value -/

variable {α : Type} {files : Files} {path : String}

/-- A file gives a value exactly when it holds a text for it, with any newlines behind. -/
theorem valueFromFile_eq_ok_iff {fromStr : Str → Option α} {value : α}
    (hend : ∀ s, fromStr s = some value → NoNewlineEnd s) :
    valueFromFile fromStr files path = .ok value ↔
      ∃ s k, readFile files path = .ok (s ++ List.replicate k '\n') ∧ fromStr s = some value := by
  unfold valueFromFile
  cases hread : readFile files path with
  | error e =>
      constructor
      · intro h
        cases h
      · rintro ⟨s, k, h, _⟩
        cases h
  | ok text =>
      simp only [bind, Except.bind]
      constructor
      · intro h
        cases hvalue : fromStr (text.rdropWhile fun c => c == '\n') with
        | none =>
            rw [hvalue] at h
            cases h
        | some v =>
            rw [hvalue] at h
            cases h
            obtain ⟨k, hk⟩ := exists_newlines text
            exact ⟨_, k, by rw [← hk], hvalue⟩
      · rintro ⟨s, k, h, hvalue⟩
        cases h
        rw [rdropWhile_newlines (hend s hvalue), hvalue]

/-- The file holds the integer, with an optional sign and with newlines behind it. -/
def FileWritesInt (files : Files) (path : String) (v : Int) : Prop :=
  ∃ s k, readFile files path = .ok (s ++ List.replicate k '\n') ∧ WritesInt s v

theorem i32FromFile_eq_ok_iff {x : BitVec 32} :
    i32FromFile files path = .ok x ↔ FileWritesInt files path x.toInt := by
  have hread := fun s => signedFromStr_eq_some_iff (w := 32) (by decide) (s := s) (x := x)
  rw [i32FromFile, valueFromFile_eq_ok_iff fun s hs =>
    noNewlineEnd_of_writesInt ((hread s).mp hs)]
  simp only [hread, FileWritesInt]

/-- No integer of 32 bits is in the file. -/
theorem i32FromFile_error_iff : (∃ e, i32FromFile files path = .error e) ↔
    ∀ x : BitVec 32, ¬ FileWritesInt files path x.toInt := by
  rw [← toOption_eq_none_iff, Option.eq_none_iff_forall_ne_some]
  simp only [ne_eq, toOption_eq_some_iff, i32FromFile_eq_ok_iff]

end Systemstat.Linux
