import Systemstat.Linux.Tokens

/-! # The number token

What `usize_s` reads, as a way to cut the text: whitespace, digits and whitespace, each
run taken whole. There is at most one such cut of a text, and the value of its digits
alone decides whether the token is accepted.
-/

namespace Systemstat.Linux

open Nom Text

variable {w : Nat} {s before digits after rest : Str}

/-- A text that begins with a number in whitespace, and what is left behind them. -/
structure WrappedNumber (s before digits after rest : Str) : Prop where
  split : s = before ++ (digits ++ (after ++ rest))
  before_run : MaximalRun isMultispace before (digits ++ (after ++ rest))
  digits_run : MaximalRun Char.isDigit digits (after ++ rest)
  digits_ne : digits ≠ []
  after_run : MaximalRun isMultispace after rest

def ReadsNumber (s : Str) (n : Nat) (rest : Str) : Prop :=
  ∃ before digits after, WrappedNumber s before digits after rest ∧
    Nat.ofDigitChars 10 digits 0 = n

namespace WrappedNumber

theorem skip_eq (h : WrappedNumber s before digits after rest) :
    skip s = digits ++ (after ++ rest) := by
  rw [h.split]
  exact h.before_run.dropWhile_append

theorem skip_after (h : WrappedNumber s before digits after rest) : skip (after ++ rest) = rest :=
  h.after_run.dropWhile_append

theorem isDigits (h : WrappedNumber s before digits after rest) : IsDigits digits :=
  ⟨h.digits_ne, h.digits_run.all⟩

theorem yields (h : WrappedNumber s before digits after rest)
    (hlt : Nat.ofDigitChars 10 digits 0 < 2 ^ w) :
    Yields (usizeS w) s rest (BitVec.ofNat w (Nat.ofDigitChars 10 digits 0)) := by
  have hread := usizeS_yields h.skip_eq h.isDigits h.digits_run.ends hlt
  rwa [h.skip_after] at hread

theorem fails (h : WrappedNumber s before digits after rest)
    (hle : 2 ^ w ≤ Nat.ofDigitChars 10 digits 0) : Fails (usizeS w) s :=
  usizeS_fails_of_le h.skip_eq h.isDigits h.digits_run.ends hle

end WrappedNumber

/-- Where a digit follows the whitespace there is a cut, that of the three readers. -/
theorem exists_wrappedNumber (h : (skip s).takeWhile Char.isDigit ≠ []) :
    ∃ before digits after rest, WrappedNumber s before digits after rest := by
  have hspace := maximalRun_takeWhile isMultispace s
  have hdigits := maximalRun_takeWhile Char.isDigit (skip s)
  have hafter := maximalRun_takeWhile isMultispace ((skip s).dropWhile Char.isDigit)
  have hbehind := List.takeWhile_append_dropWhile (p := isMultispace)
    (l := (skip s).dropWhile Char.isDigit)
  have hskip := List.takeWhile_append_dropWhile (p := Char.isDigit) (l := skip s)
  have hs : s.takeWhile isMultispace ++ skip s = s := List.takeWhile_append_dropWhile
  refine ⟨s.takeWhile isMultispace, _, _, _, ?_, ?_, ?_, h, hafter⟩
  · rw [hbehind, hskip, hs]
  · rw [hbehind, hskip]
    exact hspace
  · rw [hbehind]
    exact hdigits

theorem usizeS_fails_of_no_digit (h : (skip s).takeWhile Char.isDigit = []) :
    Fails (usizeS w) s := by
  have hdigit : Fails digit1 (skip s) := takeWhile1_fails h
  exact (((ws_fails hdigit).map asBytes).mapRes fromUtf8).mapRes (unsignedFromStr w)

theorem usizeS_cases (w : Nat) (s : Str) :
    (∃ before digits after rest, WrappedNumber s before digits after rest ∧
      Nat.ofDigitChars 10 digits 0 < 2 ^ w ∧
      Yields (usizeS w) s rest (BitVec.ofNat w (Nat.ofDigitChars 10 digits 0))) ∨
    (∃ before digits after rest, WrappedNumber s before digits after rest ∧
      2 ^ w ≤ Nat.ofDigitChars 10 digits 0 ∧ Fails (usizeS w) s) ∨
    ((∀ n rest, ¬ ReadsNumber s n rest) ∧ Fails (usizeS w) s) := by
  by_cases hdigit : (skip s).takeWhile Char.isDigit = []
  · refine .inr (.inr ⟨?_, usizeS_fails_of_no_digit hdigit⟩)
    rintro n rest ⟨before, digits, after, h, rfl⟩
    rw [h.skip_eq, h.digits_run.takeWhile_append] at hdigit
    exact h.digits_ne hdigit
  · obtain ⟨before, digits, after, rest, h⟩ := exists_wrappedNumber hdigit
    rcases Nat.lt_or_ge (Nat.ofDigitChars 10 digits 0) (2 ^ w) with hlt | hge
    · exact .inl ⟨before, digits, after, rest, h, hlt, h.yields hlt⟩
    · exact .inr (.inl ⟨before, digits, after, rest, h, hge, h.fails hge⟩)

theorem usizeS_yields_iff {n : BitVec w} :
    Yields (usizeS w) s rest n ↔ ReadsNumber s n.toNat rest := by
  constructor
  · intro hread
    rcases usizeS_cases w s with ⟨before, digits, after, rest', h, hlt, hyields⟩ |
      ⟨_, _, _, _, _, _, hfails⟩ | ⟨_, hfails⟩
    · obtain ⟨rfl, rfl⟩ := hread.unique hyields
      refine ⟨before, digits, after, h, ?_⟩
      rw [BitVec.toNat_ofNat, Nat.mod_eq_of_lt hlt]
    · exact absurd hfails hread.not_fails
    · exact absurd hfails hread.not_fails
  · rintro ⟨before, digits, after, h, hvalue⟩
    have hread := h.yields (w := w) (by rw [hvalue]; exact n.isLt)
    rwa [hvalue, BitVec.ofNat_toNat, BitVec.setWidth_eq] at hread

/-! ## As a function -/

/-- The number a text begins with and what is left behind it, however large the number is. -/
def numberAt (s : Str) : Option (Nat × Str) :=
  let digits := (skip s).takeWhile Char.isDigit
  if digits = [] then none
  else some (Nat.ofDigitChars 10 digits 0, skip ((skip s).dropWhile Char.isDigit))

theorem readsNumber_of_numberAt {n : Nat} (h : numberAt s = some (n, rest)) :
    ReadsNumber s n rest := by
  unfold numberAt at h
  by_cases hdigit : (skip s).takeWhile Char.isDigit = []
  · rw [if_pos hdigit] at h
    cases h
  · rw [if_neg hdigit, Option.some.injEq, Prod.mk.injEq] at h
    obtain ⟨before, digits, after, rest', hw⟩ := exists_wrappedNumber hdigit
    rw [hw.skip_eq, hw.digits_run.takeWhile_append, hw.digits_run.dropWhile_append,
      hw.skip_after] at h
    rw [← h.2]
    exact ⟨before, digits, after, hw, h.1⟩

theorem usizeS_yields_of_numberAt {n : Nat} (h : numberAt s = some (n, rest)) (hlt : n < 2 ^ w) :
    Yields (usizeS w) s rest (BitVec.ofNat w n) := by
  rw [usizeS_yields_iff, BitVec.toNat_ofNat, Nat.mod_eq_of_lt hlt]
  exact readsNumber_of_numberAt h

theorem usizeS_fails_of_numberAt {n : Nat} (h : numberAt s = some (n, rest)) (hle : 2 ^ w ≤ n) :
    Fails (usizeS w) s := by
  obtain ⟨before, digits, after, hw, rfl⟩ := readsNumber_of_numberAt h
  exact hw.fails hle

theorem usizeS_fails_of_numberAt_none (h : numberAt s = none) : Fails (usizeS w) s := by
  unfold numberAt at h
  by_cases hdigit : (skip s).takeWhile Char.isDigit = []
  · exact usizeS_fails_of_no_digit hdigit
  · rw [if_neg hdigit] at h
    cases h

/-! ## Every text -/

/-- A number is read exactly where the text begins with one that fits, and everything
else is a recoverable error, a number that does not fit among it. -/
theorem usizeS_reads_number (w : Nat) (s : Str) :
    (∀ rest (n : BitVec w), Yields (usizeS w) s rest n ↔ ReadsNumber s n.toNat rest) ∧
    ((¬ ∃ rest, ∃ n : BitVec w, ReadsNumber s n.toNat rest) → Fails (usizeS w) s) ∧
    ∀ rest n, ReadsNumber s n rest → 2 ^ w ≤ n → Fails (usizeS w) s := by
  refine ⟨fun rest n => usizeS_yields_iff, fun hnone => ?_, ?_⟩
  · rcases usizeS_cases w s with ⟨_, _, _, rest, _, _, hyields⟩ |
      ⟨_, _, _, _, _, _, hfails⟩ | ⟨_, hfails⟩
    · exact absurd ⟨rest, _, usizeS_yields_iff.mp hyields⟩ hnone
    · exact hfails
    · exact hfails
  · rintro rest n ⟨before, digits, after, h, rfl⟩ hle
    exact h.fails hle

end Systemstat.Linux
