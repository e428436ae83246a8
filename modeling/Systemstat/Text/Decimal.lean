import Systemstat.Nom.Calculus
import Mathlib.Algebra.Group.Nat.Defs

/-! # Decimal numbers in text

`str::parse` for the unsigned integer types, with the checked arithmetic of the
standard library, and the decimal rendering it undoes. The accumulator of the
digit loop only grows, so the per-digit overflow checks amount to one bound on
the value of the whole run of digits.
-/

namespace Systemstat.Text

open Nom

/-- The decimal digits of a number, without leading zeros. -/
def decimal (n : Nat) : Str := Nat.toDigits 10 n

def spaces (k : Nat) : Str := List.replicate k ' '

/-- The digit loop: `result * 10 + digit`, checked against `bound` at each digit. -/
def parseDigits (bound : Nat) : Str → Nat → Option Nat
  | [], result => some result
  | c :: cs, result =>
      let next := 10 * result + (c.toNat - '0'.toNat)
      if c.isDigit ∧ next < bound then parseDigits bound cs next else none

/-- `from_str_radix(src, 10)` for an unsigned type: a plus sign may come first. -/
def fromStrRadix10 (bound : Nat) (src : Str) : Option Nat :=
  match src with
  | [] => none
  | '+' :: cs => if cs = [] then none else parseDigits bound cs 0
  | _ => parseDigits bound src 0

/-- `from_str` for the unsigned type of `w` bits. -/
def unsignedFromStr (w : Nat) (src : Str) : Option (BitVec w) :=
  (fromStrRadix10 (2 ^ w) src).map (BitVec.ofNat w)

/-- `from_str` for the signed type of `w` bits; each sign has a bound of its own. -/
def signedFromStr (w : Nat) (src : Str) : Option (BitVec w) :=
  match src with
  | [] => none
  | '+' :: cs =>
      if cs = [] then none else (parseDigits (2 ^ (w - 1)) cs 0).map fun n : Nat => BitVec.ofInt w n
  | '-' :: cs =>
      if cs = [] then none
      else (parseDigits (2 ^ (w - 1) + 1) cs 0).map fun n : Nat => BitVec.ofInt w (-n)
  | _ => (parseDigits (2 ^ (w - 1)) src 0).map fun n : Nat => BitVec.ofInt w n

def IsDigits (ds : Str) : Prop := ds ≠ [] ∧ ∀ c ∈ ds, c.isDigit = true

theorem le_ofDigitChars (ds : Str) (n : Nat) : n ≤ Nat.ofDigitChars 10 ds n := by
  induction ds generalizing n with
  | nil => simp
  | cons c ds ih =>
      have h := ih (10 * n + (c.toNat - '0'.toNat))
      rw [Nat.ofDigitChars_cons]
      omega

theorem parseDigits_of_lt {bound : Nat} {ds : Str} (hd : ∀ c ∈ ds, c.isDigit = true) (n : Nat)
    (h : Nat.ofDigitChars 10 ds n < bound) :
    parseDigits bound ds n = some (Nat.ofDigitChars 10 ds n) := by
  induction ds generalizing n with
  | nil => simp [parseDigits]
  | cons c ds ih =>
      rw [Nat.ofDigitChars_cons] at h
      have hle := le_ofDigitChars ds (10 * n + (c.toNat - '0'.toNat))
      have hc := hd c (by simp)
      simp only [parseDigits, hc, true_and, Nat.ofDigitChars_cons]
      rw [if_pos (by omega)]
      exact ih (fun d hm => hd d (by simp [hm])) _ h

theorem parseDigits_of_le {bound : Nat} (ds : Str) (n : Nat) (hn : n < bound)
    (h : bound ≤ Nat.ofDigitChars 10 ds n) : parseDigits bound ds n = none := by
  induction ds generalizing n with
  | nil =>
      rw [Nat.ofDigitChars_nil] at h
      omega
  | cons c ds ih =>
      rw [Nat.ofDigitChars_cons] at h
      simp only [parseDigits]
      by_cases hc : c.isDigit = true ∧ 10 * n + (c.toNat - '0'.toNat) < bound
      · rw [if_pos hc]
        exact ih _ hc.2 h
      · rw [if_neg hc]

theorem fromStrRadix10_of_digits {bound : Nat} {ds : Str} (hd : IsDigits ds) :
    fromStrRadix10 bound ds = parseDigits bound ds 0 := by
  obtain ⟨hne, hall⟩ := hd
  unfold fromStrRadix10
  split
  · exact (hne rfl).elim
  · cases hall '+' (by simp)
  · rfl

theorem unsignedFromStr_of_lt {w : Nat} {ds : Str} (hd : IsDigits ds)
    (h : Nat.ofDigitChars 10 ds 0 < 2 ^ w) :
    unsignedFromStr w ds = some (BitVec.ofNat w (Nat.ofDigitChars 10 ds 0)) := by
  rw [unsignedFromStr, fromStrRadix10_of_digits hd, parseDigits_of_lt hd.2 0 h, Option.map_some]

theorem unsignedFromStr_of_le {w : Nat} {ds : Str} (hd : IsDigits ds)
    (h : 2 ^ w ≤ Nat.ofDigitChars 10 ds 0) : unsignedFromStr w ds = none := by
  rw [unsignedFromStr, fromStrRadix10_of_digits hd,
    parseDigits_of_le ds 0 (Nat.two_pow_pos w) h, Option.map_none]

/-! ## Rendering -/

theorem decimal_isDigits (n : Nat) : IsDigits (decimal n) :=
  ⟨Nat.toDigits_ne_nil, fun _ hc => Nat.isDigit_of_mem_toDigits (by decide) (by decide) hc⟩

theorem ofDigitChars_decimal (n : Nat) : Nat.ofDigitChars 10 (decimal n) 0 = n :=
  Nat.ofDigitChars_ten_toDigits

theorem spaces_multispace (k : Nat) : ∀ c ∈ spaces k, isMultispace c = true := by
  intro c hc
  rw [List.eq_of_mem_replicate hc]
  rfl

theorem not_isDigit_of_multispace {c : Char} (h : isMultispace c = true) :
    c.isDigit = false := by
  simp only [isMultispace, Bool.or_eq_true, beq_iff_eq] at h
  rcases h with ((rfl | rfl) | rfl) | rfl <;> rfl

theorem not_multispace_of_isDigit {c : Char} (h : c.isDigit = true) :
    isMultispace c = false := by
  cases hm : isMultispace c with
  | false => rfl
  | true =>
      rw [not_isDigit_of_multispace hm] at h
      cases h

theorem isDigits_head {ds : Str} (hd : IsDigits ds) :
    ∃ d rest, ds = d :: rest ∧ isMultispace d = false := by
  obtain ⟨hne, hall⟩ := hd
  obtain ⟨d, rest, rfl⟩ := List.exists_cons_of_ne_nil hne
  exact ⟨d, rest, rfl, not_multispace_of_isDigit (hall d (by simp))⟩

/-- A run of digits is taken whole when no digit follows it. -/
theorem digit1_yields {ds rest : Str} (hd : IsDigits ds)
    (hr : ∀ c, rest.head? = some c → c.isDigit = false) : Yields digit1 (ds ++ rest) rest ds := by
  have hrun : MaximalRun Char.isDigit ds rest := ⟨hd.2, hr⟩
  have h : Yields digit1 (ds ++ rest) ((ds ++ rest).dropWhile Char.isDigit)
      ((ds ++ rest).takeWhile Char.isDigit) :=
    takeWhile1_yields (by rw [hrun.takeWhile_append]; exact hd.1)
  rwa [hrun.takeWhile_append, hrun.dropWhile_append] at h

end Systemstat.Text
