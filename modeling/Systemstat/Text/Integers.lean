import Systemstat.Text.Decimal

/-! # Integers in text

The texts that `str::parse` takes for a number, said without its digit loop: digits, a
sign before them, and a value that fits.
-/

namespace Systemstat.Text

open Nom

def WritesNat (s : Str) (n : Nat) : Prop :=
  ∃ ds, IsDigits ds ∧ (s = ds ∨ s = '+' :: ds) ∧ Nat.ofDigitChars 10 ds 0 = n

/-- The text writes the number `v`, with a sign or without. -/
def WritesInt (s : Str) (v : Int) : Prop :=
  (∃ n : Nat, WritesNat s n ∧ v = n) ∨
    ∃ ds, IsDigits ds ∧ s = '-' :: ds ∧ v = -(Nat.ofDigitChars 10 ds 0 : Int)

theorem parseDigits_eq_some_iff {bound : Nat} (ds : Str) {n m : Nat} (hn : n < bound) :
    parseDigits bound ds n = some m ↔
      (∀ c ∈ ds, c.isDigit = true) ∧ Nat.ofDigitChars 10 ds n = m ∧ m < bound := by
  constructor
  · intro h
    induction ds generalizing n with
    | nil =>
        rw [parseDigits, Option.some.injEq] at h
        exact ⟨by simp, by rw [Nat.ofDigitChars_nil, h], h ▸ hn⟩
    | cons c ds ih =>
        simp only [parseDigits] at h
        by_cases hc : c.isDigit = true ∧ 10 * n + (c.toNat - '0'.toNat) < bound
        · rw [if_pos hc] at h
          obtain ⟨hds, hvalue, hlt⟩ := ih hc.2 h
          exact ⟨by simpa using ⟨hc.1, hds⟩, by rw [Nat.ofDigitChars_cons, hvalue], hlt⟩
        · rw [if_neg hc] at h
          cases h
  · rintro ⟨hds, rfl, hlt⟩
    exact parseDigits_of_lt hds n hlt

theorem fromStrRadix10_eq_some_iff {bound : Nat} (hb : 0 < bound) {s : Str} {n : Nat} :
    fromStrRadix10 bound s = some n ↔ WritesNat s n ∧ n < bound := by
  unfold fromStrRadix10
  split
  · constructor
    · intro h
      cases h
    · rintro ⟨⟨ds, hds, rfl | h, _⟩, _⟩
      · exact absurd rfl hds.1
      · cases h
  · next cs =>
    constructor
    · intro h
      by_cases hcs : cs = []
      · rw [if_pos hcs] at h
        cases h
      · rw [if_neg hcs, parseDigits_eq_some_iff cs hb] at h
        exact ⟨⟨cs, ⟨hcs, h.1⟩, .inr rfl, h.2.1⟩, h.2.2⟩
    · rintro ⟨⟨ds, hds, rfl | h, hvalue⟩, hlt⟩
      · cases hds.2 '+' (by simp)
      · cases h
        rw [if_neg hds.1, parseDigits_eq_some_iff cs hb]
        exact ⟨hds.2, hvalue, hlt⟩
  · next hne hplus =>
    rw [parseDigits_eq_some_iff s hb]
    constructor
    · rintro ⟨hds, hvalue, hlt⟩
      exact ⟨⟨s, ⟨hne, hds⟩, .inl rfl, hvalue⟩, hlt⟩
    · rintro ⟨⟨ds, hds, rfl | h, hvalue⟩, hlt⟩
      · exact ⟨hds.2, hvalue, hlt⟩
      · exact absurd h (hplus ds)

theorem unsignedFromStr_eq_some_iff {w : Nat} {s : Str} {x : BitVec w} :
    unsignedFromStr w s = some x ↔ WritesNat s x.toNat := by
  rw [unsignedFromStr, Option.map_eq_some_iff]
  constructor
  · rintro ⟨n, hn, rfl⟩
    obtain ⟨hwrites, hlt⟩ := (fromStrRadix10_eq_some_iff (Nat.two_pow_pos w)).mp hn
    rwa [BitVec.toNat_ofNat, Nat.mod_eq_of_lt hlt]
  · intro h
    refine ⟨x.toNat, (fromStrRadix10_eq_some_iff (Nat.two_pow_pos w)).mpr ⟨h, x.isLt⟩, ?_⟩
    rw [BitVec.ofNat_toNat, BitVec.setWidth_eq]

theorem unsignedFromStr_eq_none_iff {w : Nat} {s : Str} :
    unsignedFromStr w s = none ↔ ∀ n, WritesNat s n → 2 ^ w ≤ n := by
  rw [Option.eq_none_iff_forall_not_mem]
  constructor
  · intro h n hn
    by_contra hlt
    refine h (BitVec.ofNat w n) (unsignedFromStr_eq_some_iff.mpr ?_)
    rwa [BitVec.toNat_ofNat, Nat.mod_eq_of_lt (by omega)]
  · intro h x hx
    have hle := h _ (unsignedFromStr_eq_some_iff.mp hx)
    exact absurd x.isLt (by omega)

/-! ## Signed numbers -/

variable {w : Nat}

theorem signedFromStr_minus (cs : Str) : signedFromStr w ('-' :: cs) =
    if cs = [] then none
    else (parseDigits (2 ^ (w - 1) + 1) cs 0).map fun n : Nat => BitVec.ofInt w (-n) := rfl

theorem signedFromStr_of_ne_minus {s : Str} (h : ∀ cs, s ≠ '-' :: cs) :
    signedFromStr w s =
      (fromStrRadix10 (2 ^ (w - 1)) s).map fun n : Nat => BitVec.ofInt w n := by
  unfold signedFromStr
  split
  · rfl
  · next cs =>
    simp only [fromStrRadix10]
    by_cases hcs : cs = []
    · rw [if_pos hcs, if_pos hcs, Option.map_none]
    · rw [if_neg hcs, if_neg hcs]
  · next cs => exact absurd rfl (h cs)
  · next hnil hplus _ =>
    unfold fromStrRadix10
    split
    · exact absurd rfl hnil
    · next cs _ => exact absurd rfl (hplus cs)
    · rfl

theorem signedFromStr_eq_some_iff (hw : 0 < w) {s : Str} {x : BitVec w} :
    signedFromStr w s = some x ↔ WritesInt s x.toInt := by
  have hpow : (2 : Int) ^ (w - 1) = ((2 ^ (w - 1) : Nat) : Int) := by simp
  have hself : ∀ v : Int, -(2 ^ (w - 1) : Nat) ≤ v → v < (2 ^ (w - 1) : Nat) →
      (BitVec.ofInt w v).toInt = v := fun v hlow hhigh =>
    BitVec.toInt_ofInt_eq_self hw (by rwa [hpow]) (by rwa [hpow])
  have hlow : -((2 ^ (w - 1) : Nat) : Int) ≤ x.toInt := hpow ▸ BitVec.le_toInt x
  have hhigh : x.toInt < ((2 ^ (w - 1) : Nat) : Int) := by
    have h := BitVec.toInt_lt (x := x)
    rwa [hpow] at h
  by_cases hminus : ∃ cs, s = '-' :: cs
  · obtain ⟨cs, rfl⟩ := hminus
    rw [signedFromStr_minus]
    constructor
    · intro h
      by_cases hcs : cs = []
      · rw [if_pos hcs] at h
        cases h
      · rw [if_neg hcs, Option.map_eq_some_iff] at h
        obtain ⟨n, hn, rfl⟩ := h
        obtain ⟨hds, rfl, hlt⟩ := (parseDigits_eq_some_iff cs (by omega)).mp hn
        rw [hself _ (by omega) (by have := Nat.two_pow_pos (w - 1); omega)]
        exact .inr ⟨cs, ⟨hcs, hds⟩, rfl, rfl⟩
    · rintro (⟨n, ⟨ds, hds, rfl | h, _⟩, _⟩ | ⟨ds, hds, h, hvalue⟩)
      · cases hds.2 '-' (by simp)
      · cases h
      · cases h
        rw [if_neg hds.1, Option.map_eq_some_iff]
        refine ⟨_, (parseDigits_eq_some_iff cs (by omega)).mpr ⟨hds.2, rfl, by omega⟩, ?_⟩
        rw [← hvalue, BitVec.ofInt_toInt]
  · rw [signedFromStr_of_ne_minus fun cs h => hminus ⟨cs, h⟩, Option.map_eq_some_iff]
    constructor
    · rintro ⟨n, hn, rfl⟩
      obtain ⟨hwrites, hlt⟩ := (fromStrRadix10_eq_some_iff (Nat.two_pow_pos _)).mp hn
      rw [hself _ (by omega) (by omega)]
      exact .inl ⟨n, hwrites, rfl⟩
    · rintro (⟨n, hwrites, hvalue⟩ | ⟨ds, _, h, _⟩)
      · refine ⟨n, (fromStrRadix10_eq_some_iff (Nat.two_pow_pos _)).mpr
          ⟨hwrites, by omega⟩, ?_⟩
        rw [← hvalue, BitVec.ofInt_toInt]
      · exact absurd ⟨ds, h⟩ hminus

/-! ## One value -/

theorem WritesNat.unique {s : Str} {n m : Nat} (hn : WritesNat s n) (hm : WritesNat s m) :
    n = m := by
  obtain ⟨ds, hds, hs, rfl⟩ := hn
  obtain ⟨es, hes, ht, rfl⟩ := hm
  rcases hs with rfl | rfl <;> rcases ht with h | h
  · rw [h]
  · cases hds.2 '+' (by simp [h])
  · cases hes.2 '+' (by simp [← h])
  · cases h
    rfl

theorem WritesInt.unique {s : Str} {v u : Int} (hv : WritesInt s v) (hu : WritesInt s u) :
    v = u := by
  have hminus : ∀ {ds n}, IsDigits ds → ¬ WritesNat ('-' :: ds) n := by
    rintro ds n - ⟨es, hes, h | h, _⟩
    · cases hes.2 '-' (by simp [← h])
    · cases h
  rcases hv with ⟨n, hn, rfl⟩ | ⟨ds, hds, rfl, rfl⟩ <;>
    rcases hu with ⟨m, hm, rfl⟩ | ⟨es, hes, h, rfl⟩
  · rw [hn.unique hm]
  · exact absurd (h ▸ hn) (hminus hes)
  · exact absurd hm (hminus hds)
  · cases h
    rfl

theorem decimal_writesNat (n : Nat) : WritesNat (decimal n) n :=
  ⟨decimal n, decimal_isDigits n, .inl rfl, ofDigitChars_decimal n⟩

theorem decimal_writesInt (n : Nat) : WritesInt (decimal n) n :=
  .inl ⟨n, decimal_writesNat n, rfl⟩

end Systemstat.Text
