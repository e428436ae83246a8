import Systemstat.Text.Lossy
import Systemstat.Text.Runs

/-! # UTF-16

Text in code units of sixteen bits, a character past the first plane in two of them,
and `decode_utf16` with a replacement for each surrogate that has no partner. What was
encoded is decoded, and units are the encoding of what is decoded from them exactly
when they are an encoding at all.
-/

namespace Systemstat.Text

open Nom

abbrev Units := List (BitVec 16)

def isLead (u : BitVec 16) : Bool := 0xD800 ≤ u.toNat && u.toNat < 0xDC00

def isTrail (u : BitVec 16) : Bool := 0xDC00 ≤ u.toNat && u.toNat < 0xE000

def unitChar (u : BitVec 16) : Char :=
  if isTrail u then replacementChar else Char.ofNat u.toNat

def pairChar (lead trail : BitVec 16) : Char :=
  Char.ofNat (0x10000 + (lead.toNat - 0xD800) * 0x400 + (trail.toNat - 0xDC00))

/-- `decode_utf16(..).map(|r| r.unwrap_or(REPLACEMENT_CHARACTER))`; a unit behind a lead
that is no trail is looked at again. -/
def decodeUtf16 : Units → Str
  | [] => []
  | u :: rest =>
      if isLead u then
        match rest with
        | [] => [replacementChar]
        | v :: rest' =>
            if isTrail v then pairChar u v :: decodeUtf16 rest'
            else replacementChar :: decodeUtf16 (v :: rest')
      else unitChar u :: decodeUtf16 rest

def utf16Char (c : Char) : Units :=
  if c.toNat < 0x10000 then [BitVec.ofNat 16 c.toNat]
  else
    let code := c.toNat - 0x10000
    [BitVec.ofNat 16 (0xD800 + code / 0x400), BitVec.ofNat 16 (0xDC00 + code % 0x400)]

def utf16 (s : Str) : Units := s.flatMap utf16Char

/-! ## The round trip -/

theorem char_toNat_ranges (c : Char) :
    c.toNat < 0xD800 ∨ (0xDFFF < c.toNat ∧ c.toNat < 0x110000) := c.valid

theorem decodeUtf16_cons_of_not_lead {u : BitVec 16} (h : isLead u = false) (rest : Units) :
    decodeUtf16 (u :: rest) = unitChar u :: decodeUtf16 rest := by
  rw [decodeUtf16.eq_def]
  simp only [h, Bool.false_eq_true, if_false]

theorem decodeUtf16_pair {u v : BitVec 16} (hu : isLead u = true) (hv : isTrail v = true)
    (rest : Units) : decodeUtf16 (u :: v :: rest) = pairChar u v :: decodeUtf16 rest := by
  rw [decodeUtf16.eq_def]
  simp only [hu, hv, if_true]

theorem decodeUtf16_utf16Char_append (c : Char) (rest : Units) :
    decodeUtf16 (utf16Char c ++ rest) = c :: decodeUtf16 rest := by
  have hrange := char_toNat_ranges c
  unfold utf16Char
  by_cases hplane : c.toNat < 0x10000
  · have hunit : (BitVec.ofNat 16 c.toNat).toNat = c.toNat := by
      rw [BitVec.toNat_ofNat, Nat.mod_eq_of_lt hplane]
    have hlead : isLead (BitVec.ofNat 16 c.toNat) = false := by
      rw [isLead, hunit]
      simp only [Bool.and_eq_false_iff, decide_eq_false_iff_not]
      omega
    have htrail : isTrail (BitVec.ofNat 16 c.toNat) = false := by
      rw [isTrail, hunit]
      simp only [Bool.and_eq_false_iff, decide_eq_false_iff_not]
      omega
    rw [if_pos hplane, List.singleton_append, decodeUtf16_cons_of_not_lead hlead, unitChar, htrail,
      if_neg Bool.false_ne_true, hunit, Char.ofNat_toNat]
  · have hhigh : (BitVec.ofNat 16 (0xD800 + (c.toNat - 0x10000) / 0x400)).toNat =
        0xD800 + (c.toNat - 0x10000) / 0x400 := by
      rw [BitVec.toNat_ofNat, Nat.mod_eq_of_lt (by omega)]
    have hlow : (BitVec.ofNat 16 (0xDC00 + (c.toNat - 0x10000) % 0x400)).toNat =
        0xDC00 + (c.toNat - 0x10000) % 0x400 := by
      rw [BitVec.toNat_ofNat, Nat.mod_eq_of_lt (by omega)]
    have hlead : isLead (BitVec.ofNat 16 (0xD800 + (c.toNat - 0x10000) / 0x400)) = true := by
      rw [isLead, hhigh]
      simp only [Bool.and_eq_true, decide_eq_true_eq]
      omega
    have htrail : isTrail (BitVec.ofNat 16 (0xDC00 + (c.toNat - 0x10000) % 0x400)) = true := by
      rw [isTrail, hlow]
      simp only [Bool.and_eq_true, decide_eq_true_eq]
      omega
    have hcode : 0x10000 + (0xD800 + (c.toNat - 0x10000) / 0x400 - 0xD800) * 0x400 +
        (0xDC00 + (c.toNat - 0x10000) % 0x400 - 0xDC00) = c.toNat := by omega
    rw [if_neg hplane]
    show decodeUtf16 (_ :: _ :: rest) = _
    rw [decodeUtf16_pair hlead htrail, pairChar, hhigh, hlow, hcode, Char.ofNat_toNat]

theorem decodeUtf16_utf16_append (s : Str) (rest : Units) :
    decodeUtf16 (utf16 s ++ rest) = s ++ decodeUtf16 rest := by
  induction s with
  | nil => rfl
  | cons c s ih =>
      rw [utf16, List.flatMap_cons, List.append_assoc, decodeUtf16_utf16Char_append, ← utf16, ih]
      rfl

theorem decodeUtf16_utf16 (s : Str) : decodeUtf16 (utf16 s) = s := by
  have h := decodeUtf16_utf16_append s []
  rwa [List.append_nil, decodeUtf16, List.append_nil] at h

/-! ## Units behind a pointer -/

def unitString (us : Units) : Units := us.takeWhile (· ≠ 0#16)

theorem utf16Char_ne_zero {c : Char} (h : c ≠ Char.ofNat 0) : ∀ u ∈ utf16Char c, u ≠ 0#16 := by
  have hrange := char_toNat_ranges c
  have hne : c.toNat ≠ 0 := by
    intro hzero
    apply h
    rw [← Char.ofNat_toNat c, hzero]
  unfold utf16Char
  intro u hu heq
  split at hu
  · rw [List.mem_singleton] at hu
    have hnat := congrArg BitVec.toNat (hu.symm.trans heq)
    rw [BitVec.toNat_ofNat, BitVec.toNat_zero] at hnat
    omega
  · simp only [List.mem_cons, List.not_mem_nil, or_false] at hu
    rcases hu with hu | hu
    · have hnat := congrArg BitVec.toNat (hu.symm.trans heq)
      rw [BitVec.toNat_ofNat, BitVec.toNat_zero] at hnat
      omega
    · have hnat := congrArg BitVec.toNat (hu.symm.trans heq)
      rw [BitVec.toNat_ofNat, BitVec.toNat_zero] at hnat
      omega

theorem utf16_ne_zero {s : Str} (h : Char.ofNat 0 ∉ s) : ∀ u ∈ utf16 s, u ≠ 0#16 := by
  intro u hu
  obtain ⟨c, hc, hu⟩ := List.mem_flatMap.mp hu
  exact utf16Char_ne_zero (fun heq => h (heq ▸ hc)) u hu

theorem unitString_append {us : Units} (h : ∀ u ∈ us, u ≠ 0#16) (rest : Units) :
    unitString (us ++ 0#16 :: rest) = us := by
  have hrun : MaximalRun (fun u : BitVec 16 => decide (u ≠ 0#16)) us (0#16 :: rest) :=
    ⟨fun u hu => decide_eq_true (h u hu), fun u hu => by
      rw [List.head?_cons, Option.some.injEq] at hu
      rw [← hu]
      rfl⟩
  exact hrun.takeWhile_append

end Systemstat.Text
