import Systemstat.Text.Path
import Mathlib.Data.List.Forall2

/-! # Decoding UTF-8 with replacement

`String::from_utf8_lossy`: what is encoded well is decoded, and for each longest
prefix of a sequence that breaks off there is one replacement character. `to_str`
returns nothing for bytes that are not encoded well.
-/

namespace Systemstat.Text

open Nom

def replacementChar : Char := Char.ofNat 0xFFFD

def tailRanges (lead : Nat) : List (Nat × Nat) :=
  if lead < 0xC2 then []
  else if lead < 0xE0 then [(0x80, 0xBF)]
  else if lead = 0xE0 then [(0xA0, 0xBF), (0x80, 0xBF)]
  else if lead = 0xED then [(0x80, 0x9F), (0x80, 0xBF)]
  else if lead < 0xF0 then [(0x80, 0xBF), (0x80, 0xBF)]
  else if lead = 0xF0 then [(0x90, 0xBF), (0x80, 0xBF), (0x80, 0xBF)]
  else if lead < 0xF4 then [(0x80, 0xBF), (0x80, 0xBF), (0x80, 0xBF)]
  else if lead = 0xF4 then [(0x80, 0x8F), (0x80, 0xBF), (0x80, 0xBF)]
  else []

abbrev Within (range : Nat × Nat) (b : UInt8) : Prop :=
  range.1 ≤ b.toNat ∧ b.toNat ≤ range.2

/-- How many bytes of a sequence are there, up to the first one out of its bounds. -/
def tailLength : List (Nat × Nat) → Bytes → Nat
  | range :: ranges, b :: rest => if Within range b then tailLength ranges rest + 1 else 0
  | _, _ => 0

/-- `skip` counts the bytes left of the sequence that was decoded last. -/
def lossyLoop : Nat → Bytes → Str
  | _, [] => []
  | skip + 1, _ :: rest => lossyLoop skip rest
  | 0, b :: rest =>
      let n := tailLength (tailRanges b.toNat) rest
      let chunk : Bytes := b :: rest.take n
      (chunk.toByteArray.utf8DecodeChar? 0).getD replacementChar :: lossyLoop n rest

def toStringLossy (bytes : Bytes) : Str := lossyLoop 0 bytes

example : toStringLossy [0x65, 0xE2, 0x82, 0x74, 0xFF, 0x68] =
    ['e', replacementChar, 't', replacementChar, 'h'] := by decide

theorem lossyLoop_append (seq rest : Bytes) :
    lossyLoop seq.length (seq ++ rest) = lossyLoop 0 rest := by
  induction seq with
  | nil => rfl
  | cons b seq ih => exact ih

theorem tailLength_append {ranges : List (Nat × Nat)} {seq : Bytes}
    (h : List.Forall₂ Within ranges seq) (rest : Bytes) :
    tailLength ranges (seq ++ rest) = seq.length := by
  induction h with
  | nil => rfl
  | cons hb _ ih =>
      rw [List.cons_append, tailLength, if_pos hb, ih]
      rfl

theorem within_ofNat (low high n : Nat) :
    Within (low, high) (UInt8.ofNat n) ↔ low ≤ n % 256 ∧ n % 256 ≤ high := by
  rw [Within, UInt8.toNat_ofNat']

theorem tailRanges_three {lead : Nat} (hlow : 0xE0 ≤ lead) (hhigh : lead < 0xF0) :
    tailRanges lead =
      [(if lead = 0xE0 then 0xA0 else 0x80, if lead = 0xED then 0x9F else 0xBF), (0x80, 0xBF)] := by
  rw [tailRanges, if_neg (by omega), if_neg (by omega)]
  by_cases hfirst : lead = 0xE0
  · rw [if_pos hfirst, if_pos hfirst, if_neg (by omega)]
  · by_cases hsurrogate : lead = 0xED
    · rw [if_neg hfirst, if_pos hsurrogate, if_neg hfirst, if_pos hsurrogate]
    · rw [if_neg hfirst, if_neg hsurrogate, if_pos hhigh, if_neg hfirst, if_neg hsurrogate]

theorem tailRanges_four {lead : Nat} (hlow : 0xF0 ≤ lead) (hhigh : lead ≤ 0xF4) :
    tailRanges lead =
      [(if lead = 0xF0 then 0x90 else 0x80, if lead = 0xF4 then 0x8F else 0xBF), (0x80, 0xBF),
        (0x80, 0xBF)] := by
  rw [tailRanges, if_neg (by omega), if_neg (by omega), if_neg (by omega), if_neg (by omega),
    if_neg (by omega)]
  by_cases hfirst : lead = 0xF0
  · rw [if_pos hfirst, if_pos hfirst, if_neg (by omega)]
  · by_cases hlast : lead = 0xF4
    · rw [if_neg hfirst, if_neg (by omega), if_pos hlast, if_neg hfirst, if_pos hlast]
    · rw [if_neg hfirst, if_pos (by omega), if_neg hfirst, if_neg hlast]

theorem within_continuation (n : Nat) : Within (0x80, 0xBF) (UInt8.ofNat (n % 0x40 + 0x80)) :=
  (within_ofNat _ _ _).mpr (by omega)

/-- The encoding of a character is a sequence that the decoder takes to its end. -/
theorem utf8EncodeChar_sequence (c : Char) : ∃ lead seq,
    String.utf8EncodeChar c = lead :: seq ∧
      List.Forall₂ Within (tailRanges lead.toNat) seq := by
  have hvalid := c.valid
  rw [UInt32.isValidChar, Nat.isValidChar] at hvalid
  unfold String.utf8EncodeChar
  simp only
  generalize c.val.toNat = v at hvalid ⊢
  by_cases hone : v ≤ 0x7f
  · rw [if_pos hone]
    refine ⟨_, _, rfl, ?_⟩
    rw [UInt8.toNat_ofNat', tailRanges, if_pos (by omega)]
    exact .nil
  by_cases htwo : v ≤ 0x7ff
  · rw [if_neg hone, if_pos htwo]
    refine ⟨_, _, rfl, ?_⟩
    rw [UInt8.toNat_ofNat', tailRanges, if_neg (by omega), if_pos (by omega)]
    exact .cons (within_continuation _) .nil
  by_cases hthree : v ≤ 0xffff
  · have hlead : (v / 4096 % 0x10 + 0xe0) % 2 ^ 8 = v / 4096 + 0xE0 := by omega
    rw [if_neg hone, if_neg htwo, if_pos hthree]
    refine ⟨_, _, rfl, ?_⟩
    rw [UInt8.toNat_ofNat', hlead, tailRanges_three (by omega) (by omega)]
    -- no overlong encoding, and no surrogate
    refine .cons ((within_ofNat _ _ _).mpr ?_) (.cons (within_continuation _) .nil)
    constructor
    · split <;> omega
    · split <;> omega
  · have hlead : (v / 262144 % 0x08 + 0xf0) % 2 ^ 8 = v / 262144 + 0xF0 := by omega
    rw [if_neg hone, if_neg htwo, if_neg hthree]
    refine ⟨_, _, rfl, ?_⟩
    rw [UInt8.toNat_ofNat', hlead, tailRanges_four (by omega) (by omega)]
    -- no overlong encoding, and nothing past the last code point
    refine .cons ((within_ofNat _ _ _).mpr ?_)
      (.cons (within_continuation _) (.cons (within_continuation _) .nil))
    constructor
    · split <;> omega
    · split <;> omega

theorem toStringLossy_utf8 (s : Str) : toStringLossy (utf8 s) = s := by
  induction s with
  | nil => rfl
  | cons c s ih =>
      obtain ⟨lead, seq, hchar, hwithin⟩ := utf8EncodeChar_sequence c
      have hbytes : utf8 (c :: s) = lead :: (seq ++ utf8 s) := by
        rw [utf8, List.flatMap_cons, hchar]
        rfl
      have hdecode : (lead :: seq).toByteArray.utf8DecodeChar? 0 = some c := by
        rw [← hchar]
        have h := ByteArray.utf8DecodeChar?_utf8EncodeChar_append (b := ByteArray.empty) (c := c)
        rwa [ByteArray.append_empty] at h
      rw [hbytes, toStringLossy, lossyLoop, tailLength_append hwithin, List.take_left, hdecode,
        lossyLoop_append]
      exact congrArg (c :: ·) ih

/-! ## Decoding without replacement -/

/-- `CStr::to_str`: the bytes are text or an error. -/
def toStr (bytes : Bytes) : Option Str := (String.fromUTF8? bytes.toByteArray).map String.toList

theorem utf8_toByteArray (s : Str) : (utf8 s).toByteArray = (String.ofList s).toByteArray := by
  rw [String.toByteArray_ofList]
  rfl

theorem toStr_eq_some_iff {bytes : Bytes} {s : Str} : toStr bytes = some s ↔ bytes = utf8 s := by
  unfold toStr String.fromUTF8?
  constructor
  · intro h
    split at h
    · rw [Option.map_some, Option.some.injEq] at h
      rw [← List.toByteArray_inj, utf8_toByteArray, ← h, String.ofList_toList]
      rfl
    · cases h
  · rintro rfl
    have hvalid : (utf8 s).toByteArray.IsValidUTF8 := by
      rw [utf8_toByteArray]
      exact String.isValidUTF8 _
    rw [dif_pos hvalid, Option.map_some, Option.some.injEq]
    have hstring : String.fromUTF8 (utf8 s).toByteArray hvalid = String.ofList s := by
      rw [← String.toByteArray_inj, ← utf8_toByteArray]
      rfl
    rw [hstring, String.toList_ofList]

end Systemstat.Text
