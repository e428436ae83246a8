import Systemstat.Linux.ProcMounts
import Systemstat.Text.Words

/-! # The words of a mount line

`word_s` looks at the low byte of a character, so a character beyond ASCII whose
code point ends in the byte of a space or a tab ends a word. `ws` then does not
skip it, and the words behind it are empty. The three fields of a line are its
first three words exactly when none of these has such a character.
-/

namespace Systemstat.Linux

open Nom Text

def isBlankChar (c : Char) : Bool := c == ' ' || c == '\t'

/-- The low byte of the code point is that of a space or a tab. -/
def hasBlankByte (c : Char) : Bool := c.toNat % 256 == 0x20 || c.toNat % 256 == 0x09

def wordsOf (l : Str) : ProcMountsData :=
  ⟨word isBlankChar l 0, word isBlankChar l 1, word isBlankChar l 2⟩

/-! ## Two notions of separator -/

theorem isSpace_asU8 (c : Char) : isSpace (asU8 c) = hasBlankByte c := by
  have hbyte : (asU8 c).toNat = c.toNat % 256 := UInt32.toNat_toUInt8 c.val
  have h32 : asU8 c = 32 ↔ c.toNat % 256 = 0x20 := by
    rw [← UInt8.toNat_inj, hbyte]
    rfl
  have h9 : asU8 c = 9 ↔ c.toNat % 256 = 0x09 := by
    rw [← UInt8.toNat_inj, hbyte]
    rfl
  rw [isSpace, hasBlankByte, Bool.eq_iff_iff]
  simp only [Bool.or_eq_true, beq_iff_eq, h32, h9]

theorem hasBlankByte_of_isBlankChar {c : Char} (h : isBlankChar c = true) :
    hasBlankByte c = true := by
  simp only [isBlankChar, Bool.or_eq_true, beq_iff_eq] at h
  rcases h with rfl | rfl <;> rfl

theorem isMultispace_eq {c : Char} (h : isLineEnd c = false) : isMultispace c = isBlankChar c := by
  simp only [isLineEnd, Bool.or_eq_false_iff] at h
  simp only [isMultispace, isBlankChar, h.1, h.2, Bool.or_false]

/-! ## One word -/

variable {l : Str} (hl : LineBody l)

def behindWord (l : Str) : Str :=
  (l.dropWhile isBlankChar).dropWhile fun c => !isBlankChar c

include hl

theorem skip_lineBody : skip l = l.dropWhile isBlankChar := by
  induction l with
  | nil => rfl
  | cons c l ih =>
      have hc := isMultispace_eq (hl c (by simp))
      have hrest := ih fun d hd => hl d (by simp [hd])
      cases hb : isBlankChar c with
      | false =>
          rw [skip_cons_of_not_multispace (hc.trans hb), List.dropWhile_cons_of_neg (by simp [hb])]
      | true => rw [skip_cons_of_multispace (hc.trans hb), hrest, List.dropWhile_cons_of_pos hb]

theorem behindWord_body : LineBody (behindWord l) :=
  fun c hc => hl c ((List.dropWhile_suffix _).subset ((List.dropWhile_suffix _).subset hc))

/-- The first word is read whole exactly when no character in it looks like a separator. -/
theorem firstWord_eq_iff :
    firstWord l = word isBlankChar l 0 ↔ ∀ c ∈ word isBlankChar l 0, hasBlankByte c = false := by
  have himp : ∀ c, (!isSpace (asU8 c)) = true → (!isBlankChar c) = true := by
    intro c hc
    rw [isSpace_asU8] at hc
    cases hb : isBlankChar c with
    | false => rfl
    | true => rw [hasBlankByte_of_isBlankChar hb] at hc; cases hc
  rw [firstWord, skip_lineBody hl, word_zero, takeWhile_eq_iff himp]
  simp only [isSpace_asU8, Bool.not_eq_true']

/-- Behind a word that is read whole, reading goes on where the word ends. -/
theorem afterWord_eq (h : firstWord l = word isBlankChar l 0) :
    afterWord l = skip (behindWord l) := by
  rw [firstWord, skip_lineBody hl, word_zero] at h
  have hsplit := List.takeWhile_append_dropWhile (p := fun c => !isSpace (asU8 c))
    (l := l.dropWhile isBlankChar)
  rw [h] at hsplit
  conv_rhs at hsplit =>
    rw [← List.takeWhile_append_dropWhile (p := fun c => !isBlankChar c)
      (l := l.dropWhile isBlankChar)]
  rw [afterWord, skip_lineBody hl, behindWord, List.append_cancel_left hsplit]

omit hl

theorem firstWord_skip (l : Str) : firstWord (skip l) = firstWord l := by
  rw [firstWord, firstWord, skip_skip]

theorem afterWord_skip (l : Str) : afterWord (skip l) = afterWord l := by
  rw [afterWord, afterWord, skip_skip]

theorem word_behindWord (l : Str) (k : Nat) :
    word isBlankChar (behindWord l) k = word isBlankChar l (k + 1) := (word_succ l k).symm

/-! ## The three fields -/

/-- Each field is right exactly when no word up to it is cut short. -/
theorem mountOf_eq_wordsOf_iff {l : Str} (hl : LineBody l) : mountOf l = wordsOf l ↔
    (∀ c ∈ word isBlankChar l 0, hasBlankByte c = false) ∧
    (∀ c ∈ word isBlankChar l 1, hasBlankByte c = false) ∧
    ∀ c ∈ word isBlankChar l 2, hasBlankByte c = false := by
  have hbody := behindWord_body hl
  have hsecond := firstWord_eq_iff hbody
  have hthird := firstWord_eq_iff (behindWord_body hbody)
  simp only [word_behindWord] at hsecond hthird
  rw [mountOf, wordsOf, ProcMountsData.mk.injEq, ← firstWord_eq_iff hl, ← hsecond, ← hthird]
  refine and_congr_right fun h₀ => ?_
  rw [afterWord_eq hl h₀, firstWord_skip, afterWord_skip]
  refine and_congr_right fun h₁ => ?_
  rw [afterWord_eq hbody (by rwa [word_behindWord]), firstWord_skip]

/-- The fields of a line are its first three words exactly when these have no
character whose low byte is that of a space or a tab. -/
theorem procMountsLine_words_iff {l : Str} (hl : LineBody l) :
    (procMountsLine l).value? = some (wordsOf l) ↔
      ∀ k < 3, ∀ c ∈ word isBlankChar l k, c.toNat % 256 ≠ 0x20 ∧ c.toNat % 256 ≠ 0x09 := by
  have hclean : ∀ c : Char, (c.toNat % 256 ≠ 0x20 ∧ c.toNat % 256 ≠ 0x09) ↔
      hasBlankByte c = false := by
    intro c
    simp [hasBlankByte]
  simp only [procMountsLine_value, Option.some.injEq, mountOf_eq_wordsOf_iff hl, hclean]
  constructor
  · rintro ⟨h₀, h₁, h₂⟩ k hk
    match k, hk with
    | 0, _ => exact h₀
    | 1, _ => exact h₁
    | 2, _ => exact h₂
  · exact fun h => ⟨h 0 (by omega), h 1 (by omega), h 2 (by omega)⟩

theorem procMountsLine_words_iff_root :
    (procMountsLine "/dev/a / ext4 rw 0 0".toList).value? =
        some (wordsOf "/dev/a / ext4 rw 0 0".toList) ↔
      ∀ k < 3, ∀ c ∈ word isBlankChar "/dev/a / ext4 rw 0 0".toList k,
        c.toNat % 256 ≠ 0x20 ∧ c.toNat % 256 ≠ 0x09 :=
  procMountsLine_words_iff (by decide)

/-- The code point of the letter in this name ends in the byte of a space. -/
theorem procMountsLine_letter :
    ¬ ∀ l : Str, LineBody l → (procMountsLine l).value? = some (wordsOf l) := by
  intro h
  have hline := h "/dev/sdb1 /mnt/\u0120or\u0121 vfat rw 0 0".toList (by decide)
  revert hline
  decide

end Systemstat.Linux
