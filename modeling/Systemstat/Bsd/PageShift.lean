import Systemstat.Arith.Words
import Systemstat.Data
import Mathlib.Data.Nat.Log

/-! # Pages

The shift from pages to kibibytes, found by halving the page size, and the sizes that
come of it when it is made in a signed word of 32 bits or in an unsigned one of 64.
-/

namespace Systemstat.Bsd

open Arith

/-- `>>=` on a signed word keeps its sign. -/
def pageshiftLoop (pagesize pageshift : BitVec 32) : BitVec 32 :=
  if 1 < pagesize.toInt then pageshiftLoop (pagesize.sshiftRight 1) (pageshift + 1#32)
  else pageshift
termination_by pagesize.toInt.toNat
decreasing_by
  rw [BitVec.toInt_sshiftRight, Int.shiftRight_eq_div_pow]
  omega

def pageshift (getpagesize : BitVec 32) : BitVec 32 := pageshiftLoop getpagesize 0#32 - 10#32

/-- `<<`; without a check of the amount it is taken modulo the width. -/
def shl {w : Nat} (x : BitVec w) (amount : BitVec 32) : BitVec w := x <<< (amount.toNat % w)

/-- `(pages << PAGESHIFT) as u64` of a `c_int`. -/
def kibibytesI32 (shift pages : BitVec 32) : BitVec 64 := i32AsU64 (shl pages shift)

/-- `(pages as u64) << PAGESHIFT` of an unsigned count. -/
def kibibytesU64 {w : Nat} (shift : BitVec 32) (pages : BitVec w) : BitVec 64 :=
  shl (pages.setWidth 64) shift

/-! ## The loop -/

/-- The number of halvings is the logarithm, whatever the page size is. -/
theorem pageshiftLoop_eq (pagesize pageshift : BitVec 32) : pageshiftLoop pagesize pageshift =
    pageshift + BitVec.ofNat 32 (Nat.log2 pagesize.toInt.toNat) := by
  induction pagesize, pageshift using pageshiftLoop.induct with
  | case1 pagesize pageshift hlt ih =>
      have hhalf : (pagesize.sshiftRight 1).toInt.toNat = pagesize.toInt.toNat / 2 := by
        rw [BitVec.toInt_sshiftRight, Int.shiftRight_eq_div_pow]
        omega
      have hlog : Nat.log2 pagesize.toInt.toNat = Nat.log2 (pagesize.toInt.toNat / 2) + 1 := by
        rw [Nat.log2_def, if_pos (by omega)]
      rw [pageshiftLoop, if_pos hlt, ih, hhalf, hlog, BitVec.add_assoc, BitVec.ofNat_add,
        BitVec.add_comm (1#32)]
  | case2 pagesize pageshift hle =>
      have hlog : Nat.log2 pagesize.toInt.toNat = 0 := by
        rw [Nat.log2_def, if_neg (by omega)]
      rw [pageshiftLoop, if_neg hle, hlog, BitVec.add_zero]

theorem pageshift_two_pow {k : Nat} (hlow : 10 ≤ k) (hhigh : k ≤ 30) :
    pageshift (BitVec.ofNat 32 (2 ^ k)) = BitVec.ofNat 32 (k - 10) := by
  have hpow : 2 ^ k ≤ 2 ^ 30 := Nat.pow_le_pow_right (by decide) hhigh
  have hsize : (BitVec.ofNat 32 (2 ^ k)).toInt.toNat = 2 ^ k := by
    rw [BitVec.toInt_eq_toNat_of_lt, Int.toNat_natCast, BitVec.toNat_ofNat,
      Nat.mod_eq_of_lt (by omega)]
    rw [BitVec.toNat_ofNat, Nat.mod_eq_of_lt (by omega)]
    omega
  rw [pageshift, pageshiftLoop_eq, hsize, Nat.log2_two_pow, BitVec.zero_add]
  apply BitVec.eq_of_toNat_eq
  rw [BitVec.toNat_sub, BitVec.toNat_ofNat, BitVec.toNat_ofNat, BitVec.toNat_ofNat]
  omega

/-! ## Sizes -/

/-- Pages of `2 ^ k` bytes each are published as what they are, through a number of
kibibytes whose product with 1024 does not overflow. -/
structure PagesExact (k pages : Nat) (kibibytes : BitVec 64) (size : ByteSize) : Prop where
  kib : size = .kib kibibytes
  noOverflow : kibibytes.umulOverflow 1024#64 = false
  bytes : size.bytes.toNat = pages * 2 ^ k

variable {k pages : Nat}

theorem two_pow_eq_kib (hlow : 10 ≤ k) : 2 ^ k = 2 ^ (k - 10) * 1024 := by
  rw [show 1024 = 2 ^ 10 from rfl, ← Nat.pow_add]
  congr 1
  omega

theorem pagesExact_kib_iff (hlow : 10 ≤ k) (hfits : pages * 2 ^ k < 2 ^ 64)
    (kibibytes : BitVec 64) : PagesExact k pages kibibytes (.kib kibibytes) ↔
      kibibytes.toNat = pages * 2 ^ (k - 10) := by
  have hkib : (1024#64).toNat = 1024 := rfl
  rw [two_pow_eq_kib hlow, ← Nat.mul_assoc] at hfits
  constructor
  · intro h
    have hbytes := h.bytes
    have hover := umulOverflow_eq_false_iff.mp h.noOverflow
    rw [ByteSize.kib, toNat_mul_of_lt hover, hkib, two_pow_eq_kib hlow, ← Nat.mul_assoc] at hbytes
    omega
  · intro h
    have hover : kibibytes.toNat * (1024#64).toNat < 2 ^ 64 := by
      rw [h, hkib]
      exact hfits
    constructor
    · rfl
    · exact umulOverflow_eq_false_iff.mpr hover
    · rw [ByteSize.kib, toNat_mul_of_lt hover, h, hkib, two_pow_eq_kib hlow, Nat.mul_assoc]

theorem shl_toNat {w : Nat} (x : BitVec w) {s : Nat} (hs : s < w) (hlt : s < 2 ^ 32) :
    (shl x (BitVec.ofNat 32 s)).toNat = x.toNat * 2 ^ s % 2 ^ w := by
  rw [shl, BitVec.toNat_ofNat, Nat.mod_eq_of_lt hlt, Nat.mod_eq_of_lt hs, BitVec.toNat_shiftLeft,
    Nat.shiftLeft_eq]

/-- Shifted in 64 bits, a count is exact as soon as its size in bytes has 64 bits. -/
theorem pagesExact_shl (hlow : 10 ≤ k) (hhigh : k ≤ 30) {n : BitVec 64}
    (hfits : n.toNat * 2 ^ k < 2 ^ 64) :
    PagesExact k n.toNat (shl n (BitVec.ofNat 32 (k - 10)))
      (.kib (shl n (BitVec.ofNat 32 (k - 10)))) := by
  rw [pagesExact_kib_iff hlow hfits, shl_toNat n (by omega) (by omega)]
  apply Nat.mod_eq_of_lt
  rw [two_pow_eq_kib hlow, ← Nat.mul_assoc] at hfits
  omega

theorem pagesExact_kibibytesU64 (hlow : 10 ≤ k) (hhigh : k ≤ 30) {w : Nat} {n : BitVec w}
    (hfits : n.toNat * 2 ^ k < 2 ^ 64) :
    PagesExact k n.toNat (kibibytesU64 (BitVec.ofNat 32 (k - 10)) n)
      (.kib (kibibytesU64 (BitVec.ofNat 32 (k - 10)) n)) := by
  have hpos := Nat.two_pow_pos k
  have hn : n.toNat < 2 ^ 64 := Nat.lt_of_le_of_lt (Nat.le_mul_of_pos_right _ hpos) hfits
  have hcast : (n.setWidth 64).toNat = n.toNat := by
    rw [BitVec.toNat_setWidth, Nat.mod_eq_of_lt hn]
  rw [← hcast] at hfits ⊢
  exact pagesExact_shl hlow hhigh hfits

/-- Shifted in a signed word of 32 bits, it is exact as long as the shift stays clear of
the sign. -/
theorem pagesExact_kibibytesI32_iff (hlow : 10 ≤ k) (hhigh : k ≤ 30) {n : BitVec 32}
    (hn : 0 ≤ n.toInt) :
    PagesExact k n.toNat (kibibytesI32 (BitVec.ofNat 32 (k - 10)) n)
        (.kib (kibibytesI32 (BitVec.ofNat 32 (k - 10)) n)) ↔
      n.toNat * 2 ^ (k - 10) < 2 ^ 31 := by
  have hlt : n.toNat < 2 ^ 31 := by
    have hcast := toNat_cast_of_toInt n
    have hmax := BitVec.toInt_lt (x := n)
    rw [if_pos hn] at hcast
    omega
  have hpow : 2 ^ (k - 10) ≤ 2 ^ 20 := Nat.pow_le_pow_right (by decide) (by omega)
  have hsmall : n.toNat * 2 ^ (k - 10) ≤ 2 ^ 31 * 2 ^ 20 :=
    Nat.mul_le_mul (by omega) hpow
  have hfits : n.toNat * 2 ^ k < 2 ^ 64 := by
    rw [two_pow_eq_kib hlow, ← Nat.mul_assoc]
    omega
  have hshift := shl_toNat n (s := k - 10) (by omega) (by omega)
  rw [pagesExact_kib_iff hlow hfits, kibibytesI32, i32AsU64_toNat]
  generalize shl n (BitVec.ofNat 32 (k - 10)) = shifted at hshift ⊢
  have hcast := toNat_cast_of_toInt shifted
  have hmax := BitVec.toInt_lt (x := shifted)
  have hmin := BitVec.le_toInt (x := shifted)
  constructor
  · intro heq
    split at heq
    · omega
    · omega
  · intro hclear
    rw [Nat.mod_eq_of_lt (by omega)] at hshift
    by_cases hpos : 0 ≤ shifted.toInt
    · rw [if_pos hpos] at hcast ⊢
      omega
    · rw [if_neg hpos] at hcast
      omega

end Systemstat.Bsd
