import Systemstat.Bytes.PrefixMask
import Systemstat.Data

/-! # Netmasks

Windows gives the length of the prefix that is on the link, and the mask is made of it
word by word: octets for IPv4, segments for IPv6. In the last word that has ones the
amount of the shift is the whole width when all of its bits are ones, which a wrapping
shift takes for zero.
-/

namespace Systemstat.Windows

open Bytes

/-- The word with this index, of this width, in both functions. -/
def maskWord (width : Nat) (bits : BitVec 8) (idx : Nat) : BitVec width :=
  let first := idx * width
  match decide (bits.toNat > first), decide (bits.toNat > first + width) with
  | true, true => BitVec.allOnes width
  | true, false => wrappingShl (BitVec.allOnes width) (width - bits.toNat % width)
  | false, _ => 0

def netmaskV4 (bits : BitVec 8) : Ipv4Addr :=
  .new (maskWord 8 bits 0) (maskWord 8 bits 1) (maskWord 8 bits 2) (maskWord 8 bits 3)

def netmaskV6 (bits : BitVec 8) : Ipv6Addr :=
  let tmp := maskWord 16 bits
  .new (tmp 0) (tmp 1) (tmp 2) (tmp 3) (tmp 4) (tmp 5) (tmp 6) (tmp 7)

/-! ## The words -/

/-- Shifting by the width, which wraps, leaves a full word. -/
theorem getMsbD_wrappingShl_allOnes {width ones i : Nat} (hpos : 0 < ones) (hle : ones ≤ width)
    (hi : i < width) :
    (wrappingShl (BitVec.allOnes width) (width - ones % width)).getMsbD i =
      decide (i < ones) := by
  rw [wrappingShl, BitVec.getMsbD_shiftLeft, BitVec.getMsbD_allOnes]
  rcases Nat.lt_or_ge ones width with hlt | hge
  · rw [Nat.mod_eq_of_lt hlt, Nat.mod_eq_of_lt (by omega : width - ones < width)]
    exact decide_eq_decide.mpr (by omega)
  · obtain rfl : ones = width := by omega
    rw [Nat.mod_self, Nat.sub_zero, Nat.mod_self]
    exact decide_eq_decide.mpr (by omega)

theorem getMsbD_maskWord {width : Nat} (bits : BitVec 8) (idx : Nat) {i : Nat} (hi : i < width) :
    (maskWord width bits idx).getMsbD i = decide (idx * width + i < bits.toNat) := by
  unfold maskWord
  by_cases hfirst : bits.toNat > idx * width
  · by_cases hlast : bits.toNat > idx * width + width
    · simp only [decide_eq_true hfirst, decide_eq_true hlast, BitVec.getMsbD_allOnes]
      exact decide_eq_decide.mpr (by omega)
    · have hmod : bits.toNat % width = (bits.toNat - idx * width) % width := by
        have hsplit : bits.toNat = bits.toNat - idx * width + width * idx := by
          rw [Nat.mul_comm width idx]
          omega
        conv_lhs => rw [hsplit]
        exact Nat.add_mul_mod_self_left _ _ _
      simp only [decide_eq_true hfirst, decide_eq_false hlast]
      rw [hmod, getMsbD_wrappingShl_allOnes (by omega) (by omega) hi]
      exact decide_eq_decide.mpr (by omega)
  · simp only [decide_eq_false hfirst]
    exact BitVec.getMsbD_zero.trans (decide_eq_false (by omega)).symm

theorem isPrefixMask_maskWords {width n : Nat} (bits : BitVec 8) :
    IsPrefixMask (Vector.ofFn fun j : Fin n => maskWord width bits j) bits.toNat := by
  intro i hi
  have hpos : 0 < width := Nat.pos_of_mul_pos_left (by omega : 0 < n * width)
  have hj : i / width < n := Nat.div_lt_of_lt_mul (by rwa [Nat.mul_comm])
  have hbit : i % width < width := Nat.mod_lt i hpos
  have hword := getMsbD_maskWord bits (i / width) hbit
  rw [Nat.div_add_mod'] at hword
  rw [bitAt, Vector.getElem?_eq_getElem hj, Option.getD_some, Vector.getElem_ofFn, hword]

theorem netmaskV4_isPrefixMask (bits : BitVec 8) :
    IsPrefixMask (netmaskV4 bits).octets bits.toNat := by
  have hwords : (netmaskV4 bits).octets = Vector.ofFn fun j : Fin 4 => maskWord 8 bits j := rfl
  rw [hwords]
  exact isPrefixMask_maskWords bits

theorem netmaskV6_isPrefixMask (bits : BitVec 8) :
    IsPrefixMask (netmaskV6 bits).octets bits.toNat := by
  have hwords : (netmaskV6 bits).octets =
      octets (n := 8) .big (Vector.ofFn fun j : Fin 8 => maskWord 16 bits j) := rfl
  have hmask := (isPrefixMask_maskWords bits (n := 8)).octets_big
  rw [hwords]
  exact hmask

/-! ## The networks -/

/-- The mask has its first `bits` bits, and under it two addresses are in one network
exactly when they have these bits in common. -/
structure SelectsPrefix {n : Nat} (mask : Vector (BitVec 8) n) (bits : Nat) : Prop where
  ones : ∀ i < n * 8, bitAt mask i = decide (i < bits)
  network : ∀ a b : Vector (BitVec 8) n, masked mask a = masked mask b ↔
    ∀ i < n * 8, i < bits → bitAt a i = bitAt b i
  only : ∀ mask' : Vector (BitVec 8) n,
    (∀ i < n * 8, bitAt mask' i = decide (i < bits)) → mask' = mask

theorem selectsPrefix_of_isPrefixMask {n bits : Nat} {mask : Vector (BitVec 8) n}
    (h : IsPrefixMask mask bits) : SelectsPrefix mask bits where
  ones := h
  network := h.masked_eq_iff
  only _ h' := IsPrefixMask.unique h' h

/-- Both masks select the prefix, for every length a byte can hold. -/
theorem netmasks_selectPrefix (bits : BitVec 8) :
    SelectsPrefix (netmaskV4 bits).octets bits.toNat ∧
      SelectsPrefix (netmaskV6 bits).octets bits.toNat :=
  ⟨selectsPrefix_of_isPrefixMask (netmaskV4_isPrefixMask bits),
    selectsPrefix_of_isPrefixMask (netmaskV6_isPrefixMask bits)⟩

end Systemstat.Windows
