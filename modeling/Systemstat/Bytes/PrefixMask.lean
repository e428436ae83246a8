import Systemstat.Bytes.Order

/-! # Prefix masks

A mask stored in words of one width, with ones in its first bits and zeros behind
them. Bits are counted from the most significant one of the first word, so that
cutting a word into octets, the high one first, moves none of them.
-/

namespace Systemstat.Bytes

variable {k n : Nat}

/-- `wrapping_shl`: the amount is taken modulo the width. -/
def wrappingShl (x : BitVec k) (rhs : Nat) : BitVec k := x <<< (rhs % k)

def bitAt (words : Vector (BitVec k) n) (i : Nat) : Bool :=
  (words[i / k]?.getD 0#k).getMsbD (i % k)

theorem bitAt_of_lt (words : Vector (BitVec k) n) {j i : Nat} (hj : j < n) (hi : i < k) :
    bitAt words (j * k + i) = words[j].getMsbD i := by
  have hdiv : (j * k + i) / k = j := by
    rw [Nat.mul_comm, Nat.mul_add_div (by omega), Nat.div_eq_of_lt hi, Nat.add_zero]
  have hmod : (j * k + i) % k = i := by
    rw [Nat.mul_comm, Nat.mul_add_mod, Nat.mod_eq_of_lt hi]
  rw [bitAt, hdiv, hmod, Vector.getElem?_eq_getElem hj, Option.getD_some]

theorem index_lt {j i : Nat} (hj : j < n) (hi : i < k) : j * k + i < n * k := by
  have hle : (j + 1) * k ≤ n * k := Nat.mul_le_mul_right k hj
  rw [Nat.add_one_mul] at hle
  omega

theorem ext_bitAt {ws ws' : Vector (BitVec k) n} (h : ∀ i < n * k, bitAt ws i = bitAt ws' i) :
    ws = ws' := by
  apply Vector.ext
  intro j hj
  apply BitVec.eq_of_getMsbD_eq
  intro i hi
  rw [← bitAt_of_lt ws hj hi, ← bitAt_of_lt ws' hj hi]
  exact h _ (index_lt hj hi)

/-- The octets of big-endian words hold the bits of the words where they were. -/
theorem bitAt_octets_big (ws : Vector (BitVec 16) n) {i : Nat} (hi : i < n * 16) :
    bitAt (octets .big ws) i = bitAt ws i := by
  have hword : i / 16 < n := by omega
  have hoctet : i / 8 < 2 * n := by omega
  have hindex : i / 8 / 2 = i / 16 := by omega
  rw [bitAt, bitAt, Vector.getElem?_eq_getElem hword, Vector.getElem?_eq_getElem hoctet,
    Option.getD_some, Option.getD_some]
  simp only [octets, Vector.getElem_ofFn, hindex]
  by_cases heven : i / 8 % 2 = 0
  · have hbit : i % 8 = i % 16 := by omega
    rw [if_pos heven, hbit]
    show (BitVec.extractLsb' 8 8 _).getMsbD (i % 16) = _
    rw [BitVec.getMsbD_extractLsb']
    have hlt : i % 16 < 8 := by omega
    have hle : 8 + 8 - i % 16 ≤ 16 := by omega
    have hback : 16 - (8 + 8 - i % 16) = i % 16 := by omega
    rw [hback, decide_eq_true hlt, decide_eq_true hle, Bool.true_and, Bool.true_and]
  · rw [if_neg heven]
    show (BitVec.extractLsb' 0 8 _).getMsbD (i % 8) = _
    rw [BitVec.getMsbD_extractLsb']
    have hlt : i % 8 < 8 := by omega
    have hle : 0 + 8 - i % 8 ≤ 16 := by omega
    have hback : 16 - (0 + 8 - i % 8) = i % 16 := by omega
    rw [hback, decide_eq_true hlt, decide_eq_true hle, Bool.true_and, Bool.true_and]

/-! ## Masks -/

def IsPrefixMask (mask : Vector (BitVec k) n) (bits : Nat) : Prop :=
  ∀ i < n * k, bitAt mask i = decide (i < bits)

instance (mask : Vector (BitVec k) n) (bits : Nat) : Decidable (IsPrefixMask mask bits) :=
  inferInstanceAs (Decidable (∀ i < n * k, bitAt mask i = decide (i < bits)))

def masked (mask words : Vector (BitVec k) n) : Vector (BitVec k) n :=
  Vector.zipWith (· &&& ·) words mask

theorem bitAt_masked (mask words : Vector (BitVec k) n) {i : Nat} (hi : i < n * k) :
    bitAt (masked mask words) i = (bitAt words i && bitAt mask i) := by
  have hpos : 0 < k := Nat.pos_of_mul_pos_left (by omega : 0 < n * k)
  have hj : i / k < n := Nat.div_lt_of_lt_mul (by rwa [Nat.mul_comm])
  have hsplit : i / k * k + i % k = i := Nat.div_add_mod' i k
  have hbit : i % k < k := Nat.mod_lt i hpos
  rw [← hsplit, bitAt_of_lt _ hj hbit, bitAt_of_lt _ hj hbit, bitAt_of_lt _ hj hbit, masked,
    Vector.getElem_zipWith, BitVec.getMsbD_and]

theorem IsPrefixMask.unique {mask mask' : Vector (BitVec k) n} {bits : Nat}
    (h : IsPrefixMask mask bits) (h' : IsPrefixMask mask' bits) : mask = mask' :=
  ext_bitAt fun i hi => (h i hi).trans (h' i hi).symm

theorem IsPrefixMask.octets_big {mask : Vector (BitVec 16) n} {bits : Nat}
    (h : IsPrefixMask mask bits) : IsPrefixMask (octets .big mask) bits := by
  intro i hi
  have hi' : i < n * 16 := by omega
  rw [bitAt_octets_big mask hi', h i hi']

/-- Under a prefix mask two words are the same exactly when their first bits are. -/
theorem IsPrefixMask.masked_eq_iff {mask : Vector (BitVec k) n} {bits : Nat}
    (h : IsPrefixMask mask bits) (a b : Vector (BitVec k) n) :
    masked mask a = masked mask b ↔ ∀ i < n * k, i < bits → bitAt a i = bitAt b i := by
  constructor
  · intro hsame i hi hbits
    have hbit := congrArg (fun ws => bitAt ws i) hsame
    simp only [bitAt_masked mask _ hi, h i hi, decide_eq_true hbits, Bool.and_true] at hbit
    exact hbit
  · intro hsame
    apply ext_bitAt
    intro i hi
    rw [bitAt_masked mask a hi, bitAt_masked mask b hi, h i hi]
    by_cases hbits : i < bits
    · rw [hsame i hi hbits]
    · rw [decide_eq_false hbits, Bool.and_false, Bool.and_false]

end Systemstat.Bytes
