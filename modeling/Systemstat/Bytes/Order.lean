import Mathlib.Logic.Basic

/-! # Byte order

Words of two octets, stored in either order. Reading a reversed array gives the
words read in the other order, reversed; reading in one order and storing in the
other swaps the octets of each word.
-/

namespace Systemstat.Bytes

inductive ByteOrder
  | little
  | big
  deriving DecidableEq, Repr

namespace ByteOrder

def other : ByteOrder → ByteOrder
  | little => big
  | big => little

/-- The word of two octets, of which `a` has the lower address. -/
def word : ByteOrder → BitVec 8 → BitVec 8 → BitVec 16
  | little, a, b => b ++ a
  | big, a, b => a ++ b

/-- The octet of a word at the lower address. -/
def low : ByteOrder → BitVec 16 → BitVec 8
  | little, x => x.extractLsb' 0 8
  | big, x => x.extractLsb' 8 8

def high (order : ByteOrder) (x : BitVec 16) : BitVec 8 := order.other.low x

theorem low_word (order : ByteOrder) (a b : BitVec 8) : order.low (order.word a b) = a := by
  cases order with
  | little => exact BitVec.extractLsb'_append_eq_right
  | big => exact BitVec.extractLsb'_append_eq_left

theorem other_other (order : ByteOrder) : order.other.other = order := by
  cases order <;> rfl

theorem word_other (order : ByteOrder) (a b : BitVec 8) :
    order.other.word a b = order.word b a := by
  cases order <;> rfl

theorem high_word (order : ByteOrder) (a b : BitVec 8) : order.high (order.word a b) = b := by
  rw [high, ← order.other_other, word_other, order.other_other, low_word]

end ByteOrder

variable {n : Nat}

def words (order : ByteOrder) (octets : Vector (BitVec 8) (2 * n)) : Vector (BitVec 16) n :=
  Vector.ofFn fun i => order.word octets[2 * i.val] octets[2 * i.val + 1]

def octets (order : ByteOrder) (words : Vector (BitVec 16) n) : Vector (BitVec 8) (2 * n) :=
  Vector.ofFn fun i =>
    if i.val % 2 = 0 then order.low words[i.val / 2] else order.high words[i.val / 2]

/-- Each octet changes places with the other one of its word. -/
def swapPairs (octets : Vector (BitVec 8) (2 * n)) : Vector (BitVec 8) (2 * n) :=
  Vector.ofFn fun i => octets[i.val + 1 - 2 * (i.val % 2)]

theorem words_reverse (order : ByteOrder) (os : Vector (BitVec 8) (2 * n)) :
    words order os.reverse = (words order.other os).reverse := by
  apply Vector.ext
  intro k hk
  have hfirst : 2 * n - 1 - 2 * k = 2 * (n - 1 - k) + 1 := by omega
  have hsecond : 2 * n - 1 - (2 * k + 1) = 2 * (n - 1 - k) := by omega
  simp only [words, Vector.getElem_reverse, Vector.getElem_ofFn, ByteOrder.word_other, hfirst,
    hsecond]

theorem octets_words (order : ByteOrder) (os : Vector (BitVec 8) (2 * n)) :
    octets order (words order os) = os := by
  apply Vector.ext
  intro i hi
  simp only [octets, words, Vector.getElem_ofFn, ByteOrder.low_word, ByteOrder.high_word]
  split
  · have heven : 2 * (i / 2) = i := by omega
    simp only [heven]
  · have hodd : 2 * (i / 2) + 1 = i := by omega
    simp only [hodd]

theorem octets_other_words (order : ByteOrder) (os : Vector (BitVec 8) (2 * n)) :
    octets order.other (words order os) = swapPairs os := by
  apply Vector.ext
  intro i hi
  have hlow : order.other.low = order.high := rfl
  have hhigh : order.other.high = order.low := by
    cases order <;> rfl
  simp only [octets, words, swapPairs, Vector.getElem_ofFn, hlow, hhigh, ByteOrder.low_word,
    ByteOrder.high_word]
  split
  · have heven : 2 * (i / 2) + 1 = i + 1 - 2 * (i % 2) := by omega
    simp only [heven]
  · have hodd : 2 * (i / 2) = i + 1 - 2 * (i % 2) := by omega
    simp only [hodd]

theorem swapPairs_swapPairs (os : Vector (BitVec 8) (2 * n)) : swapPairs (swapPairs os) = os := by
  apply Vector.ext
  intro i hi
  have hback : i + 1 - 2 * (i % 2) + 1 - 2 * ((i + 1 - 2 * (i % 2)) % 2) = i := by omega
  simp only [swapPairs, Vector.getElem_ofFn, hback]

theorem swapPairs_injective {os os' : Vector (BitVec 8) (2 * n)}
    (h : swapPairs os = swapPairs os') : os = os' := by
  rw [← swapPairs_swapPairs os, h, swapPairs_swapPairs]

/-- Nothing is seen of the swap when both octets of each word are the same. -/
theorem swapPairs_eq_iff (os : Vector (BitVec 8) (2 * n)) :
    swapPairs os = os ↔ ∀ k, (hk : k < n) → os[2 * k] = os[2 * k + 1] := by
  constructor
  · intro h k hk
    have hget : (swapPairs os)[2 * k + 1] = os[2 * k + 1] := by rw [h]
    have hindex : 2 * k + 1 + 1 - 2 * ((2 * k + 1) % 2) = 2 * k := by omega
    simpa only [swapPairs, Vector.getElem_ofFn, hindex] using hget
  · intro h
    apply Vector.ext
    intro i hi
    simp only [swapPairs, Vector.getElem_ofFn]
    by_cases heven : i % 2 = 0
    · have hpair := h (i / 2) (by omega)
      have hi₀ : 2 * (i / 2) = i := by omega
      have hi₁ : i + 1 - 2 * (i % 2) = i + 1 := by omega
      simp only [hi₀] at hpair
      simp only [hi₁, hpair]
    · have hpair := h (i / 2) (by omega)
      have hi₀ : 2 * (i / 2) + 1 = i := by omega
      have hi₁ : i + 1 - 2 * (i % 2) = 2 * (i / 2) := by omega
      simp only [hi₀] at hpair
      simp only [hi₁, hpair]

end Systemstat.Bytes
