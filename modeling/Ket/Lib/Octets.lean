import Ket.Lib.Parser
import Mathlib.Data.List.GetD

/-!
# The bits of byte strings

Bit `k` of a byte string counts from the highest bit of its first byte, as the bits of an address do.
A byte string is determined by its length and its bits (`ext_bitAt`).
-/

namespace Ket.Lib

/-- Bit `k` of a byte string, the highest bit of the first byte first. -/
def bitAt (bytes : List UInt8) (k : ℕ) : Bool := (bytes.getD (k / 8) 0).toNat.testBit (7 - k % 8)

lemma testBit_ofNat (n : ℕ) {i : ℕ} (hi : i < 8) :
    (UInt8.ofNat n).toNat.testBit i = n.testBit i := by
  rw [UInt8.toNat_ofNat', Nat.testBit_mod_two_pow, decide_eq_true hi, Bool.true_and]

lemma ext_testBit {b c : UInt8} (h : ∀ i < 8, b.toNat.testBit i = c.toNat.testBit i) : b = c := by
  refine UInt8.toNat_inj.mp (Nat.eq_of_testBit_eq fun i => ?_)
  by_cases hi : i < 8
  · exact h i hi
  · have hlarge : 2 ^ 8 ≤ 2 ^ i := Nat.pow_le_pow_right (by decide) (Nat.le_of_not_lt hi)
    rw [Nat.testBit_lt_two_pow (lt_of_lt_of_le b.toNat_lt hlarge),
      Nat.testBit_lt_two_pow (lt_of_lt_of_le c.toNat_lt hlarge)]

lemma ext_bitAt {bytes bytes' : List UInt8} (hlength : bytes.length = bytes'.length)
    (h : ∀ k < 8 * bytes.length, bitAt bytes k = bitAt bytes' k) : bytes = bytes' := by
  refine List.ext_getElem hlength fun j hj hj' => ext_testBit fun i hi => ?_
  have hk : 8 * j + (7 - i) < 8 * bytes.length := by omega
  have hbit := h _ hk
  have hdiv : (8 * j + (7 - i)) / 8 = j := by omega
  have hmod : 7 - (8 * j + (7 - i)) % 8 = i := by omega
  simpa only [bitAt, hdiv, hmod, List.getD_eq_getElem _ _ hj, List.getD_eq_getElem _ _ hj'] using hbit

lemma getElem?_toBigEndian {width n j : ℕ} (h : j < width) :
    (toBigEndian width n)[j]? = some (UInt8.ofNat (n / 256 ^ (width - 1 - j))) := by
  induction width generalizing n with
  | zero => cases h
  | succ width ih =>
    rw [toBigEndian]
    by_cases hj : j < width
    · have hpow : width + 1 - 1 - j = width - 1 - j + 1 := by omega
      rw [List.getElem?_append_left (by simpa using hj), ih hj, hpow, pow_succ',
        Nat.div_div_eq_div_mul]
    · obtain rfl : j = width := by omega
      rw [List.getElem?_append_right (by simp)]
      simp

/-- The bits of a number in big-endian bytes. -/
lemma bitAt_toBigEndian {width n k : ℕ} (h : k < 8 * width) :
    bitAt (toBigEndian width n) k = n.testBit (8 * width - 1 - k) := by
  have hj : k / 8 < width := by omega
  rw [bitAt, List.getD_eq_getElem?_getD, getElem?_toBigEndian hj, Option.getD_some,
    testBit_ofNat _ (by omega), show (256 : ℕ) = 2 ^ 8 from rfl, ← pow_mul,
    Nat.testBit_div_two_pow]
  congr 1
  omega

end Ket.Lib
