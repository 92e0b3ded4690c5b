import Mathlib.Data.Nat.Digits.Defs
import Mathlib.Tactic

/-!
# Bit strings in groups

A list of `w`-bit digits, the first one the highest, is a bit string of `w` times its length bits,
and so the number that these bits make up (`number`).  `Regroups w v xs ys left` says that the
digits `ys` of `v` bits are the digits `xs` of `w` bits with `left` zero bits after them.  Digit
strings of one length are told apart by their numbers, so that either side of the relation
determines the other once `left` is known.
-/

namespace Ket.Lib

/-- The number that a list of `w`-bit digits stands for, the highest digit first. -/
def number (w : ℕ) (ds : List ℕ) : ℕ := Nat.ofDigits (2 ^ w) ds.reverse

@[simp] lemma number_nil (w : ℕ) : number w [] = 0 := rfl

lemma number_append (w : ℕ) (ds es : List ℕ) :
    number w (ds ++ es) = number w ds * 2 ^ (w * es.length) + number w es := by
  rw [number, List.reverse_append, Nat.ofDigits_append, List.length_reverse, ← pow_mul]
  unfold number
  ring

lemma number_cons (w d : ℕ) (ds : List ℕ) :
    number w (d :: ds) = d * 2 ^ (w * ds.length) + number w ds := by
  have h := number_append w [d] ds
  rwa [List.singleton_append, show number w [d] = d by simp [number]] at h

lemma number_lt {w : ℕ} {ds : List ℕ} (h : ∀ d ∈ ds, d < 2 ^ w) :
    number w ds < 2 ^ (w * ds.length) := by
  induction ds with
  | nil => simp
  | cons d ds ih =>
    have hd : d + 1 ≤ 2 ^ w := h d List.mem_cons_self
    have hds := ih fun e he => h e (List.mem_cons_of_mem d he)
    calc number w (d :: ds) < d * 2 ^ (w * ds.length) + 2 ^ (w * ds.length) := by
          rw [number_cons]
          omega
      _ = (d + 1) * 2 ^ (w * ds.length) := by ring
      _ ≤ 2 ^ w * 2 ^ (w * ds.length) := Nat.mul_le_mul_right _ hd
      _ = 2 ^ (w * (d :: ds).length) := by rw [List.length_cons, ← pow_add, Nat.mul_succ, add_comm]

/-- Digit strings of one length with the same number are the same. -/
lemma number_inj {w : ℕ} (hw : 0 < w) {ds es : List ℕ} (hlength : ds.length = es.length)
    (hds : ∀ d ∈ ds, d < 2 ^ w) (hes : ∀ e ∈ es, e < 2 ^ w) (h : number w ds = number w es) :
    ds = es := by
  apply List.reverse_injective
  refine Nat.ofDigits_inj_of_len_eq (Nat.one_lt_two_pow hw.ne') ?_ ?_ ?_ h
  · simpa using hlength
  · simpa using hds
  · simpa using hes

/-- A quotient and a remainder that a power of two tells apart. -/
lemma mul_two_pow_add_inj {a a' b b' m : ℕ} (hb : b < 2 ^ m) (hb' : b' < 2 ^ m)
    (h : a * 2 ^ m + b = a' * 2 ^ m + b') : a = a' ∧ b = b' := by
  have hpos : 0 < 2 ^ m := Nat.two_pow_pos m
  have hquotient : a = a' := by
    have hdiv := congrArg (· / 2 ^ m) h
    simp only [Nat.mul_comm _ (2 ^ m), Nat.mul_add_div hpos] at hdiv
    rwa [Nat.div_eq_of_lt hb, Nat.div_eq_of_lt hb', add_zero, add_zero] at hdiv
  subst hquotient
  exact ⟨rfl, Nat.add_left_cancel h⟩

/-- The digits `ys` of `v` bits are the digits `xs` of `w` bits with `left` zero bits after them. -/
structure Regroups (w v : ℕ) (xs ys : List ℕ) (left : ℕ) : Prop where
  length_eq : v * ys.length = w * xs.length + left
  number_eq : number v ys = number w xs * 2 ^ left

/-- The regrouped digits are determined by the digits and the number of bits after them. -/
lemma Regroups.unique {w v left : ℕ} {xs ys ys' : List ℕ} (hv : 0 < v)
    (hys : ∀ y ∈ ys, y < 2 ^ v) (hys' : ∀ y ∈ ys', y < 2 ^ v) (h : Regroups w v xs ys left)
    (h' : Regroups w v xs ys' left) : ys = ys' := by
  have hlength : ys.length = ys'.length :=
    Nat.eq_of_mul_eq_mul_left hv (h.length_eq.trans h'.length_eq.symm)
  exact number_inj hv hlength hys hys' (h.number_eq.trans h'.number_eq.symm)

end Ket.Lib
