import Ket.Lib.Str

/-!
# Numerals of a fixed length

The digits of a number in a radix, the highest first, and the number that digits stand for.  A
number that fits the length is the value of its digits.  Decimal digits are ASCII bytes.
-/

namespace Ket.Lib

/-- The number that digits stand for, the highest first. -/
def valueOf (radix : ℕ) (digits : List ℕ) : ℕ := digits.foldl (fun n d => n * radix + d) 0

/-- The last `length` digits of a number, the highest first. -/
def digitsOf (radix length n : ℕ) : List ℕ :=
  (List.range length).map fun i => n / radix ^ (length - 1 - i) % radix

lemma valueOf_concat (radix : ℕ) (digits : List ℕ) (d : ℕ) :
    valueOf radix (digits ++ [d]) = valueOf radix digits * radix + d := by
  simp [valueOf]

lemma digitsOf_succ (radix length n : ℕ) :
    digitsOf radix (length + 1) n = digitsOf radix length (n / radix) ++ [n % radix] := by
  have hinit : ∀ i ∈ List.range length,
      n / radix ^ (length + 1 - 1 - i) % radix = n / radix / radix ^ (length - 1 - i) % radix := by
    intro i hi
    have hlt : i < length := List.mem_range.mp hi
    rw [show length + 1 - 1 - i = length - 1 - i + 1 by omega, pow_succ', Nat.div_div_eq_div_mul]
  rw [digitsOf, List.range_succ, List.map_append, List.map_congr_left hinit, List.map_singleton,
    Nat.add_sub_cancel, Nat.sub_self, pow_zero, Nat.div_one]
  rfl

lemma lt_of_mem_digitsOf {radix length n d : ℕ} (hradix : 0 < radix)
    (h : d ∈ digitsOf radix length n) : d < radix := by
  obtain ⟨i, -, rfl⟩ := List.mem_map.mp h
  exact Nat.mod_lt _ hradix

lemma valueOf_digitsOf {radix length n : ℕ} (h : n < radix ^ length) :
    valueOf radix (digitsOf radix length n) = n := by
  induction length generalizing n with
  | zero =>
    obtain rfl : n = 0 := by simpa using h
    rfl
  | succ length ih =>
    have hdiv : n / radix < radix ^ length := by
      rw [pow_succ'] at h
      exact Nat.div_lt_of_lt_mul h
    rw [digitsOf_succ, valueOf_concat, ih hdiv, Nat.div_add_mod']

/-! ### Decimal digits -/

/-- The number that decimal digits stand for. -/
def ofDecimal (bs : List UInt8) : ℕ := bs.foldl (fun n b => n * 10 + (b.toNat - 0x30)) 0

/-- The low `width` decimal digits of a number. -/
def toDecimal : ℕ → ℕ → List UInt8
  | 0, _ => []
  | width + 1, n => toDecimal width (n / 10) ++ [UInt8.ofNat (0x30 + n % 10)]

/-- `str::parse::<u32>` of a text of digits. -/
def parseU32 (bs : List UInt8) : Option ℕ :=
  if bs ≠ [] ∧ bs.all isAsciiDigit ∧ ofDecimal bs < 2 ^ 32 then some (ofDecimal bs) else none

@[simp] lemma length_toDecimal (width n : ℕ) : (toDecimal width n).length = width := by
  induction width generalizing n with
  | zero => rfl
  | succ width ih => simp [toDecimal, ih]

lemma all_isAsciiDigit_toDecimal (width n : ℕ) : (toDecimal width n).all isAsciiDigit = true := by
  induction width generalizing n with
  | zero => rfl
  | succ width ih =>
    have hlast : isAsciiDigit (UInt8.ofNat (0x30 + n % 10)) = true := by
      rw [isAsciiDigit_iff, UInt8.toNat_ofNat']
      omega
    rw [toDecimal, List.all_append, ih, List.all_cons, hlast]
    rfl

lemma ofDecimal_concat (bs : List UInt8) (b : UInt8) :
    ofDecimal (bs ++ [b]) = ofDecimal bs * 10 + (b.toNat - 0x30) := by
  simp [ofDecimal]

lemma ofDecimal_toDecimal {width n : ℕ} (h : n < 10 ^ width) :
    ofDecimal (toDecimal width n) = n := by
  induction width generalizing n with
  | zero =>
    have hn : n = 0 := by simpa using h
    rw [hn]
    rfl
  | succ width ih =>
    have hdiv : n / 10 < 10 ^ width := by
      rw [pow_succ, mul_comm] at h
      exact Nat.div_lt_of_lt_mul h
    have hdigit : (UInt8.ofNat (0x30 + n % 10)).toNat = 0x30 + n % 10 := by
      rw [UInt8.toNat_ofNat']
      omega
    rw [toDecimal, ofDecimal_concat, ih hdiv, hdigit]
    omega

lemma toDecimal_ofDecimal {bs : List UInt8} (h : bs.all isAsciiDigit = true) :
    toDecimal bs.length (ofDecimal bs) = bs ∧ ofDecimal bs < 10 ^ bs.length := by
  induction bs using List.reverseRecOn with
  | nil => simp [toDecimal, ofDecimal]
  | append_singleton bs b ih =>
    rw [List.all_append, Bool.and_eq_true, List.all_cons, List.all_nil, Bool.and_true] at h
    obtain ⟨hback, hlt⟩ := ih h.1
    have hb := isAsciiDigit_iff.mp h.2
    have hdiv : (ofDecimal bs * 10 + (b.toNat - 0x30)) / 10 = ofDecimal bs := by omega
    have hlow : UInt8.ofNat (0x30 + (ofDecimal bs * 10 + (b.toNat - 0x30)) % 10) = b := by
      apply UInt8.toNat_inj.mp
      rw [UInt8.toNat_ofNat']
      omega
    rw [ofDecimal_concat, List.length_append, List.length_singleton, toDecimal, hdiv, hlow, hback,
      pow_succ]
    exact ⟨rfl, by omega⟩

end Ket.Lib
