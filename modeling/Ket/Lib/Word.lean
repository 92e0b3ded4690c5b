import Mathlib.Algebra.Order.Field.Rat
import Mathlib.Tactic

/-!
# Machine numbers

Unsigned machine integers are modelled by natural numbers.  Where a width matters the
operation says so: `saturatingAdd` stops at the largest value of its width, `truncate` is a
narrowing conversion.  A floating-point number is a rational, an infinity or no number.
-/

namespace Ket.Lib

/-- The largest 64-bit value. -/
def u64Max : ℕ := 2 ^ 64 - 1

/-- The largest 32-bit value. -/
def u32Max : ℕ := 2 ^ 32 - 1

/-- Addition that stops at the largest 64-bit value. -/
def saturatingAdd (a b : ℕ) : ℕ := min (a + b) u64Max

/-- The conversion of a longer integer to 32 bits. -/
def truncate32 (n : ℕ) : ℕ := n % 2 ^ 32

lemma saturatingAdd_le_max (a b : ℕ) : saturatingAdd a b ≤ u64Max := min_le_right _ _

lemma saturatingAdd_assoc (a b c : ℕ) :
    saturatingAdd (saturatingAdd a b) c = saturatingAdd a (b + c) := by
  unfold saturatingAdd
  omega

lemma truncate32_eq {n : ℕ} (h : n ≤ u32Max) : truncate32 n = n :=
  Nat.mod_eq_of_lt (by unfold u32Max at h; omega)

inductive FloatValue where
  | finite (q : ℚ)
  | infinite (negative : Bool)
  | nan
deriving DecidableEq

namespace FloatValue

def isFinite : FloatValue → Bool
  | finite _ => true
  | _ => false

/-- `(low..=high).contains(&value)`. -/
def isWithin (low high : ℚ) : FloatValue → Bool
  | finite q => decide (low ≤ q ∧ q ≤ high)
  | _ => false

end FloatValue

end Ket.Lib
