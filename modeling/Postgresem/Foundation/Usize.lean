import Mathlib.Order.Lattice
import Mathlib.Algebra.Order.Group.Nat

/-! Machine words of 64 bits and their saturating sum. -/
namespace Usize

/-- `usize::MAX`. -/
def max : Nat := 2 ^ 64 - 1

def saturatingAdd (a b : Nat) : Nat := min (a + b) max

theorem saturatingAdd_assoc (a b c : Nat) :
    saturatingAdd (saturatingAdd a b) c = saturatingAdd (a + b) c := by
  unfold saturatingAdd
  omega

/-- A saturating sum passes a bound exactly when the sum does, unless the bound is the largest word
and the sum is larger. -/
theorem lt_saturatingAdd_iff {a b bound : Nat} (h : bound < max ∨ a + b ≤ max) :
    bound < saturatingAdd a b ↔ bound < a + b := by
  unfold saturatingAdd
  omega

end Usize
