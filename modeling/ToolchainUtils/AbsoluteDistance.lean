import Mathlib.Algebra.Order.BigOperators.Group.Finset
import Mathlib.Algebra.Order.Group.Abs

set_option autoImplicit false

-- The sum of the absolute differences of two families of numbers, which are zero outside
-- of a finite set.
namespace ToolchainUtils.AbsoluteDistance

variable {κ M : Type} [AddCommGroup M] [LinearOrder M] [IsOrderedAddMonoid M]

def distanceOn (support : Finset κ) (first second : κ → M) : M := ∑ key ∈ support, |first key - second key|

omit [IsOrderedAddMonoid M] in
theorem distance_comm (support : Finset κ) (first second : κ → M) :
    distanceOn support first second = distanceOn support second first :=
  Finset.sum_congr rfl fun key _ => abs_sub_comm (first key) (second key)

theorem distance_nonneg (support : Finset κ) (first second : κ → M) : 0 ≤ distanceOn support first second :=
  Finset.sum_nonneg fun _ _ => abs_nonneg _

theorem distance_zero_iff (support : Finset κ) (first second : κ → M) :
    distanceOn support first second = 0 ↔ ∀ key ∈ support, first key = second key := by
  rw [distanceOn, Finset.sum_eq_zero_iff_of_nonneg fun _ _ => abs_nonneg _]
  simp only [abs_eq_zero, sub_eq_zero]

theorem distance_triangle (support : Finset κ) (first second third : κ → M) :
    distanceOn support first third ≤ distanceOn support first second + distanceOn support second third := by
  rw [distanceOn, distanceOn, distanceOn, ← Finset.sum_add_distrib]
  exact Finset.sum_le_sum fun key _ => abs_sub_le (first key) (second key) (third key)

-- Keys where both families agree add nothing.
theorem distance_subset (small large : Finset κ) (within : small ⊆ large) (first second : κ → M)
    (agree : ∀ key ∈ large, key ∉ small → first key = second key) :
    distanceOn small first second = distanceOn large first second := by
  apply Finset.sum_subset within
  intro key member outside
  rw [agree key member outside, sub_self, abs_zero]

end ToolchainUtils.AbsoluteDistance
