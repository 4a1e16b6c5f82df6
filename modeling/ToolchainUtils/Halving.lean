import Mathlib.Algebra.Group.Nat.Defs
import Mathlib.Data.Nat.Log
import Mathlib.Data.Nat.Find

set_option autoImplicit false

namespace ToolchainUtils.Halving

-- The first index up to `last` that is hit; `last` itself when there is none.
structure FirstHit (hit : Nat → Prop) (last index : Nat) : Prop where
  bounded : index ≤ last
  below : ∀ i < index, ¬ hit i
  reached : index = last ∨ hit index

theorem first_hit_exists (hit : Nat → Prop) (last : Nat) : ∃ index, FirstHit hit last index := by
  classical
  have some_index : ∃ i, i = last ∨ hit i := ⟨last, .inl rfl⟩
  refine ⟨Nat.find some_index, Nat.find_min' some_index (.inl rfl), ?_, Nat.find_spec some_index⟩
  intro i less found
  exact Nat.find_min some_index less (.inr found)

theorem first_hit_le (hit : Nat → Prop) (last index i : Nat) (first : FirstHit hit last index) (found : hit i) :
    index ≤ i := by
  by_contra beyond
  exact first.below i (by omega) found

theorem first_hit_gt (hit : Nat → Prop) (last index i : Nat) (first : FirstHit hit last index)
    (upward : ∀ a b, a ≤ b → hit a → hit b) (within : i < last) (missed : ¬ hit i) : index > i := by
  by_contra before
  rcases first.reached with atLast | found
  · omega
  · exact missed (upward index i (by omega) found)

theorem middle_bounds (lo hi : Nat) (open_interval : lo < hi) : lo ≤ (hi + lo) / 2 ∧ (hi + lo) / 2 < hi := by
  omega

-- One look at the middle keeps the first hit between the two ends and halves them.
theorem narrow_hit (hit : Nat → Prop) (last index lo hi : Nat) (first : FirstHit hit last index)
    (low : lo ≤ index) (found : hit ((hi + lo) / 2)) :
    (lo ≤ index ∧ index ≤ (hi + lo) / 2) ∧ (hi + lo) / 2 - lo ≤ (hi - lo) / 2 :=
  ⟨⟨low, first_hit_le hit last index _ first found⟩, by omega⟩

theorem narrow_miss (hit : Nat → Prop) (last index lo hi : Nat) (first : FirstHit hit last index)
    (upward : ∀ a b, a ≤ b → hit a → hit b) (high : index ≤ hi) (bounded : hi ≤ last) (open_interval : lo < hi)
    (missed : ¬ hit ((hi + lo) / 2)) :
    ((hi + lo) / 2 + 1 ≤ index ∧ index ≤ hi) ∧ hi - ((hi + lo) / 2 + 1) ≤ (hi - lo) / 2 :=
  ⟨⟨first_hit_gt hit last index _ first upward (by omega) missed, high⟩, by omega⟩

theorem halved_width (width half rounds : Nat) (fits : width < 2 ^ (rounds + 1)) (halved : half ≤ width / 2) :
    half < 2 ^ rounds := by
  rw [Nat.pow_succ] at fits
  omega

theorem last_lt_pow_clog (count : Nat) (positive : 0 < count) : count - 1 < 2 ^ Nat.clog 2 count := by
  have bound := Nat.le_pow_clog (by decide : 1 < 2) count
  omega

theorem pow_clog_lt_double (count : Nat) (positive : 0 < count) : 2 ^ Nat.clog 2 count < 2 * count := by
  by_cases single : count = 1
  · simp [single]
  · have below := Nat.pow_pred_clog_lt_self (by decide : 1 < 2) (by omega : 1 < count)
    have nonzero := Nat.clog_pos (by decide : 1 < 2) (by omega : 1 < count)
    have split : 2 ^ Nat.clog 2 count = 2 * 2 ^ (Nat.clog 2 count).pred := by
      rw [← Nat.pow_succ', Nat.succ_pred_eq_of_pos nonzero]
    omega

end ToolchainUtils.Halving
