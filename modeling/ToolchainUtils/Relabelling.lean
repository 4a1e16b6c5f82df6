import Mathlib.Algebra.GroupWithZero.Nat
import Mathlib.Algebra.Order.BigOperators.Group.List
import Mathlib.Algebra.Order.Group.Nat
import Mathlib.Data.Finset.Card
import Mathlib.Data.List.Perm.Subperm

set_option autoImplicit false

-- Keys that are put into cells in two ways which fill the same cells.
namespace ToolchainUtils.Relabelling

variable {Key Cell Index Place : Type}

-- No more keys than cells, and every cell is filled: each of them once.
theorem covering_perm (cells : List Cell) (distinct : cells.Nodup) (keys : List Key) (place : Key → Cell)
    (few : keys.length ≤ cells.length) (covers : ∀ cell ∈ cells, ∃ key ∈ keys, place key = cell) : cells.Perm (keys.map place) := by
  have inside : cells ⊆ keys.map place := fun cell member => List.mem_map.mpr (covers cell member)
  apply (List.subperm_of_subset distinct inside).perm_of_length_le
  rwa [List.length_map]

theorem injective_of_perm (cells : List Cell) (distinct : cells.Nodup) (keys : List Key) (place : Key → Cell)
    (perm : cells.Perm (keys.map place)) (first second : Key) (member : first ∈ keys) (listed : second ∈ keys)
    (same : place first = place second) : first = second :=
  List.inj_on_of_nodup_map (perm.nodup_iff.mp distinct) member listed same

theorem same_weights (keys : List Key) (light heavy : Key → Nat) (below : ∀ key ∈ keys, light key ≤ heavy key)
    (total : (keys.map light).sum = (keys.map heavy).sum) : ∀ key ∈ keys, light key = heavy key := by
  intro key member
  by_contra different
  have strict : light key < heavy key := Nat.lt_of_le_of_ne (below key member) different
  have less := List.sum_lt_sum light heavy below ⟨key, member, strict⟩
  omega

-- Two indices in one place would leave fewer places than the other way has.
theorem places_separate [DecidableEq Index] [DecidableEq Place] (keys : List Key) (index : Key → Index) (merged separate : Index → Place)
    (perm : (keys.map fun key => merged (index key)).Perm (keys.map fun key => separate (index key)))
    (separates : ∀ first ∈ keys, ∀ second ∈ keys, separate (index first) = separate (index second) → index first = index second)
    (first second : Key) (member : first ∈ keys) (listed : second ∈ keys) (same : merged (index first) = merged (index second)) :
    index first = index second := by
  have indices {key : Key} (held : key ∈ keys) : index key ∈ (keys.map index).toFinset :=
    List.mem_toFinset.mpr (List.mem_map_of_mem held)
  have image (place : Index → Place) : (keys.map fun key => place (index key)).toFinset = (keys.map index).toFinset.image place := by
    ext cell
    simp
  have distinct : Set.InjOn separate (keys.map index).toFinset := by
    intro one held other kept equal
    obtain ⟨a, inside, rfl⟩ := List.mem_map.mp (List.mem_toFinset.mp held)
    obtain ⟨b, within, rfl⟩ := List.mem_map.mp (List.mem_toFinset.mp kept)
    exact separates a inside b within equal
  have places : (keys.map index).toFinset.image merged = (keys.map index).toFinset.image separate := by
    rw [← image, ← image]
    exact List.toFinset_eq_of_perm _ _ perm
  have count := Finset.card_image_of_injOn distinct
  rw [← places] at count
  exact Finset.card_image_iff.mp count (indices member) (indices listed) same

end ToolchainUtils.Relabelling
