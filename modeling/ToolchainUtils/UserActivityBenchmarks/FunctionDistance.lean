import ToolchainUtils.AbsoluteDistance
import ToolchainUtils.NestedTotals
import ToolchainUtils.UserActivityBenchmarks.CommonFunctions

set_option autoImplicit false

namespace ToolchainUtils.UserActivityBenchmarks

open PyString NestedTotals AbsoluteDistance

abbrev Fractions := SortedDict Text Percentage

-- A missing child has no share.
def shareOf (fractions : SortedDict Text ℚ) (child : Text) : ℚ := (fractions.get? child).getD 0

def rational (fractions : Fractions) : SortedDict Text ℚ := fractions.mapValues Subtype.val

-- The children of either dictionary.
def childrenOfEither (sample : Fractions) (reference : SortedDict Text ℚ) : Finset Text :=
  keySet (SortedDict.ofItems ((rational sample).entries ++ reference.entries))

theorem share_given (fractions : SortedDict Text ℚ) (child : Text) (share : ℚ) (found : fractions.get? child = some share) :
    shareOf fractions child = share := by
  rw [shareOf, found]
  rfl

theorem share_missing (fractions : SortedDict Text ℚ) (child : Text) (missing : (fractions.get? child).isSome = false) :
    shareOf fractions child = 0 := by
  rw [shareOf, Option.not_isSome_iff_eq_none.mp (Bool.eq_false_iff.mp missing)]
  rfl

theorem rational_get (fractions : Fractions) (child : Text) :
    (rational fractions).get? child = (fractions.get? child).map Subtype.val :=
  SortedDict.get_map_values Subtype.val fractions child

theorem share_nonneg (fractions : Fractions) (child : Text) : 0 ≤ shareOf (rational fractions) child := by
  rw [shareOf, rational_get]
  cases fractions.get? child with
  | none => exact le_refl 0
  | some share => exact share.2

theorem mem_children (sample : Fractions) (reference : SortedDict Text ℚ) (child : Text) :
    child ∈ childrenOfEither sample reference ↔
      (∃ share, (rational sample).get? child = some share) ∨ ∃ share, reference.get? child = some share := by
  have given : (∃ share, (SortedDict.ofItems ((rational sample).entries ++ reference.entries)).get? child = some share) ↔
      ∃ share, (child, share) ∈ (rational sample).entries ++ reference.entries := by
    constructor
    · rintro ⟨share, found⟩
      exact ⟨share, SortedDict.of_items_get _ child share found⟩
    · rintro ⟨share, member⟩
      rw [SortedDict.of_items_last]
      exact Option.isSome_iff_exists.mp
        (List.getLast?_isSome.mpr (List.ne_nil_of_mem ((SortedDict.mem_given _ child share).mpr member)))
  rw [childrenOfEither, mem_key_set, given]
  simp only [List.mem_append, SortedDict.mem_entries, exists_or]

variable (sample : Fractions) (reference : SortedDict Text ℚ)

def difference (child : Text) : ℚ := |shareOf (rational sample) child - shareOf reference child|

theorem reference_total :
    (reference.entries.map fun child => |((sample.get? child.1).map Subtype.val).getD 0 - child.2|).sum =
      ∑ child ∈ childrenOfEither sample reference,
        if (reference.get? child).isSome then difference sample reference child else 0 := by
  rw [entries_sum reference fun child share => |((sample.get? child).map Subtype.val).getD 0 - share|]
  have within : keySet reference ⊆ childrenOfEither sample reference := fun child member =>
    (mem_children sample reference child).mpr (.inr ((mem_key_set reference child).mp member))
  rw [← Finset.sum_subset within]
  · refine Finset.sum_congr rfl fun child member => ?_
    obtain ⟨share, found⟩ := (mem_key_set reference child).mp member
    rw [found, Option.isSome_some, if_pos rfl, difference, share_given reference child share found, shareOf, rational_get]
    rfl
  · intro child _ outside
    exact if_neg fun present => outside ((mem_key_set reference child).mpr (Option.isSome_iff_exists.mp present))

theorem sample_total :
    (sample.entries.map fun child => if (reference.get? child.1).isSome then (0 : ℚ) else child.2.val).sum =
      ∑ child ∈ childrenOfEither sample reference,
        if (reference.get? child).isSome then 0 else difference sample reference child := by
  rw [entries_sum sample fun child share => if (reference.get? child).isSome then (0 : ℚ) else share.val]
  have within : keySet sample ⊆ childrenOfEither sample reference := by
    intro child member
    obtain ⟨share, found⟩ := (mem_key_set sample child).mp member
    exact (mem_children sample reference child).mpr (.inl ⟨share.val, by rw [rational_get, found]; rfl⟩)
  have alone : ∀ child, (reference.get? child).isSome = false →
      difference sample reference child = shareOf (rational sample) child := by
    intro child missing
    rw [difference, share_missing reference child missing, sub_zero, abs_of_nonneg (share_nonneg sample child)]
  rw [← Finset.sum_subset within]
  · refine Finset.sum_congr rfl fun child member => ?_
    obtain ⟨share, found⟩ := (mem_key_set sample child).mp member
    rw [found, Option.elim_some]
    cases there : (reference.get? child).isSome with
    | true => rfl
    | false => rw [if_neg Bool.false_ne_true, if_neg Bool.false_ne_true, alone child there, shareOf, rational_get, found]; rfl
  · intro child _ outside
    cases there : (reference.get? child).isSome with
    | true => rfl
    | false =>
        have missing : sample.get? child = none := Option.eq_none_iff_forall_ne_some.mpr fun share found =>
          outside ((mem_key_set sample child).mpr ⟨share, found⟩)
        rw [if_neg Bool.false_ne_true, alone child there, shareOf, rational_get, missing]
        rfl

-- The two loops meet every child of either dictionary once.
theorem distance_is_sum : computeDistanceForFunction sample reference =
    1 + distanceOn (childrenOfEither sample reference) (shareOf (rational sample)) (shareOf reference) := by
  have second : ∀ (distance : ℚ) (child : Text × Percentage),
      (if (reference.get? child.1).isSome then distance else distance + child.2) =
        distance + if (reference.get? child.1).isSome then (0 : ℚ) else child.2.val := by
    intro distance child
    split
    · exact (add_zero distance).symm
    · rfl
  rw [computeDistanceForFunction]
  simp only [second]
  rw [added_total, added_total, reference_total, sample_total, add_assoc, ← Finset.sum_add_distrib]
  congr 1
  refine Finset.sum_congr rfl fun child _ => ?_
  split
  · exact add_zero _
  · exact zero_add _

theorem shares_outside (child : Text) (outside : child ∉ childrenOfEither sample reference) :
    shareOf (rational sample) child = shareOf reference child := by
  have missing := not_or.mp (mt (mem_children sample reference child).mpr outside)
  rw [shareOf, shareOf, Option.eq_none_iff_forall_ne_some.mpr (not_exists.mp missing.1),
    Option.eq_none_iff_forall_ne_some.mpr (not_exists.mp missing.2)]

theorem distance_on_any (children : Finset Text) (within : childrenOfEither sample reference ⊆ children) :
    computeDistanceForFunction sample reference = 1 + distanceOn children (shareOf (rational sample)) (shareOf reference) := by
  rw [distance_is_sum, distance_subset _ children within _ _ fun child _ outside => shares_outside sample reference child outside]

theorem distance_at_least_one : 1 ≤ computeDistanceForFunction sample reference := by
  rw [distance_is_sum]
  exact le_add_of_nonneg_right (distance_nonneg _ _ _)

-- The distance of two dictionaries of the same kind.
def functionDistance (first second : Fractions) : ℚ := computeDistanceForFunction first (rational second)

theorem children_comm (first second : Fractions) :
    childrenOfEither first (rational second) = childrenOfEither second (rational first) := by
  ext child
  rw [mem_children, mem_children, or_comm]

theorem function_distance_comm (first second : Fractions) : functionDistance first second = functionDistance second first := by
  rw [functionDistance, functionDistance, distance_is_sum, distance_is_sum, distance_comm, children_comm]

theorem function_distance_one_iff (first second : Fractions) :
    functionDistance first second = 1 ↔ ∀ child, shareOf (rational first) child = shareOf (rational second) child := by
  rw [functionDistance, distance_is_sum, add_eq_left, distance_zero_iff]
  constructor
  · intro agree child
    by_cases member : child ∈ childrenOfEither first (rational second)
    · exact agree child member
    · exact shares_outside first (rational second) child member
  · exact fun agree child _ => agree child

theorem function_distance_triangle (first second third : Fractions) :
    functionDistance first third - 1 ≤ (functionDistance first second - 1) + (functionDistance second third - 1) := by
  classical
  let children := childrenOfEither first (rational second) ∪ childrenOfEither second (rational third) ∪
    childrenOfEither first (rational third)
  have firstSecond : childrenOfEither first (rational second) ⊆ children :=
    Finset.subset_union_left.trans Finset.subset_union_left
  have secondThird : childrenOfEither second (rational third) ⊆ children :=
    Finset.subset_union_right.trans Finset.subset_union_left
  rw [functionDistance, functionDistance, functionDistance, distance_on_any _ _ children firstSecond,
    distance_on_any _ _ children secondThird, distance_on_any _ _ children Finset.subset_union_right]
  simp only [add_sub_cancel_left]
  exact distance_triangle children _ _ _

theorem function_distance_metric :
    (∀ first second : Fractions, functionDistance first second =
      1 + ∑ child ∈ childrenOfEither first (rational second), |shareOf (rational first) child - shareOf (rational second) child|) ∧
    (∀ first second, functionDistance first second = functionDistance second first) ∧
    (∀ first second, 1 ≤ functionDistance first second) ∧
    (∀ first second, functionDistance first second = 1 ↔
      ∀ child, shareOf (rational first) child = shareOf (rational second) child) ∧
    ∀ first second third,
      functionDistance first third - 1 ≤ (functionDistance first second - 1) + (functionDistance second third - 1) :=
  ⟨fun first second => distance_is_sum first (rational second), function_distance_comm,
    fun first second => distance_at_least_one first (rational second), function_distance_one_iff, function_distance_triangle⟩

end ToolchainUtils.UserActivityBenchmarks
