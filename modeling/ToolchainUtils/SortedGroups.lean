import Mathlib.Data.List.SplitBy
import Mathlib.Data.List.TakeWhile
import Mathlib.Order.Lattice

set_option autoImplicit false

-- The runs of one key that itertools.groupby makes of items sorted by the key.
namespace ToolchainUtils.SortedGroups

variable {α κ : Type}

section

variable [BEq κ]

def groupBy (key : α → κ) (items : List α) : List (List α) := items.splitBy fun first second => key first == key second

theorem group_subset (key : α → κ) (items group : List α) (made : group ∈ groupBy key items) (item : α) (inside : item ∈ group) :
    item ∈ items := by
  rw [← List.flatten_splitBy (fun first second => key first == key second) items]
  exact List.mem_flatten_of_mem made inside

theorem mem_group (key : α → κ) (items : List α) (item : α) (inside : item ∈ items) : ∃ group ∈ groupBy key items, item ∈ group := by
  rw [← List.flatten_splitBy (fun first second => key first == key second) items] at inside
  exact List.mem_flatten.mp inside

theorem group_key [LawfulBEq κ] (key : α → κ) (items : List α) (first : α) (rest : List α) (made : first :: rest ∈ groupBy key items)
    (item : α) (inside : item ∈ first :: rest) : key item = key first := by
  have chain := List.isChain_of_mem_splitBy made
  have transitive : IsTrans α fun one other => (key one == key other) = true :=
    ⟨fun _ _ _ left right => beq_iff_eq.mpr ((beq_iff_eq.mp left).trans (beq_iff_eq.mp right))⟩
  rcases List.mem_cons.mp inside with rfl | later
  · rfl
  · exact (beq_iff_eq.mp (List.rel_of_pairwise_cons (List.isChain_iff_pairwise.mp chain) later)).symm

theorem group_of_one_key [LawfulBEq κ] (key : α → κ) (group : List α) (filled : group ≠ []) (value : κ)
    (same : ∀ item ∈ group, key item = value) : groupBy key group = [group] := by
  refine List.splitBy_of_isChain filled (List.Pairwise.isChain (List.pairwise_of_forall_mem_list fun one here other there => ?_))
  rw [beq_iff_eq, same one here, same other there]

end

section

variable [LinearOrder κ]

def Sorted (key : α → κ) (items : List α) : Prop := items.Pairwise fun one other => key one ≤ key other

theorem least_first (key : α → κ) (first : α) (rest : List α) (sorted : Sorted key (first :: rest)) (item : α)
    (inside : item ∈ first :: rest) : key first ≤ key item := by
  rcases List.mem_cons.mp inside with rfl | later
  · exact le_refl _
  · exact List.rel_of_pairwise_cons sorted later

variable [BEq κ] [LawfulBEq κ]

-- Behind the items with the key of the first there is none of them any more.
theorem other_keys_behind (key : α → κ) (first : α) (rest : List α) (sorted : Sorted key (first :: rest)) (item : α)
    (inside : item ∈ (first :: rest).dropWhile fun item => key item == key first) : key item ≠ key first := by
  have back := List.dropWhile_sublist (fun item => key item == key first) (l := first :: rest)
  have stops := List.head?_dropWhile_not (fun item => key item == key first) (first :: rest)
  cases behind : (first :: rest).dropWhile fun item => key item == key first with
  | nil => exact absurd (behind ▸ inside) List.not_mem_nil
  | cons head tail =>
      rw [behind] at inside back stops
      have different : key head ≠ key first := beq_eq_false_iff_ne.mp stops
      have above : key first < key head :=
        lt_of_le_of_ne (least_first key first rest sorted head (back.subset List.mem_cons_self)) different.symm
      exact (above.trans_le (least_first key head tail (sorted.sublist back) item inside)).ne'

theorem group_first (key : α → κ) (first : α) (rest : List α) (sorted : Sorted key (first :: rest)) :
    ∃ group back : List α, first :: rest = group ++ back ∧ group ≠ [] ∧ groupBy key (first :: rest) = group :: groupBy key back ∧
      (∀ item ∈ group, key item = key first) ∧ ∀ item ∈ back, key item ≠ key first := by
  have whole := List.takeWhile_append_dropWhile (p := fun item => key item == key first) (l := first :: rest)
  have filled : (first :: rest).takeWhile (fun item => key item == key first) ≠ [] := by
    rw [List.takeWhile_cons, beq_self_eq_true, if_pos rfl]
    exact List.cons_ne_nil _ _
  have other := other_keys_behind key first rest sorted
  have same : ∀ item ∈ (first :: rest).takeWhile (fun item => key item == key first), key item = key first :=
    fun item inside => beq_iff_eq.mp (List.mem_takeWhile_imp (p := fun item => key item == key first) inside)
  generalize (first :: rest).takeWhile (fun item => key item == key first) = group at whole filled same
  generalize (first :: rest).dropWhile (fun item => key item == key first) = back at whole other
  refine ⟨group, back, whole.symm, filled, ?_, same, other⟩
  have cut : groupBy key (group ++ back) = groupBy key group ++ groupBy key back := by
    refine List.splitBy_append fun last ends head starts => ?_
    rw [beq_eq_false_iff_ne, same last (List.mem_of_mem_getLast? ends)]
    exact (other head (List.mem_of_mem_head? starts)).symm
  rw [← whole, cut, group_of_one_key key group filled (key first) same, List.singleton_append]

theorem same_group (key : α → κ) (items : List α) (sorted : Sorted key items) (one other : α)
    (here : one ∈ items) (there : other ∈ items) (same : key one = key other) :
    ∃ group ∈ groupBy key items, one ∈ group ∧ other ∈ group := by
  induction size : items.length using Nat.strong_induction_on generalizing items with
  | h length ih =>
      cases items with
      | nil => exact absurd here List.not_mem_nil
      | cons first rest =>
          obtain ⟨group, back, whole, filled, made, inGroup, inBack⟩ := group_first key first rest sorted
          rw [made]
          rw [whole] at here there sorted size
          by_cases equal : key one = key first
          · refine ⟨group, List.mem_cons_self, ?_, ?_⟩
            · exact (List.mem_append.mp here).resolve_right fun later => inBack one later equal
            · exact (List.mem_append.mp there).resolve_right fun later => inBack other later (same.symm.trans equal)
          · have behind := (List.mem_append.mp here).resolve_left fun inside => equal (inGroup one inside)
            have after := (List.mem_append.mp there).resolve_left fun inside => equal (same.trans (inGroup other inside))
            have shorter : back.length < length := by
              rw [← size, List.length_append]
              exact Nat.lt_add_of_pos_left (List.length_pos_iff.mpr filled)
            obtain ⟨found, inside, both⟩ := ih back.length shorter back (List.pairwise_append.mp sorted).2.1 behind after rfl
            exact ⟨found, List.mem_cons_of_mem _ inside, both⟩

end

end ToolchainUtils.SortedGroups
