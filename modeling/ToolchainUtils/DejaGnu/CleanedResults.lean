import Mathlib.Data.Finset.Basic
import ToolchainUtils.SortedGroups
import ToolchainUtils.DejaGnu.TestRun

set_option autoImplicit false

namespace ToolchainUtils.DejaGnu.TestRun

open PyString SortedGroups

-- Not a failure, but of a test that failed to compile.
def Dependent (results : Finset TestResult) (res : TestResult) : Prop :=
  ⟨res.name, excessErrors, fail, false⟩ ∈ results ∧ res.result ≠ fail

def Duplicate (results : Finset TestResult) (res : TestResult) : Prop :=
  res.result = unresolved ∧ { res with result := unsupported } ∈ results

def Spurious (results : Finset TestResult) (res : TestResult) : Prop := Dependent results res ∨ Duplicate results res

instance (results : Finset TestResult) (res : TestResult) : Decidable (Spurious results res) :=
  inferInstanceAs (Decidable ((_ ∧ _) ∨ (_ ∧ _)))

theorem mem_duplicates (results : Finset TestResult) (res : TestResult) :
    res ∈ (results.filter fun twin => twin.result = unsupported).image (fun twin => { twin with result := unresolved }) ↔
      Duplicate results res := by
  rw [Finset.mem_image]
  constructor
  · rintro ⟨twin, kept, rfl⟩
    obtain ⟨inside, result⟩ := Finset.mem_filter.mp kept
    exact ⟨rfl, by rwa [← result]⟩
  · rintro ⟨result, inside⟩
    exact ⟨{ res with result := unsupported }, Finset.mem_filter.mpr ⟨inside, rfl⟩, by rw [← result]⟩

-- A round looks at one name only.
theorem mem_clean_group (kept : Finset TestResult) (group : List TestResult) (res : TestResult)
    (named : ∀ first rest, group = first :: rest → ∀ other ∈ group, other.name = first.name) :
    res ∈ cleanGroup kept group ↔
      res ∈ kept ∧ ¬ (res ∈ group ∧ Dependent group.toFinset res) ∧ ¬ Duplicate group.toFinset res := by
  cases group with
  | nil =>
      have none : ¬ Duplicate (List.toFinset []) res := fun twin => absurd twin.2 (Finset.notMem_empty _)
      rw [cleanGroup]
      exact ⟨fun inside => ⟨inside, fun dependent => absurd dependent.1 List.not_mem_nil, none⟩, And.left⟩
  | cons first rest =>
      have dependants : (res ∈ if ⟨first.name, excessErrors, fail, false⟩ ∈ (first :: rest).toFinset
          then (first :: rest).toFinset.filter fun res => res.result ≠ fail else ∅) ↔
            res ∈ first :: rest ∧ Dependent (first :: rest).toFinset res := by
        by_cases failed : ⟨first.name, excessErrors, fail, false⟩ ∈ (first :: rest).toFinset
        · rw [if_pos failed, Finset.mem_filter, List.mem_toFinset, Dependent]
          refine and_congr_right fun inside => ?_
          rw [named first rest rfl res inside, and_iff_right failed]
        · rw [if_neg failed]
          refine iff_of_false (Finset.notMem_empty res) fun dependent => failed ?_
          rw [← named first rest rfl res dependent.1]
          exact dependent.2.1
      rw [cleanGroup, Finset.mem_sdiff, Finset.mem_sdiff, dependants, mem_duplicates, and_assoc]

theorem mem_clean_groups (groups : List (List TestResult)) (kept : Finset TestResult) (res : TestResult)
    (named : ∀ group ∈ groups, ∀ first rest, group = first :: rest → ∀ other ∈ group, other.name = first.name) :
    res ∈ groups.foldl cleanGroup kept ↔
      res ∈ kept ∧ ∀ group ∈ groups, ¬ (res ∈ group ∧ Dependent group.toFinset res) ∧ ¬ Duplicate group.toFinset res := by
  induction groups generalizing kept with
  | nil => exact ⟨fun inside => ⟨inside, fun _ none => absurd none List.not_mem_nil⟩, And.left⟩
  | cons group groups ih =>
      obtain ⟨here, later⟩ := List.forall_mem_cons.mp named
      rw [List.foldl_cons, ih (cleanGroup kept group) later, mem_clean_group kept group res here, List.forall_mem_cons, and_assoc]

def byName (order : SetOrder TestResult) (results : Finset TestResult) : List TestResult :=
  (order.list results).insertionSort fun first second => first.name ≤ second.name

theorem mem_by_name (order : SetOrder TestResult) (results : Finset TestResult) (res : TestResult) :
    res ∈ byName order results ↔ res ∈ results := by
  rw [byName, List.mem_insertionSort, order.mem_list]

theorem by_name_sorted (order : SetOrder TestResult) (results : Finset TestResult) : Sorted TestResult.name (byName order results) :=
  List.pairwise_insertionSort _ _

theorem spurious_group_iff (order : SetOrder TestResult) (results : Finset TestResult) (res : TestResult) (inside : res ∈ results) :
    (∃ group ∈ groupBy TestResult.name (byName order results),
      (res ∈ group ∧ Dependent group.toFinset res) ∨ Duplicate group.toFinset res) ↔ Spurious results res := by
  have within : ∀ group ∈ groupBy TestResult.name (byName order results), ∀ other : TestResult, other ∈ group.toFinset →
    other ∈ results := by
    intro group made other there
    rw [← mem_by_name order]
    exact group_subset TestResult.name _ group made other (List.mem_toFinset.mp there)
  constructor
  · rintro ⟨group, made, ⟨_, failed, passed⟩ | ⟨result, twin⟩⟩
    · exact .inl ⟨within group made _ failed, passed⟩
    · exact .inr ⟨result, within group made _ twin⟩
  · rintro (⟨failed, passed⟩ | ⟨result, twin⟩)
    · obtain ⟨group, made, here, there⟩ := same_group TestResult.name (byName order results) (by_name_sorted order results) _ _
        ((mem_by_name order results _).mpr inside) ((mem_by_name order results _).mpr failed) rfl
      exact ⟨group, made, .inl ⟨here, List.mem_toFinset.mpr there, passed⟩⟩
    · obtain ⟨group, made, there⟩ := mem_group TestResult.name (byName order results) _ ((mem_by_name order results _).mpr twin)
      exact ⟨group, made, .inr ⟨result, List.mem_toFinset.mpr there⟩⟩

theorem clean_up_eq (order : SetOrder TestResult) (run : TestRun) :
    cleanUpTestResults order run = { run with results := run.results.filter fun res => ¬ Spurious run.results res } := by
  have named : ∀ group ∈ groupBy TestResult.name (byName order run.results), ∀ first rest, group = first :: rest →
      ∀ other ∈ group, other.name = first.name := by
    rintro group made first rest rfl
    exact group_key TestResult.name _ first rest made
  have same : (groupBy TestResult.name (byName order run.results)).foldl cleanGroup run.results =
      run.results.filter fun res => ¬ Spurious run.results res := by
    ext res
    rw [mem_clean_groups _ _ res named, Finset.mem_filter]
    refine and_congr_right fun inside => ?_
    rw [← spurious_group_iff order run.results res inside]
    simp only [not_exists, not_and, not_or]
  rw [← same]
  rfl

-- What the first pass leaves is not spurious among itself either.
theorem spurious_left (results : Finset TestResult) (res : TestResult)
    (spurious : Spurious (results.filter fun res => ¬ Spurious results res) res) : Spurious results res :=
  spurious.imp (fun dependent => ⟨Finset.mem_of_mem_filter _ dependent.1, dependent.2⟩)
    fun duplicate => ⟨duplicate.1, Finset.mem_of_mem_filter _ duplicate.2⟩

theorem clean_up_exact (order again : SetOrder TestResult) (run : TestRun) :
    run.results \ (cleanUpTestResults order run).results = run.results.filter (Spurious run.results) ∧
      (cleanUpTestResults order run).results ⊆ run.results ∧
      cleanUpTestResults again (cleanUpTestResults order run) = cleanUpTestResults order run := by
  rw [clean_up_eq again, clean_up_eq order]
  refine ⟨?_, Finset.filter_subset _ _, ?_⟩
  · rw [Finset.filter_not, Finset.sdiff_sdiff_eq_self (Finset.filter_subset _ _)]
  · have kept : ∀ res ∈ run.results.filter fun res => ¬ Spurious run.results res,
        ¬ Spurious (run.results.filter fun res => ¬ Spurious run.results res) res :=
      fun res inside spurious => (Finset.mem_filter.mp inside).2 (spurious_left run.results res spurious)
    rw [Finset.filter_true_of_mem kept]

end ToolchainUtils.DejaGnu.TestRun
