import ToolchainUtils.UserActivityBenchmarks.MetricInvariance

set_option autoImplicit false

namespace ToolchainUtils.UserActivityBenchmarks

open PyString FailingFold NestedTotals

inductive Metric where
  | functionCount
  | distance
  | score
deriving DecidableEq, Repr

def Metric.functionForSet : Metric → List GroupedFunctions → SortedDict Text (List Text) → Option SetMetrics
  | .functionCount => computeFunctionCountForBenchmarkSet
  | .distance => computeDistanceForBenchmarkSet
  | .score => computeScoreForBenchmarkSet

-- No division of the metric's function is by zero. A group that CWP does not have is not
-- divided by for the function count.
def Metric.Divides (metric : Metric) (setFunctionMetrics : List GroupedFunctions)
    (cwpFunctions : SortedDict Text (List Text)) : Prop :=
  match metric with
  | .functionCount => cwpFunctionsCount cwpFunctions ≠ 0 ∧
      ∀ benchmark ∈ setFunctionMetrics, ∀ group ∈ benchmark.keys, cwpFunctions.get? group ≠ some []
  | .distance => (distinctPairs setFunctionMetrics).Nonempty
  | .score => cwpFunctionsCount cwpFunctions ≠ 0 ∧ ∀ pair ∈ distinctPairs setFunctionMetrics, (cwpFunctions.get? pair.1).getD [] ≠ []

variable (setFunctionMetrics : List GroupedFunctions) (cwpFunctions : SortedDict Text (List Text))

theorem divided_iff (amount divisor : ℚ) : (∃ value, divided amount divisor = some value) ↔ divisor ≠ 0 := by
  constructor
  · rintro ⟨value, found⟩ zero
    rw [divided, if_pos zero] at found
    exact Option.some_ne_none value found.symm
  · exact fun nonzero => ⟨_, divided_some amount divisor nonzero⟩

theorem for_each_group_iff {ν ω γ : Type} [AddMonoid γ] (made : Text → ν → Option ω) (amount : ν → γ) (groups : SortedDict Text ν) :
    (∃ result, forEachGroup made amount groups = some result) ↔
      ∀ group value, groups.get? group = some value → ∃ entry, made group value = some entry := by
  have each := fold_succeeds_iff (fun (state : SortedDict Text ω × γ) (entry : Text × ν) =>
    (made entry.1 entry.2).map fun value => (state.1.insert entry.1 value, state.2 + amount entry.2))
    (fun entry => ∃ value, made entry.1 entry.2 = some value) groups.entries (SortedDict.empty, 0) fun entry state => by simp
  refine each.trans ⟨fun good group value found => ?_, fun good entry member => ?_⟩
  · exact good (group, value) ((SortedDict.mem_entries groups group value).mpr found)
  · exact good entry.1 entry.2 ((SortedDict.mem_entries groups entry.1 entry.2).mp member)

-- A second pass, and the division after it.
theorem passed_iff {γ ω : Type} (passed : Option γ) (amount divisor : γ → ℚ) (result : γ → ℚ → ω) :
    (∃ value, (passed.bind fun made => (divided (amount made) (divisor made)).map (result made)) = some value) ↔
      ∃ made, passed = some made ∧ divisor made ≠ 0 := by
  constructor
  · rintro ⟨value, found⟩
    obtain ⟨made, found, rest⟩ := Option.bind_eq_some_iff.mp found
    obtain ⟨fraction, divides, -⟩ := Option.map_eq_some_iff.mp rest
    exact ⟨made, found, (divided_iff _ _).mp ⟨fraction, divides⟩⟩
  · rintro ⟨made, found, nonzero⟩
    rw [found, Option.bind_some, divided_some _ _ nonzero]
    exact ⟨_, rfl⟩

theorem count_computes_iff : (∃ metrics, computeFunctionCountForBenchmarkSet setFunctionMetrics cwpFunctions = some metrics) ↔
    Metric.functionCount.Divides setFunctionMetrics cwpFunctions := by
  rw [computeFunctionCountForBenchmarkSet, passed_iff, Metric.Divides, exists_and_right, for_each_group_iff, and_comm]
  refine and_congr Nat.cast_ne_zero ⟨fun good benchmark member group present empty => ?_, fun good group functions found => ?_⟩
  · obtain ⟨entry, made⟩ := good group _ (set_groups_present setFunctionMetrics group benchmark member present)
    rw [groupFunctionCount, empty] at made
    obtain ⟨fraction, divides, -⟩ := Option.map_eq_some_iff.mp made
    exact (divided_iff _ _).mp ⟨fraction, divides⟩ rfl
  · obtain ⟨benchmark, member, present⟩ := set_groups_source setFunctionMetrics group functions found
    exact ⟨_, group_function_count cwpFunctions group functions (good benchmark member group present)⟩

theorem distance_computes_iff : (∃ metrics, computeDistanceForBenchmarkSet setFunctionMetrics cwpFunctions = some metrics) ↔
    Metric.distance.Divides setFunctionMetrics cwpFunctions := by
  constructor
  · rintro ⟨metrics, computed⟩
    obtain ⟨made, passed, nonzero⟩ := (passed_iff _ _ _ _).mp ⟨metrics, computed⟩
    have counted : made.2.2 = (distinctPairs setFunctionMetrics).card := by
      rw [pass_total _ _ _ made passed, varied_sum]
      simp only [entries_length]
      rw [unique_total_sum setFunctionMetrics minDistance fun _ => 1, ← Finset.card_eq_sum_ones]
    rw [counted] at nonzero
    exact Finset.card_ne_zero.mp (Nat.cast_ne_zero.mp nonzero)
  · intro covered
    obtain ⟨least, groups, -, computed, -⟩ := distance_definition setFunctionMetrics cwpFunctions covered
    exact ⟨_, computed⟩

theorem score_computes_iff : (∃ metrics, computeScoreForBenchmarkSet setFunctionMetrics cwpFunctions = some metrics) ↔
    Metric.score.Divides setFunctionMetrics cwpFunctions := by
  rw [computeScoreForBenchmarkSet, passed_iff, Metric.Divides, exists_and_right, for_each_group_iff, and_comm]
  refine and_congr Nat.cast_ne_zero ⟨fun good pair covered empty => ?_, fun good group functions found => ?_⟩
  · obtain ⟨functions, found⟩ := unique_group setFunctionMetrics maxScore pair covered
    obtain ⟨entry, made⟩ := good pair.1 functions found
    obtain ⟨fraction, divides, -⟩ := Option.map_eq_some_iff.mp made
    rw [empty] at divides
    exact (divided_iff _ _).mp ⟨fraction, divides⟩ rfl
  · obtain ⟨function, covered⟩ := unique_group_source setFunctionMetrics maxScore group functions found
    have nonzero := given_count_ne_zero cwpFunctions group (good (group, function) covered)
    exact ⟨_, congrArg (Option.map _) (divided_some (groupScore functions) _ nonzero)⟩

theorem metric_computes_iff (metric : Metric) : (∃ metrics, metric.functionForSet setFunctionMetrics cwpFunctions = some metrics) ↔
    metric.Divides setFunctionMetrics cwpFunctions := by
  cases metric with
  | functionCount => exact count_computes_iff setFunctionMetrics cwpFunctions
  | distance => exact distance_computes_iff setFunctionMetrics cwpFunctions
  | score => exact score_computes_iff setFunctionMetrics cwpFunctions

end ToolchainUtils.UserActivityBenchmarks
