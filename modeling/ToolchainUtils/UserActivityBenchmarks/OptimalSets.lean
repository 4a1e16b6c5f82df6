import Mathlib.Algebra.Field.Rat
import Mathlib.Algebra.Order.Field.Basic
import Mathlib.Data.Nat.Cast.Order.Ring
import Mathlib.Order.WithBot
import ToolchainUtils.ItemByItem
import ToolchainUtils.RunningBest
import ToolchainUtils.UserActivityBenchmarks.MetricDivisions

set_option autoImplicit false

namespace ToolchainUtils.UserActivityBenchmarks

open PyString ItemByItem RunningBest NestedTotals

-- The metrics are floats, and the default distances are infinite.
structure OptimalSet where
  benchmarkSet : List Text
  metrics : WithTop ℚ × WithTop ℚ
  groups : SortedDict Text (ℚ × ℚ)

-- A combination with its metrics. none stands for the KeyError of a benchmark that has
-- no grouped functions, and for the ZeroDivisionError of the metric.
def measured (grouped : SortedDict Text GroupedFunctions) (cwpFunctionsGrouped : SortedDict Text (List Text))
    (metricFunctionForSet : List GroupedFunctions → SortedDict Text (List Text) → Option SetMetrics) (combination : List Text) :
    Option OptimalSet :=
  (combination.mapM fun benchmark => grouped.get? benchmark).bind fun functionMetrics =>
    (metricFunctionForSet functionMetrics cwpFunctionsGrouped).map fun computed =>
      ⟨combination, (computed.1.1, computed.1.2), computed.2⟩

def selectOptimalBenchmarkSetBasedOnMetric (allBenchmarkCombinationsSets : List (List Text))
    (benchmarkSetFunctionsGrouped : SortedDict Text GroupedFunctions) (cwpFunctionsGrouped : SortedDict Text (List Text))
    (metricFunctionForSet : List GroupedFunctions → SortedDict Text (List Text) → Option SetMetrics)
    (metricComparisonOperator : WithTop ℚ → WithTop ℚ → Bool) (metricDefaultValue : WithTop ℚ × WithTop ℚ) :
    Option (List OptimalSet) :=
  allBenchmarkCombinationsSets.foldlM (fun optimalSets combination =>
    (measured benchmarkSetFunctionsGrouped cwpFunctionsGrouped metricFunctionForSet combination).map
      (keep metricComparisonOperator (fun entry => entry.metrics.1) optimalSets))
    [⟨[], metricDefaultValue, SortedDict.empty⟩]

-- What SelectOptimalBenchmarkSet passes for each metric.
def Metric.comparisonOperator : Metric → WithTop ℚ → WithTop ℚ → Bool
  | .distance => fun first second => decide (first < second)
  | _ => fun first second => decide (second < first)

def Metric.defaultValue : Metric → WithTop ℚ × WithTop ℚ
  | .distance => (⊤, ⊤)
  | _ => ((0 : ℚ), (0 : ℚ))

def Metric.select (metric : Metric) (allBenchmarkCombinationsSets : List (List Text))
    (benchmarkSetFunctionsGrouped : SortedDict Text GroupedFunctions) (cwpFunctionsGrouped : SortedDict Text (List Text)) :
    Option (List OptimalSet) :=
  selectOptimalBenchmarkSetBasedOnMetric allBenchmarkCombinationsSets benchmarkSetFunctionsGrouped cwpFunctionsGrouped
    metric.functionForSet metric.comparisonOperator metric.defaultValue

variable (metric : Metric) (allBenchmarkCombinationsSets : List (List Text))
variable (benchmarkSetFunctionsGrouped : SortedDict Text GroupedFunctions) (cwpFunctionsGrouped : SortedDict Text (List Text))

-- Every combination has its metrics, and those that no other one beats come out, in order.
def ExactlyBest : Prop :=
  ∃ entries, allBenchmarkCombinationsSets.mapM (measured benchmarkSetFunctionsGrouped cwpFunctionsGrouped metric.functionForSet) =
      some entries ∧
    metric.select allBenchmarkCombinationsSets benchmarkSetFunctionsGrouped cwpFunctionsGrouped =
      some (entries.filter fun entry => entries.all fun other => !metric.comparisonOperator other.metrics.1 entry.metrics.1)

-- The metric of the set is better than its default.
def Metric.Improves (metric : Metric) (setFunctionMetrics : List GroupedFunctions) : Prop :=
  match metric with
  | .functionCount => (distinctPairs setFunctionMetrics).Nonempty
  | .distance => True
  | .score => ∃ group function metrics, Held setFunctionMetrics group function metrics ∧ 0 < metrics.2

theorem comparison_strict : StrictOrder metric.comparisonOperator := by
  cases metric with
  | distance => exact less_strict
  | functionCount => exact reversed_strict _ less_strict
  | score => exact reversed_strict _ less_strict

theorem select_bests : metric.select allBenchmarkCombinationsSets benchmarkSetFunctionsGrouped cwpFunctionsGrouped =
    (allBenchmarkCombinationsSets.mapM (measured benchmarkSetFunctionsGrouped cwpFunctionsGrouped metric.functionForSet)).map
      fun entries => bests metric.comparisonOperator (fun entry => entry.metrics.1)
        (⟨[], metric.defaultValue, SortedDict.empty⟩ :: entries) := by
  rw [Metric.select, selectOptimalBenchmarkSetBasedOnMetric, fold_made]
  simp only [running_best metric.comparisonOperator _ (comparison_strict metric)]

theorem measured_parts (metricFunctionForSet : List GroupedFunctions → SortedDict Text (List Text) → Option SetMetrics)
    (combination : List Text) (entry : OptimalSet) :
    measured benchmarkSetFunctionsGrouped cwpFunctionsGrouped metricFunctionForSet combination = some entry ↔
      ∃ functionMetrics, combination.mapM (fun benchmark => benchmarkSetFunctionsGrouped.get? benchmark) = some functionMetrics ∧
        ∃ computed, metricFunctionForSet functionMetrics cwpFunctionsGrouped = some computed ∧
          entry = ⟨combination, (computed.1.1, computed.1.2), computed.2⟩ := by
  rw [measured, Option.bind_eq_some_iff]
  refine exists_congr fun functionMetrics => and_congr_right fun _ => ?_
  rw [Option.map_eq_some_iff]
  exact exists_congr fun computed => and_congr_right fun _ => eq_comm

theorem exactly_best_better :
    ExactlyBest metric allBenchmarkCombinationsSets benchmarkSetFunctionsGrouped cwpFunctionsGrouped ↔
      ∃ entries, allBenchmarkCombinationsSets.mapM
          (measured benchmarkSetFunctionsGrouped cwpFunctionsGrouped metric.functionForSet) = some entries ∧
        ∃ entry ∈ entries, metric.comparisonOperator entry.metrics.1 metric.defaultValue.1 = true := by
  refine exists_congr fun entries => and_congr_right fun made => ?_
  rw [select_bests, made, Option.map_some, Option.some.injEq]
  exact start_dropped_iff metric.comparisonOperator (fun entry : OptimalSet => entry.metrics.1) (comparison_strict metric) _ entries

theorem value_positive_iff (setFunctionMetrics : List GroupedFunctions) (pair : Text × Text)
    (covered : pair ∈ distinctPairs setFunctionMetrics) :
    0 < valueOf setFunctionMetrics maxScore pair ↔ ∃ metrics, Held setFunctionMetrics pair.1 pair.2 metrics ∧ 0 < metrics.2 := by
  obtain ⟨⟨metrics, held, same⟩, above⟩ := value_best setFunctionMetrics maxScore _ max_score_extreme pair covered
  constructor
  · intro positive
    dsimp only at same
    rw [← same, lt_max_iff] at positive
    exact ⟨metrics, held, positive.resolve_right (lt_irrefl 0)⟩
  · rintro ⟨other, there, positive⟩
    exact (positive.trans_le (le_max_left other.2 0)).trans_le (above ⟨other, there, rfl⟩)

theorem score_positive_iff (setFunctionMetrics : List GroupedFunctions) :
    0 < totalScore (valueOf setFunctionMetrics maxScore) (distinctPairs setFunctionMetrics) ↔
      Metric.score.Improves setFunctionMetrics := by
  rw [totalScore, Finset.sum_pos_iff_of_nonneg fun pair covered => value_nonneg setFunctionMetrics pair covered]
  constructor
  · rintro ⟨pair, covered, positive⟩
    obtain ⟨metrics, held, better⟩ := (value_positive_iff setFunctionMetrics pair covered).mp positive
    exact ⟨pair.1, pair.2, metrics, held, better⟩
  · rintro ⟨group, function, metrics, held, better⟩
    have covered := (mem_distinct_pairs setFunctionMetrics group function).mpr ⟨metrics, held⟩
    exact ⟨(group, function), covered, (value_positive_iff setFunctionMetrics _ covered).mpr ⟨metrics, held, better⟩⟩

theorem improves_iff (setFunctionMetrics : List GroupedFunctions) (cwpFunctions : SortedDict Text (List Text))
    (computed : SetMetrics) (found : metric.functionForSet setFunctionMetrics cwpFunctions = some computed) :
    metric.comparisonOperator (computed.1.1 : WithTop ℚ) metric.defaultValue.1 = true ↔ metric.Improves setFunctionMetrics := by
  have divides := (metric_computes_iff setFunctionMetrics cwpFunctions metric).mp ⟨computed, found⟩
  cases metric with
  | functionCount =>
      refine decide_eq_true_iff.trans (WithTop.coe_lt_coe.trans ?_)
      rw [count_total setFunctionMetrics cwpFunctions computed found, pairCount, Nat.cast_pos, Finset.card_pos]
      rfl
  | distance =>
      have finite : (computed.1.1 : WithTop ℚ) < ⊤ := WithTop.coe_lt_top _
      exact iff_of_true (decide_eq_true finite) trivial
  | score =>
      refine decide_eq_true_iff.trans (WithTop.coe_lt_coe.trans ?_)
      have counted : (0 : ℚ) < cwpFunctionsCount cwpFunctions := Nat.cast_pos.mpr (Nat.pos_of_ne_zero divides.1)
      rw [score_first setFunctionMetrics cwpFunctions computed found, score_total setFunctionMetrics cwpFunctions computed found,
        div_pos_iff_of_pos_right counted]
      exact score_positive_iff setFunctionMetrics

theorem optimal_sets_exactly_best_iff :
    ExactlyBest metric allBenchmarkCombinationsSets benchmarkSetFunctionsGrouped cwpFunctionsGrouped ↔
      (∀ combination ∈ allBenchmarkCombinationsSets, ∃ functionMetrics,
        combination.mapM (fun benchmark => benchmarkSetFunctionsGrouped.get? benchmark) = some functionMetrics ∧
        metric.Divides functionMetrics cwpFunctionsGrouped) ∧
      ∃ combination ∈ allBenchmarkCombinationsSets, ∃ functionMetrics,
        combination.mapM (fun benchmark => benchmarkSetFunctionsGrouped.get? benchmark) = some functionMetrics ∧
        metric.Improves functionMetrics := by
  rw [exactly_best_better]
  constructor
  · rintro ⟨entries, ran, entry, member, better⟩
    constructor
    · intro combination among
      obtain ⟨entry, made⟩ := (made_each_iff _ _).mp ⟨entries, ran⟩ combination among
      obtain ⟨functionMetrics, found, computed, computes, -⟩ := (measured_parts _ _ _ _ _).mp made
      exact ⟨functionMetrics, found, (metric_computes_iff functionMetrics cwpFunctionsGrouped metric).mp ⟨computed, computes⟩⟩
    · obtain ⟨combination, among, made⟩ := (mem_made _ _ entries ran entry).mp member
      obtain ⟨functionMetrics, found, computed, computes, rfl⟩ := (measured_parts _ _ _ _ _).mp made
      exact ⟨combination, among, functionMetrics, found, (improves_iff metric functionMetrics _ computed computes).mp better⟩
  · rintro ⟨divides, combination, among, functionMetrics, found, improves⟩
    have each : ∀ combination ∈ allBenchmarkCombinationsSets, ∃ entry,
        measured benchmarkSetFunctionsGrouped cwpFunctionsGrouped metric.functionForSet combination = some entry := by
      intro combination among
      obtain ⟨functionMetrics, found, good⟩ := divides combination among
      obtain ⟨computed, computes⟩ := (metric_computes_iff functionMetrics cwpFunctionsGrouped metric).mpr good
      exact ⟨_, (measured_parts _ _ _ _ _).mpr ⟨functionMetrics, found, computed, computes, rfl⟩⟩
    obtain ⟨entries, ran⟩ := (made_each_iff _ _).mpr each
    obtain ⟨entry, made⟩ := each combination among
    refine ⟨entries, ran, entry, (mem_made _ _ entries ran entry).mpr ⟨combination, among, made⟩, ?_⟩
    obtain ⟨others, same, computed, computes, rfl⟩ := (measured_parts _ _ _ _ _).mp made
    rw [found, Option.some.injEq] at same
    exact (improves_iff metric others cwpFunctionsGrouped computed computes).mpr (same ▸ improves)

-- The only combination covers no function of a group, and its count is that of the
-- placeholder, which comes out before it.
theorem placeholder_comes_out : ¬ ExactlyBest .functionCount [["page".toList]] (.ofItems [("page".toList, SortedDict.empty)])
    (.ofItems [("ui".toList, ["Draw,/ui/draw.cc".toList])]) := by
  rintro ⟨entries, ran, selected⟩
  have two : (Metric.functionCount.select [["page".toList]] (.ofItems [("page".toList, SortedDict.empty)])
      (.ofItems [("ui".toList, ["Draw,/ui/draw.cc".toList])])).map List.length = some 2 := by
    decide
  have one := ((made_iff _ _ entries).mp ran).length_eq
  rw [selected, Option.map_some, Option.some.injEq] at two
  have fewer := two.symm.trans_le (List.length_filter_le _ entries)
  rw [← one] at fewer
  exact absurd fewer (by decide)

end ToolchainUtils.UserActivityBenchmarks
