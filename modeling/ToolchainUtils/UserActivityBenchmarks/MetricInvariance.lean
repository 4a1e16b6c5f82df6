import Mathlib.Algebra.Order.BigOperators.Group.Finset
import Mathlib.Data.Nat.Cast.Order.Basic
import ToolchainUtils.UserActivityBenchmarks.MetricDefinitions

set_option autoImplicit false

namespace ToolchainUtils.UserActivityBenchmarks

open PyString NestedTotals

-- The order and the repetition of the benchmarks do not count.
section SameMembers

variable (setFunctionMetrics others : List GroupedFunctions)
variable (same : ∀ benchmark, benchmark ∈ setFunctionMetrics ↔ benchmark ∈ others)

include same

theorem held_same (group function : Text) (metrics : ℚ × ℚ) :
    Held setFunctionMetrics group function metrics ↔ Held others group function metrics :=
  exists_congr fun benchmark => and_congr_left fun _ => same benchmark

theorem distinct_pairs_same : distinctPairs setFunctionMetrics = distinctPairs others := by
  ext pair
  rw [mem_distinct_pairs setFunctionMetrics pair.1 pair.2, mem_distinct_pairs others pair.1 pair.2]
  exact exists_congr fun metrics => held_same setFunctionMetrics others same pair.1 pair.2 metrics

theorem gather_unique_same (add : Option ℚ → ℚ × ℚ → ℚ) (best : Set (ℚ × ℚ) → ℚ → Prop) (extreme : Extreme add best) :
    gatherUnique add setFunctionMetrics = gatherUnique add others := by
  refine nested_ext _ _ (fun group functions found => ?_) (fun group functions found => ?_) fun group function => ?_
  · obtain ⟨function, covered⟩ := unique_group_source setFunctionMetrics add group functions found
    exact ⟨function, (unique_covers setFunctionMetrics add group function).mp covered⟩
  · obtain ⟨function, covered⟩ := unique_group_source others add group functions found
    exact ⟨function, (unique_covers others add group function).mp covered⟩
  · apply Option.ext
    intro value
    have held : Held setFunctionMetrics group function = Held others group function :=
      funext fun metrics => propext (held_same setFunctionMetrics others same group function metrics)
    rw [unique_found setFunctionMetrics add best extreme, unique_found others add best extreme, held]

theorem set_groups_same : setGroupsFunctions setFunctionMetrics = setGroupsFunctions others := by
  have one : ∀ first second : List GroupedFunctions, (∀ benchmark, benchmark ∈ first ↔ benchmark ∈ second) →
      ∀ group functions, (setGroupsFunctions first).get? group = some functions →
        (setGroupsFunctions second).get? group = some functions := by
    intro first second agree group functions found
    obtain ⟨benchmark, member, present⟩ := set_groups_source first group functions found
    rw [set_groups_get first group functions found, set_groups_present second group benchmark ((agree benchmark).mp member) present,
      groupPairs, groupPairs, distinct_pairs_same first second agree]
  apply SortedDict.get_ext
  intro group
  apply Option.ext
  intro functions
  have back : ∀ benchmark, benchmark ∈ others ↔ benchmark ∈ setFunctionMetrics := fun benchmark => (same benchmark).symm
  exact ⟨one setFunctionMetrics others same group functions, one others setFunctionMetrics back group functions⟩

theorem metrics_same (cwpFunctions : SortedDict Text (List Text)) :
    computeFunctionCountForBenchmarkSet setFunctionMetrics cwpFunctions = computeFunctionCountForBenchmarkSet others cwpFunctions ∧
    computeDistanceForBenchmarkSet setFunctionMetrics cwpFunctions = computeDistanceForBenchmarkSet others cwpFunctions ∧
    computeScoreForBenchmarkSet setFunctionMetrics cwpFunctions = computeScoreForBenchmarkSet others cwpFunctions := by
  refine ⟨?_, ?_, ?_⟩
  · rw [computeFunctionCountForBenchmarkSet, set_groups_same setFunctionMetrics others same]
    rfl
  · rw [computeDistanceForBenchmarkSet, gather_unique_same setFunctionMetrics others same minDistance _ min_distance_extreme]
    rfl
  · rw [computeScoreForBenchmarkSet, gather_unique_same setFunctionMetrics others same maxScore _ max_score_extreme]
    rfl

end SameMembers

theorem pass_total {ν ω γ : Type} [AddMonoid γ] (made : Text → ν → Option ω) (amount : ν → γ) (groups : SortedDict Text ν)
    (result : SortedDict Text ω × γ) (passed : forEachGroup made amount groups = some result) :
    result.2 = (groups.entries.map fun entry => amount entry.2).sum := by
  have each : ∀ (entries : List (Text × ν)) (start finish : SortedDict Text ω × γ),
      entries.foldlM (fun state entry =>
        (made entry.1 entry.2).map fun value => (state.1.insert entry.1 value, state.2 + amount entry.2)) start = some finish →
      finish.2 = start.2 + (entries.map fun entry => amount entry.2).sum := by
    intro entries
    induction entries with
    | nil =>
        intro start finish ran
        rw [← Option.some.inj ran, List.map_nil, List.sum_nil, add_zero]
    | cons entry rest ih =>
        intro start finish ran
        rw [List.foldlM_cons] at ran
        obtain ⟨middle, stepped, ran⟩ := Option.bind_eq_some_iff.mp ran
        obtain ⟨value, -, rfl⟩ := Option.map_eq_some_iff.mp stepped
        rw [ih _ finish ran, List.map_cons, List.sum_cons, add_assoc]
  rw [each groups.entries _ result passed, zero_add]

theorem count_total (setFunctionMetrics : List GroupedFunctions) (cwpFunctions : SortedDict Text (List Text)) (metrics : SetMetrics)
    (computed : computeFunctionCountForBenchmarkSet setFunctionMetrics cwpFunctions = some metrics) :
    metrics.1.1 = pairCount (distinctPairs setFunctionMetrics) := by
  obtain ⟨counted, passed, rest⟩ := Option.bind_eq_some_iff.mp computed
  obtain ⟨fraction, -, rfl⟩ := Option.map_eq_some_iff.mp rest
  exact (pass_total _ _ _ counted passed).trans (set_functions_total setFunctionMetrics)

theorem score_first (setFunctionMetrics : List GroupedFunctions) (cwpFunctions : SortedDict Text (List Text)) (metrics : SetMetrics)
    (computed : computeScoreForBenchmarkSet setFunctionMetrics cwpFunctions = some metrics) :
    metrics.1.1 = metrics.1.2 / cwpFunctionsCount cwpFunctions := by
  obtain ⟨scored, -, rest⟩ := Option.bind_eq_some_iff.mp computed
  obtain ⟨fraction, divides, rfl⟩ := Option.map_eq_some_iff.mp rest
  rw [divided] at divides
  split at divides
  · exact absurd divides.symm (Option.some_ne_none fraction)
  · exact (Option.some.inj divides).symm

theorem score_total (setFunctionMetrics : List GroupedFunctions) (cwpFunctions : SortedDict Text (List Text)) (metrics : SetMetrics)
    (computed : computeScoreForBenchmarkSet setFunctionMetrics cwpFunctions = some metrics) :
    metrics.1.2 = totalScore (valueOf setFunctionMetrics maxScore) (distinctPairs setFunctionMetrics) := by
  obtain ⟨scored, passed, rest⟩ := Option.bind_eq_some_iff.mp computed
  obtain ⟨fraction, -, rfl⟩ := Option.map_eq_some_iff.mp rest
  exact (pass_total _ _ _ scored passed).trans (unique_total_sum setFunctionMetrics maxScore id)

section Added

variable (setFunctionMetrics : List GroupedFunctions) (benchmark : GroupedFunctions)

theorem held_added (group function : Text) (metrics : ℚ × ℚ) (held : Held setFunctionMetrics group function metrics) :
    Held (setFunctionMetrics ++ [benchmark]) group function metrics := by
  obtain ⟨origin, member, found⟩ := held
  exact ⟨origin, List.mem_append_left _ member, found⟩

theorem pairs_added : distinctPairs setFunctionMetrics ⊆ distinctPairs (setFunctionMetrics ++ [benchmark]) := by
  intro pair covered
  obtain ⟨metrics, held⟩ := (mem_distinct_pairs setFunctionMetrics pair.1 pair.2).mp covered
  exact (mem_distinct_pairs _ pair.1 pair.2).mpr ⟨metrics, held_added setFunctionMetrics benchmark _ _ metrics held⟩

theorem distance_added (group function : Text) (distance : ℚ)
    (found : nestedGet (gatherUnique minDistance setFunctionMetrics) group function = some distance) :
    ∃ after, nestedGet (gatherUnique minDistance (setFunctionMetrics ++ [benchmark])) group function = some after ∧
      after ≤ distance := by
  obtain ⟨⟨metrics, held⟩, least⟩ :=
    (unique_found setFunctionMetrics minDistance _ min_distance_extreme group function distance).mp found
  have covered := pairs_added setFunctionMetrics benchmark ((mem_distinct_pairs _ group function).mpr ⟨metrics, held⟩)
  obtain ⟨after, there⟩ := (unique_covers _ minDistance group function).mp covered
  have lower := ((unique_found _ minDistance _ min_distance_extreme group function after).mp there).2
  refine ⟨after, there, lower.2 (Set.image_mono (fun metrics held => ?_) least.1)⟩
  exact held_added setFunctionMetrics benchmark group function metrics held

theorem value_nonneg (pair : Text × Text) (covered : pair ∈ distinctPairs setFunctionMetrics) :
    0 ≤ valueOf setFunctionMetrics maxScore pair := by
  obtain ⟨metrics, -, same⟩ := (value_best setFunctionMetrics maxScore _ max_score_extreme pair covered).1
  rw [← same]
  exact le_max_right metrics.2 0

theorem score_added : totalScore (valueOf setFunctionMetrics maxScore) (distinctPairs setFunctionMetrics) ≤
    totalScore (valueOf (setFunctionMetrics ++ [benchmark]) maxScore) (distinctPairs (setFunctionMetrics ++ [benchmark])) := by
  have more := pairs_added setFunctionMetrics benchmark
  refine (Finset.sum_le_sum fun pair covered => ?_).trans
    (Finset.sum_le_sum_of_subset_of_nonneg more fun pair covered _ => value_nonneg _ pair covered)
  have before := (value_best setFunctionMetrics maxScore _ max_score_extreme pair covered).1
  have after := (value_best (setFunctionMetrics ++ [benchmark]) maxScore _ max_score_extreme pair (more covered)).2
  exact after (Set.image_mono (fun metrics held => held_added setFunctionMetrics benchmark _ _ metrics held) before)

theorem count_added : pairCount (distinctPairs setFunctionMetrics) ≤ pairCount (distinctPairs (setFunctionMetrics ++ [benchmark])) :=
  Nat.cast_le.mpr (Finset.card_le_card (pairs_added setFunctionMetrics benchmark))

end Added

theorem set_metrics_defined (setFunctionMetrics : List GroupedFunctions) (cwpFunctions : SortedDict Text (List Text)) :
    (cwpFunctionsCount cwpFunctions ≠ 0 →
      (∀ benchmark ∈ setFunctionMetrics, ∀ group ∈ benchmark.keys, cwpFunctions.get? group ≠ some []) →
      ∃ groups, computeFunctionCountForBenchmarkSet setFunctionMetrics cwpFunctions =
          some ((pairCount (distinctPairs setFunctionMetrics),
            pairCount (distinctPairs setFunctionMetrics) / cwpFunctionsCount cwpFunctions), groups) ∧
        ∀ benchmark ∈ setFunctionMetrics, ∀ group ∈ benchmark.keys, groups.get? group =
          some (pairCount (groupPairs setFunctionMetrics group),
            countFraction cwpFunctions group (pairCount (groupPairs setFunctionMetrics group)))) ∧
    ((distinctPairs setFunctionMetrics).Nonempty →
      ∃ least groups, LeastDistances setFunctionMetrics least ∧
        computeDistanceForBenchmarkSet setFunctionMetrics cwpFunctions =
          some ((distanceVariation least (distinctPairs setFunctionMetrics) / pairCount (distinctPairs setFunctionMetrics),
            distanceVariation least (distinctPairs setFunctionMetrics)), groups) ∧
        ∀ pair ∈ distinctPairs setFunctionMetrics, groups.get? pair.1 =
          some (distanceVariation least (groupPairs setFunctionMetrics pair.1) / pairCount (groupPairs setFunctionMetrics pair.1),
            distanceVariation least (groupPairs setFunctionMetrics pair.1))) ∧
    ((∀ group function metrics, Held setFunctionMetrics group function metrics → 0 ≤ metrics.2) →
      cwpFunctionsCount cwpFunctions ≠ 0 → (∀ pair ∈ distinctPairs setFunctionMetrics, (cwpFunctions.get? pair.1).getD [] ≠ []) →
      ∃ greatest groups, GreatestScores setFunctionMetrics greatest ∧
        computeScoreForBenchmarkSet setFunctionMetrics cwpFunctions =
          some ((totalScore greatest (distinctPairs setFunctionMetrics) / cwpFunctionsCount cwpFunctions,
            totalScore greatest (distinctPairs setFunctionMetrics)), groups) ∧
        ∀ pair ∈ distinctPairs setFunctionMetrics, groups.get? pair.1 =
          some (totalScore greatest (groupPairs setFunctionMetrics pair.1) / givenCount cwpFunctions pair.1,
            totalScore greatest (groupPairs setFunctionMetrics pair.1))) ∧
    (∀ others, (∀ benchmark, benchmark ∈ setFunctionMetrics ↔ benchmark ∈ others) →
      computeFunctionCountForBenchmarkSet setFunctionMetrics cwpFunctions = computeFunctionCountForBenchmarkSet others cwpFunctions ∧
      computeDistanceForBenchmarkSet setFunctionMetrics cwpFunctions = computeDistanceForBenchmarkSet others cwpFunctions ∧
      computeScoreForBenchmarkSet setFunctionMetrics cwpFunctions = computeScoreForBenchmarkSet others cwpFunctions) ∧
    ∀ benchmark,
      (∀ before after, computeFunctionCountForBenchmarkSet setFunctionMetrics cwpFunctions = some before →
        computeFunctionCountForBenchmarkSet (setFunctionMetrics ++ [benchmark]) cwpFunctions = some after →
        before.1.1 ≤ after.1.1) ∧
      (∀ before after, computeScoreForBenchmarkSet setFunctionMetrics cwpFunctions = some before →
        computeScoreForBenchmarkSet (setFunctionMetrics ++ [benchmark]) cwpFunctions = some after → before.1.2 ≤ after.1.2) ∧
      ∀ group function distance, nestedGet (gatherUnique minDistance setFunctionMetrics) group function = some distance →
        ∃ after, nestedGet (gatherUnique minDistance (setFunctionMetrics ++ [benchmark])) group function = some after ∧
          after ≤ distance := by
  refine ⟨function_count_definition setFunctionMetrics cwpFunctions, distance_definition setFunctionMetrics cwpFunctions,
    score_definition setFunctionMetrics cwpFunctions,
    fun others same => metrics_same setFunctionMetrics others same cwpFunctions, fun benchmark => ⟨?_, ?_, ?_⟩⟩
  · intro before after first second
    rw [count_total setFunctionMetrics cwpFunctions before first, count_total _ cwpFunctions after second]
    exact count_added setFunctionMetrics benchmark
  · intro before after first second
    rw [score_total setFunctionMetrics cwpFunctions before first, score_total _ cwpFunctions after second]
    exact score_added setFunctionMetrics benchmark
  · exact distance_added setFunctionMetrics benchmark

def drawBenchmark (distance score : ℚ) : GroupedFunctions :=
  .ofItems [("ui".toList, .ofItems [("Draw,/ui/draw.cc".toList, distance, score)])]

def drawFunctions : SortedDict Text (List Text) := .ofItems [("ui".toList, ["Draw,/ui/draw.cc".toList])]

theorem draw_metrics_defined :
    (∃ groups, computeFunctionCountForBenchmarkSet [drawBenchmark 2 1, drawBenchmark 3 4] drawFunctions =
        some ((pairCount (distinctPairs [drawBenchmark 2 1, drawBenchmark 3 4]),
          pairCount (distinctPairs [drawBenchmark 2 1, drawBenchmark 3 4]) / cwpFunctionsCount drawFunctions), groups)) ∧
      ∃ least groups, LeastDistances [drawBenchmark 2 1, drawBenchmark 3 4] least ∧
        computeDistanceForBenchmarkSet [drawBenchmark 2 1, drawBenchmark 3 4] drawFunctions =
          some ((distanceVariation least (distinctPairs [drawBenchmark 2 1, drawBenchmark 3 4]) /
              pairCount (distinctPairs [drawBenchmark 2 1, drawBenchmark 3 4]),
            distanceVariation least (distinctPairs [drawBenchmark 2 1, drawBenchmark 3 4])), groups) := by
  obtain ⟨groups, counted, -⟩ := (set_metrics_defined [drawBenchmark 2 1, drawBenchmark 3 4] drawFunctions).1 (by decide) (by decide)
  obtain ⟨least, varied, lower, computed, -⟩ := (set_metrics_defined [drawBenchmark 2 1, drawBenchmark 3 4] drawFunctions).2.1
    ⟨("ui".toList, "Draw,/ui/draw.cc".toList), by decide⟩
  exact ⟨⟨groups, counted⟩, least, varied, lower, computed⟩

-- The smaller of the two distances and the greater of the two scores count.
example : (computeDistanceForBenchmarkSet [drawBenchmark 2 1, drawBenchmark 3 4] drawFunctions).map Prod.fst = some (1, 1) ∧
    (computeScoreForBenchmarkSet [drawBenchmark 2 1, drawBenchmark 3 4] drawFunctions).map Prod.fst = some (4, 4) := by
  decide +kernel

end ToolchainUtils.UserActivityBenchmarks
