import ToolchainUtils.UserActivityBenchmarks.FunctionDistance
import ToolchainUtils.UserActivityBenchmarks.GroupTotals
import ToolchainUtils.UserActivityBenchmarks.OptimalSets

set_option autoImplicit false

namespace ToolchainUtils.UserActivityBenchmarks

open PyString TextReplace FailingFold GroupedFold ItemByItem

theorem for_entries_iff {ν ω : Type} (made : Text → ν → Option ω) (dict : SortedDict Text ν) :
    (∃ result, forEntries made dict = some result) ↔
      ∀ key value, dict.get? key = some value → ∃ entry, made key value = some entry := by
  have each := fold_succeeds_iff (fun (result : SortedDict Text ω) (entry : Text × ν) =>
    (made entry.1 entry.2).map fun value => result.insert entry.1 value)
    (fun entry => ∃ value, made entry.1 entry.2 = some value) dict.entries SortedDict.empty fun entry state => by simp
  refine each.trans ⟨fun good key value found => ?_, fun good entry member => ?_⟩
  · exact good (key, value) ((SortedDict.mem_entries dict key value).mpr found)
  · exact good entry.1 entry.2 ((SortedDict.mem_entries dict entry.1 entry.2).mp member)

section Parents

variable (statistics : List CwpStatistic) (keys : ∀ statistic ∈ statistics, OneComma statistic.function)

def functionOf (key : Text) : Text := ((twoParts [','] key).map Prod.fst).getD []

-- The CWP functions of a name, in whatever file.
def namesakes (name : Text) : List CwpStatistic := statistics.filter fun statistic => functionOf statistic.function = name

def inclusiveCounts (all : List CwpStatistic) : Int := (all.map CwpStatistic.inclusiveCount).sum

theorem given_namesakes (name : Text) :
    SortedDict.given name (statistics.map fun statistic => (functionOf statistic.function, statistic.inclusiveCount)) =
      (namesakes statistics name).map CwpStatistic.inclusiveCount := by
  induction statistics with
  | nil => rfl
  | cons statistic rest ih =>
      rw [namesakes, List.map_cons, SortedDict.given, List.filterMap_cons, List.filter_cons]
      by_cases same : functionOf statistic.function = name
      · rw [if_pos same, if_pos (decide_eq_true same)]
        exact congrArg (List.cons statistic.inclusiveCount) ih
      · rw [if_neg same, if_neg (fun yes => same (of_decide_eq_true yes))]
        exact ih

include keys

theorem cumulative_total : ∃ cumulative, computeCWPCummulativeInclusiveStatistics statistics = some cumulative ∧
    ∀ name, cumulative.get? name = totalOf inclusiveCounts (namesakes statistics name) := by
  refine ⟨_, fold_total _ (fun cumulative statistic =>
    addTo addCount cumulative (functionOf statistic.function, statistic.inclusiveCount))
    statistics SortedDict.empty ?_, fun name => ?_⟩
  · intro statistic member cumulative
    obtain ⟨-, function, file, parts⟩ := keys statistic member
    rw [functionOf, parts]
    rfl
  · have summed := entry_total addCount id List.sum (fun added => by simp [addCount])
      (fun value all added seen => by simpa [addCount] using seen)
      ((namesakes statistics name).map CwpStatistic.inclusiveCount)
    rw [← List.foldl_map, get_fold, given_namesakes]
    refine (congrFun Option.map_id.symm _).trans (summed.trans ?_)
    rw [totalOf]
    by_cases empty : namesakes statistics name = []
    · rw [if_pos empty, empty]
      rfl
    · rw [if_neg empty, if_neg fun gone => empty (List.map_eq_nil_iff.mp gone)]
      rfl

end Parents

-- No parent with children has CWP functions whose counts come to zero.
def NoZeroParent (statistics : List CwpStatistic) (pairwise : SortedDict Text (SortedDict Text ℚ)) : Prop :=
  ∀ parent children, pairwise.get? parent = some children → children.entries ≠ [] → namesakes statistics parent ≠ [] →
    inclusiveCounts (namesakes statistics parent) ≠ 0

theorem fractions_iff (statistics : List CwpStatistic) (cumulative : SortedDict Text Int)
    (totals : ∀ name, cumulative.get? name = totalOf inclusiveCounts (namesakes statistics name))
    (pairwise : SortedDict Text (SortedDict Text ℚ)) :
    (∃ fractions, computeCWPChildFunctionsFractions cumulative pairwise = some fractions) ↔ NoZeroParent statistics pairwise := by
  rw [computeCWPChildFunctionsFractions, for_entries_iff]
  refine forall₃_congr fun parent children _ => ?_
  rw [childFunctionsFractions, totals, totalOf]
  by_cases absent : namesakes statistics parent = []
  · rw [if_pos absent]
    refine iff_of_true ((for_entries_iff _ children).mpr fun _ _ _ => ⟨0, rfl⟩) fun _ present => absurd absent present
  · rw [if_neg absent]
    dsimp only
    rw [for_entries_iff]
    constructor
    · intro divides filled _ zero
      obtain ⟨child, rest, shape⟩ := List.exists_cons_of_ne_nil filled
      have member : child ∈ children.entries := by
        rw [shape]
        exact List.mem_cons_self
      have nonzero := (divided_iff _ _).mp (divides child.1 child.2 ((SortedDict.mem_entries children child.1 child.2).mp member))
      exact nonzero (by rw [zero, Int.cast_zero])
    · intro nonzero child count found
      have filled := List.ne_nil_of_mem ((SortedDict.mem_entries children child count).mpr found)
      exact (divided_iff _ _).mpr (Int.cast_ne_zero.mpr (nonzero filled absent))

section Profiles

variable (statistics : List CwpStatistic) (keys : ∀ statistic ∈ statistics, OneComma statistic.function)
variable (fractions : SortedDict Text (SortedDict Text ℚ)) (cwpFunctionGroups : List (Text × Text))

-- The marking of common functions leaves the keys.
def SameKeys (state : List CwpStatistic) : Prop := state.map CwpStatistic.function = statistics.map CwpStatistic.function

def common (functions : List PprofTop) : List PprofTop :=
  functions.filter fun function => function.key ∈ statistics.map CwpStatistic.function

theorem mark_common_keys (key : Text) (state : List CwpStatistic) :
    (markCommon key state).map CwpStatistic.function = state.map CwpStatistic.function := by
  rw [markCommon, List.map_map]
  refine List.map_congr_left fun statistic _ => ?_
  rw [Function.comp_apply]
  split
  · rfl
  · rfl

include keys

theorem extract_function_runs (tree : SortedDict Text (SortedDict Text Percentage)) (function : PprofTop)
    (state : List CwpStatistic × List CommonLine) (same : SameKeys statistics state.1) :
    ∃ next, extractFunction fractions tree state function = some next ∧ SameKeys statistics next.1 ∧
      next.2.map CommonLine.pprof = state.2.map CommonLine.pprof ++ common statistics [function] := by
  rw [extractFunction]
  cases found : state.1.find? fun statistics => statistics.function = function.key with
  | none =>
      have absent : function.key ∉ statistics.map CwpStatistic.function := by
        intro present
        rw [← same] at present
        obtain ⟨statistic, member, agrees⟩ := List.mem_map.mp present
        exact List.find?_eq_none.mp found statistic member (decide_eq_true agrees)
      refine ⟨state, rfl, same, ?_⟩
      rw [common, List.filter_cons, if_neg (by simpa using absent), List.filter_nil, List.append_nil]
  | some statistic =>
      have agrees : statistic.function = function.key := by simpa using List.find?_some found
      have present : function.key ∈ statistics.map CwpStatistic.function := by
        rw [← same, ← agrees]
        exact List.mem_map_of_mem (List.mem_of_find?_eq_some found)
      obtain ⟨origin, member, named⟩ := List.mem_map.mp present
      obtain ⟨-, name, file, parts⟩ := keys origin member
      rw [named] at parts
      have nonzero := (zero_lt_one.trans_le (distance_at_least_one ((tree.get? function.key).getD SortedDict.empty)
        ((fractions.get? name).getD SortedDict.empty))).ne'
      dsimp only
      rw [parts, Option.bind_some, computeScoreForFunction, divided_some _ _ nonzero, Option.map_some]
      refine ⟨_, rfl, (mark_common_keys function.key state.1).trans same, ?_⟩
      rw [List.map_append, common, List.filter_cons, if_pos (decide_eq_true present), List.filter_nil]
      rfl

theorem extract_functions_run (tree : SortedDict Text (SortedDict Text Percentage)) (functions : List PprofTop)
    (state : List CwpStatistic × List CommonLine) (same : SameKeys statistics state.1) :
    ∃ next, functions.foldlM (extractFunction fractions tree) state = some next ∧ SameKeys statistics next.1 ∧
      next.2.map CommonLine.pprof = state.2.map CommonLine.pprof ++ common statistics functions := by
  induction functions generalizing state with
  | nil => exact ⟨state, rfl, same, (List.append_nil _).symm⟩
  | cons function rest ih =>
      obtain ⟨middle, stepped, kept, lines⟩ := extract_function_runs statistics keys fractions tree function state same
      obtain ⟨next, ran, last, more⟩ := ih middle kept
      refine ⟨next, by rw [List.foldlM_cons, stepped]; exact ran, last, ?_⟩
      rw [more, lines, List.append_assoc, common, common, common, ← List.filter_append]
      rfl

omit keys in
theorem benchmark_metrics_iff (functionMetrics : List (Text × ℚ × ℚ)) :
    (∃ metrics, computeMetricsForBenchmark functionMetrics = some metrics) ↔ functionMetrics ≠ [] := by
  rw [computeMetricsForBenchmark]
  constructor
  · rintro ⟨metrics, found⟩ rfl
    obtain ⟨average, divides, -⟩ := Option.bind_eq_some_iff.mp found
    exact (divided_iff _ _).mp ⟨average, divides⟩ rfl
  · intro filled
    have nonzero : (functionMetrics.length : ℚ) ≠ 0 := Nat.cast_ne_zero.mpr fun none => filled (List.length_eq_zero_iff.mp none)
    simp only [divided_some _ _ nonzero, Option.bind_some, Option.map_some]
    exact ⟨_, rfl⟩

theorem extract_profile_run (profile : Profile) (state next : List CwpStatistic × List CommonFunctionsFile)
    (same : SameKeys statistics state.1) (ran : extractProfile cwpFunctionGroups fractions state profile = some next) :
    SameKeys statistics next.1 := by
  obtain ⟨extracted, lines, rest⟩ := Option.bind_eq_some_iff.mp ran
  obtain ⟨groups, -, rest⟩ := Option.bind_eq_some_iff.mp rest
  obtain ⟨metrics, -, rfl⟩ := Option.map_eq_some_iff.mp rest
  obtain ⟨other, again, kept, -⟩ := extract_functions_run statistics keys fractions profile.tree profile.top (state.1, []) same
  rw [lines, Option.some.injEq] at again
  exact again ▸ kept

theorem extract_profile_iff (profile : Profile) (state : List CwpStatistic × List CommonFunctionsFile)
    (same : SameKeys statistics state.1) :
    (∃ next, extractProfile cwpFunctionGroups fractions state profile = some next) ↔ common statistics profile.top ≠ [] := by
  obtain ⟨extracted, ran, -, lines⟩ := extract_functions_run statistics keys fractions profile.tree profile.top (state.1, []) same
  rw [List.map_nil, List.nil_append] at lines
  have named : ∀ metric ∈ extracted.2.map CommonLine.metric, OneComma metric.1 := by
    intro metric member
    obtain ⟨line, there, rfl⟩ := List.mem_map.mp member
    have listed : line.pprof ∈ common statistics profile.top := lines ▸ List.mem_map_of_mem there
    obtain ⟨statistic, among, key⟩ := List.mem_map.mp (of_decide_eq_true (List.mem_filter.mp listed).2)
    have one := keys statistic among
    rw [key] at one
    exact one
  obtain ⟨groups, grouped, -⟩ := components_total cwpFunctionGroups _ named
  rw [extractProfile, ran, Option.bind_some, grouped, Option.bind_some, ← lines]
  have measured := benchmark_metrics_iff (extracted.2.map CommonLine.metric)
  rw [Ne, List.map_eq_nil_iff] at measured ⊢
  rw [← measured]
  constructor
  · rintro ⟨next, made⟩
    obtain ⟨metrics, computed, -⟩ := Option.map_eq_some_iff.mp made
    exact ⟨metrics, computed⟩
  · rintro ⟨metrics, computed⟩
    rw [computed]
    exact ⟨_, rfl⟩

theorem extract_common_functions_iff (profiles : List Profile) (pairwise : SortedDict Text (SortedDict Text ℚ)) :
    (∃ result, extractCommonFunctions profiles statistics pairwise cwpFunctionGroups = some result) ↔
      NoZeroParent statistics pairwise ∧ ∀ profile ∈ profiles, common statistics profile.top ≠ [] := by
  obtain ⟨cumulative, summed, totals⟩ := cumulative_total statistics keys
  have each : ∀ fractions, (∃ result, profiles.foldlM (extractProfile cwpFunctionGroups fractions) (statistics, []) = some result) ↔
      ∀ profile ∈ profiles, common statistics profile.top ≠ [] := fun fractions =>
    fold_succeeds_within_iff (extractProfile cwpFunctionGroups fractions) (fun state => SameKeys statistics state.1) _ profiles
      (statistics, []) rfl (fun profile _ => extract_profile_run statistics keys fractions cwpFunctionGroups profile)
      fun profile _ => extract_profile_iff statistics keys fractions cwpFunctionGroups profile
  rw [extractCommonFunctions, summed, Option.bind_some, ← fractions_iff statistics cumulative totals pairwise]
  constructor
  · rintro ⟨result, ran⟩
    obtain ⟨fractions, computed, ran⟩ := Option.bind_eq_some_iff.mp ran
    exact ⟨⟨fractions, computed⟩, (each fractions).mp ⟨result, ran⟩⟩
  · rintro ⟨⟨fractions, computed⟩, shared⟩
    rw [computed]
    exact (each fractions).mpr shared

end Profiles

-- itertools.combinations.
def combinations {α : Type} : Nat → List α → List (List α)
  | 0, _ => [[]]
  | _ + 1, [] => []
  | size + 1, first :: rest => (combinations size rest).map (fun chosen => first :: chosen) ++ combinations (size + 1) rest

-- The metric is one of the three, the files are parsed and the output is not rendered.
def selectOptimalBenchmarkSet (metric : Metric) (benchmarkSetSize : Nat) (benchmarkSetFiles : List Text)
    (statisticsReader : Text → List CommonFunction) (cwpInclusiveCountStatistics : List CwpStatistic)
    (cwpFunctionGroups : List (Text × Text)) : Option (List OptimalSet) :=
  (organizeCWPFunctionsInGroups (cwpInclusiveCountStatistics.map CwpStatistic.function) cwpFunctionGroups).bind
    fun cwpFunctionsGrouped =>
      metric.select (combinations benchmarkSetSize benchmarkSetFiles)
        (organizeBenchmarkSetFunctionsInGroups benchmarkSetFiles statisticsReader cwpFunctionGroups) cwpFunctionsGrouped

theorem combinations_within {α : Type} (size : Nat) (items chosen : List α) (member : chosen ∈ combinations size items) :
    ∀ item ∈ chosen, item ∈ items := by
  induction items generalizing size chosen with
  | nil =>
      cases size with
      | zero =>
          rw [List.mem_singleton.mp member]
          exact List.forall_mem_nil _
      | succ size => exact absurd member List.not_mem_nil
  | cons first rest ih =>
      cases size with
      | zero =>
          rw [List.mem_singleton.mp member]
          exact List.forall_mem_nil _
      | succ size =>
          cases List.mem_append.mp member with
          | inl with_first =>
              obtain ⟨others, there, rfl⟩ := List.mem_map.mp with_first
              have later : ∀ item ∈ others, item ∈ first :: rest := fun item inside =>
                List.mem_cons_of_mem _ (ih size others there item inside)
              exact List.forall_mem_cons.mpr ⟨List.mem_cons_self, later⟩
          | inr without => exact fun item inside => List.mem_cons_of_mem _ (ih (size + 1) chosen without item inside)

section Selection

variable (cwpFunctionGroups : List (Text × Text)) (files : List Text) (rows : Text → List CommonFunction)

theorem benchmark_covers_iff (statistics : List CommonFunction) (group : Text) :
    (∃ function metrics, NestedTotals.nestedGet (groupBenchmarkFunctions cwpFunctionGroups statistics) group function = some metrics) ↔
      ∃ row ∈ statistics, FirstGroup cwpFunctionGroups row.file group := by
  simp only [← members_nonempty_iff, NestedTotals.nestedGet, benchmark_files_total, totalOf]
  by_cases empty : members cwpFunctionGroups CommonFunction.file statistics group = []
  · rw [if_pos empty]
    refine iff_of_false (fun held => ?_) fun filled => filled empty
    obtain ⟨_, metrics, found⟩ := held
    exact Option.some_ne_none metrics found.symm
  · rw [if_neg empty]
    refine iff_of_true ?_ empty
    obtain ⟨row, rest, shape⟩ := List.exists_cons_of_ne_nil empty
    have given : row.item.2 ∈ SortedDict.given row.item.1
        ((members cwpFunctionGroups CommonFunction.file statistics group).map CommonFunction.item) := by
      rw [SortedDict.mem_given, shape]
      exact List.mem_map_of_mem List.mem_cons_self
    obtain ⟨last, found⟩ := Option.isSome_iff_exists.mp (List.getLast?_isSome.mpr (List.ne_nil_of_mem given))
    exact ⟨row.item.1, last, by rw [Option.bind_some, rowItems, SortedDict.of_items_last, found]⟩

theorem organized_sets (combination : List Text) (within : ∀ file ∈ combination, file ∈ files)
    (functionMetrics : List GroupedFunctions) :
    combination.mapM (fun benchmark => (organizeBenchmarkSetFunctionsInGroups files rows cwpFunctionGroups).get? benchmark) =
        some functionMetrics ↔
      (∀ file ∈ combination, rows file ≠ []) ∧
        functionMetrics = combination.map fun file => groupBenchmarkFunctions cwpFunctionGroups (rows file) := by
  induction combination generalizing functionMetrics with
  | nil => simp [eq_comm]
  | cons file rest ih =>
      obtain ⟨listed, others⟩ := List.forall_mem_cons.mp within
      rw [List.mapM_cons, organized_file cwpFunctionGroups files rows file listed, List.forall_mem_cons, List.map_cons]
      by_cases empty : rows file = []
      · rw [if_pos empty]
        exact iff_of_false (fun raised => Option.some_ne_none functionMetrics raised.symm) fun filled => filled.1.1 empty
      · rw [if_neg empty]
        constructor
        · intro ran
          obtain ⟨first, ⟨⟩, ran⟩ := Option.bind_eq_some_iff.mp ran
          obtain ⟨later, made, last⟩ := Option.bind_eq_some_iff.mp ran
          obtain ⟨filled, rfl⟩ := (ih others later).mp made
          exact ⟨⟨empty, filled⟩, (Option.some.inj last).symm⟩
        · rintro ⟨⟨-, filled⟩, rfl⟩
          exact Option.bind_eq_some_iff.mpr ⟨_, rfl, Option.bind_eq_some_iff.mpr ⟨_, (ih others _).mpr ⟨filled, rfl⟩, rfl⟩⟩

theorem sets_cover_iff (combination : List Text) (group : Text) :
    (∃ function, (group, function) ∈
        distinctPairs (combination.map fun file => groupBenchmarkFunctions cwpFunctionGroups (rows file))) ↔
      ∃ file ∈ combination, ∃ row ∈ rows file, FirstGroup cwpFunctionGroups row.file group := by
  simp only [mem_distinct_pairs, Held, List.mem_map, exists_exists_and_eq_and, ← benchmark_covers_iff]
  constructor
  · rintro ⟨function, metrics, file, member, found⟩
    exact ⟨file, member, function, metrics, found⟩
  · rintro ⟨file, member, function, metrics, found⟩
    exact ⟨function, metrics, file, member, found⟩

variable (keys : List Text) (cwpFunctionsGrouped : SortedDict Text (List Text))
variable (totals : ∀ group, cwpFunctionsGrouped.get? group = totalOf id (members cwpFunctionGroups fileOf keys group))

include totals

theorem group_given_iff (group : Text) : (cwpFunctionsGrouped.get? group).getD [] ≠ [] ↔
    ∃ key ∈ keys, FirstGroup cwpFunctionGroups (fileOf key) group := by
  rw [totals group, ← members_nonempty_iff cwpFunctionGroups fileOf keys group]
  exact not_congr (iff_of_eq (congrArg (· = []) (total_of_default id _)))

theorem group_never_empty (group : Text) : cwpFunctionsGrouped.get? group ≠ some [] := by
  rw [totals group, totalOf]
  by_cases empty : members cwpFunctionGroups fileOf keys group = []
  · rw [if_pos empty]
    exact (Option.some_ne_none []).symm
  · rw [if_neg empty]
    exact fun same => empty (Option.some.inj same)

theorem some_group_given_iff : cwpFunctionsCount cwpFunctionsGrouped ≠ 0 ↔
    ∃ key ∈ keys, ∃ group, FirstGroup cwpFunctionGroups (fileOf key) group := by
  rw [cwpFunctionsCount, Ne, List.sum_eq_zero_iff_forall_eq_nat]
  constructor
  · intro counted
    by_contra none
    refine counted fun count member => ?_
    obtain ⟨entry, there, rfl⟩ := List.mem_map.mp member
    have found := (SortedDict.mem_entries cwpFunctionsGrouped entry.1 entry.2).mp there
    by_contra filled
    have given : (cwpFunctionsGrouped.get? entry.1).getD [] ≠ [] := by
      rw [found]
      exact fun same => filled (List.length_eq_zero_iff.mpr same)
    obtain ⟨key, among, first⟩ := (group_given_iff cwpFunctionGroups keys cwpFunctionsGrouped totals entry.1).mp given
    exact none ⟨key, among, entry.1, first⟩
  · rintro ⟨key, among, group, first⟩ zero
    have given := (group_given_iff cwpFunctionGroups keys cwpFunctionsGrouped totals group).mpr ⟨key, among, first⟩
    cases found : cwpFunctionsGrouped.get? group with
    | none =>
        rw [found] at given
        exact given rfl
    | some functions =>
        rw [found] at given
        have member := (SortedDict.mem_entries cwpFunctionsGrouped group functions).mpr found
        exact given (List.length_eq_zero_iff.mp (zero _ (List.mem_map_of_mem member)))

end Selection

-- What the metric of a combination divides by, in terms of the parsed data.
def MetricDefined (metric : Metric) (statistics : List CwpStatistic) (cwpFunctionGroups : List (Text × Text))
    (rows : Text → List CommonFunction) (combination : List Text) : Prop :=
  match metric with
  | .functionCount => ∃ statistic ∈ statistics, ∃ group, FirstGroup cwpFunctionGroups (fileOf statistic.function) group
  | .distance => ∃ file ∈ combination, ∃ row ∈ rows file, ∃ group, FirstGroup cwpFunctionGroups row.file group
  | .score => (∃ statistic ∈ statistics, ∃ group, FirstGroup cwpFunctionGroups (fileOf statistic.function) group) ∧
      ∀ file ∈ combination, ∀ row ∈ rows file, ∀ group, FirstGroup cwpFunctionGroups row.file group →
        ∃ statistic ∈ statistics, FirstGroup cwpFunctionGroups (fileOf statistic.function) group

theorem divides_iff (metric : Metric) (statistics : List CwpStatistic) (cwpFunctionGroups : List (Text × Text))
    (rows : Text → List CommonFunction) (combination : List Text) (cwpFunctionsGrouped : SortedDict Text (List Text))
    (totals : ∀ group, cwpFunctionsGrouped.get? group =
      totalOf id (members cwpFunctionGroups fileOf (statistics.map CwpStatistic.function) group)) :
    metric.Divides (combination.map fun file => groupBenchmarkFunctions cwpFunctionGroups (rows file)) cwpFunctionsGrouped ↔
      MetricDefined metric statistics cwpFunctionGroups rows combination := by
  have given := group_given_iff cwpFunctionGroups _ cwpFunctionsGrouped totals
  have counted := some_group_given_iff cwpFunctionGroups _ cwpFunctionsGrouped totals
  simp only [List.mem_map, exists_exists_and_eq_and] at given counted
  cases metric with
  | functionCount =>
      refine (and_iff_left fun benchmark _ group _ => ?_).trans counted
      exact group_never_empty cwpFunctionGroups _ cwpFunctionsGrouped totals group
  | distance =>
      refine Iff.trans ?_ ((exists_congr (sets_cover_iff cwpFunctionGroups rows combination)).trans ?_)
      · exact ⟨fun ⟨pair, covered⟩ => ⟨pair.1, pair.2, covered⟩, fun ⟨group, function, covered⟩ => ⟨(group, function), covered⟩⟩
      · constructor
        · rintro ⟨group, file, member, row, there, first⟩
          exact ⟨file, member, row, there, group, first⟩
        · rintro ⟨file, member, row, there, group, first⟩
          exact ⟨group, file, member, row, there, first⟩
  | score =>
      refine and_congr counted ⟨fun filled file member row there group first => ?_, fun filled pair covered => ?_⟩
      · obtain ⟨function, covered⟩ := (sets_cover_iff cwpFunctionGroups rows combination group).mpr ⟨file, member, row, there, first⟩
        exact (given group).mp (filled (group, function) covered)
      · obtain ⟨file, member, row, there, first⟩ := (sets_cover_iff cwpFunctionGroups rows combination pair.1).mp ⟨pair.2, covered⟩
        exact (given pair.1).mpr (filled file member row there pair.1 first)

theorem select_total_iff (metric : Metric) (size : Nat) (files : List Text) (rows : Text → List CommonFunction)
    (statistics : List CwpStatistic) (keys : ∀ statistic ∈ statistics, OneComma statistic.function)
    (cwpFunctionGroups : List (Text × Text)) :
    (∃ sets, selectOptimalBenchmarkSet metric size files rows statistics cwpFunctionGroups = some sets) ↔
      ∀ combination ∈ combinations size files,
        (∀ file ∈ combination, rows file ≠ []) ∧ MetricDefined metric statistics cwpFunctionGroups rows combination := by
  obtain ⟨grouped, organized, totals⟩ := cwp_functions_total cwpFunctionGroups (statistics.map CwpStatistic.function)
    (List.forall_mem_map.mpr keys)
  have selects := made_each_iff
    (measured (organizeBenchmarkSetFunctionsInGroups files rows cwpFunctionGroups) grouped metric.functionForSet)
    (combinations size files)
  rw [selectOptimalBenchmarkSet, organized, Option.bind_some, select_bests]
  simp only [Option.map_eq_some_iff]
  refine Iff.trans ?_ (selects.trans (forall₂_congr fun combination member => ?_))
  · exact ⟨fun ⟨_, entries, ran, _⟩ => ⟨entries, ran⟩, fun ⟨entries, ran⟩ => ⟨_, entries, ran, rfl⟩⟩
  · simp only [measured_parts]
    have within := combinations_within size files combination member
    constructor
    · rintro ⟨entry, functionMetrics, found, computed, computes, -⟩
      obtain ⟨filled, rfl⟩ := (organized_sets cwpFunctionGroups files rows combination within functionMetrics).mp found
      have divides := (metric_computes_iff _ grouped metric).mp ⟨computed, computes⟩
      exact ⟨filled, (divides_iff metric statistics cwpFunctionGroups rows combination grouped totals).mp divides⟩
    · rintro ⟨filled, defined⟩
      have divides := (divides_iff metric statistics cwpFunctionGroups rows combination grouped totals).mpr defined
      obtain ⟨computed, computes⟩ := (metric_computes_iff _ grouped metric).mpr divides
      exact ⟨_, _, (organized_sets cwpFunctionGroups files rows combination within _).mpr ⟨filled, rfl⟩, computed, computes, rfl⟩

theorem metrics_pipeline_total_iff (statistics : List CwpStatistic) (keys : ∀ statistic ∈ statistics, OneComma statistic.function)
    (pairwise : SortedDict Text (SortedDict Text ℚ)) (profiles : List Profile) (cwpFunctionGroups : List (Text × Text))
    (metric : Metric) (size : Nat) (files : List Text) (rows : Text → List CommonFunction) :
    ((∃ result, extractCommonFunctions profiles statistics pairwise cwpFunctionGroups = some result) ↔
      NoZeroParent statistics pairwise ∧ ∀ profile ∈ profiles, common statistics profile.top ≠ []) ∧
    ((∃ sets, selectOptimalBenchmarkSet metric size files rows statistics cwpFunctionGroups = some sets) ↔
      ∀ combination ∈ combinations size files,
        (∀ file ∈ combination, rows file ≠ []) ∧ MetricDefined metric statistics cwpFunctionGroups rows combination) :=
  ⟨extract_common_functions_iff statistics keys cwpFunctionGroups profiles pairwise,
    select_total_iff metric size files rows statistics keys cwpFunctionGroups⟩

def drawStatistics : List CwpStatistic := [⟨"Draw,/ui/draw.cc".toList, "chrome".toList, 5, 1, .extra⟩]

theorem draw_pipeline_total :
    ((∃ result, extractCommonFunctions [⟨"page".toList, [⟨"Draw,/ui/draw.cc".toList, [], [], [], [], 1⟩], .empty⟩]
        drawStatistics .empty [("ui".toList, "/ui/".toList)] = some result) ↔
      NoZeroParent drawStatistics .empty ∧
        ∀ profile ∈ [(⟨"page".toList, [⟨"Draw,/ui/draw.cc".toList, [], [], [], [], 1⟩], .empty⟩ : Profile)],
          common drawStatistics profile.top ≠ []) ∧
    ((∃ sets, selectOptimalBenchmarkSet .functionCount 1 ["page".toList] (fun _ => [⟨"Draw".toList, "/ui/draw.cc".toList, 1, 1⟩])
        drawStatistics [("ui".toList, "/ui/".toList)] = some sets) ↔
      ∀ combination ∈ combinations 1 ["page".toList],
        (∀ file ∈ combination, [(⟨"Draw".toList, "/ui/draw.cc".toList, 1, 1⟩ : CommonFunction)] ≠ []) ∧
          MetricDefined .functionCount drawStatistics [("ui".toList, "/ui/".toList)]
            (fun _ => [⟨"Draw".toList, "/ui/draw.cc".toList, 1, 1⟩]) combination) :=
  metrics_pipeline_total_iff drawStatistics (by simp [drawStatistics, one_comma_iff]) .empty _ _ .functionCount 1 _ _

-- The metrics of a profile without common functions are averages of nothing.
theorem strange_profile_raises : ¬ ∀ profiles statistics pairwise cwpFunctionGroups,
    (∀ statistic ∈ statistics, OneComma statistic.function) →
      ∃ result, extractCommonFunctions profiles statistics pairwise cwpFunctionGroups = some result := by
  intro total
  obtain ⟨result, ran⟩ := total [⟨"page".toList, [⟨"Sort,/base/sort.cc".toList, [], [], [], [], 1⟩], .empty⟩] drawStatistics .empty
    [("ui".toList, "/ui/".toList)] (by simp [drawStatistics, one_comma_iff])
  have raises : (extractCommonFunctions [⟨"page".toList, [⟨"Sort,/base/sort.cc".toList, [], [], [], [], 1⟩], .empty⟩] drawStatistics
      .empty [("ui".toList, "/ui/".toList)]).isNone = true := by
    decide
  rw [ran] at raises
  cases raises

end ToolchainUtils.UserActivityBenchmarks
