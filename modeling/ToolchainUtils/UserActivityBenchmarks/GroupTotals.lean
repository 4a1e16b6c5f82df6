import ToolchainUtils.UserActivityBenchmarks.FunctionGroups

set_option autoImplicit false

namespace ToolchainUtils.UserActivityBenchmarks

open PyString TextReplace FailingFold GroupedFold

-- The group of the first pair whose path occurs in the file name.
def FirstGroup (cwpFunctionGroups : List (Text × Text)) (fileName group : Text) : Prop :=
  ∃ before path after, cwpFunctionGroups = before ++ (group, path) :: after ∧ path <:+: fileName ∧
    ∀ pair ∈ before, ¬ pair.2 <:+: fileName

section Grouping

variable (cwpFunctionGroups : List (Text × Text)) {ι ν β : Type} (file : ι → Text)

def firstPair (fileName : Text) : Option (Text × Text) := cwpFunctionGroups.find? fun pair => (find pair.2 fileName).isSome

def groupOf (fileName : Text) : Option Text := (firstPair cwpFunctionGroups fileName).map Prod.fst

def members (items : List ι) (group : Text) : List ι := items.filter fun item => groupOf cwpFunctionGroups (file item) = some group

-- A group without members has no entry.
def totalOf (total : List ι → β) (items : List ι) : Option β := if items = [] then none else some (total items)

theorem total_of_perm (total : List ι → β) (items others : List ι) (perm : items.Perm others)
    (same : total items = total others) : totalOf total items = totalOf total others := by
  rw [totalOf, totalOf, same]
  by_cases empty : items = []
  · rw [if_pos empty, if_pos (List.nil_perm.mp (empty ▸ perm))]
  · rw [if_neg empty, if_neg fun gone : others = [] => empty (List.perm_nil.mp (gone ▸ perm))]

theorem total_of_map {γ : Type} (seen : β → γ) (total : List ι → β) (items : List ι) :
    (totalOf total items).map seen = totalOf (fun all => seen (total all)) items := by
  rw [totalOf, totalOf, apply_ite (Option.map seen)]
  rfl

theorem total_of_default (total : List ι → β) (items : List ι) : (totalOf total items).getD (total []) = total items := by
  rw [totalOf]
  by_cases empty : items = []
  · rw [if_pos empty, empty]
    rfl
  · rw [if_neg empty]
    rfl

theorem group_of_iff (fileName group : Text) :
    groupOf cwpFunctionGroups fileName = some group ↔ FirstGroup cwpFunctionGroups fileName group := by
  rw [groupOf, firstPair, FirstGroup, Option.map_eq_some_iff]
  constructor
  · rintro ⟨⟨name, path⟩, found, rfl⟩
    obtain ⟨here, before, after, split, earlier⟩ := List.find?_eq_some_iff_append.mp found
    refine ⟨before, path, after, split, (find_is_some_iff path fileName).mp here, fun pair member occurs => ?_⟩
    have missing := earlier pair member
    rw [(find_is_some_iff pair.2 fileName).mpr occurs] at missing
    cases missing
  · rintro ⟨before, path, after, split, here, earlier⟩
    have occurs := (find_is_some_iff path fileName).mpr here
    refine ⟨(group, path), List.find?_eq_some_iff_append.mpr ⟨occurs, before, after, split, ?_⟩, rfl⟩
    intro pair member
    rw [Bool.not_eq_true', ← Bool.not_eq_true, find_is_some_iff]
    exact earlier pair member

theorem members_nonempty_iff (items : List ι) (group : Text) : members cwpFunctionGroups file items group ≠ [] ↔
    ∃ item ∈ items, FirstGroup cwpFunctionGroups (file item) group := by
  rw [members, Ne, List.filter_eq_nil_iff, not_forall₂]
  refine exists_congr fun item => ?_
  rw [exists_prop, not_not, decide_eq_true_iff, group_of_iff]

theorem in_first_group {σ : Type} (fileName : Text) (entered : Text → Text → σ → σ) (state : σ) :
    inFirstGroup fileName entered cwpFunctionGroups state =
      ((firstPair cwpFunctionGroups fileName).map fun pair => entered pair.1 pair.2 state).getD state := by
  induction cwpFunctionGroups with
  | nil => rfl
  | cons pair rest ih =>
      rw [inFirstGroup, firstPair, List.find?_cons]
      by_cases here : (find pair.2 fileName).isSome = true
      · rw [if_pos here, here]
        rfl
      · rw [if_neg here, Bool.eq_false_of_not_eq_true here]
        exact ih

def placed (item : ι) : Option (Text × Text × ι) :=
  (firstPair cwpFunctionGroups (file item)).map fun pair => (pair.1, pair.2, item)

theorem fold_in_first_group (add : Option ν → Text × ι → ν) (items : List ι) (start : SortedDict Text ν) :
    items.foldl (fun dict item =>
        inFirstGroup (file item) (fun group path dict => addTo add dict (group, path, item)) cwpFunctionGroups dict) start =
      (items.filterMap (placed cwpFunctionGroups file)).foldl (addTo add) start := by
  induction items generalizing start with
  | nil => rfl
  | cons item rest ih =>
      rw [List.foldl_cons, ih, in_first_group, List.filterMap_cons, placed]
      cases firstPair cwpFunctionGroups (file item) with
      | none => rfl
      | some pair => rfl

theorem given_placed (items : List ι) (group : Text) :
    (SortedDict.given group (items.filterMap (placed cwpFunctionGroups file))).map Prod.snd =
      members cwpFunctionGroups file items group := by
  induction items with
  | nil => rfl
  | cons item rest ih =>
      rw [members, List.filter_cons, List.filterMap_cons, placed, groupOf]
      cases firstPair cwpFunctionGroups (file item) with
      | none => exact ih
      | some pair =>
          simp only [Option.map_some, Option.some.injEq, SortedDict.given, List.filterMap_cons]
          by_cases same : pair.1 = group
          · rw [if_pos same, if_pos (decide_eq_true same)]
            exact congrArg (List.cons item) ih
          · rw [if_neg same, if_neg (fun yes => same (of_decide_eq_true yes))]
            exact ih

-- An entry's summary is the total of the group's members, when each addition keeps it so.
theorem group_total (add : Option ν → Text × ι → ν) (summary : ν → β) (total : List ι → β)
    (first : ∀ path item, summary (add none (path, item)) = total [item])
    (more : ∀ value all path item, summary value = total all → summary (add (some value) (path, item)) = total (all ++ [item]))
    (items : List ι) (group : Text) :
    ((items.foldl (fun dict item =>
        inFirstGroup (file item) (fun group path dict => addTo add dict (group, path, item)) cwpFunctionGroups dict)
        SortedDict.empty).get? group).map summary = totalOf total (members cwpFunctionGroups file items group) := by
  have summed := entry_total add summary (fun all => total (all.map Prod.snd)) (fun added => first added.1 added.2)
    (fun value all added seen => by rw [List.map_append]; exact more value (all.map Prod.snd) added.1 added.2 seen)
    (SortedDict.given group (items.filterMap (placed cwpFunctionGroups file)))
  have emptied : SortedDict.given group (items.filterMap (placed cwpFunctionGroups file)) = [] ↔
      members cwpFunctionGroups file items group = [] := by
    rw [← given_placed, List.map_eq_nil_iff]
  rw [given_placed] at summed
  rw [fold_in_first_group, get_fold, totalOf]
  refine summed.trans ?_
  by_cases empty : members cwpFunctionGroups file items group = []
  · rw [if_pos empty, if_pos (emptied.mpr empty)]
  · rw [if_neg empty, if_neg fun gone => empty (emptied.mp gone)]

theorem members_perm (items others : List ι) (perm : items.Perm others) (group : Text) :
    (members cwpFunctionGroups file items group).Perm (members cwpFunctionGroups file others group) := perm.filter _

end Grouping

-- The second part of a key that has two.
def fileOf (key : Text) : Text := ((twoParts [','] key).map Prod.snd).getD []

theorem two_parts_file (key : Text) (one : OneComma key) : ∃ function, twoParts [','] key = some (function, fileOf key) := by
  obtain ⟨-, function, file, parts⟩ := one
  exact ⟨function, by rw [fileOf, parts]; rfl⟩

theorem second_part_file (key : Text) (one : OneComma key) : (splitAt [','] key)[1]? = some (fileOf key) := by
  obtain ⟨function, parts⟩ := two_parts_file key one
  rw [twoParts] at parts
  split at parts
  next first second two =>
    obtain ⟨-, rfl⟩ := Prod.mk.inj (Option.some.inj parts)
    rw [two]
    rfl
  next => exact absurd parts.symm (Option.some_ne_none _)

theorem joined_file (function file : Text) (one : OneComma (function ++ ',' :: file)) : fileOf (function ++ ',' :: file) = file := by
  have counted := one.1
  rw [List.count_append, List.count_cons_self] at counted
  have first : ',' ∉ function := List.count_eq_zero.mp (by omega)
  have second : ',' ∉ file := List.count_eq_zero.mp (by omega)
  rw [fileOf, twoParts, split_at_first ',' function file first, split_at_absent ',' file second]
  rfl

section Routines

variable (cwpFunctionGroups : List (Text × Text))

def ComponentMetrics.totals (metrics : ComponentMetrics) : ℚ × ℚ × ℚ × ℚ × ℚ :=
  (metrics.functionCount, metrics.distanceCum, metrics.distanceAvg, metrics.scoreCum, metrics.scoreAvg)

def metricTotals (metrics : List (Text × ℚ × ℚ)) : ℚ × ℚ × ℚ × ℚ × ℚ :=
  let count : ℚ := metrics.length
  let distance := (metrics.map fun metric => metric.2.1).sum
  let score := (metrics.map fun metric => metric.2.2).sum
  (count, distance, distance / count, score, score / count)

theorem metric_totals_perm (metrics others : List (Text × ℚ × ℚ)) (perm : metrics.Perm others) :
    metricTotals metrics = metricTotals others := by
  rw [metricTotals, metricTotals, perm.length_eq, (perm.map fun metric => metric.2.1).sum_eq,
    (perm.map fun metric => metric.2.2).sum_eq]

theorem components_total (metrics : List (Text × ℚ × ℚ)) (keys : ∀ metric ∈ metrics, OneComma metric.1) :
    ∃ result, computeMetricsForComponents cwpFunctionGroups metrics = some result ∧ ∀ group,
      (result.get? group).map ComponentMetrics.totals =
        totalOf metricTotals (members cwpFunctionGroups (fun metric => fileOf metric.1) metrics group) := by
  refine ⟨_, fold_total _ (fun dict metric =>
    inFirstGroup (fileOf metric.1) (fun group path dict => addTo addMetric dict (group, path, metric)) cwpFunctionGroups dict)
    metrics SortedDict.empty ?_, ?_⟩
  · intro metric member dict
    obtain ⟨function, parts⟩ := two_parts_file metric.1 (keys metric member)
    rw [parts]
    rfl
  · refine group_total cwpFunctionGroups (fun metric => fileOf metric.1) addMetric ComponentMetrics.totals metricTotals ?_ ?_ metrics
    · intro path metric
      simp [ComponentMetrics.totals, metricTotals, addMetric]
    · intro value all path metric seen
      simp only [ComponentMetrics.totals, metricTotals, Prod.mk.injEq] at seen
      obtain ⟨count, distance, -, score, -⟩ := seen
      simp [ComponentMetrics.totals, metricTotals, addMetric, count, distance, score, add_comm]

theorem cwp_functions_total (keys : List Text) (parted : ∀ key ∈ keys, OneComma key) :
    ∃ result, organizeCWPFunctionsInGroups keys cwpFunctionGroups = some result ∧ ∀ group,
      result.get? group = totalOf id (members cwpFunctionGroups fileOf keys group) := by
  refine ⟨_, fold_total _ (fun dict key =>
    inFirstGroup (fileOf key) (fun group path dict => addTo addKey dict (group, path, key)) cwpFunctionGroups dict)
    keys SortedDict.empty ?_, fun group => ?_⟩
  · intro key member dict
    obtain ⟨function, parts⟩ := two_parts_file key (parted key member)
    rw [parts]
    rfl
  · refine (congrFun Option.map_id.symm _).trans (group_total cwpFunctionGroups fileOf addKey id id (fun _ _ => rfl) ?_ keys group)
    intro value all path key seen
    exact congrArg (· ++ [key]) seen

def rowItems (rows : List CommonFunction) : SortedDict Text (ℚ × ℚ) := SortedDict.ofItems (rows.map CommonFunction.item)

theorem benchmark_files_total (rows : List CommonFunction) (group : Text) :
    (groupBenchmarkFunctions cwpFunctionGroups rows).get? group =
      totalOf rowItems (members cwpFunctionGroups CommonFunction.file rows group) := by
  refine (congrFun Option.map_id.symm _).trans (group_total cwpFunctionGroups CommonFunction.file addFunction id
    rowItems (fun _ _ => rfl) ?_ rows group)
  intro value all path row seen
  change value.insert row.key (row.distance, row.score) = _
  rw [rowItems, List.map_append, SortedDict.ofItems, List.foldl_append, ← SortedDict.ofItems, ← rowItems, ← seen]
  rfl

theorem benchmark_functions_total (rows : List CommonFunction) (keys : ∀ row ∈ rows, OneComma row.key) (group : Text) :
    (groupBenchmarkFunctions cwpFunctionGroups rows).get? group =
      totalOf rowItems (members cwpFunctionGroups (fun row => fileOf row.key) rows group) := by
  have files : members cwpFunctionGroups (fun row => fileOf row.key) rows group =
      members cwpFunctionGroups CommonFunction.file rows group := by
    refine List.filter_congr fun row member => ?_
    have same : fileOf row.key = row.file := joined_file row.function row.file (keys row member)
    exact congrArg (fun file => decide (groupOf cwpFunctionGroups file = some group)) same
  rw [files]
  exact benchmark_files_total cwpFunctionGroups rows group

def ExtraGroup.totals (extra : ExtraGroup) : Int × ℚ := (extra.groupInclusiveCount, extra.groupInclusiveCountFraction)

def extraTotals (statistics : List CwpStatistic) : Int × ℚ :=
  ((statistics.map CwpStatistic.inclusiveCount).sum, (statistics.map CwpStatistic.inclusiveCountFraction).sum)

theorem extra_totals_perm (statistics others : List CwpStatistic) (perm : statistics.Perm others) :
    extraTotals statistics = extraTotals others := by
  rw [extraTotals, extraTotals, (perm.map CwpStatistic.inclusiveCount).sum_eq, (perm.map CwpStatistic.inclusiveCountFraction).sum_eq]

def extraFunctions (statistics : List CwpStatistic) : List CwpStatistic :=
  statistics.filter fun statistic => statistic.marker ≠ .common

def extraMembers (statistics : List CwpStatistic) (group : Text) : List CwpStatistic :=
  members cwpFunctionGroups (fun statistic => fileOf statistic.function) (extraFunctions statistics) group

theorem extra_functions_total (statistics : List CwpStatistic) (keys : ∀ statistic ∈ statistics, OneComma statistic.function) :
    ∃ result, groupExtraFunctions statistics cwpFunctionGroups = some result ∧ ∀ group,
      (result.get? group).map (fun extra => (extra.groupLines, extra.totals)) =
        totalOf (fun all => (all.map CwpStatistic.line, extraTotals all)) (extraMembers cwpFunctionGroups statistics group) := by
  refine ⟨_, fold_total _ (fun dict statistic => if decide (statistic.marker ≠ .common) then
      inFirstGroup (fileOf statistic.function) (fun group path dict => addTo addExtra dict (group, path, statistic))
        cwpFunctionGroups dict
    else dict) statistics SortedDict.empty ?_, ?_⟩
  · intro statistic member dict
    by_cases common : statistic.marker = .common
    · rw [if_pos common, if_neg (by simp [common])]
    · rw [if_neg common, if_pos (by simp [common]), second_part_file statistic.function (keys statistic member)]
      rfl
  · rw [← List.foldl_filter]
    refine group_total cwpFunctionGroups (fun statistic => fileOf statistic.function) addExtra
      (fun extra => (extra.groupLines, extra.totals)) (fun all => (all.map CwpStatistic.line, extraTotals all)) ?_ ?_
      (extraFunctions statistics)
    · intro path statistic
      simp [ExtraGroup.totals, extraTotals, addExtra]
    · intro value all path statistic seen
      simp only [ExtraGroup.totals, extraTotals, Prod.mk.injEq] at seen
      obtain ⟨lines, count, fraction⟩ := seen
      simp [ExtraGroup.totals, extraTotals, addExtra, lines, count, fraction, add_comm]

-- The order of the visits does not count.
theorem components_visited (metrics visited : List (Text × ℚ × ℚ)) (keys : ∀ metric ∈ metrics, OneComma metric.1)
    (perm : visited.Perm metrics) :
    ∃ result, computeMetricsForComponents cwpFunctionGroups visited = some result ∧ ∀ group,
      (result.get? group).map ComponentMetrics.totals =
        totalOf metricTotals (members cwpFunctionGroups (fun metric => fileOf metric.1) metrics group) := by
  obtain ⟨result, computed, totals⟩ :=
    components_total cwpFunctionGroups visited fun metric member => keys metric (perm.mem_iff.mp member)
  refine ⟨result, computed, fun group => (totals group).trans ?_⟩
  have same := members_perm cwpFunctionGroups (fun metric => fileOf metric.1) visited metrics perm group
  exact total_of_perm metricTotals _ _ same (metric_totals_perm _ _ same)

theorem cwp_functions_visited (keys visited : List Text) (parted : ∀ key ∈ keys, OneComma key) (perm : visited.Perm keys) :
    ∃ result, organizeCWPFunctionsInGroups visited cwpFunctionGroups = some result ∧ ∀ group,
      ((result.get? group).getD []).Perm (members cwpFunctionGroups fileOf keys group) := by
  obtain ⟨result, computed, totals⟩ :=
    cwp_functions_total cwpFunctionGroups visited fun key member => parted key (perm.mem_iff.mp member)
  refine ⟨result, computed, fun group => ?_⟩
  rw [totals group, show ([] : List Text) = id [] from rfl, total_of_default]
  exact members_perm cwpFunctionGroups fileOf visited keys perm group

theorem extra_functions_visited (statistics visited : List CwpStatistic)
    (keys : ∀ statistic ∈ statistics, OneComma statistic.function) (perm : visited.Perm statistics) :
    ∃ result, groupExtraFunctions visited cwpFunctionGroups = some result ∧ ∀ group,
      (result.get? group).map ExtraGroup.totals = totalOf extraTotals (extraMembers cwpFunctionGroups statistics group) ∧
      (((result.get? group).map ExtraGroup.groupLines).getD []).Perm
        ((extraMembers cwpFunctionGroups statistics group).map CwpStatistic.line) := by
  obtain ⟨result, computed, totals⟩ :=
    extra_functions_total cwpFunctionGroups visited fun statistic member => keys statistic (perm.mem_iff.mp member)
  refine ⟨result, computed, fun group => ?_⟩
  have same : (extraMembers cwpFunctionGroups visited group).Perm (extraMembers cwpFunctionGroups statistics group) :=
    members_perm cwpFunctionGroups _ _ _ (perm.filter _) group
  have summed := congrArg (Option.map Prod.snd) (totals group)
  have listed := congrArg (Option.map Prod.fst) (totals group)
  rw [Option.map_map, total_of_map] at summed listed
  refine ⟨summed.trans (total_of_perm extraTotals _ _ same (extra_totals_perm _ _ same)), ?_⟩
  rw [show (result.get? group).map ExtraGroup.groupLines = _ from listed]
  rw [show ([] : List (Text × Text × Int × ℚ)) = ([] : List CwpStatistic).map CwpStatistic.line from rfl, total_of_default]
  exact same.map CwpStatistic.line

theorem organized_file (files : List Text) (rows : Text → List CommonFunction) (name : Text) (listed : name ∈ files) :
    (organizeBenchmarkSetFunctionsInGroups files rows cwpFunctionGroups).get? name =
      if rows name = [] then none else some (groupBenchmarkFunctions cwpFunctionGroups (rows name)) := by
  have each : ∀ start : SortedDict Text GroupedFunctions,
      (files.foldl (fun grouped file =>
        if rows file = [] then grouped
        else grouped.insert file (groupBenchmarkFunctions cwpFunctionGroups (rows file))) start).get? name =
      if rows name = [] ∨ name ∉ files then start.get? name
      else some (groupBenchmarkFunctions cwpFunctionGroups (rows name)) := by
    clear listed
    induction files with
    | nil => intro start; simp
    | cons file rest ih =>
        intro start
        rw [List.foldl_cons, ih]
        by_cases same : name = file
        · subst same
          by_cases empty : rows name = []
          · simp [empty]
          · by_cases later : name ∈ rest
            · simp [empty, later]
            · simp [empty, later, SortedDict.get_insert]
        · by_cases empty : rows file = []
          · simp [empty, same]
          · simp [empty, same, SortedDict.get_insert]
  rw [organizeBenchmarkSetFunctionsInGroups, each]
  simp [listed, SortedDict.empty, SortedDict.get?, SortedDict.lookup]

theorem benchmark_functions_visited (files : List Text) (rows visited : Text → List CommonFunction)
    (keys : ∀ name ∈ files, ∀ row ∈ rows name, OneComma row.key)
    (distinct : ∀ name ∈ files, ((rows name).map CommonFunction.key).Nodup) (perm : ∀ name, (visited name).Perm (rows name))
    (name : Text) (listed : name ∈ files) (group : Text) :
    ((organizeBenchmarkSetFunctionsInGroups files visited cwpFunctionGroups).get? name).bind (fun grouped => grouped.get? group) =
      totalOf rowItems (members cwpFunctionGroups (fun row => fileOf row.key) (rows name) group) := by
  have same : totalOf rowItems (members cwpFunctionGroups (fun row => fileOf row.key) (visited name) group) =
      totalOf rowItems (members cwpFunctionGroups (fun row => fileOf row.key) (rows name) group) := by
    have permuted := members_perm cwpFunctionGroups (fun row => fileOf row.key) (visited name) (rows name) (perm name) group
    have once : ((visited name).map CommonFunction.key).Nodup := ((perm name).map _).nodup_iff.mpr (distinct name listed)
    refine total_of_perm rowItems _ _ permuted (SortedDict.of_items_perm _ _ ?_ (permuted.map CommonFunction.item))
    rw [List.map_map]
    exact once.sublist (List.filter_sublist.map CommonFunction.key)
  rw [organized_file cwpFunctionGroups files visited name listed, ← same]
  by_cases empty : visited name = []
  · rw [if_pos empty, empty]
    rfl
  · rw [if_neg empty]
    have parted : ∀ row ∈ visited name, OneComma row.key := fun row member => keys name listed row ((perm name).mem_iff.mp member)
    exact benchmark_functions_total cwpFunctionGroups (visited name) parted group

theorem grouping_routines_agree (metrics : List (Text × ℚ × ℚ)) (keys : List Text) (statistics : List CwpStatistic)
    (files : List Text) (rows : Text → List CommonFunction) (metricKeys : ∀ metric ∈ metrics, OneComma metric.1)
    (cwpKeys : ∀ key ∈ keys, OneComma key) (statisticKeys : ∀ statistic ∈ statistics, OneComma statistic.function)
    (rowKeys : ∀ name ∈ files, ∀ row ∈ rows name, OneComma row.key)
    (distinct : ∀ name ∈ files, ((rows name).map CommonFunction.key).Nodup) :
    (∀ fileName group, groupOf cwpFunctionGroups fileName = some group ↔ FirstGroup cwpFunctionGroups fileName group) ∧
    (∀ fileName group other, FirstGroup cwpFunctionGroups fileName group → FirstGroup cwpFunctionGroups fileName other →
      group = other) ∧
    (∀ visited : List (Text × ℚ × ℚ), visited.Perm metrics →
      ∃ result, computeMetricsForComponents cwpFunctionGroups visited = some result ∧ ∀ group,
        (result.get? group).map ComponentMetrics.totals =
          totalOf metricTotals (members cwpFunctionGroups (fun metric => fileOf metric.1) metrics group)) ∧
    (∀ visited : List Text, visited.Perm keys →
      ∃ result, organizeCWPFunctionsInGroups visited cwpFunctionGroups = some result ∧ ∀ group,
        ((result.get? group).getD []).Perm (members cwpFunctionGroups fileOf keys group)) ∧
    (∀ visited : Text → List CommonFunction, (∀ name, (visited name).Perm (rows name)) → ∀ name ∈ files, ∀ group,
      ((organizeBenchmarkSetFunctionsInGroups files visited cwpFunctionGroups).get? name).bind (fun grouped => grouped.get? group) =
        totalOf rowItems (members cwpFunctionGroups (fun row => fileOf row.key) (rows name) group)) ∧
    ∀ visited : List CwpStatistic, visited.Perm statistics →
      ∃ result, groupExtraFunctions visited cwpFunctionGroups = some result ∧ ∀ group,
        (result.get? group).map ExtraGroup.totals = totalOf extraTotals (extraMembers cwpFunctionGroups statistics group) ∧
        (((result.get? group).map ExtraGroup.groupLines).getD []).Perm
          ((extraMembers cwpFunctionGroups statistics group).map CwpStatistic.line) := by
  refine ⟨group_of_iff cwpFunctionGroups, fun fileName group other first second => ?_, fun visited perm => ?_,
    fun visited perm => ?_, fun visited perm name listed group => ?_, fun visited perm => ?_⟩
  · have found := (group_of_iff cwpFunctionGroups fileName group).mpr first
    exact Option.some.inj (found.symm.trans ((group_of_iff cwpFunctionGroups fileName other).mpr second))
  · exact components_visited cwpFunctionGroups metrics visited metricKeys perm
  · exact cwp_functions_visited cwpFunctionGroups keys visited cwpKeys perm
  · exact benchmark_functions_visited cwpFunctionGroups files rows visited rowKeys distinct perm name listed group
  · exact extra_functions_visited cwpFunctionGroups statistics visited statisticKeys perm

end Routines

def drawGroups : List (Text × Text) := [("ui".toList, "/ui/".toList), ("base".toList, "/base/".toList), ("ui".toList, "/cc/".toList)]

theorem draw_is_in_its_group : ∃ result, organizeCWPFunctionsInGroups ["Draw,/cc/a.cc".toList] drawGroups = some result ∧
    ∀ group, ((result.get? group).getD []).Perm (members drawGroups fileOf ["Draw,/cc/a.cc".toList] group) :=
  (grouping_routines_agree drawGroups [("Draw,/cc/a.cc".toList, 2, 1)] ["Draw,/cc/a.cc".toList]
    [⟨"Draw,/cc/a.cc".toList, "chrome".toList, 5, 1, .extra⟩] ["page".toList]
    (fun _ => [⟨"Draw".toList, "/cc/a.cc".toList, 2, 1⟩])
    (by simp [one_comma_iff]) (by simp [one_comma_iff]) (by simp [one_comma_iff])
    (by simp [one_comma_iff, CommonFunction.key]) (by simp)).2.2.2.1 _ (List.Perm.refl _)

-- The second path of a group leads to the entry of the first one.
example : members drawGroups fileOf ["Run,/ui/run.cc".toList, "Post,/base/ui/a.cc".toList, "Draw,/cc/a.cc".toList] "ui".toList =
    ["Run,/ui/run.cc".toList, "Post,/base/ui/a.cc".toList, "Draw,/cc/a.cc".toList] := by
  decide

end ToolchainUtils.UserActivityBenchmarks
