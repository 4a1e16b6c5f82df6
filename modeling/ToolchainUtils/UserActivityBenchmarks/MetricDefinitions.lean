import Mathlib.Algebra.BigOperators.Ring.Finset
import Mathlib.Order.Bounds.Basic
import ToolchainUtils.NestedTotals
import ToolchainUtils.UserActivityBenchmarks.BenchmarkMetrics

set_option autoImplicit false

namespace ToolchainUtils.UserActivityBenchmarks

open PyString FailingFold GroupedFold NestedTotals

-- The metrics that some benchmark of the set has for a function of a group.
def Held (setFunctionMetrics : List GroupedFunctions) (group function : Text) (metrics : ℚ × ℚ) : Prop :=
  ∃ benchmark ∈ setFunctionMetrics, nestedGet benchmark group function = some metrics

section Covered

variable (setFunctionMetrics : List GroupedFunctions)

def functionItems : List (Text × Text × ℚ × ℚ) :=
  setFunctionMetrics.flatMap fun benchmark =>
    benchmark.entries.flatMap fun group => group.2.entries.map fun function => (group.1, function.1, function.2)

def distinctPairs : Finset (Text × Text) := ((functionItems setFunctionMetrics).map fun item => (item.1, item.2.1)).toFinset

def heldMetrics (group function : Text) : List (ℚ × ℚ) :=
  SortedDict.given function (SortedDict.given group (functionItems setFunctionMetrics))

theorem mem_function_items (group function : Text) (metrics : ℚ × ℚ) :
    (group, function, metrics) ∈ functionItems setFunctionMetrics ↔ Held setFunctionMetrics group function metrics := by
  simp only [functionItems, Held, nestedGet, List.mem_flatMap, List.mem_map, Prod.mk.injEq, Option.bind_eq_some_iff]
  constructor
  · rintro ⟨benchmark, member, entry, grouped, item, held, rfl, rfl, rfl⟩
    exact ⟨benchmark, member, entry.2, (SortedDict.mem_entries benchmark entry.1 entry.2).mp grouped,
      (SortedDict.mem_entries entry.2 item.1 item.2).mp held⟩
  · rintro ⟨benchmark, member, functions, grouped, held⟩
    exact ⟨benchmark, member, (group, functions), (SortedDict.mem_entries benchmark group functions).mpr grouped,
      (function, metrics), (SortedDict.mem_entries functions function metrics).mpr held, rfl, rfl, rfl⟩

theorem mem_distinct_pairs (group function : Text) :
    (group, function) ∈ distinctPairs setFunctionMetrics ↔ ∃ metrics, Held setFunctionMetrics group function metrics := by
  rw [distinctPairs, List.mem_toFinset, List.mem_map]
  constructor
  · rintro ⟨⟨name, key, metrics⟩, member, same⟩
    obtain ⟨rfl, rfl⟩ := Prod.mk.inj same
    exact ⟨metrics, (mem_function_items setFunctionMetrics name key metrics).mp member⟩
  · rintro ⟨metrics, held⟩
    exact ⟨(group, function, metrics), (mem_function_items setFunctionMetrics group function metrics).mpr held, rfl⟩

theorem mem_held_metrics (group function : Text) (metrics : ℚ × ℚ) :
    metrics ∈ heldMetrics setFunctionMetrics group function ↔ Held setFunctionMetrics group function metrics := by
  rw [heldMetrics, SortedDict.mem_given, SortedDict.mem_given, mem_function_items]

theorem gather_unique_items (add : Option ℚ → ℚ × ℚ → ℚ) :
    gatherUnique add setFunctionMetrics = gathered add (functionItems setFunctionMetrics) := by
  rw [gatherUnique, gathered, functionItems, List.foldl_flatMap]
  simp only [List.foldl_flatMap, List.foldl_map]

theorem unique_find (add : Option ℚ → ℚ × ℚ → ℚ) (group function : Text) :
    nestedGet (gatherUnique add setFunctionMetrics) group function =
      (heldMetrics setFunctionMetrics group function).foldl (fun value metrics => some (add value metrics)) none := by
  rw [gather_unique_items]
  exact gathered_find add (functionItems setFunctionMetrics) group function

-- The values gathered for a pair are related to the metrics that are held for it.
theorem unique_related (add : Option ℚ → ℚ × ℚ → ℚ) (related : List (ℚ × ℚ) → ℚ → Prop)
    (first : ∀ metrics, related [metrics] (add none metrics))
    (more : ∀ value held metrics, related held value → related (held ++ [metrics]) (add (some value) metrics))
    (group function : Text) (covered : (group, function) ∈ distinctPairs setFunctionMetrics) :
    ∃ value, nestedGet (gatherUnique add setFunctionMetrics) group function = some value ∧
      related (heldMetrics setFunctionMetrics group function) value := by
  obtain ⟨metrics, held⟩ := (mem_distinct_pairs setFunctionMetrics group function).mp covered
  have member := (mem_held_metrics setFunctionMetrics group function metrics).mpr held
  rw [unique_find]
  exact entry_related add related first more _ (List.ne_nil_of_mem member)

theorem unique_covers (add : Option ℚ → ℚ × ℚ → ℚ) (group function : Text) :
    (group, function) ∈ distinctPairs setFunctionMetrics ↔
      ∃ value, nestedGet (gatherUnique add setFunctionMetrics) group function = some value := by
  constructor
  · intro covered
    obtain ⟨value, found, -⟩ := unique_related setFunctionMetrics add (fun _ _ => True) (fun _ => trivial) (fun _ _ _ _ => trivial)
      group function covered
    exact ⟨value, found⟩
  · rintro ⟨value, found⟩
    rw [unique_find] at found
    cases held : heldMetrics setFunctionMetrics group function with
    | nil =>
        rw [held] at found
        exact absurd found.symm (Option.some_ne_none value)
    | cons metrics rest =>
        have member : metrics ∈ heldMetrics setFunctionMetrics group function := by
          rw [held]
          exact List.mem_cons_self
        exact (mem_distinct_pairs setFunctionMetrics group function).mpr
          ⟨metrics, (mem_held_metrics setFunctionMetrics group function metrics).mp member⟩

end Covered

-- The second pass.
theorem for_each_group {ν ω γ : Type} [AddMonoid γ] (made : Text → ν → Option ω) (amount : ν → γ) (value : Text → ν → ω)
    (groups : SortedDict Text ν) (total : ∀ entry ∈ groups.entries, made entry.1 entry.2 = some (value entry.1 entry.2)) :
    ∃ result, forEachGroup made amount groups = some (result, (groups.entries.map fun entry => amount entry.2).sum) ∧
      ∀ group, result.get? group = (groups.get? group).map (value group) := by
  let items := groups.entries.map fun entry => (entry.1, value entry.1 entry.2)
  have split : ∀ (entries : List (Text × ν)) (start : SortedDict Text ω × γ),
      entries.foldl (fun state entry => (state.1.insert entry.1 (value entry.1 entry.2), state.2 + amount entry.2)) start =
        ((entries.map fun entry => (entry.1, value entry.1 entry.2)).foldl (fun dict item => dict.insert item.1 item.2) start.1,
          start.2 + (entries.map fun entry => amount entry.2).sum) := by
    intro entries
    induction entries with
    | nil => intro start; simp
    | cons entry rest ih => intro start; simp [ih, add_assoc]
  refine ⟨SortedDict.ofItems items, ?_, fun group => Option.ext fun made => ?_⟩
  · rw [forEachGroup, fold_total _ (fun state entry => (state.1.insert entry.1 (value entry.1 entry.2), state.2 + amount entry.2))
      groups.entries (SortedDict.empty, 0) fun entry member state => by rw [total entry member]; rfl, split, zero_add]
    rfl
  · have keyed : (items.map (·.1)).Nodup := by
      rw [List.map_map]
      exact keys_nodup groups
    rw [SortedDict.of_items_mem items keyed, List.mem_map, Option.map_eq_some_iff]
    constructor
    · rintro ⟨entry, member, same⟩
      obtain ⟨rfl, rfl⟩ := Prod.mk.inj same
      exact ⟨entry.2, (SortedDict.mem_entries groups entry.1 entry.2).mp member, rfl⟩
    · rintro ⟨given, found, rfl⟩
      exact ⟨(group, given), (SortedDict.mem_entries groups group given).mpr found, rfl⟩

section FunctionSets

variable (setFunctionMetrics : List GroupedFunctions)

def groupSets : List (Text × Finset Text) :=
  setFunctionMetrics.flatMap fun benchmark => benchmark.entries.map fun group => (group.1, group.2.keys.toFinset)

theorem set_groups_items :
    setGroupsFunctions setFunctionMetrics = (groupSets setFunctionMetrics).foldl (addTo addFunctions) .empty := by
  rw [setGroupsFunctions, groupSets, List.foldl_flatMap]
  simp only [List.foldl_map]

theorem mem_group_sets (group : Text) (keys : Finset Text) : (group, keys) ∈ groupSets setFunctionMetrics ↔
    ∃ benchmark ∈ setFunctionMetrics, ∃ functions, benchmark.get? group = some functions ∧ functions.keys.toFinset = keys := by
  simp only [groupSets, List.mem_flatMap, List.mem_map, Prod.mk.injEq]
  constructor
  · rintro ⟨benchmark, member, entry, grouped, rfl, same⟩
    exact ⟨benchmark, member, entry.2, (SortedDict.mem_entries benchmark entry.1 entry.2).mp grouped, same⟩
  · rintro ⟨benchmark, member, functions, grouped, same⟩
    exact ⟨benchmark, member, (group, functions), (SortedDict.mem_entries benchmark group functions).mpr grouped, rfl, same⟩

def groupPairs (group : Text) : Finset (Text × Text) := (distinctPairs setFunctionMetrics).filter fun pair => pair.1 = group

theorem function_in_sets (group function : Text) :
    (∃ keys ∈ SortedDict.given group (groupSets setFunctionMetrics), function ∈ keys) ↔
      function ∈ (groupPairs setFunctionMetrics group).image Prod.snd := by
  have covered : function ∈ (groupPairs setFunctionMetrics group).image Prod.snd ↔
      (group, function) ∈ distinctPairs setFunctionMetrics := by
    simp [groupPairs]
  rw [covered, mem_distinct_pairs]
  constructor
  · rintro ⟨keys, member, present⟩
    obtain ⟨benchmark, there, functions, grouped, rfl⟩ :=
      (mem_group_sets setFunctionMetrics group keys).mp ((SortedDict.mem_given _ _ _).mp member)
    obtain ⟨metrics, held⟩ := (SortedDict.mem_keys functions function).mp (List.mem_toFinset.mp present)
    exact ⟨metrics, benchmark, there, Option.bind_eq_some_iff.mpr ⟨functions, grouped, held⟩⟩
  · rintro ⟨metrics, benchmark, there, held⟩
    obtain ⟨functions, grouped, held⟩ := Option.bind_eq_some_iff.mp held
    refine ⟨functions.keys.toFinset, (SortedDict.mem_given _ _ _).mpr ?_, ?_⟩
    · exact (mem_group_sets setFunctionMetrics group _).mpr ⟨benchmark, there, functions, grouped, rfl⟩
    · exact List.mem_toFinset.mpr ((SortedDict.mem_keys functions function).mpr ⟨metrics, held⟩)

theorem set_groups_given (group : Text) (given : SortedDict.given group (groupSets setFunctionMetrics) ≠ []) :
    (setGroupsFunctions setFunctionMetrics).get? group = some ((groupPairs setFunctionMetrics group).image Prod.snd) := by
  obtain ⟨functions, found, holds⟩ := entry_related addFunctions (fun all functions => ∀ f, f ∈ functions ↔ ∃ keys ∈ all, f ∈ keys)
    (fun keys f => by simp [addFunctions])
    (fun functions all keys holds f => by simp [addFunctions, holds f, or_and_right, exists_or]) _ given
  rw [set_groups_items, get_fold]
  refine found.trans (congrArg some (Finset.ext fun function => ?_))
  rw [holds function, function_in_sets]

theorem set_groups_get (group : Text) (functions : Finset Text)
    (found : (setGroupsFunctions setFunctionMetrics).get? group = some functions) :
    functions = (groupPairs setFunctionMetrics group).image Prod.snd := by
  by_cases given : SortedDict.given group (groupSets setFunctionMetrics) = []
  · rw [set_groups_items, get_fold, given] at found
    exact absurd found.symm (Option.some_ne_none functions)
  · exact Option.some.inj (found.symm.trans (set_groups_given setFunctionMetrics group given))

theorem set_groups_source (group : Text) (functions : Finset Text)
    (found : (setGroupsFunctions setFunctionMetrics).get? group = some functions) :
    ∃ benchmark ∈ setFunctionMetrics, group ∈ benchmark.keys := by
  cases given : SortedDict.given group (groupSets setFunctionMetrics) with
  | nil =>
      rw [set_groups_items, get_fold, given] at found
      exact absurd found.symm (Option.some_ne_none functions)
  | cons keys rest =>
      have member : keys ∈ SortedDict.given group (groupSets setFunctionMetrics) := by
        rw [given]
        exact List.mem_cons_self
      obtain ⟨benchmark, there, functions, grouped, -⟩ :=
        (mem_group_sets setFunctionMetrics group keys).mp ((SortedDict.mem_given _ _ _).mp member)
      exact ⟨benchmark, there, (SortedDict.mem_keys benchmark group).mpr ⟨functions, grouped⟩⟩

theorem set_groups_present (group : Text) (benchmark : GroupedFunctions) (member : benchmark ∈ setFunctionMetrics)
    (present : group ∈ benchmark.keys) :
    (setGroupsFunctions setFunctionMetrics).get? group = some ((groupPairs setFunctionMetrics group).image Prod.snd) := by
  obtain ⟨functions, grouped⟩ := (SortedDict.mem_keys benchmark group).mp present
  have there := (mem_group_sets setFunctionMetrics group _).mpr ⟨benchmark, member, functions, grouped, rfl⟩
  exact set_groups_given setFunctionMetrics group (List.ne_nil_of_mem ((SortedDict.mem_given _ _ _).mpr there))

theorem group_functions_card (group : Text) :
    ((groupPairs setFunctionMetrics group).image Prod.snd).card = (groupPairs setFunctionMetrics group).card := by
  refine Finset.card_image_of_injOn fun first member second other same => Prod.ext ?_ same
  exact (Finset.mem_filter.mp member).2.trans (Finset.mem_filter.mp other).2.symm

theorem set_functions_total :
    ((setGroupsFunctions setFunctionMetrics).entries.map fun entry => (entry.2.card : ℚ)).sum =
      (distinctPairs setFunctionMetrics).card := by
  rw [entries_sum (setGroupsFunctions setFunctionMetrics) fun _ functions => (functions.card : ℚ)]
  have within : ∀ pair ∈ distinctPairs setFunctionMetrics, pair.1 ∈ keySet (setGroupsFunctions setFunctionMetrics) := by
    intro pair member
    obtain ⟨metrics, benchmark, there, held⟩ := (mem_distinct_pairs setFunctionMetrics pair.1 pair.2).mp member
    obtain ⟨functions, grouped, -⟩ := Option.bind_eq_some_iff.mp held
    have present := (SortedDict.mem_keys benchmark pair.1).mpr ⟨functions, grouped⟩
    exact (mem_key_set _ _).mpr ⟨_, set_groups_present setFunctionMetrics pair.1 benchmark there present⟩
  rw [Finset.card_eq_sum_card_fiberwise within, Nat.cast_sum]
  refine Finset.sum_congr rfl fun group member => ?_
  obtain ⟨functions, found⟩ := (mem_key_set _ _).mp member
  rw [found, set_groups_get setFunctionMetrics group functions found]
  exact congrArg Nat.cast (group_functions_card setFunctionMetrics group)

end FunctionSets

-- A loop that keeps the best of what it sees.
structure Extreme (add : Option ℚ → ℚ × ℚ → ℚ) (best : Set (ℚ × ℚ) → ℚ → Prop) : Prop where
  first : ∀ metrics, best {metrics} (add none metrics)
  more : ∀ value held metrics, best held value → best (insert metrics held) (add (some value) metrics)
  unique : ∀ held value other, best held value → best held other → value = other

theorem min_distance_extreme : Extreme minDistance fun held value => IsLeast (Prod.fst '' held) value where
  first metrics := by
    rw [Set.image_singleton]
    exact isLeast_singleton
  more value held metrics least := by
    rw [Set.image_insert_eq]
    exact least.insert metrics.1
  unique _ _ _ first second := first.unique second

-- The default score is zero.
theorem max_score_extreme : Extreme maxScore fun held value => IsGreatest ((fun metrics => max metrics.2 0) '' held) value where
  first metrics := by
    rw [Set.image_singleton]
    exact isGreatest_singleton
  more value held metrics greatest := by
    obtain ⟨origin, -, same⟩ := greatest.1
    have positive : max 0 value = value := max_eq_right ((le_max_right origin.2 0).trans_eq same)
    have stepped : maxScore (some value) metrics = max (max metrics.2 0) value := by
      rw [max_assoc, positive]
      rfl
    rw [Set.image_insert_eq, stepped]
    exact greatest.insert (max metrics.2 0)
  unique _ _ _ first second := first.unique second

section Extremes

variable (setFunctionMetrics : List GroupedFunctions)

theorem unique_found (add : Option ℚ → ℚ × ℚ → ℚ) (best : Set (ℚ × ℚ) → ℚ → Prop) (extreme : Extreme add best)
    (group function : Text) (value : ℚ) : nestedGet (gatherUnique add setFunctionMetrics) group function = some value ↔
      (∃ metrics, Held setFunctionMetrics group function metrics) ∧
        best {metrics | Held setFunctionMetrics group function metrics} value := by
  have members : {metrics | Held setFunctionMetrics group function metrics} =
      {metrics | metrics ∈ heldMetrics setFunctionMetrics group function} :=
    Set.ext fun metrics => (mem_held_metrics setFunctionMetrics group function metrics).symm
  have related := unique_related setFunctionMetrics add (fun held value => best {metrics | metrics ∈ held} value)
    (fun metrics => by simpa using extreme.first metrics)
    (fun value held metrics good => by
      have inserted : {other | other ∈ held ++ [metrics]} = insert metrics {other | other ∈ held} := by
        ext other
        simp [or_comm]
      rw [inserted]
      exact extreme.more value _ metrics good) group function
  rw [← mem_distinct_pairs, members]
  constructor
  · intro found
    have covered := (unique_covers setFunctionMetrics add group function).mpr ⟨value, found⟩
    obtain ⟨other, there, good⟩ := related covered
    exact ⟨covered, Option.some.inj (there.symm.trans found) ▸ good⟩
  · rintro ⟨covered, good⟩
    obtain ⟨other, there, best⟩ := related covered
    rw [there, extreme.unique _ other value best good]

def LeastDistances (least : Text × Text → ℚ) : Prop := ∀ pair ∈ distinctPairs setFunctionMetrics,
  IsLeast {distance | ∃ metrics, Held setFunctionMetrics pair.1 pair.2 metrics ∧ metrics.1 = distance} (least pair)

def GreatestScores (greatest : Text × Text → ℚ) : Prop := ∀ pair ∈ distinctPairs setFunctionMetrics,
  IsGreatest {score | ∃ metrics, Held setFunctionMetrics pair.1 pair.2 metrics ∧ metrics.2 = score} (greatest pair)

def valueOf (add : Option ℚ → ℚ × ℚ → ℚ) (pair : Text × Text) : ℚ :=
  (nestedGet (gatherUnique add setFunctionMetrics) pair.1 pair.2).getD 0

theorem value_best (add : Option ℚ → ℚ × ℚ → ℚ) (best : Set (ℚ × ℚ) → ℚ → Prop) (extreme : Extreme add best) (pair : Text × Text)
    (covered : pair ∈ distinctPairs setFunctionMetrics) :
    best {metrics | Held setFunctionMetrics pair.1 pair.2 metrics} (valueOf setFunctionMetrics add pair) := by
  obtain ⟨value, found⟩ := (unique_covers setFunctionMetrics add pair.1 pair.2).mp covered
  rw [valueOf, found]
  exact ((unique_found setFunctionMetrics add best extreme pair.1 pair.2 value).mp found).2

theorem least_distances : LeastDistances setFunctionMetrics (valueOf setFunctionMetrics minDistance) :=
  value_best setFunctionMetrics minDistance _ min_distance_extreme

theorem greatest_scores (scored : ∀ group function metrics, Held setFunctionMetrics group function metrics → 0 ≤ metrics.2) :
    GreatestScores setFunctionMetrics (valueOf setFunctionMetrics maxScore) := by
  intro pair covered
  have greatest := value_best setFunctionMetrics maxScore _ max_score_extreme pair covered
  have plain : (fun metrics => max metrics.2 0) '' {metrics | Held setFunctionMetrics pair.1 pair.2 metrics} =
      Prod.snd '' {metrics | Held setFunctionMetrics pair.1 pair.2 metrics} :=
    Set.image_congr fun metrics held => max_eq_left (scored pair.1 pair.2 metrics held)
  rw [plain] at greatest
  exact greatest

theorem unique_group (add : Option ℚ → ℚ × ℚ → ℚ) (pair : Text × Text) (covered : pair ∈ distinctPairs setFunctionMetrics) :
    ∃ inner, (gatherUnique add setFunctionMetrics).get? pair.1 = some inner := by
  obtain ⟨value, found⟩ := (unique_covers setFunctionMetrics add pair.1 pair.2).mp covered
  obtain ⟨inner, there, -⟩ := Option.bind_eq_some_iff.mp found
  exact ⟨inner, there⟩

theorem unique_group_source (add : Option ℚ → ℚ × ℚ → ℚ) (group : Text) (functions : SortedDict Text ℚ)
    (found : (gatherUnique add setFunctionMetrics).get? group = some functions) :
    ∃ function, (group, function) ∈ distinctPairs setFunctionMetrics := by
  rw [gather_unique_items, gathered_entry] at found
  cases given : SortedDict.given group (functionItems setFunctionMetrics) with
  | nil =>
      rw [if_pos given] at found
      exact absurd found.symm (Option.some_ne_none functions)
  | cons item rest =>
      have member : item ∈ SortedDict.given group (functionItems setFunctionMetrics) := by
        rw [given]
        exact List.mem_cons_self
      have held := (mem_function_items setFunctionMetrics group item.1 item.2).mp ((SortedDict.mem_given _ _ _).mp member)
      exact ⟨item.1, (mem_distinct_pairs setFunctionMetrics group item.1).mpr ⟨item.2, held⟩⟩

theorem unique_group_sum {M : Type} [AddCommMonoid M] (add : Option ℚ → ℚ × ℚ → ℚ) (value : ℚ → M) (group : Text)
    (functions : SortedDict Text ℚ) (found : (gatherUnique add setFunctionMetrics).get? group = some functions) :
    (functions.entries.map fun entry => value entry.2).sum =
      ∑ pair ∈ groupPairs setFunctionMetrics group, value (valueOf setFunctionMetrics add pair) :=
  inner_sum (gatherUnique add setFunctionMetrics) (distinctPairs setFunctionMetrics) (unique_covers setFunctionMetrics add) 0 group
    functions found value

theorem unique_total_sum {M : Type} [AddCommMonoid M] (add : Option ℚ → ℚ × ℚ → ℚ) (value : ℚ → M) :
    ((gatherUnique add setFunctionMetrics).entries.map fun entry => (entry.2.entries.map fun inner => value inner.2).sum).sum =
      ∑ pair ∈ distinctPairs setFunctionMetrics, value (valueOf setFunctionMetrics add pair) :=
  nested_sum (gatherUnique add setFunctionMetrics) (distinctPairs setFunctionMetrics) (unique_covers setFunctionMetrics add) 0 value

end Extremes

section Definitions

variable (setFunctionMetrics : List GroupedFunctions) (cwpFunctions : SortedDict Text (List Text))

def pairCount (pairs : Finset (Text × Text)) : ℚ := pairs.card

def distanceVariation (least : Text × Text → ℚ) (pairs : Finset (Text × Text)) : ℚ := ∑ pair ∈ pairs, (least pair - 1)

def totalScore (greatest : Text × Text → ℚ) (pairs : Finset (Text × Text)) : ℚ := ∑ pair ∈ pairs, greatest pair

def givenCount (group : Text) : ℚ := ((cwpFunctions.get? group).getD []).length

theorem divided_some (amount divisor : ℚ) (nonzero : divisor ≠ 0) : divided amount divisor = some (amount / divisor) := if_neg nonzero

theorem given_count_ne_zero (group : Text) (filled : (cwpFunctions.get? group).getD [] ≠ []) : givenCount cwpFunctions group ≠ 0 :=
  Nat.cast_ne_zero.mpr fun none => filled (List.length_eq_zero_iff.mp none)

-- A group that CWP does not have gets the fraction 0.
def countFraction (group : Text) (count : ℚ) : ℚ := (cwpFunctions.get? group).elim 0 fun given => count / given.length

theorem group_function_count (group : Text) (functions : Finset Text) (filled : cwpFunctions.get? group ≠ some []) :
    groupFunctionCount cwpFunctions group functions =
      some ((functions.card : ℚ), countFraction cwpFunctions group functions.card) := by
  rw [groupFunctionCount, countFraction]
  cases there : cwpFunctions.get? group with
  | none => rfl
  | some given =>
      have nonzero : (given.length : ℚ) ≠ 0 :=
        Nat.cast_ne_zero.mpr fun none => filled (by rw [there, List.length_eq_zero_iff.mp none])
      change (divided functions.card given.length).map _ = _
      rw [divided_some _ _ nonzero]
      rfl

theorem function_count_definition (counted : cwpFunctionsCount cwpFunctions ≠ 0)
    (filled : ∀ benchmark ∈ setFunctionMetrics, ∀ group ∈ benchmark.keys, cwpFunctions.get? group ≠ some []) :
    ∃ groups, computeFunctionCountForBenchmarkSet setFunctionMetrics cwpFunctions =
        some ((pairCount (distinctPairs setFunctionMetrics),
          pairCount (distinctPairs setFunctionMetrics) / cwpFunctionsCount cwpFunctions), groups) ∧
      ∀ benchmark ∈ setFunctionMetrics, ∀ group ∈ benchmark.keys, groups.get? group =
        some (pairCount (groupPairs setFunctionMetrics group),
          countFraction cwpFunctions group (pairCount (groupPairs setFunctionMetrics group))) := by
  obtain ⟨groups, passed, each⟩ := for_each_group (groupFunctionCount cwpFunctions) (fun functions => (functions.card : ℚ))
    (fun group functions => ((functions.card : ℚ), countFraction cwpFunctions group functions.card))
    (setGroupsFunctions setFunctionMetrics) fun entry member => by
      obtain ⟨benchmark, there, present⟩ :=
        set_groups_source setFunctionMetrics entry.1 entry.2 ((SortedDict.mem_entries _ entry.1 entry.2).mp member)
      exact group_function_count cwpFunctions entry.1 entry.2 (filled benchmark there entry.1 present)
  refine ⟨groups, ?_, fun benchmark there group present => ?_⟩
  · rw [computeFunctionCountForBenchmarkSet, passed, Option.bind_some, set_functions_total,
      divided_some _ _ (Nat.cast_ne_zero.mpr counted)]
    rfl
  · rw [each group, set_groups_present setFunctionMetrics group benchmark there present, Option.map_some, group_functions_card]
    rfl

theorem group_distance_variation (functionsDistances : SortedDict Text ℚ) : groupDistanceVariation functionsDistances =
    (functionsDistances.entries.map fun entry => entry.2 - 1).sum := by
  rw [groupDistanceVariation]
  induction functionsDistances.entries with
  | nil => exact sub_self _
  | cons entry rest ih =>
      rw [List.map_cons, List.map_cons, List.sum_cons, List.sum_cons, ← ih, List.length_cons, Nat.cast_succ,
        add_comm (rest.length : ℚ), add_sub_add_comm]

theorem varied_sum (groups : List (Text × SortedDict Text ℚ)) :
    (groups.map fun entry => (groupDistanceVariation entry.2, entry.2.entries.length)).sum =
      ((groups.map fun entry => groupDistanceVariation entry.2).sum, (groups.map fun entry => entry.2.entries.length).sum) := by
  induction groups with
  | nil => rfl
  | cons entry rest ih => rw [List.map_cons, List.sum_cons, ih]; rfl

theorem entries_length {ν : Type} (dict : SortedDict Text ν) : dict.entries.length = (dict.entries.map fun _ => 1).sum := by
  simp

theorem group_pairs_nonempty (pair : Text × Text) (covered : pair ∈ distinctPairs setFunctionMetrics) :
    pairCount (groupPairs setFunctionMetrics pair.1) ≠ 0 :=
  Nat.cast_ne_zero.mpr (Finset.card_ne_zero_of_mem (Finset.mem_filter.mpr ⟨covered, rfl⟩))

theorem distance_definition (covered : (distinctPairs setFunctionMetrics).Nonempty) :
    ∃ least groups, LeastDistances setFunctionMetrics least ∧
      computeDistanceForBenchmarkSet setFunctionMetrics cwpFunctions =
        some ((distanceVariation least (distinctPairs setFunctionMetrics) / pairCount (distinctPairs setFunctionMetrics),
          distanceVariation least (distinctPairs setFunctionMetrics)), groups) ∧
      ∀ pair ∈ distinctPairs setFunctionMetrics, groups.get? pair.1 =
        some (distanceVariation least (groupPairs setFunctionMetrics pair.1) / pairCount (groupPairs setFunctionMetrics pair.1),
          distanceVariation least (groupPairs setFunctionMetrics pair.1)) := by
  have inner : ∀ group functions, (gatherUnique minDistance setFunctionMetrics).get? group = some functions →
      groupDistanceVariation functions =
          distanceVariation (valueOf setFunctionMetrics minDistance) (groupPairs setFunctionMetrics group) ∧
        functions.entries.length = (groupPairs setFunctionMetrics group).card := by
    intro group functions found
    rw [group_distance_variation, unique_group_sum setFunctionMetrics minDistance (fun distance => distance - 1) group functions found,
      entries_length, unique_group_sum setFunctionMetrics minDistance (fun _ => 1) group functions found, Finset.card_eq_sum_ones]
    exact ⟨rfl, rfl⟩
  obtain ⟨groups, passed, each⟩ := for_each_group (fun _ functionsDistances =>
      (divided (groupDistanceVariation functionsDistances) functionsDistances.entries.length).map fun perFunction =>
        (perFunction, groupDistanceVariation functionsDistances))
    (fun functionsDistances => (groupDistanceVariation functionsDistances, functionsDistances.entries.length))
    (fun _ functionsDistances => (groupDistanceVariation functionsDistances / functionsDistances.entries.length,
      groupDistanceVariation functionsDistances))
    (gatherUnique minDistance setFunctionMetrics) fun entry member => by
      have found := (SortedDict.mem_entries _ entry.1 entry.2).mp member
      obtain ⟨function, there⟩ := unique_group_source setFunctionMetrics minDistance entry.1 entry.2 found
      have nonzero : (entry.2.entries.length : ℚ) ≠ 0 := by
        rw [(inner entry.1 entry.2 found).2]
        exact group_pairs_nonempty setFunctionMetrics (entry.1, function) there
      rw [divided_some _ _ nonzero]
      rfl
  refine ⟨valueOf setFunctionMetrics minDistance, groups, least_distances setFunctionMetrics, ?_, fun pair member => ?_⟩
  · rw [computeDistanceForBenchmarkSet, passed, varied_sum, Option.bind_some]
    simp only [group_distance_variation, entries_length]
    rw [unique_total_sum setFunctionMetrics minDistance fun distance => distance - 1,
      unique_total_sum setFunctionMetrics minDistance fun _ => 1, ← Finset.card_eq_sum_ones,
      divided_some _ _ (Nat.cast_ne_zero.mpr (Finset.card_ne_zero.mpr covered))]
    rfl
  · obtain ⟨functions, found⟩ := unique_group setFunctionMetrics minDistance pair member
    obtain ⟨variation, count⟩ := inner pair.1 functions found
    rw [each pair.1, found, Option.map_some, variation, count]
    rfl

theorem score_definition (scored : ∀ group function metrics, Held setFunctionMetrics group function metrics → 0 ≤ metrics.2)
    (counted : cwpFunctionsCount cwpFunctions ≠ 0)
    (filled : ∀ pair ∈ distinctPairs setFunctionMetrics, (cwpFunctions.get? pair.1).getD [] ≠ []) :
    ∃ greatest groups, GreatestScores setFunctionMetrics greatest ∧
      computeScoreForBenchmarkSet setFunctionMetrics cwpFunctions =
        some ((totalScore greatest (distinctPairs setFunctionMetrics) / cwpFunctionsCount cwpFunctions,
          totalScore greatest (distinctPairs setFunctionMetrics)), groups) ∧
      ∀ pair ∈ distinctPairs setFunctionMetrics, groups.get? pair.1 =
        some (totalScore greatest (groupPairs setFunctionMetrics pair.1) / givenCount cwpFunctions pair.1,
          totalScore greatest (groupPairs setFunctionMetrics pair.1)) := by
  obtain ⟨groups, passed, each⟩ := for_each_group (fun groupName functionScores =>
      (divided (groupScore functionScores) ((cwpFunctions.get? groupName).getD []).length).map fun fraction =>
        (fraction, groupScore functionScores)) groupScore
    (fun groupName functionScores => (groupScore functionScores / givenCount cwpFunctions groupName, groupScore functionScores))
    (gatherUnique maxScore setFunctionMetrics) fun entry member => by
      have found := (SortedDict.mem_entries _ entry.1 entry.2).mp member
      obtain ⟨function, there⟩ := unique_group_source setFunctionMetrics maxScore entry.1 entry.2 found
      exact congrArg (Option.map _)
        (divided_some (groupScore entry.2) _ (given_count_ne_zero cwpFunctions entry.1 (filled (entry.1, function) there)))
  refine ⟨valueOf setFunctionMetrics maxScore, groups, greatest_scores setFunctionMetrics scored, ?_, fun pair member => ?_⟩
  · have total : ((gatherUnique maxScore setFunctionMetrics).entries.map fun entry => groupScore entry.2).sum =
        totalScore (valueOf setFunctionMetrics maxScore) (distinctPairs setFunctionMetrics) :=
      unique_total_sum setFunctionMetrics maxScore id
    rw [computeScoreForBenchmarkSet, passed, Option.bind_some, total, divided_some _ _ (Nat.cast_ne_zero.mpr counted)]
    rfl
  · obtain ⟨functions, found⟩ := unique_group setFunctionMetrics maxScore pair member
    have score : groupScore functions = totalScore (valueOf setFunctionMetrics maxScore) (groupPairs setFunctionMetrics pair.1) :=
      unique_group_sum setFunctionMetrics maxScore id pair.1 functions found
    rw [each pair.1, found, Option.map_some, score]

end Definitions

end ToolchainUtils.UserActivityBenchmarks
