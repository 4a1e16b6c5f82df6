import ToolchainUtils.ItemByItem
import ToolchainUtils.Crosperf.RepeatedKeys

set_option autoImplicit false

namespace ToolchainUtils.Crosperf.ResultsOrganizer

open PyString CachedResults ItemByItem

section Bounds

theorem max_dup_of_key (maxDup : Nat) (key : Text) :
    maxDupOfKey maxDup key = if Indexed key then max maxDup (repeatIndex key) else maxDup := by
  by_cases indexed : Indexed key
  · obtain ⟨indexStr, found, index⟩ := dup_key_parts key indexed
    rw [maxDupOfKey, found, if_pos indexed, ← index]
  · rw [maxDupOfKey, Option.not_isSome_iff_eq_none.mp indexed, if_neg indexed]

-- A fold of steps that only grow, over one whose step reaches a bound, reaches it too.
theorem fold_reaches {α : Type} (step : Nat → α → Nat) (grows : ∀ maxDup item, maxDup ≤ step maxDup item) (items : List α)
    (start : Nat) : start ≤ items.foldl step start ∧
      ∀ item ∈ items, ∀ bound, (∀ maxDup, bound ≤ step maxDup item) → bound ≤ items.foldl step start := by
  induction items generalizing start with
  | nil => exact ⟨le_rfl, nofun⟩
  | cons first rest ih =>
      obtain ⟨above, reaches⟩ := ih (step start first)
      refine ⟨(grows start first).trans above, fun item member bound reached => ?_⟩
      rcases List.mem_cons.mp member with rfl | later
      · exact (reached start).trans above
      · exact reaches item later bound reached

theorem key_grows (maxDup : Nat) (key : Text) : maxDup ≤ maxDupOfKey maxDup key := by
  rw [max_dup_of_key]
  split
  · exact le_max_left _ _
  · exact le_rfl

theorem run_grows (maxDup : Nat) (run : Keyvals) : maxDup ≤ run.keys.foldl maxDupOfKey maxDup :=
  (fold_reaches maxDupOfKey key_grows run.keys maxDup).1

theorem label_grows (maxDup : Nat) (label : List Keyvals) :
    maxDup ≤ label.foldl (fun maxDup run => run.keys.foldl maxDupOfKey maxDup) maxDup :=
  (fold_reaches _ run_grows label maxDup).1

theorem index_below_max_dup (data : List (List Keyvals)) (label : List Keyvals) (listed : label ∈ data) (run : Keyvals)
    (among : run ∈ label) (key : Text) (held : key ∈ run) (indexed : Indexed key) : repeatIndex key ≤ getMaxDup data := by
  refine (fold_reaches _ label_grows data 0).2 label listed _ fun first => ?_
  refine (fold_reaches _ run_grows label first).2 run among _ fun second => ?_
  refine (fold_reaches _ key_grows run.keys second).2 key (AList.mem_keys.mp held) _ fun third => ?_
  rw [max_dup_of_key, if_pos indexed]
  exact le_max_right _ _

end Bounds

section Labels

variable (str : Value → Option Text) (maxDup : Nat)

def BlockOf (run : Keyvals) (block : List Keyvals) : Prop :=
  ∃ own added place, block = own :: added ∧ added.length = maxDup ∧ RunKept run own added place

-- Each run is followed by its added runs.
structure LabelKept (runs expanded : List Keyvals) : Prop where
  length : expanded.length = runs.length * (maxDup + 1)
  blocks : ∃ blocks : List (List Keyvals), expanded = blocks.flatten ∧ List.Forall₂ (BlockOf maxDup) runs blocks

def SplitInto (run : Keyvals) (block : List Keyvals) : Prop :=
  ∃ own added, splitRun str maxDup run = some (own, added) ∧ block = own :: added

theorem non_dup_label_blocks (runs start expanded : List Keyvals) :
    runs.foldlM (fun newRuns run => (splitRun str maxDup run).map fun made => newRuns ++ made.1 :: made.2) start = some expanded ↔
      ∃ blocks : List (List Keyvals), expanded = start ++ blocks.flatten ∧ List.Forall₂ (SplitInto str maxDup) runs blocks := by
  induction runs generalizing start with
  | nil => simp [eq_comm]
  | cons run rest ih =>
      rw [List.foldlM_cons]
      constructor
      · intro ran
        obtain ⟨next, split, ran⟩ := Option.bind_eq_some_iff.mp ran
        obtain ⟨made, found, rfl⟩ := Option.map_eq_some_iff.mp split
        obtain ⟨blocks, rfl, each⟩ := (ih _).mp ran
        refine ⟨(made.1 :: made.2) :: blocks, by simp, .cons ⟨made.1, made.2, found, rfl⟩ each⟩
      · rintro ⟨blocks, rfl, each⟩
        cases each with
        | cons first each =>
            rename_i block blocks
            obtain ⟨own, added, found, rfl⟩ := first
            rw [found]
            exact (ih _).mpr ⟨blocks, by simp, each⟩

theorem same_blocks (size : Nat) (first second : List (List Keyvals)) (runs : List Keyvals)
    (sized : ∀ block ∈ first, block.length = size) (others : ∀ block ∈ second, block.length = size)
    (count : first.length = runs.length) (counted : second.length = runs.length) (same : first.flatten = second.flatten) :
    first = second := by
  refine List.eq_iff_flatten_eq.mpr ⟨same, ?_⟩
  have sizes (blocks : List (List Keyvals)) (each : ∀ block ∈ blocks, block.length = size) :
      blocks.map List.length = .replicate blocks.length size :=
    List.eq_replicate_iff.mpr ⟨List.length_map .., by simpa using each⟩
  rw [sizes first sized, sizes second others, count, counted]

theorem blocks_sized (relation : Keyvals → List Keyvals → Prop) (size : Nat)
    (each : ∀ run block, relation run block → block.length = size) (runs : List Keyvals) (blocks : List (List Keyvals))
    (matched : List.Forall₂ relation runs blocks) : ∀ block ∈ blocks, block.length = size := by
  intro block member
  obtain ⟨run, _, related⟩ := related_to_member relation runs blocks matched block member
  exact each run block related

theorem block_length (run : Keyvals) (block : List Keyvals) (is_block : BlockOf maxDup run block) : block.length = maxDup + 1 := by
  obtain ⟨own, added, place, rfl, length, _⟩ := is_block
  rw [List.length_cons, length]

theorem kept_length (runs expanded : List Keyvals) (blocks : List (List Keyvals)) (same : expanded = blocks.flatten)
    (each : List.Forall₂ (BlockOf maxDup) runs blocks) : expanded.length = runs.length * (maxDup + 1) := by
  have sizes : blocks.map List.length = .replicate blocks.length (maxDup + 1) :=
    List.eq_replicate_iff.mpr ⟨List.length_map .., by simpa using blocks_sized _ _ (block_length maxDup) runs blocks each⟩
  rw [same, List.length_flatten, sizes, List.sum_replicate, each.length_eq]
  rfl

end Labels

section Expansion

variable (str : Value → Option Text) (maxDup : Nat)

theorem printable_splits (run : Keyvals) (bounded : Bounded maxDup run) (ok : RunOk str maxDup run) :
    ∃ own added, splitRun str maxDup run = some (own, added) := by
  have spec := split_entries str maxDup run.entries run.nodupKeys fun entry member => bounded entry.1 (List.mem_keys_of_mem member)
  obtain ⟨out, ran⟩ := spec.2 fun entry member indexed => by
    obtain ⟨text, _, prints⟩ := ok.texts entry.1 entry.2 (entry_lookup run entry member) indexed
    exact ⟨text, prints⟩
  exact ⟨out.1, out.2, ran⟩

theorem ok_label_expands (runs : List Keyvals) (bounded : ∀ run ∈ runs, Bounded maxDup run) (ok : ∀ run ∈ runs, RunOk str maxDup run) :
    ∃ blocks, List.Forall₂ (fun run block => SplitInto str maxDup run block ∧ BlockOf maxDup run block) runs blocks := by
  apply relate_each
  intro run member
  obtain ⟨own, added, ran⟩ := printable_splits str maxDup run (bounded run member) (ok run member)
  have spec := split_run_spec str maxDup run (bounded run member) own added ran
  have kept := ok_run_kept str maxDup run own added (bounded run member) spec (ok run member)
  exact ⟨own :: added, ⟨own, added, ran, rfl⟩, own, added, position maxDup, rfl, spec.length, kept⟩

theorem label_kept_iff (plain : ∀ text printed, str (.str text) = some printed → printed = text) (runs : List Keyvals)
    (bounded : ∀ run ∈ runs, Bounded maxDup run) :
    (∃ expanded, getNonDupLabel str maxDup runs = some expanded ∧ LabelKept maxDup runs expanded) ↔
      ∀ run ∈ runs, RunOk str maxDup run := by
  constructor
  · rintro ⟨expanded, ran, kept⟩
    obtain ⟨made, whole, split⟩ := (non_dup_label_blocks str maxDup runs [] expanded).mp ran
    obtain ⟨blocks, same, each⟩ := kept.blocks
    have lengths : ∀ block ∈ made, block.length = maxDup + 1 := by
      intro block member
      obtain ⟨run, among, own, added, found, rfl⟩ := related_to_member _ runs made split block member
      rw [List.length_cons, (split_run_spec str maxDup run (bounded run among) own added found).length]
    obtain rfl : made = blocks := same_blocks (maxDup + 1) made blocks runs lengths
      (blocks_sized _ _ (block_length maxDup) runs blocks each) split.length_eq.symm each.length_eq.symm (by
        rw [← same, whole, List.nil_append])
    intro run among
    obtain ⟨block, ⟨own, added, found, isBlock⟩, others, addedRuns, place, again, _, keptRun⟩ :=
      related_twice _ _ runs made split each run among
    obtain ⟨rfl, rfl⟩ := List.cons.inj (isBlock.symm.trans again)
    have spec := split_run_spec str maxDup run (bounded run among) own added found
    exact kept_run_ok str maxDup run own added plain (bounded run among) spec place keptRun
  · intro ok
    obtain ⟨blocks, both⟩ := ok_label_expands str maxDup runs bounded ok
    have split := both.imp fun _ _ => And.left
    have each := both.imp fun _ _ => And.right
    exact ⟨blocks.flatten, (non_dup_label_blocks str maxDup runs [] _).mpr ⟨blocks, by simp, split⟩,
      ⟨kept_length maxDup runs _ blocks rfl each, blocks, rfl, each⟩⟩

-- Without an index above 0 nothing is expanded, and a key with index 0 keeps it.
theorem unexpanded_run_kept (run : Keyvals) (low : ∀ key ∈ run, Indexed key → repeatIndex key = 0) :
    (∃ place, RunKept run run [] place) ↔ RunOk str 0 run := by
  constructor
  · rintro ⟨place, kept⟩
    have none_indexed (key : Text) (held : key ∈ run) : ¬ Indexed key := fun indexed => by
      obtain ⟨value, found⟩ := Option.isSome_iff_exists.mp (AList.lookup_isSome.mpr held)
      obtain ⟨_, listed, _⟩ := kept.found key value found indexed
      cases listed
    exact ⟨fun key held indexed => absurd indexed (none_indexed key held),
      fun key value found indexed => absurd indexed (none_indexed key (mem_of_lookup run key value found)),
      fun first held _ _ indexed => absurd indexed (none_indexed first held),
      fun first held _ _ indexed => absurd indexed (none_indexed first held)⟩
  · intro ok
    have none_indexed (key : Text) (held : key ∈ run) : ¬ Indexed key := fun indexed =>
      ok.ends_apart key held key held indexed indexed (low key held indexed) (low key held indexed)
    refine ⟨id, fun key => ?_, fun first held _ _ indexed => absurd indexed (none_indexed first held),
      fun key value found indexed => absurd indexed (none_indexed key (mem_of_lookup run key value found)),
      fun p slot listed => absurd listed (by simp), by simp⟩
    by_cases indexed : Indexed key
    · rw [if_pos indexed]
      exact AList.lookup_eq_none.mpr fun held => none_indexed key held indexed
    · rw [if_neg indexed]

theorem unexpanded_label_kept (runs : List Keyvals) (low : ∀ run ∈ runs, ∀ key ∈ run, Indexed key → repeatIndex key = 0) :
    LabelKept 0 runs runs ↔ ∀ run ∈ runs, RunOk str 0 run := by
  have alone (runs : List Keyvals) : (runs.map fun run => [run]).flatten = runs := by
    induction runs with
    | nil => rfl
    | cons run rest ih => simpa using ih
  constructor
  · intro kept run member
    obtain ⟨blocks, same, each⟩ := kept.blocks
    have single : ∀ block ∈ runs.map fun run => [run], block.length = 1 := by simp
    obtain rfl := same_blocks 1 (runs.map fun run => [run]) blocks runs single (blocks_sized _ _ (block_length 0) runs blocks each)
      (List.length_map ..) each.length_eq.symm ((alone runs).trans same)
    have own : List.Forall₂ (fun run block => block = [run]) runs (runs.map fun run => [run]) := by
      rw [List.forall₂_map_right_iff]
      exact List.forall₂_same.mpr fun _ _ => rfl
    obtain ⟨_, rfl, first, added, place, again, _, keptRun⟩ := related_twice _ _ runs _ own each run member
    obtain ⟨rfl, rfl⟩ := List.cons.inj again
    exact (unexpanded_run_kept str run (low run member)).mp ⟨place, keptRun⟩
  · intro ok
    have each : List.Forall₂ (BlockOf 0) runs (runs.map fun run => [run]) := by
      rw [List.forall₂_map_right_iff]
      refine List.forall₂_same.mpr fun run member => ?_
      obtain ⟨place, kept⟩ := (unexpanded_run_kept str run (low run member)).mpr (ok run member)
      exact ⟨run, [], place, rfl, rfl, kept⟩
    exact ⟨by simp, _, (alone runs).symm, each⟩

def expandData (data : List (List Keyvals)) : Option (List (List Keyvals)) :=
  if getMaxDup data = 0 then some data else data.mapM (getNonDupLabel str (getMaxDup data))

theorem data_kept_iff (plain : ∀ text printed, str (.str text) = some printed → printed = text) (data : List (List Keyvals)) :
    (∃ expanded, expandData str data = some expanded ∧ List.Forall₂ (LabelKept (getMaxDup data)) data expanded) ↔
      ∀ runs ∈ data, ∀ run ∈ runs, RunOk str (getMaxDup data) run := by
  have below := index_below_max_dup data
  by_cases nothing : getMaxDup data = 0
  · rw [nothing] at below ⊢
    have low (runs : List Keyvals) (listed : runs ∈ data) := unexpanded_label_kept str runs fun run among key held indexed =>
      Nat.le_zero.mp (below runs listed run among key held indexed)
    rw [expandData, if_pos nothing]
    constructor
    · rintro ⟨expanded, same, each⟩ runs listed
      obtain rfl := Option.some.inj same
      exact (low runs listed).mp (List.forall₂_same.mp each runs listed)
    · intro ok
      exact ⟨data, rfl, List.forall₂_same.mpr fun runs listed => (low runs listed).mpr (ok runs listed)⟩
  · have some_added := Nat.pos_of_ne_zero nothing
    have label (runs : List Keyvals) (listed : runs ∈ data) := label_kept_iff str (getMaxDup data) plain runs
      fun run among key held indexed => ⟨some_added, below runs listed run among key held indexed⟩
    rw [expandData, if_neg nothing]
    constructor
    · rintro ⟨expanded, ran, each⟩ runs listed
      obtain ⟨made, found, kept⟩ := related_twice _ _ data expanded ((made_iff _ data expanded).mp ran) each runs listed
      exact (label runs listed).mp ⟨made, found, kept⟩
    · intro ok
      obtain ⟨expanded, both⟩ := relate_each _ data fun runs listed => (label runs listed).mpr (ok runs listed)
      exact ⟨expanded, (made_iff _ data expanded).mpr (both.imp fun _ _ => And.left), both.imp fun _ _ => And.right⟩

end Expansion

section Pass

variable (str : Value → Option Text)

abbrev BenchData := Σ _ : Text, List (List Keyvals)

def adjustOne (benchmark : Benchmark) (entry : BenchData) : Benchmark :=
  if getMaxDup entry.2 = 0 then benchmark
  else if benchmark.name ≠ entry.1 ∨ benchmark.iterationAdjusted then benchmark
  else { benchmark with iterationAdjusted := true, iterations := benchmark.iterations * (getMaxDup entry.2 + 1) }

theorem duplicate_bench_expands (state : Results × List Benchmark) (entry : BenchData) :
    duplicateBench str state entry = (expandData str entry.2).map fun data =>
      (if getMaxDup entry.2 = 0 then state.1 else state.1.insert entry.1 data,
        state.2.map fun benchmark => adjustOne benchmark entry) := by
  by_cases nothing : getMaxDup entry.2 = 0
  · simp [duplicateBench, expandData, adjustOne, nothing]
  · simp [duplicateBench, expandData, adjustOne, adjustIteration, nothing]

theorem expanded_lookup (start : Results) (entry : BenchData) (data : List (List Keyvals)) (expanded : expandData str entry.2 = some data)
    (held : start.lookup entry.1 = some entry.2) :
    (if getMaxDup entry.2 = 0 then start else start.insert entry.1 data).lookup entry.1 = some data := by
  by_cases nothing : getMaxDup entry.2 = 0
  · rw [expandData, if_pos nothing] at expanded
    rw [if_pos nothing, held, expanded]
  · rw [if_neg nothing, AList.lookup_insert]

theorem other_lookup (start : Results) (entry : BenchData) (data : List (List Keyvals)) (bench : Text) (other : bench ≠ entry.1) :
    (if getMaxDup entry.2 = 0 then start else start.insert entry.1 data).lookup bench = start.lookup bench := by
  split
  · rfl
  · rw [AList.lookup_insert_ne other]

-- What the loop over the result does from any of its states.
theorem pass_from (entries : List BenchData) (distinct : entries.NodupKeys) (start : Results) (benchmarks : List Benchmark)
    (held : ∀ entry ∈ entries, start.lookup entry.1 = some entry.2) (final : Results × List Benchmark)
    (ran : entries.foldlM (duplicateBench str) (start, benchmarks) = some final) :
    final.2 = benchmarks.map (fun benchmark => entries.foldl adjustOne benchmark) ∧
      (∀ bench, bench ∉ entries.keys → final.1.lookup bench = start.lookup bench) ∧
        ∀ entry ∈ entries, ∃ data, expandData str entry.2 = some data ∧ final.1.lookup entry.1 = some data := by
  induction entries generalizing start benchmarks with
  | nil =>
      obtain rfl := Option.some.inj ran
      exact ⟨by simp, fun _ _ => rfl, nofun⟩
  | cons first rest ih =>
      rw [List.foldlM_cons, duplicate_bench_expands] at ran
      obtain ⟨next, stepped, ran⟩ := Option.bind_eq_some_iff.mp ran
      obtain ⟨data, expanded, rfl⟩ := Option.map_eq_some_iff.mp stepped
      obtain ⟨fresh, distinctRest⟩ := List.nodupKeys_cons.mp distinct
      obtain ⟨adjusted, untouched, made⟩ := ih distinctRest _ _ (fun entry member => by
        have other : entry.1 ≠ first.1 := ne_of_mem_of_not_mem (List.mem_keys_of_mem member) fresh
        rw [other_lookup _ _ _ _ other]
        exact held entry (List.mem_cons_of_mem _ member)) ran
      have own : final.1.lookup first.1 = some data := by
        rw [untouched _ fresh]
        exact expanded_lookup str start first data expanded (held first List.mem_cons_self)
      refine ⟨by rw [adjusted, List.map_map]; rfl, fun bench absent => ?_, fun entry member => ?_⟩
      · obtain ⟨other, later⟩ := List.ne_and_not_mem_of_not_mem_cons absent
        rw [untouched bench later, other_lookup _ _ _ _ other]
      · rcases List.mem_cons.mp member with rfl | later
        · exact ⟨data, expanded, own⟩
        · exact made entry later

theorem pass_runs (entries : List BenchData) (each : ∀ entry ∈ entries, ∃ data, expandData str entry.2 = some data)
    (start : Results) (benchmarks : List Benchmark) :
    ∃ final, entries.foldlM (duplicateBench str) (start, benchmarks) = some final := by
  induction entries generalizing start benchmarks with
  | nil => exact ⟨_, rfl⟩
  | cons first rest ih =>
      obtain ⟨⟨data, expanded⟩, later⟩ := List.forall_mem_cons.mp each
      rw [List.foldlM_cons, duplicate_bench_expands, expanded]
      exact ih later _ _

theorem adjusted_name (benchmark : Benchmark) (entries : List BenchData) :
    (entries.foldl adjustOne benchmark).name = benchmark.name := by
  induction entries generalizing benchmark with
  | nil => rfl
  | cons entry rest ih =>
      rw [List.foldl_cons, ih, adjustOne]
      split
      · rfl
      · split <;> rfl

theorem others_adjust_nothing (benchmark : Benchmark) (entries : List BenchData) (absent : benchmark.name ∉ entries.keys) :
    entries.foldl adjustOne benchmark = benchmark := by
  induction entries with
  | nil => rfl
  | cons entry rest ih =>
      obtain ⟨other, later⟩ := List.ne_and_not_mem_of_not_mem_cons absent
      have skipped : adjustOne benchmark entry = benchmark := by
        simp [adjustOne, other]
      rw [List.foldl_cons, skipped, ih later]

theorem adjusted_iterations (benchmark : Benchmark) (entries : List BenchData) (distinct : entries.NodupKeys) (entry : BenchData)
    (member : entry ∈ entries) (same : benchmark.name = entry.1) (unadjusted : benchmark.iterationAdjusted = false) :
    (entries.foldl adjustOne benchmark).iterations = benchmark.iterations * (getMaxDup entry.2 + 1) := by
  induction entries with
  | nil => exact absurd member List.not_mem_nil
  | cons first rest ih =>
      obtain ⟨fresh, distinctRest⟩ := List.nodupKeys_cons.mp distinct
      rw [List.foldl_cons]
      rcases List.mem_cons.mp member with rfl | later
      · have name : (adjustOne benchmark entry).name = entry.1 := (adjusted_name benchmark [entry]).trans same
        rw [others_adjust_nothing _ rest (name ▸ fresh), adjustOne]
        by_cases nothing : getMaxDup entry.2 = 0
        · rw [if_pos nothing, nothing, Nat.zero_add, Nat.mul_one]
        · rw [if_neg nothing, if_neg (by simp [same, unadjusted])]
      · have other : benchmark.name ≠ first.1 := same ▸ ne_of_mem_of_not_mem (List.mem_keys_of_mem later) fresh
        have skipped : adjustOne benchmark first = benchmark := others_adjust_nothing benchmark [first] (by simpa using other)
        rw [skipped]
        exact ih distinctRest later

-- A benchmark adjusted by an earlier pass keeps its iterations.
def Adjusted (result : Results) (benchmarks adjusted : List Benchmark) : Prop :=
  List.Forall₂ (fun before after => after.name = before.name ∧ (before.iterationAdjusted = false → ∀ data,
    result.lookup before.name = some data → after.iterations = before.iterations * (getMaxDup data + 1))) benchmarks adjusted

theorem pass_adjusts (result : Results) (benchmarks : List Benchmark) :
    Adjusted result benchmarks (benchmarks.map fun benchmark => result.entries.foldl adjustOne benchmark) := by
  rw [Adjusted, List.forall₂_map_right_iff]
  refine List.forall₂_same.mpr fun benchmark _ => ⟨adjusted_name _ _, fun unadjusted data found => ?_⟩
  exact adjusted_iterations benchmark result.entries result.nodupKeys ⟨benchmark.name, data⟩ (AList.mem_lookup_iff.mp found) rfl unadjusted

-- Every key and value of the result is found again, each benchmark's labels grown by the factor of its iterations.
structure LosesNothing (result : Results) (benchmarks : List Benchmark) (out : Results) (adjusted : List Benchmark) : Prop where
  kept : ∀ bench data, result.lookup bench = some data → ∃ expanded, out.lookup bench = some expanded ∧
    List.Forall₂ (LabelKept (getMaxDup data)) data expanded
  adjusted : Adjusted result benchmarks adjusted

theorem expanding_repeated_keys_iff (plain : ∀ text printed, str (.str text) = some printed → printed = text) (result : Results)
    (benchmarks : List Benchmark) :
    (∃ out adjusted, duplicatePass str result benchmarks = some (out, adjusted) ∧ LosesNothing result benchmarks out adjusted) ↔
      ∀ bench data, result.lookup bench = some data → ∀ runs ∈ data, ∀ run ∈ runs, RunOk str (getMaxDup data) run := by
  have held (entry : BenchData) (member : entry ∈ result.entries) : result.lookup entry.1 = some entry.2 :=
    AList.mem_lookup_iff.mpr member
  constructor
  · rintro ⟨out, adjusted, ran, whole⟩ bench data found
    obtain ⟨_, _, made⟩ := pass_from str result.entries result.nodupKeys result benchmarks held _ ran
    obtain ⟨expanded, expands, stored⟩ := made ⟨bench, data⟩ (AList.mem_lookup_iff.mp found)
    obtain ⟨kept, again, each⟩ := whole.kept bench data found
    obtain rfl := Option.some.inj (stored.symm.trans again)
    exact (data_kept_iff str plain data).mp ⟨expanded, expands, each⟩
  · intro ok
    have each (bench : Text) (data : List (List Keyvals)) (found : result.lookup bench = some data) :=
      (data_kept_iff str plain data).mpr (ok bench data found)
    obtain ⟨⟨out, adjusted⟩, ran⟩ := pass_runs str result.entries (fun entry member => by
      obtain ⟨expanded, expands, _⟩ := each entry.1 entry.2 (held entry member)
      exact ⟨expanded, expands⟩) result benchmarks
    obtain ⟨rfl, _, made⟩ := pass_from str result.entries result.nodupKeys result benchmarks held _ ran
    refine ⟨out, _, ran, fun bench data found => ?_, pass_adjusts result benchmarks⟩
    obtain ⟨expanded, expands, stored⟩ := made ⟨bench, data⟩ (AList.mem_lookup_iff.mp found)
    obtain ⟨kept, again, whole⟩ := each bench data found
    obtain rfl := Option.some.inj (expands.symm.trans again)
    exact ⟨expanded, stored, whole⟩

def sampleStr : Value → Option Text
  | .str text => some text
  | _ => none

theorem sample_str_plain (text printed : Text) (prints : sampleStr (.str text) = some printed) : printed = text :=
  (Option.some.inj prints).symm

def sampleResult (run : Keyvals) : Results := (∅ : Results).insert "bench".toList [[run]]

-- Repetitions counted from 0, as the docstring of _GetNonDupLabel has them.
def fromZero : Keyvals :=
  (newKeyvals.insert "b\x7b1\x7d".toList (.str "y".toList)).insert "a\x7b0\x7d".toList (.str "x".toList)

def fromOne : Keyvals :=
  (newKeyvals.insert "b\x7b2\x7d".toList (.str "y".toList)).insert "a\x7b1\x7d".toList (.str "x".toList)

theorem sample_data (run : Keyvals) (bench : Text) (data : List (List Keyvals)) (found : (sampleResult run).lookup bench = some data) :
    data = [[run]] := by
  by_cases same : bench = "bench".toList
  · subst same
    rw [sampleResult, AList.lookup_insert] at found
    exact (Option.some.inj found).symm
  · rw [sampleResult, AList.lookup_insert_ne same] at found
    cases found

theorem from_one_ok : RunOk sampleStr 2 fromOne := by
  have listed (key : Text) (held : key ∈ fromOne) : key = "a\x7b1\x7d".toList ∨ key = "b\x7b2\x7d".toList := by
    rcases (AList.mem_insert _).mp held with same | kept
    · exact .inl same
    · exact .inr (((AList.mem_insert _).mp kept).resolve_right fun nowhere => absurd nowhere (AList.notMem_empty _))
  refine ⟨fun key held _ => ?_, fun key value found _ => ?_, fun first held second kept _ _ name index => ?_,
    fun first held second kept _ _ zero => ?_⟩
  · rcases listed key held with rfl | rfl <;> decide
  · rcases listed key (mem_of_lookup fromOne key value found) with rfl | rfl
    · exact ⟨"x".toList, Option.some.inj (found.symm.trans rfl), by rw [Option.some.inj (found.symm.trans rfl)]; rfl⟩
    · exact ⟨"y".toList, Option.some.inj (found.symm.trans rfl), by rw [Option.some.inj (found.symm.trans rfl)]; rfl⟩
  · rcases listed first held with rfl | rfl <;> rcases listed second kept with rfl | rfl
    · rfl
    · exact absurd index (by decide)
    · exact absurd index (by decide)
    · rfl
  · rcases listed first held with rfl | rfl
    · exact absurd zero (by decide)
    · exact absurd zero (by decide)

theorem expanding_from_one : ∃ out adjusted, duplicatePass sampleStr (sampleResult fromOne) [] = some (out, adjusted) ∧
    LosesNothing (sampleResult fromOne) [] out adjusted :=
  (expanding_repeated_keys_iff sampleStr sample_str_plain (sampleResult fromOne) []).mpr fun bench data found runs listed run member => by
    obtain rfl := sample_data fromOne bench data found
    obtain rfl := List.mem_singleton.mp listed
    obtain rfl := List.mem_singleton.mp member
    exact from_one_ok

-- Index 0 is taken from the end of the added runs, where the largest index is.
theorem expanding_from_zero_mixes : ¬ ∃ out adjusted, duplicatePass sampleStr (sampleResult fromZero) [] = some (out, adjusted) ∧
    LosesNothing (sampleResult fromZero) [] out adjusted := by
  rintro ⟨out, adjusted, ran, whole⟩
  obtain ⟨kept, stored, each⟩ := whole.kept "bench".toList [[fromZero]] (AList.lookup_insert _)
  obtain ⟨_, _, made⟩ := pass_from sampleStr (sampleResult fromZero).entries (AList.nodupKeys _) (sampleResult fromZero) []
    (fun entry member => AList.mem_lookup_iff.mpr member) _ ran
  obtain ⟨expanded, expands, again⟩ := made ⟨"bench".toList, [[fromZero]]⟩ (AList.mem_lookup_iff.mp (AList.lookup_insert _))
  obtain rfl := Option.some.inj (stored.symm.trans again)
  have ok := (data_kept_iff sampleStr sample_str_plain [[fromZero]]).mp ⟨kept, expands, each⟩ _ List.mem_cons_self _ List.mem_cons_self
  have first : "a\x7b0\x7d".toList ∈ fromZero := (AList.mem_insert _).mpr (.inl rfl)
  have last : "b\x7b1\x7d".toList ∈ fromZero := (AList.mem_insert _).mpr (.inr ((AList.mem_insert _).mpr (.inl rfl)))
  exact ok.ends_apart _ first _ last (by decide) (by decide) (by decide) (by decide)

end Pass

end ToolchainUtils.Crosperf.ResultsOrganizer
