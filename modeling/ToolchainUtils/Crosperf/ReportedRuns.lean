import ToolchainUtils.Crosperf.ExpandedRuns
import ToolchainUtils.Crosperf.ReportedSlots

set_option autoImplicit false

namespace ToolchainUtils.Crosperf.JsonReport

open PyString CachedResults ItemByItem FailingFold
open ResultsOrganizer

section Places

variable (labels : List Text) (result : Results)

structure Place where
  bench : Text
  labelIndex : Nat
  iteration : Nat
deriving DecidableEq

-- A slot with its place and the name of its label.
structure Placed where
  place : Place
  label : Text
  slot : Keyvals

def placedIn (entry : BenchData) (named : (Text × List Keyvals) × Nat) : List Placed :=
  named.1.2.zipIdx.map fun slot => ⟨⟨entry.1, named.2, slot.2⟩, named.1.1, slot.1⟩

def placedOf (entry : BenchData) : List Placed := (labels.zip entry.2).zipIdx.flatMap (placedIn entry)

def placedSlots : List Placed := result.entries.flatMap (placedOf labels)

theorem placed_of_entry (entry : BenchData) (placed : Placed) : placed ∈ placedOf labels entry ↔ placed.place.bench = entry.1 ∧
    labels[placed.place.labelIndex]? = some placed.label ∧
      ∃ slots, entry.2[placed.place.labelIndex]? = some slots ∧ slots[placed.place.iteration]? = some placed.slot := by
  constructor
  · intro member
    obtain ⟨⟨⟨label, slots⟩, i⟩, named, member⟩ := List.mem_flatMap.mp member
    obtain ⟨⟨slot, k⟩, listed, rfl⟩ := List.mem_map.mp member
    obtain ⟨first, second⟩ := List.getElem?_zip_eq_some.mp (List.mem_zipIdx_iff_getElem?.mp named)
    exact ⟨rfl, first, slots, second, List.mem_zipIdx_iff_getElem?.mp listed⟩
  · obtain ⟨⟨bench, i, k⟩, label, slot⟩ := placed
    rintro ⟨same, named, slots, listed, held⟩
    obtain rfl : bench = entry.1 := same
    exact List.mem_flatMap.mpr ⟨((label, slots), i), List.mem_zipIdx_iff_getElem?.mpr (List.getElem?_zip_eq_some.mpr ⟨named, listed⟩),
      List.mem_map.mpr ⟨(slot, k), List.mem_zipIdx_iff_getElem?.mpr held, rfl⟩⟩

theorem mem_placed_slots (placed : Placed) : placed ∈ placedSlots labels result ↔
    labels[placed.place.labelIndex]? = some placed.label ∧
      slotAt result placed.place.bench placed.place.labelIndex placed.place.iteration = some placed.slot := by
  constructor
  · intro member
    obtain ⟨entry, held, member⟩ := List.mem_flatMap.mp member
    obtain ⟨same, named, slots, listed, found⟩ := (placed_of_entry labels entry placed).mp member
    refine ⟨named, ?_⟩
    rw [slotAt, same, AList.mem_lookup_iff.mpr held, Option.bind_some, listed]
    exact found
  · rintro ⟨named, found⟩
    obtain ⟨data, held, found⟩ := Option.bind_eq_some_iff.mp found
    obtain ⟨slots, listed, found⟩ := Option.bind_eq_some_iff.mp found
    exact List.mem_flatMap.mpr ⟨⟨placed.place.bench, data⟩, AList.mem_lookup_iff.mp held,
      (placed_of_entry labels _ placed).mpr ⟨rfl, named, slots, listed, found⟩⟩

theorem indices_differ {Item : Type} (items : List Item) : items.zipIdx.Pairwise fun first second => first.2 ≠ second.2 := by
  have indices : (items.zipIdx.map Prod.snd).Nodup := by
    rw [List.zipIdx_map_snd]
    exact List.nodup_range'
  exact List.pairwise_map.mp indices

theorem placed_once : ((placedSlots labels result).map Placed.place).Nodup := by
  have benches : result.entries.Pairwise fun first second => first.1 ≠ second.1 := List.nodupKeys_iff_pairwise.mp result.nodupKeys
  have in_bench (entry : BenchData) (placed : Placed) (member : placed ∈ placedOf labels entry) : placed.place.bench = entry.1 :=
    ((placed_of_entry labels entry placed).mp member).1
  have at_index (entry : BenchData) (named : (Text × List Keyvals) × Nat) (placed : Placed) (member : placed ∈ placedIn entry named) :
      placed.place.labelIndex = named.2 := by
    obtain ⟨_, _, rfl⟩ := List.mem_map.mp member
    rfl
  rw [List.Nodup, List.pairwise_map, placedSlots, List.pairwise_flatMap]
  refine ⟨fun entry _ => ?_, benches.imp fun apart first member second other same => apart ?_⟩
  · rw [placedOf, List.pairwise_flatMap]
    refine ⟨fun named _ => ?_, (indices_differ _).imp fun apart first member second other same => apart ?_⟩
    · rw [placedIn, List.pairwise_map]
      exact (indices_differ _).imp fun apart same => apart (Place.mk.inj same).2.2
    · rw [← at_index entry _ first member, ← at_index entry _ second other, same]
  · rw [← in_bench _ first member, ← in_bench _ second other, same]

end Places

section Report

variable (defaults : SummaryFile) (date time : Text) (labels : List Text) (result : Results)

theorem fold_indexed {Item State : Type} (step : State → Item → Option State) (items : List Item) (start : State) :
    items.zipIdx.foldlM (fun state indexed => step state indexed.1) start = items.foldlM step start := by
  have firsts : items.zipIdx.map Prod.fst = items := List.zipIdx_map_fst 0 items
  conv => rhs; rw [← firsts, List.foldlM_map]

theorem report_fold : getReportObjectIgnoringExperiment defaults date time labels result = (placedSlots labels result).foldlM
    (fun done placed => (jsonResults defaults date time placed.label placed.place.bench placed.slot).map fun made => done ++ [made]) [] := by
  have slots (label test : Text) (list : List Keyvals) (start : List JsonResults) := fold_indexed (fun done slot =>
    (jsonResults defaults date time label test slot).map fun made => done ++ [made]) list start
  have named (test : Text) (list : List (Text × List Keyvals)) (start : List JsonResults) := fold_indexed (fun done label =>
    label.2.foldlM (fun done slot => (jsonResults defaults date time label.1 test slot).map fun made => done ++ [made]) done) list start
  rw [placedSlots, fold_of_parts]
  simp only [placedOf, fold_of_parts, placedIn, List.foldlM_map, slots, named]
  rfl

def RetvalZero (slot : Keyvals) : Prop := ∃ retval, slot.lookup retvalKey = some retval ∧ isZero retval = true

theorem passed_iff (slot : Keyvals) : passed slot = true ↔ RetvalZero slot := Option.any_eq_true _ _

-- The entry of the report for one benchmark, label and iteration.
structure EntryAt (place : Place) (made : JsonResults) : Prop where
  label : ∃ label, labels[place.labelIndex]? = some label ∧ made.lookup labelKey = some (.text label)
  test : made.lookup testNameKey = some (.text place.bench)
  pass : ∃ slot flag, slotAt result place.bench place.labelIndex place.iteration = some slot ∧ made.lookup passKey = some (.flag flag) ∧
    (flag = true ↔ RetvalZero slot)

def OneEntryEach (report : List JsonResults) : Prop :=
  ∃ places : List Place, places.Nodup ∧
    (∀ place, place ∈ places ↔ ∃ slot, slotAt result place.bench place.labelIndex place.iteration = some slot) ∧
      List.Forall₂ (EntryAt labels result) places report

theorem report_covers (shaped : ∀ bench data, result.lookup bench = some data → data.length = labels.length) (report : List JsonResults)
    (ran : getReportObjectIgnoringExperiment defaults date time labels result = some report) : OneEntryEach labels result report := by
  rw [report_fold] at ran
  obtain ⟨entries, rfl, each⟩ := (appended_iff _ _ [] report).mp ran
  refine ⟨(placedSlots labels result).map Placed.place, placed_once labels result, fun place => ?_, ?_⟩
  · constructor
    · intro member
      obtain ⟨placed, listed, rfl⟩ := List.mem_map.mp member
      exact ⟨placed.slot, ((mem_placed_slots labels result placed).mp listed).2⟩
    · rintro ⟨slot, found⟩
      obtain ⟨data, held, inside⟩ := Option.bind_eq_some_iff.mp found
      obtain ⟨slots, listed, _⟩ := Option.bind_eq_some_iff.mp inside
      have reached : place.labelIndex < labels.length := shaped place.bench data held ▸ (List.getElem?_eq_some_iff.mp listed).1
      exact List.mem_map.mpr ⟨⟨place, labels[place.labelIndex], slot⟩,
        (mem_placed_slots labels result _).mpr ⟨List.getElem?_eq_getElem reached, found⟩, rfl⟩
  · rw [List.forall₂_map_left_iff]
    have members := (List.forall₂_and_left (placedSlots labels result) report).mpr ⟨fun placed member => member, each⟩
    refine members.imp fun placed made both => ?_
    obtain ⟨member, made_of⟩ := both
    obtain ⟨named, found⟩ := (mem_placed_slots labels result placed).mp member
    have entry := json_results_entry defaults date time placed.label placed.place.bench placed.slot made made_of
    exact ⟨⟨placed.label, named, entry.label⟩, entry.test, placed.slot, _, found, entry.pass, passed_iff placed.slot⟩

theorem report_runs : (∃ report, getReportObjectIgnoringExperiment defaults date time labels result = some report) ↔
    ∀ placed ∈ placedSlots labels result, RetvalZero placed.slot → Reportable defaults placed.place.bench placed.slot := by
  rw [report_fold]
  refine (fold_succeeds_iff _ _ _ _ fun placed done => ?_)
  rw [← passed_iff, ← json_results_run defaults date time placed.label placed.place.bench placed.slot]
  cases jsonResults defaults date time placed.label placed.place.bench placed.slot <;> simp

end Report

section Organized

variable (str : Value → Option Text) (summaryFile : SummaryFile) (runs : List BenchmarkRun) (labels : List Text)
  (benchmarks : List Benchmark) (result : Results) (adjusted : List Benchmark)

-- Every benchmark has a list for each label.
def LabelsListed : Prop := ∀ bench data, result.lookup bench = some data → data.length = labels.length

theorem organize_run_listed (jsonReport : Bool) (state next : Results × SummaryFile) (run : BenchmarkRun)
    (listed : LabelsListed labels state.1) (ran : organizeRun labels jsonReport state run = some next) : LabelsListed labels next.1 := by
  unfold organizeRun at ran
  split at ran
  · obtain rfl := Option.some.inj ran
    exact listed
  · obtain ⟨labelIndex, _, ran⟩ := Option.bind_eq_some_iff.mp ran
    obtain ⟨data, held, ran⟩ := Option.bind_eq_some_iff.mp ran
    obtain ⟨curLabelList, _, ran⟩ := Option.bind_eq_some_iff.mp ran
    obtain ⟨slot, _, ran⟩ := Option.bind_eq_some_iff.mp ran
    obtain ⟨curDict, _, ran⟩ := Option.bind_eq_some_iff.mp ran
    obtain ⟨filled, _, rfl⟩ := Option.map_eq_some_iff.mp ran
    intro bench changed found
    by_cases same : bench = run.benchmark.name
    · subst same
      rw [AList.lookup_insert] at found
      obtain rfl := Option.some.inj found
      rw [List.length_set, listed _ data held]
    · rw [AList.lookup_insert_ne same] at found
      exact listed bench changed found

theorem duplicate_pass_listed (before : Results) (listed : LabelsListed labels before)
    (ran : duplicatePass str before benchmarks = some (result, adjusted)) : LabelsListed labels result := by
  obtain ⟨_, untouched, made⟩ := pass_from str before.entries before.nodupKeys before benchmarks
    (fun entry member => AList.mem_lookup_iff.mpr member) _ ran
  intro bench data found
  cases was : before.lookup bench with
  | none =>
      rw [untouched bench (AList.lookup_eq_none.mp was), was] at found
      cases found
  | some old =>
      obtain ⟨expanded, expands, now⟩ := made ⟨bench, old⟩ (AList.mem_lookup_iff.mp was)
      obtain rfl := Option.some.inj (now.symm.trans found)
      rw [← listed bench old was]
      unfold expandData at expands
      split at expands
      · exact congrArg List.length (Option.some.inj expands).symm
      · exact ((made_iff _ _ _).mp expands).length_eq.symm

theorem organized_listed (jsonReport : Bool)
    (organized : organizeResults str summaryFile runs labels benchmarks jsonReport = some (result, adjusted)) :
    LabelsListed labels result := by
  obtain ⟨outline, outlined, ran⟩ := Option.bind_eq_some_iff.mp organized
  obtain ⟨state, filled, ran⟩ := Option.bind_eq_some_iff.mp ran
  obtain ⟨again, made, shaped, _⟩ := outline_shaped runs labels
  obtain rfl := Option.some.inj (outlined.symm.trans made)
  refine duplicate_pass_listed str labels benchmarks result adjusted state.1 ?_ ran
  exact fold_invariant (organizeRun labels jsonReport) (fun state => LabelsListed labels state.1) runs (outline, summaryFile) state
    (fun bench data found => (shaped.lists bench data found).1)
    (fun run _ before next listed stepped => organize_run_listed labels jsonReport before next run listed stepped) filled

theorem json_report_covers_iff (organized : organizeResults str summaryFile runs labels benchmarks true = some (result, adjusted))
    (defaults : SummaryFile) (date time : Text) :
    (∃ report, getReportObjectIgnoringExperiment defaults date time labels result = some report ∧ OneEntryEach labels result report) ↔
      ∀ bench i k slot, slotAt result bench i k = some slot → RetvalZero slot → Reportable defaults bench slot := by
  have listed := organized_listed str summaryFile runs labels benchmarks result adjusted true organized
  constructor
  · rintro ⟨report, ran, _⟩ bench i k slot found zero
    obtain ⟨data, held, inside⟩ := Option.bind_eq_some_iff.mp found
    obtain ⟨slots, among, _⟩ := Option.bind_eq_some_iff.mp inside
    have reached : i < labels.length := listed bench data held ▸ (List.getElem?_eq_some_iff.mp among).1
    exact (report_runs defaults date time labels result).mp ⟨report, ran⟩ ⟨⟨bench, i, k⟩, labels[i], slot⟩
      ((mem_placed_slots labels result _).mpr ⟨List.getElem?_eq_getElem reached, found⟩) zero
  · intro each
    obtain ⟨report, ran⟩ := (report_runs defaults date time labels result).mpr fun placed member zero =>
      each _ _ _ placed.slot ((mem_placed_slots labels result placed).mp member).2 zero
    exact ⟨report, ran, report_covers defaults date time labels result listed report ran⟩

end Organized

def sampleRun (value : Value) : BenchmarkRun :=
  ⟨⟨['b'], ['t'], false, 1, false⟩, ['l'], 1, some ((newKeyvals.insert retvalKey (.int 0)).insert "chart__item".toList value), none, Nat.one_pos⟩

def sampleResult (value : Value) : Results :=
  (∅ : Results).insert ['b'] [[(newKeyvals.insert "chart__item".toList value).insert retvalKey (.int 0)]]

theorem sample_organized (value : Value) :
    organizeResults (fun _ => none) ∅ [sampleRun value] [['l']] [] true = some (sampleResult value, []) := by
  rfl

def sampleMean : Value := .list [.float "2.5".toList, .str "ms".toList]

theorem sample_reportable (slot : Keyvals) (same : slot = (newKeyvals.insert "chart__item".toList sampleMean).insert retvalKey (.int 0)) :
    Reportable ∅ ['b'] slot := by
  have values (k : Text) (v : Value) (found : slot.lookup k = some v) (kept : skips k v = false) : k = "chart__item".toList ∧ v = sampleMean := by
    by_cases retval : k = retvalKey
    · rw [retval] at kept
      simp [skips] at kept
    · rw [same, AList.lookup_insert_ne retval] at found
      by_cases item : k = "chart__item".toList
      · rw [item, AList.lookup_insert] at found
        exact ⟨item, (Option.some.inj found).symm⟩
      · rw [AList.lookup_insert_ne item] at found
        cases found
  refine ⟨nofun, fun k v found kept about => ?_, fun k v found kept about => ?_⟩
  · rw [(values k v found kept).1] at about
    exact absurd about (by decide)
  · rw [(values k v found kept).2]
    trivial

theorem sample_run_reported : ∃ report, getReportObjectIgnoringExperiment ∅ [] [] [['l']] (sampleResult sampleMean) = some report ∧
    OneEntryEach [['l']] (sampleResult sampleMean) report := by
  refine (json_report_covers_iff (fun _ => none) ∅ [sampleRun sampleMean] [['l']] [] (sampleResult sampleMean) [] (sample_organized _)
    ∅ [] []).mpr fun bench i k slot found zero => ?_
  obtain ⟨data, held, inside⟩ := Option.bind_eq_some_iff.mp found
  obtain ⟨slots, listed, here⟩ := Option.bind_eq_some_iff.mp inside
  by_cases same : bench = ['b']
  · subst same
    rw [sampleResult, AList.lookup_insert] at held
    obtain rfl := Option.some.inj held
    obtain rfl := List.mem_singleton.mp (List.mem_of_getElem? listed)
    exact sample_reportable slot (List.mem_singleton.mp (List.mem_of_getElem? here))
  · rw [sampleResult, AList.lookup_insert_ne same] at held
    cases held

-- ProcessJsonResults stores the value and the units of a chart whose values are 'null'.
theorem null_values_raise : ∃ result, organizeResults (fun _ => none) ∅ [sampleRun (.list [.str "null".toList, .str "ms".toList])]
    [['l']] [] true = some (result, []) ∧ ¬ ∃ report, getReportObjectIgnoringExperiment ∅ [] [] [['l']] result = some report :=
  ⟨_, sample_organized _, fun ⟨_, ran⟩ => by cases ran⟩

end ToolchainUtils.Crosperf.JsonReport
