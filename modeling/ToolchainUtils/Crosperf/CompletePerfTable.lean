import ToolchainUtils.Crosperf.PerfTable

set_option autoImplicit false

namespace ToolchainUtils.Crosperf.PerfTable

open PyString UpdatedEntries
open ResultsOrganizer (labelIndices label_index)

section Benchmark

variable {Pct : Type} (labels : List Text) (report : PerfRun → PerfReport Pct)

-- The data of one benchmark after these runs of it, of which first was the first.
structure Filled (first : PerfRun) (runs : List PerfRun) (benData : BenData Pct) : Prop where
  events : ∀ event, event ∈ benData ↔ event ∈ report first
  covered : ∀ run ∈ runs, (report run).entries = [] ∨ ∀ event ∈ benData, event ∈ report run
  placed : ∀ run ∈ runs, ∀ event eventData labelIndex, benData.lookup event = some eventData →
    (labelIndices labels).lookup run.label = some labelIndex →
      slotOf eventData labelIndex run.iteration = some (((report run).lookup event).getD ∅)

theorem filled_first (run : PerfRun) : Filled labels report run [] (noData (report run)) :=
  ⟨fun event => map_values_mem (fun _ => []) (report run) event, nofun, nofun⟩

theorem empty_lookup (perfReport : PerfReport Pct) (empty : perfReport.entries = []) (event : Text) : perfReport.lookup event = none := by
  rw [AList.lookup, empty, List.dlookup_nil]

theorem add_iteration_value (perfReport : PerfReport Pct) (labelIndex iteration : Nat) (event : Text)
    (eventData next : List (List (FunctionPcts Pct)))
    (added : addIteration perfReport labelIndex iteration event eventData = some next) :
    (perfReport.entries = [] ∨ event ∈ perfReport) ∧
      next = putIteration labelIndex iteration ((perfReport.lookup event).getD ∅) eventData := by
  obtain ⟨functions, found, rfl⟩ := Option.map_eq_some_iff.mp added
  by_cases empty : perfReport.entries.isEmpty
  · rw [if_pos empty] at found
    obtain rfl := Option.some.inj found
    have nothing := List.isEmpty_iff.mp empty
    rw [empty_lookup perfReport nothing event]
    exact ⟨.inl nothing, rfl⟩
  · rw [if_neg empty] at found
    rw [found]
    exact ⟨.inr (AList.lookup_isSome.mp (by rw [found]; rfl)), rfl⟩

theorem add_iteration_runs (perfReport : PerfReport Pct) (labelIndex iteration : Nat) (event : Text)
    (eventData : List (List (FunctionPcts Pct))) (covered : perfReport.entries = [] ∨ event ∈ perfReport) :
    ∃ next, addIteration perfReport labelIndex iteration event eventData = some next := by
  by_cases empty : perfReport.entries.isEmpty
  · exact ⟨_, by rw [addIteration, if_pos empty]; rfl⟩
  · obtain ⟨functions, found⟩ := Option.isSome_iff_exists.mp (AList.lookup_isSome.mpr
      (covered.resolve_left fun nothing => empty (List.isEmpty_iff.mpr nothing)))
    exact ⟨_, by rw [addIteration, if_neg empty, found]; rfl⟩

theorem same_label (first second : Text) (labelIndex : Nat) (found : (labelIndices labels).lookup first = some labelIndex)
    (again : (labelIndices labels).lookup second = some labelIndex) (listed : first ∈ labels) (others : second ∈ labels) :
    first = second := by
  obtain ⟨i, indexed, named⟩ := label_index labels first listed
  obtain ⟨k, reindexed, renamed⟩ := label_index labels second others
  obtain rfl := Option.some.inj (found.symm.trans indexed)
  obtain rfl := Option.some.inj (again.symm.trans reindexed)
  exact Option.some.inj (named.symm.trans renamed)

theorem filled_step (first run : PerfRun) (runs : List PerfRun) (benData next : BenData Pct) (labelIndex : Nat)
    (listed : ∀ other ∈ runs ++ [run], other.label ∈ labels) (sameBench : ∀ other ∈ runs, other.benchmarkName = run.benchmarkName)
    (index : (labelIndices labels).lookup run.label = some labelIndex) (filled : Filled labels report first runs benData)
    (ran : updateEach (addIteration (report run) labelIndex run.iteration) benData = some next) :
    Filled labels report first (runs ++ [run]) next := by
  have keys := update_each_keys _ benData next ran
  have changed (event : Text) (eventData : List (List (FunctionPcts Pct))) (found : next.lookup event = some eventData) :
      ∃ old, benData.lookup event = some old ∧ ((report run).entries = [] ∨ event ∈ report run) ∧
        eventData = putIteration labelIndex run.iteration (((report run).lookup event).getD ∅) old := by
    rw [update_each_lookup _ benData next ran] at found
    obtain ⟨old, was, added⟩ := Option.bind_eq_some_iff.mp found
    exact ⟨old, was, add_iteration_value _ _ _ _ _ _ added⟩
  refine ⟨fun event => (keys event).trans (filled.events event), fun other member => ?_,
    fun other member event eventData i found indexed => ?_⟩
  · rcases List.mem_append.mp member with earlier | last
    · exact (filled.covered other earlier).imp_right fun covers event held => covers event ((keys event).mp held)
    · obtain rfl := List.mem_singleton.mp last
      by_cases empty : (report other).entries = []
      · exact .inl empty
      · refine .inr fun event held => ?_
        obtain ⟨eventData, found⟩ := Option.isSome_iff_exists.mp (AList.lookup_isSome.mpr held)
        obtain ⟨_, _, covered, _⟩ := changed event eventData found
        exact covered.resolve_left empty
  · obtain ⟨old, was, _, rfl⟩ := changed event eventData found
    by_cases here : i = labelIndex ∧ other.iteration = run.iteration
    · have label := same_label labels other.label run.label i indexed (here.1 ▸ index) (listed other member)
        (listed run (List.mem_append_right _ List.mem_cons_self))
      have bench : other.benchmarkName = run.benchmarkName :=
        (List.mem_append.mp member).elim (sameBench other) fun last => by rw [List.mem_singleton.mp last]
      obtain rfl : other = run := PerfRun.ext label bench here.2
      rw [here.1]
      exact put_iteration_same ..
    · have earlier : other ∈ runs := (List.mem_append.mp member).resolve_right fun last => by
        obtain rfl := List.mem_singleton.mp last
        exact here ⟨Option.some.inj (indexed.symm.trans index), rfl⟩
      exact put_iteration_other _ _ _ _ _ _ _ (filled.placed other earlier event old i was indexed) here

end Benchmark

section Table

variable {Pct : Type} (labels : List Text) (report : PerfRun → PerfReport Pct)

def runsOf (runs : List PerfRun) (bench : Text) : List PerfRun := runs.filter fun run => run.benchmarkName = bench

structure Tabled (runs : List PerfRun) (perfData : PerfData Pct) : Prop where
  unread : ∀ bench, runsOf runs bench = [] → perfData.lookup bench = none
  read : ∀ bench first, (runsOf runs bench).head? = some first →
    ∃ benData, perfData.lookup bench = some benData ∧ Filled labels report first (runsOf runs bench) benData

theorem runs_of_same (runs : List PerfRun) (run : PerfRun) :
    runsOf (runs ++ [run]) run.benchmarkName = runsOf runs run.benchmarkName ++ [run] := by
  simp [runsOf]

theorem runs_of_other (runs : List PerfRun) (run : PerfRun) (bench : Text) (other : bench ≠ run.benchmarkName) :
    runsOf (runs ++ [run]) bench = runsOf runs bench := by
  simp [runsOf, Ne.symm other]

theorem mem_runs_of (runs : List PerfRun) (run : PerfRun) (bench : Text) :
    run ∈ runsOf runs bench ↔ run ∈ runs ∧ run.benchmarkName = bench := by
  simp [runsOf]

-- The data that the next run of a benchmark finds, and the run whose events it has.
theorem data_before (runs : List PerfRun) (run : PerfRun) (perfData : PerfData Pct) (tabled : Tabled labels report runs perfData) :
    ∃ first, (runsOf (runs ++ [run]) run.benchmarkName).head? = some first ∧
      Filled labels report first (runsOf runs run.benchmarkName)
        ((perfData.lookup run.benchmarkName).getD (noData (report run))) := by
  rw [runs_of_same]
  cases earlier : runsOf runs run.benchmarkName with
  | nil =>
      rw [tabled.unread _ earlier]
      exact ⟨run, rfl, filled_first labels report run⟩
  | cons first rest =>
      obtain ⟨benData, found, filled⟩ := tabled.read run.benchmarkName first (by rw [earlier]; rfl)
      rw [found, ← earlier]
      exact ⟨first, by rw [earlier]; rfl, filled⟩

theorem tabled_step (runs : List PerfRun) (run : PerfRun) (listed : ∀ other ∈ runs ++ [run], other.label ∈ labels)
    (perfData next : PerfData Pct) (tabled : Tabled labels report runs perfData)
    (ran : addReport labels (report run) run perfData = some next) : Tabled labels report (runs ++ [run]) next := by
  obtain ⟨labelIndex, index, ran⟩ := Option.bind_eq_some_iff.mp ran
  obtain ⟨benData, updated, rfl⟩ := Option.map_eq_some_iff.mp ran
  obtain ⟨first, isFirst, before⟩ := data_before labels report runs run perfData tabled
  have filled := filled_step labels report first run (runsOf runs run.benchmarkName) _ benData labelIndex
    (fun other member => listed other (by
      rw [← runs_of_same] at member
      exact ((mem_runs_of _ other _).mp member).1))
    (fun other member => ((mem_runs_of runs other _).mp member).2) index before updated
  refine ⟨fun bench unread => ?_, fun bench other isOther => ?_⟩
  · by_cases same : bench = run.benchmarkName
    · rw [same, runs_of_same] at unread
      simp at unread
    · rw [runs_of_other _ _ _ same] at unread
      rw [AList.lookup_insert_ne same, tabled.unread bench unread]
  · by_cases same : bench = run.benchmarkName
    · subst same
      obtain rfl := Option.some.inj (isFirst.symm.trans isOther)
      exact ⟨benData, AList.lookup_insert _, by rw [runs_of_same]; exact filled⟩
    · rw [runs_of_other _ _ _ same] at isOther ⊢
      rw [AList.lookup_insert_ne same]
      exact tabled.read bench other isOther

theorem tabled_run (runs : List PerfRun) (listed : ∀ run ∈ runs, run.label ∈ labels) (final : PerfData Pct)
    (ran : runs.foldlM (fun perfData run => addReport labels (report run) run perfData) ∅ = some final) :
    Tabled labels report runs final := by
  induction runs using List.reverseRecOn generalizing final with
  | nil =>
      obtain rfl := Option.some.inj ran
      exact ⟨fun _ _ => rfl, nofun⟩
  | append_singleton before run ih =>
      rw [List.foldlM_append] at ran
      obtain ⟨perfData, earlier, ran⟩ := Option.bind_eq_some_iff.mp ran
      rw [List.foldlM_cons] at ran
      obtain ⟨next, added, ended⟩ := Option.bind_eq_some_iff.mp ran
      obtain rfl := Option.some.inj ended
      exact tabled_step labels report before run listed perfData next
        (ih (fun other member => listed other (List.mem_append_left _ member)) perfData earlier) added

-- Each run has no events at all or all those of the first run of its benchmark.
theorem table_runs (runs : List PerfRun) (listed : ∀ run ∈ runs, run.label ∈ labels)
    (covered : ∀ run ∈ runs, ∀ first, (runsOf runs run.benchmarkName).head? = some first →
      (report run).entries = [] ∨ ∀ event ∈ report first, event ∈ report run) :
    ∃ final, runs.foldlM (fun perfData run => addReport labels (report run) run perfData) ∅ = some final := by
  induction runs using List.reverseRecOn with
  | nil => exact ⟨∅, rfl⟩
  | append_singleton before run ih =>
      have listedBefore (other : PerfRun) (member : other ∈ before) := listed other (List.mem_append_left _ member)
      obtain ⟨perfData, earlier⟩ := ih listedBefore fun other member first isFirst =>
        covered other (List.mem_append_left _ member) first (by
          rw [runsOf, List.filter_append, List.head?_append, ← runsOf, isFirst]
          rfl)
      obtain ⟨first, isFirst, filled⟩ := data_before labels report before run perfData
        (tabled_run labels report before listedBefore perfData earlier)
      obtain ⟨labelIndex, index, _⟩ := label_index labels run.label (listed run (List.mem_append_right _ List.mem_cons_self))
      obtain ⟨benData, updated⟩ := update_each_runs (addIteration (report run) labelIndex run.iteration) _ fun event eventData found =>
        add_iteration_runs (report run) labelIndex run.iteration event eventData
          ((covered run (List.mem_append_right _ List.mem_cons_self) first isFirst).imp_right fun covers => covers event
            ((filled.events event).mp (AList.lookup_isSome.mp (by rw [found]; rfl))))
      refine ⟨perfData.insert run.benchmarkName benData, ?_⟩
      rw [List.foldlM_append, earlier]
      simp [addReport, index, updated]

end Table

section Reading

variable {Pct : Type} [LE Pct] [DecidableLE Pct] (eventThreshold : Option Pct) (readPerfReport : PerfRun → PerfReport Pct)
  (benchmarks : List (Text × Nat)) (labels : List Text)

def labelRuns (label : Text) : List PerfRun := benchmarks.flatMap fun bench => (List.range bench.2).map fun i => ⟨label, bench.1, i⟩

def perfRuns : List PerfRun := labels.flatMap (labelRuns benchmarks)

theorem perf_table_fold : perfTable eventThreshold readPerfReport benchmarks labels = (perfRuns benchmarks labels).foldlM
    (fun perfData run => addReport labels (perfOfRun eventThreshold (readPerfReport run)) run perfData) ∅ := by
  simp only [perfRuns, labelRuns, FailingFold.fold_of_parts, List.foldlM_map]
  rfl

theorem mem_perf_runs (run : PerfRun) : run ∈ perfRuns benchmarks labels ↔
    run.label ∈ labels ∧ ∃ iterations, (run.benchmarkName, iterations) ∈ benchmarks ∧ run.iteration < iterations := by
  constructor
  · intro member
    obtain ⟨label, listed, member⟩ := List.mem_flatMap.mp member
    obtain ⟨bench, among, member⟩ := List.mem_flatMap.mp member
    obtain ⟨i, inside, rfl⟩ := List.mem_map.mp member
    exact ⟨listed, bench.2, among, List.mem_range.mp inside⟩
  · rintro ⟨listed, iterations, among, inside⟩
    exact List.mem_flatMap.mpr ⟨run.label, listed, List.mem_flatMap.mpr ⟨(run.benchmarkName, iterations), among,
      List.mem_map.mpr ⟨run.iteration, List.mem_range.mpr inside, rfl⟩⟩⟩

theorem first_of_label (label bench : Text) (first : PerfRun) (isFirst : (runsOf (labelRuns benchmarks label) bench).head? = some first) :
    first = ⟨label, bench, 0⟩ := by
  induction benchmarks with
  | nil => cases isFirst
  | cons entry rest ih =>
      rw [runsOf, labelRuns, List.flatMap_cons, List.filter_append, List.head?_append] at isFirst
      by_cases same : entry.1 = bench
      · obtain ⟨name, iterations⟩ := entry
        subst same
        cases iterations with
        | zero => exact ih isFirst
        | succ n =>
            rw [List.range_succ_eq_map] at isFirst
            simpa [eq_comm] using isFirst
      · have none_here : ((List.range entry.2).map fun i => (⟨label, entry.1, i⟩ : PerfRun)).filter (fun run => run.benchmarkName = bench) = [] := by
          simp [same]
        rw [none_here] at isFirst
        exact ih isFirst

theorem first_of_bench (firstLabel bench : Text) (head : labels.head? = some firstLabel) (first : PerfRun)
    (isFirst : (runsOf (perfRuns benchmarks labels) bench).head? = some first) : first = ⟨firstLabel, bench, 0⟩ := by
  obtain ⟨rest, rfl⟩ := List.head?_eq_some_iff.mp head
  obtain ⟨member, same⟩ := (mem_runs_of _ first bench).mp (List.mem_of_mem_head? isFirst)
  obtain ⟨_, iterations, among, inside⟩ := (mem_perf_runs benchmarks _ first).mp member
  have here : (⟨firstLabel, bench, 0⟩ : PerfRun) ∈ runsOf (labelRuns benchmarks firstLabel) bench :=
    (mem_runs_of _ _ _).mpr ⟨List.mem_flatMap.mpr ⟨(bench, iterations), same ▸ among,
      List.mem_map.mpr ⟨0, List.mem_range.mpr (Nat.zero_lt_of_lt inside), rfl⟩⟩, rfl⟩
  rw [runsOf, perfRuns, List.flatMap_cons, List.filter_append, List.head?_append, ← runsOf] at isFirst
  cases own : (runsOf (labelRuns benchmarks firstLabel) bench).head? with
  | none =>
      rw [List.head?_eq_none_iff.mp own] at here
      cases here
  | some other =>
      rw [own] at isFirst
      obtain rfl := Option.some.inj isFirst
      exact first_of_label benchmarks firstLabel bench other own

theorem perf_of_run_events (perfReport : PerfReport Pct) (event : Text) :
    event ∈ perfOfRun eventThreshold perfReport ↔ event ∈ perfReport := by
  cases eventThreshold with
  | none => rfl
  | some threshold => exact map_values_mem (filterDict threshold) perfReport event

theorem perf_of_run_empty (perfReport : PerfReport Pct) : (perfOfRun eventThreshold perfReport).entries = [] ↔ perfReport = ∅ := by
  have entries : perfReport.entries = [] ↔ perfReport = ∅ := ⟨fun empty => AList.ext empty, fun empty => by rw [empty]; rfl⟩
  rw [← entries]
  cases eventThreshold with
  | none => rfl
  | some threshold => exact List.map_eq_nil_iff

-- The run is one of those whose report the table is built from.
def Reads (run : PerfRun) : Prop := run.label ∈ labels ∧ ∃ iterations, (run.benchmarkName, iterations) ∈ benchmarks ∧ run.iteration < iterations

def cell (perfData : PerfData Pct) (run : PerfRun) (event : Text) : Option (FunctionPcts Pct) :=
  ((labelIndices labels).lookup run.label).bind fun labelIndex =>
    (perfData.lookup run.benchmarkName).bind fun benData =>
      (benData.lookup event).bind fun eventData => slotOf eventData labelIndex run.iteration

structure AllPerfData (perfData : PerfData Pct) : Prop where
  kept : ∀ run, Reads benchmarks labels run → ∀ event functions,
    (perfOfRun eventThreshold (readPerfReport run)).lookup event = some functions → cell labels perfData run event = some functions
  lacking : ∀ run, Reads benchmarks labels run → ∀ benData event, perfData.lookup run.benchmarkName = some benData → event ∈ benData →
    event ∉ readPerfReport run → cell labels perfData run event = some ∅

-- The first report of a benchmark has the events of all its others that are not empty.
def SameEvents : Prop :=
  ∀ firstLabel, labels.head? = some firstLabel → ∀ run, Reads benchmarks labels run → readPerfReport run = ∅ ∨
    ∀ event, event ∈ readPerfReport run ↔ event ∈ readPerfReport ⟨firstLabel, run.benchmarkName, 0⟩

theorem reads_first (run : PerfRun) (reads : Reads benchmarks labels run) : ∃ firstLabel, labels.head? = some firstLabel ∧
    (runsOf (perfRuns benchmarks labels) run.benchmarkName).head? = some ⟨firstLabel, run.benchmarkName, 0⟩ := by
  have member := (mem_runs_of _ _ _).mpr ⟨(mem_perf_runs benchmarks labels run).mpr reads, rfl⟩
  obtain ⟨firstLabel, head⟩ := Option.isSome_iff_exists.mp (List.isSome_head?.mpr (List.ne_nil_of_mem reads.1))
  obtain ⟨first, isFirst⟩ := Option.isSome_iff_exists.mp (List.isSome_head?.mpr (List.ne_nil_of_mem member))
  rw [first_of_bench benchmarks labels firstLabel run.benchmarkName head first isFirst] at isFirst
  exact ⟨firstLabel, head, isFirst⟩

theorem perf_table_complete_iff :
    (∃ perfData, perfTable eventThreshold readPerfReport benchmarks labels = some perfData ∧
      AllPerfData eventThreshold readPerfReport benchmarks labels perfData) ↔ SameEvents readPerfReport benchmarks labels := by
  have listed (run : PerfRun) (member : run ∈ perfRuns benchmarks labels) := ((mem_perf_runs benchmarks labels run).mp member).1
  rw [perf_table_fold]
  constructor
  · rintro ⟨perfData, ran, all⟩ firstLabel head run reads
    have tabled := tabled_run labels _ (perfRuns benchmarks labels) listed perfData ran
    obtain ⟨label, again, isFirst⟩ := reads_first benchmarks labels run reads
    obtain rfl := Option.some.inj (head.symm.trans again)
    obtain ⟨benData, found, filled⟩ := tabled.read run.benchmarkName _ isFirst
    have member := (mem_runs_of _ _ _).mpr ⟨(mem_perf_runs benchmarks labels run).mpr reads, rfl⟩
    have events (event : Text) : event ∈ benData ↔ event ∈ readPerfReport ⟨firstLabel, run.benchmarkName, 0⟩ :=
      (filled.events event).trans (perf_of_run_events eventThreshold _ event)
    refine or_iff_not_imp_left.mpr fun nonempty event => ?_
    rw [← events, ← perf_of_run_events eventThreshold]
    constructor
    · intro held
      obtain ⟨functions, got⟩ := Option.isSome_iff_exists.mp (AList.lookup_isSome.mpr held)
      obtain ⟨_, _, stored⟩ := Option.bind_eq_some_iff.mp (all.kept run reads event functions got)
      obtain ⟨others, same, stored⟩ := Option.bind_eq_some_iff.mp stored
      obtain ⟨eventData, named, _⟩ := Option.bind_eq_some_iff.mp stored
      obtain rfl := Option.some.inj (found.symm.trans same)
      exact AList.lookup_isSome.mp (by rw [named]; rfl)
    · intro held
      exact (filled.covered run member).resolve_left (fun empty => nonempty ((perf_of_run_empty eventThreshold _).mp empty)) event held
  · intro same
    obtain ⟨perfData, ran⟩ := table_runs labels (fun run => perfOfRun eventThreshold (readPerfReport run)) (perfRuns benchmarks labels)
      listed fun run member first isFirst => by
        have reads := (mem_perf_runs benchmarks labels run).mp member
        obtain ⟨firstLabel, head, found⟩ := reads_first benchmarks labels run reads
        obtain rfl := Option.some.inj (found.symm.trans isFirst)
        refine (same firstLabel head run reads).imp (perf_of_run_empty eventThreshold _).mpr fun events event held => ?_
        rw [perf_of_run_events] at held ⊢
        exact (events event).mpr held
    have tabled := tabled_run labels _ (perfRuns benchmarks labels) listed perfData ran
    have stored (run : PerfRun) (reads : Reads benchmarks labels run) (benData : BenData Pct) (event : Text)
        (found : perfData.lookup run.benchmarkName = some benData) (held : event ∈ benData) :
        cell labels perfData run event = some (((perfOfRun eventThreshold (readPerfReport run)).lookup event).getD ∅) := by
      obtain ⟨firstLabel, _, isFirst⟩ := reads_first benchmarks labels run reads
      obtain ⟨again, copy, filled⟩ := tabled.read run.benchmarkName _ isFirst
      obtain rfl := Option.some.inj (found.symm.trans copy)
      obtain ⟨eventData, named⟩ := Option.isSome_iff_exists.mp (AList.lookup_isSome.mpr held)
      obtain ⟨labelIndex, index, _⟩ := label_index labels run.label reads.1
      rw [cell, index, Option.bind_some, found, Option.bind_some, named, Option.bind_some]
      exact filled.placed run ((mem_runs_of _ _ _).mpr ⟨(mem_perf_runs benchmarks labels run).mpr reads, rfl⟩) event eventData labelIndex
        named index
    refine ⟨perfData, ran, fun run reads event functions got => ?_, fun run reads benData event found held absent => ?_⟩
    · have own : event ∈ readPerfReport run :=
        (perf_of_run_events eventThreshold _ event).mp (AList.lookup_isSome.mp (by rw [got]; rfl))
      obtain ⟨firstLabel, head, isFirst⟩ := reads_first benchmarks labels run reads
      obtain ⟨benData, found, filled⟩ := tabled.read run.benchmarkName _ isFirst
      have held : event ∈ benData := by
        rw [filled.events, perf_of_run_events]
        refine ((same firstLabel head run reads).resolve_left fun empty => ?_) event |>.mp own
        rw [empty] at own
        exact absurd own (AList.notMem_empty _)
      rw [stored run reads benData event found held, got]
      rfl
    · have nothing : (perfOfRun eventThreshold (readPerfReport run)).lookup event = none := AList.lookup_eq_none.mpr fun own =>
        absent ((perf_of_run_events eventThreshold _ event).mp own)
      rw [stored run reads benData event found held, nothing]
      rfl

end Reading

def cyclesReport : PerfReport Nat := (∅ : PerfReport Nat).insert "cycles".toList ((∅ : FunctionPcts Nat).insert "malloc".toList 10)

-- The first iteration has no report, as when its perf run failed.
def secondOnly (run : PerfRun) : PerfReport Nat := if run.iteration = 0 then ∅ else cyclesReport

theorem second_report_lost : ¬ ∃ perfData, perfTable none secondOnly [("bench".toList, 2)] ["label".toList] = some perfData ∧
    AllPerfData none secondOnly [("bench".toList, 2)] ["label".toList] perfData := by
  rintro ⟨perfData, built, all⟩
  have empty : perfTable none secondOnly [("bench".toList, 2)] ["label".toList] = some ((∅ : PerfData Nat).insert "bench".toList ∅) := rfl
  obtain rfl := Option.some.inj (built.symm.trans empty)
  have second : Reads [("bench".toList, 2)] ["label".toList] ⟨"label".toList, "bench".toList, 1⟩ :=
    ⟨List.mem_cons_self, 2, List.mem_cons_self, by decide⟩
  cases all.kept _ second "cycles".toList _ rfl

end ToolchainUtils.Crosperf.PerfTable
