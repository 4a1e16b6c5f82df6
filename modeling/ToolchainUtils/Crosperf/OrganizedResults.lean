import ToolchainUtils.Crosperf.OrganizedSlots

set_option autoImplicit false

namespace ToolchainUtils.Crosperf.ResultsOrganizer

open PyString CachedResults

def Lands (labels : List Text) (bench : Text) (i k : Nat) (run : BenchmarkRun) : Prop :=
  run.benchmark.name = bench ∧ labels[i]? = some run.label ∧ run.iteration = k + 1

structure Organizable (runs : List BenchmarkRun) (labels : List Text) : Prop where
  distinct : (runs.map fun run => (run.benchmark.name, run.label, run.iteration)).Nodup
  labels_distinct : labels.Nodup
  listed : ∀ run ∈ runs, run.label ∈ labels
  retval : ∀ run ∈ runs, ∀ keyvals, run.result = some keyvals → retvalKey ∈ keyvals
  unrepeated : ∀ run ∈ runs, ∀ keyvals, run.result = some keyvals → ∀ key ∈ keyvals, dupKey key = none

section Runs

variable (jsonReport : Bool) (summaryFile : SummaryFile) (runs : List BenchmarkRun) (labels : List Text)

structure FilledBy (done : List BenchmarkRun) (state : Results × SummaryFile) : Prop where
  shaped : Shaped runs labels state.1
  own : ∀ run ∈ done, ∀ keyvals, run.result = some keyvals → ∀ i, labels[i]? = some run.label →
    slotAt state.1 run.benchmark.name i (run.iteration - 1) = runSlot jsonReport summaryFile run keyvals
  empty : ∀ bench i k slot, slotAt state.1 bench i k = some slot →
    (∀ run ∈ done, run.result.isSome → ¬ Lands labels bench i k run) → slot = newKeyvals
  admitting : ∀ benchmark key, admits jsonReport state.2 benchmark key = admits jsonReport summaryFile benchmark key

-- What organizeRun does when the slot of the run is still empty.
theorem organize_run_puts (organizable : Organizable runs labels) (run : BenchmarkRun) (member : run ∈ runs) (keyvals : Keyvals)
    (here : run.result = some keyvals) (state : Results × SummaryFile) (shaped : Shaped runs labels state.1)
    (untouched : ∀ i slot, labels[i]? = some run.label → slotAt state.1 run.benchmark.name i (run.iteration - 1) = some slot →
      slot = newKeyvals)
    (admitting : ∀ benchmark key, admits jsonReport state.2 benchmark key = admits jsonReport summaryFile benchmark key) :
    ∃ i data slots slot, labels[i]? = some run.label ∧ state.1.lookup run.benchmark.name = some data ∧ data[i]? = some slots ∧
      run.iteration - 1 < slots.length ∧ runSlot jsonReport summaryFile run keyvals = some slot ∧
        organizeRun labels jsonReport state run = some (putSlot state.1 run.benchmark.name data slots i (run.iteration - 1) slot,
          (summaryOf jsonReport run.benchmark state.2).2.2) := by
  obtain ⟨i, index, named⟩ := label_index labels run.label (organizable.listed run member)
  obtain ⟨data, found⟩ := Option.isSome_iff_exists.mp
    (AList.lookup_isSome.mpr ((shaped.benches run.benchmark.name).mpr ⟨run, member, rfl⟩))
  obtain ⟨length, each⟩ := shaped.lists run.benchmark.name data found
  have inside : i < data.length := length ▸ (List.getElem?_eq_some_iff.mp named).1
  have listed : data[i]? = some data[i] := List.getElem?_eq_getElem inside
  have long := each data[i] (List.getElem_mem inside)
  have reached := highest_reaches runs run member
  have first := run.counted
  have room : run.iteration - 1 < data[i].length := by omega
  have position := iteration_index data[i].length run.iteration first (long ▸ reached)
  have reads : data[i][run.iteration - 1]? = some data[i][run.iteration - 1] := List.getElem?_eq_getElem room
  have emptySlot : data[i][run.iteration - 1] = newKeyvals := by
    apply untouched i _ named
    rw [slotAt, found, Option.bind_some, listed, Option.bind_some, reads]
  obtain ⟨slot, made, _⟩ := run_slot_holds jsonReport summaryFile run keyvals (organizable.retval run member keyvals here)
  refine ⟨i, data, data[i], slot, named, found, listed, room, made, ?_⟩
  have sameDict := fill_dict_congr _ _ _ _ keyvals (admitting run.benchmark)
  rw [runSlot] at made
  obtain ⟨filled, forced, rfl⟩ := Option.map_eq_some_iff.mp made
  rw [← sameDict] at forced
  simp only [organizeRun, here, index, found, listed, position, reads, emptySlot, Option.bind_some, forced, Option.map_some, putSlot]

theorem organize_run_filled (organizable : Organizable runs labels) (done : List BenchmarkRun) (run : BenchmarkRun)
    (member : run ∈ runs)
    (fresh : ∀ other ∈ done, (other.benchmark.name, other.label, other.iteration) ≠ (run.benchmark.name, run.label, run.iteration))
    (state : Results × SummaryFile) (filled : FilledBy jsonReport summaryFile runs labels done state) :
    ∃ next, organizeRun labels jsonReport state run = some next ∧
      FilledBy jsonReport summaryFile runs labels (done ++ [run]) next := by
  cases here : run.result with
  | none =>
      refine ⟨state, by rw [organizeRun, here], filled.shaped, fun other held keyvals result => ?_, fun bench i k slot at_slot unlanded => ?_,
        filled.admitting⟩
      · rcases List.mem_append.mp held with earlier | final
        · exact filled.own other earlier keyvals result
        · obtain rfl := List.mem_singleton.mp final
          rw [here] at result
          cases result
      · exact filled.empty bench i k slot at_slot fun other earlier => unlanded other (List.mem_append_left _ earlier)
  | some keyvals =>
      have first := run.counted
      have untouched : ∀ i slot, labels[i]? = some run.label → slotAt state.1 run.benchmark.name i (run.iteration - 1) = some slot →
          slot = newKeyvals := by
        intro i slot named at_slot
        refine filled.empty _ i _ slot at_slot fun other earlier _ lands => fresh other earlier ?_
        have label : other.label = run.label := Option.some.inj (lands.2.1.symm.trans named)
        have iteration : other.iteration = run.iteration := by have landed := lands.2.2; omega
        rw [lands.1, label, iteration]
      obtain ⟨i, data, slots, slot, named, found, listed, room, made, ran⟩ := organize_run_puts jsonReport summaryFile runs labels
        organizable run member keyvals here state filled.shaped untouched filled.admitting
      have same := put_slot_same state.1 run.benchmark.name data slots i (run.iteration - 1) slot listed room
      have others := put_slot_other state.1 run.benchmark.name data slots i (run.iteration - 1) slot found listed
      refine ⟨_, ran, put_slot_shaped runs labels state.1 _ data slots i _ slot filled.shaped found listed,
        fun other held dict result row label => ?_, fun bench row column content at_slot unlanded => ?_, fun benchmark key => ?_⟩
      · rcases List.mem_append.mp held with earlier | final
        · rw [others _ row _ ?_]
          · exact filled.own other earlier dict result row label
          · rintro ⟨bench, rfl, column⟩
            have otherFirst := other.counted
            have sameLabel : other.label = run.label := Option.some.inj (label.symm.trans named)
            have sameIteration : other.iteration = run.iteration := by omega
            exact fresh other earlier (by rw [bench, sameLabel, sameIteration])
        · obtain rfl := List.mem_singleton.mp final
          obtain rfl : keyvals = dict := Option.some.inj (here.symm.trans result)
          have range := (List.getElem?_eq_some_iff.mp named).1
          obtain rfl : i = row := (List.getElem?_inj range organizable.labels_distinct).mp (named.trans label.symm)
          rw [same, made]
      · by_cases landed : bench = run.benchmark.name ∧ row = i ∧ column = run.iteration - 1
        · obtain ⟨rfl, rfl, rfl⟩ := landed
          refine absurd ⟨rfl, named, ?_⟩ (unlanded run (List.mem_append_right _ List.mem_cons_self) (by rw [here]; rfl))
          omega
        · rw [others bench row column landed] at at_slot
          exact filled.empty bench row column content at_slot fun other earlier => unlanded other (List.mem_append_left _ earlier)
      · rw [admits_kept, filled.admitting]

theorem organize_runs_filled (organizable : Organizable runs labels) (done rest : List BenchmarkRun) (split : runs = done ++ rest)
    (state : Results × SummaryFile) (filled : FilledBy jsonReport summaryFile runs labels done state) :
    ∃ finish, rest.foldlM (organizeRun labels jsonReport) state = some finish ∧
      FilledBy jsonReport summaryFile runs labels runs finish := by
  induction rest generalizing done state with
  | nil =>
      rw [List.append_nil] at split
      exact ⟨state, rfl, split ▸ filled⟩
  | cons run rest ih =>
      have distinct := organizable.distinct
      rw [split, List.map_append, List.map_cons] at distinct
      have fresh : ∀ other ∈ done, (other.benchmark.name, other.label, other.iteration) ≠ (run.benchmark.name, run.label, run.iteration) :=
        fun other earlier => (List.nodup_append.mp distinct).2.2 _ (List.mem_map_of_mem earlier) _ List.mem_cons_self
      obtain ⟨next, ran, after⟩ := organize_run_filled jsonReport summaryFile runs labels organizable done run (by simp [split]) fresh state filled
      obtain ⟨finish, rested, all⟩ := ih (done ++ [run]) (by simp [split]) next after
      refine ⟨finish, ?_, all⟩
      rw [List.foldlM_cons, ran]
      exact rested

-- A slot belongs to a run with a result, or it is empty.
theorem slot_content (organizable : Organizable runs labels) (state : Results × SummaryFile)
    (filled : FilledBy jsonReport summaryFile runs labels runs state) (bench : Text) (i k : Nat) (slot : Keyvals)
    (at_slot : slotAt state.1 bench i k = some slot) :
    slot = newKeyvals ∨ ∃ run ∈ runs, ∃ keyvals, run.result = some keyvals ∧ Lands labels bench i k run ∧
      runSlot jsonReport summaryFile run keyvals = some slot ∧ SlotHolds jsonReport summaryFile run keyvals slot := by
  by_cases landed : ∃ run ∈ runs, run.result.isSome ∧ Lands labels bench i k run
  · obtain ⟨run, member, hasResult, rfl, label, iteration⟩ := landed
    obtain ⟨keyvals, result⟩ := Option.isSome_iff_exists.mp hasResult
    have own := filled.own run member keyvals result i label
    rw [iteration, Nat.add_sub_cancel, at_slot] at own
    obtain ⟨made, ran, holds⟩ := run_slot_holds jsonReport summaryFile run keyvals (organizable.retval run member keyvals result)
    obtain rfl : slot = made := Option.some.inj (own.trans ran)
    exact .inr ⟨run, member, keyvals, result, ⟨rfl, label, iteration⟩, ran, holds⟩
  · exact .inl (filled.empty bench i k slot at_slot fun run member hasResult lands => landed ⟨run, member, hasResult, lands⟩)

theorem slot_unrepeated (organizable : Organizable runs labels) (state : Results × SummaryFile)
    (filled : FilledBy jsonReport summaryFile runs labels runs state) (bench : Text) (i k : Nat) (slot : Keyvals)
    (at_slot : slotAt state.1 bench i k = some slot) : ∀ key ∈ slot, dupKey key = none := by
  intro key held
  rcases slot_content jsonReport summaryFile runs labels organizable state filled bench i k slot at_slot with
    rfl | ⟨run, member, keyvals, result, _, _, holds⟩
  · exact absurd held (AList.notMem_empty key)
  · rcases holds.nothing_else key held with ⟨_, _, rfl | rfl | rfl⟩ | ⟨own, _⟩
    · decide
    · decide
    · decide
    · exact organizable.unrepeated run member keyvals result key own

end Runs

theorem no_dup_keys (keys : List Text) (unrepeated : ∀ key ∈ keys, dupKey key = none) (maxDup : Nat) :
    keys.foldl maxDupOfKey maxDup = maxDup := by
  induction keys with
  | nil => rfl
  | cons key rest ih =>
      rw [List.foldl_cons, maxDupOfKey, unrepeated key List.mem_cons_self]
      exact ih fun other member => unrepeated other (List.mem_cons_of_mem _ member)

theorem no_dup_label (label : List Keyvals) (unrepeated : ∀ slot ∈ label, ∀ key ∈ slot, dupKey key = none) (maxDup : Nat) :
    label.foldl (fun maxDup run => run.keys.foldl maxDupOfKey maxDup) maxDup = maxDup := by
  induction label with
  | nil => rfl
  | cons slot rest ih =>
      rw [List.foldl_cons, no_dup_keys slot.keys (unrepeated slot List.mem_cons_self)]
      exact ih fun other member => unrepeated other (List.mem_cons_of_mem _ member)

theorem no_dup_data (data : List (List Keyvals)) (unrepeated : ∀ label ∈ data, ∀ slot ∈ label, ∀ key ∈ slot, dupKey key = none) :
    getMaxDup data = 0 := by
  unfold getMaxDup
  induction data with
  | nil => rfl
  | cons label rest ih =>
      rw [List.foldl_cons, no_dup_label label (unrepeated label List.mem_cons_self)]
      exact ih fun other member => unrepeated other (List.mem_cons_of_mem _ member)

theorem no_dup_pass (str : Value → Option Text) (result : Results) (benchmarks : List Benchmark)
    (unrepeated : ∀ bench i k slot, slotAt result bench i k = some slot → ∀ key ∈ slot, dupKey key = none) :
    duplicatePass str result benchmarks = some (result, benchmarks) := by
  have each : ∀ entry ∈ result.entries, getMaxDup entry.2 = 0 := by
    intro entry member
    have found : result.lookup entry.1 = some entry.2 := AList.mem_lookup_iff.mpr member
    refine no_dup_data entry.2 fun label listed slot held => ?_
    obtain ⟨i, inside, rfl⟩ := List.getElem_of_mem listed
    obtain ⟨k, room, rfl⟩ := List.getElem_of_mem held
    refine unrepeated entry.1 i k _ ?_
    simp [slotAt, found, inside, room]
  unfold duplicatePass
  generalize result.entries = entries at each
  induction entries with
  | nil => rfl
  | cons entry rest ih =>
      rw [List.foldlM_cons, duplicateBench, if_pos (each entry List.mem_cons_self)]
      exact ih fun other member => each other (List.mem_cons_of_mem _ member)

theorem perm_highest (runs other : List BenchmarkRun) (perm : other.Perm runs) (bench : Text) :
    highestIteration other bench = highestIteration runs bench := by
  refine (perm.filter _).foldl_eq' (fun first _ second _ highest => ?_) 0
  omega

theorem perm_organizable (runs other : List BenchmarkRun) (labels : List Text) (perm : other.Perm runs)
    (organizable : Organizable runs labels) : Organizable other labels where
  distinct := (perm.map _).nodup_iff.mpr organizable.distinct
  labels_distinct := organizable.labels_distinct
  listed run member := organizable.listed run (perm.mem_iff.mp member)
  retval run member := organizable.retval run (perm.mem_iff.mp member)
  unrepeated run member := organizable.unrepeated run (perm.mem_iff.mp member)

section Results

variable (jsonReport : Bool) (summaryFile : SummaryFile) (runs : List BenchmarkRun) (labels : List Text)

theorem organize_results_filled (str : Value → Option Text) (benchmarks : List Benchmark) (organizable : Organizable runs labels) :
    ∃ state, organizeResults str summaryFile runs labels benchmarks jsonReport = some (state.1, benchmarks) ∧
      FilledBy jsonReport summaryFile runs labels runs state := by
  obtain ⟨outline, made, shaped, blank⟩ := outline_shaped runs labels
  have start : FilledBy jsonReport summaryFile runs labels [] (outline, summaryFile) := by
    refine ⟨shaped, nofun, fun bench i k slot at_slot _ => ?_, fun _ _ => rfl⟩
    obtain ⟨data, found, at_slot⟩ := Option.bind_eq_some_iff.mp at_slot
    obtain ⟨slots, listed, at_slot⟩ := Option.bind_eq_some_iff.mp at_slot
    exact blank bench data found slots (List.mem_of_getElem? listed) slot (List.mem_of_getElem? at_slot)
  obtain ⟨state, ran, filled⟩ := organize_runs_filled jsonReport summaryFile runs labels organizable [] runs rfl _ start
  have passed := no_dup_pass str state.1 benchmarks fun bench i k slot at_slot =>
    slot_unrepeated jsonReport summaryFile runs labels organizable state filled bench i k slot at_slot
  exact ⟨state, by rw [organizeResults, made, Option.bind_some, ran, Option.bind_some, passed], filled⟩

-- The same slots are filled in whatever order the runs come.
theorem same_slot (other : List BenchmarkRun) (perm : other.Perm runs)
    (state permuted : Results × SummaryFile) (filled : FilledBy jsonReport summaryFile runs labels runs state)
    (again : FilledBy jsonReport summaryFile other labels other permuted) (bench : Text) (i k : Nat) (slot copy : Keyvals)
    (at_slot : slotAt state.1 bench i k = some slot) (at_copy : slotAt permuted.1 bench i k = some copy) : copy = slot := by
  by_cases landed : ∃ run ∈ runs, run.result.isSome ∧ Lands labels bench i k run
  · obtain ⟨run, member, hasResult, rfl, label, iteration⟩ := landed
    obtain ⟨keyvals, result⟩ := Option.isSome_iff_exists.mp hasResult
    have own := filled.own run member keyvals result i label
    have copied := again.own run (perm.mem_iff.mpr member) keyvals result i label
    rw [iteration, Nat.add_sub_cancel] at own copied
    exact Option.some.inj (at_copy.symm.trans (copied.trans (own.symm.trans at_slot)))
  · rw [filled.empty bench i k slot at_slot fun run member hasResult lands => landed ⟨run, member, hasResult, lands⟩]
    exact again.empty bench i k copy at_copy fun run member hasResult lands =>
      landed ⟨run, perm.mem_iff.mp member, hasResult, lands⟩

theorem same_lookup (other : List BenchmarkRun) (perm : other.Perm runs) (state permuted : Results × SummaryFile)
    (filled : FilledBy jsonReport summaryFile runs labels runs state)
    (again : FilledBy jsonReport summaryFile other labels other permuted) (bench : Text) :
    permuted.1.lookup bench = state.1.lookup bench := by
  have ran : Ran other bench ↔ Ran runs bench := exists_congr fun run => and_congr_left fun _ => perm.mem_iff
  have held : bench ∈ permuted.1 ↔ bench ∈ state.1 := by rw [again.shaped.benches, filled.shaped.benches, ran]
  by_cases present : bench ∈ state.1
  · obtain ⟨data, found⟩ := Option.isSome_iff_exists.mp (AList.lookup_isSome.mpr present)
    obtain ⟨copy, copied⟩ := Option.isSome_iff_exists.mp (AList.lookup_isSome.mpr (held.mpr present))
    obtain ⟨rows, each⟩ := filled.shaped.lists bench data found
    obtain ⟨copyRows, eachCopy⟩ := again.shaped.lists bench copy copied
    rw [perm_highest runs other perm] at eachCopy
    rw [found, copied]
    congr 1
    refine List.ext_getElem (copyRows.trans rows.symm) fun i inCopy inData => ?_
    have columns := each data[i] (List.getElem_mem inData)
    have copyColumns := eachCopy copy[i] (List.getElem_mem inCopy)
    refine List.ext_getElem (copyColumns.trans columns.symm) fun k atCopy atData => ?_
    apply same_slot jsonReport summaryFile runs labels other perm state permuted filled again bench i k
    · simp [slotAt, found, inData, atData]
    · simp [slotAt, copied, inCopy, atCopy]
  · rw [AList.lookup_eq_none.mpr present, AList.lookup_eq_none.mpr (mt held.mp present)]

structure Organized (result : Results) : Prop where
  benchmarks : ∀ bench, bench ∈ result ↔ ∃ run ∈ runs, run.benchmark.name = bench
  label_lists : ∀ bench data, result.lookup bench = some data → data.length = labels.length ∧
    ∀ slots ∈ data, slots.length = highestIteration runs bench
  own_slot : ∀ run ∈ runs, ∀ keyvals, run.result = some keyvals → ∃ i slot, labels[i]? = some run.label ∧
    slotAt result run.benchmark.name i (run.iteration - 1) = some slot ∧ SlotHolds jsonReport summaryFile run keyvals slot
  empty_slot : ∀ bench i k slot, slotAt result bench i k = some slot →
    (∀ run ∈ runs, run.result.isSome → ¬ Lands labels bench i k run) → slot = newKeyvals

theorem results_land_in_their_slots (str : Value → Option Text) (benchmarks : List Benchmark) (organizable : Organizable runs labels) :
    ∃ result, organizeResults str summaryFile runs labels benchmarks jsonReport = some (result, benchmarks) ∧
      Organized jsonReport summaryFile runs labels result ∧ ∀ other : List BenchmarkRun, other.Perm runs →
        ∃ permuted, organizeResults str summaryFile other labels benchmarks jsonReport = some (permuted, benchmarks) ∧
          ∀ bench, permuted.lookup bench = result.lookup bench := by
  obtain ⟨state, ran, filled⟩ := organize_results_filled jsonReport summaryFile runs labels str benchmarks organizable
  refine ⟨state.1, ran, ⟨filled.shaped.benches, filled.shaped.lists, fun run member keyvals result => ?_, filled.empty⟩,
    fun other perm => ?_⟩
  · obtain ⟨i, _, named⟩ := label_index labels run.label (organizable.listed run member)
    obtain ⟨slot, made, holds⟩ := run_slot_holds jsonReport summaryFile run keyvals (organizable.retval run member keyvals result)
    exact ⟨i, slot, named, (filled.own run member keyvals result i named).trans made, holds⟩
  · obtain ⟨permuted, again, refilled⟩ := organize_results_filled jsonReport summaryFile other labels str benchmarks
      (perm_organizable runs other labels perm organizable)
    exact ⟨permuted.1, again, same_lookup jsonReport summaryFile runs labels other perm state permuted filled refilled⟩

end Results

def sampleBenchmark : Benchmark := ⟨['b'], ['t'], false, 2, false⟩

-- The second iteration of one label without its first, and a run that failed.
def sampleRuns : List BenchmarkRun :=
  [⟨sampleBenchmark, ['m'], 2, some (newKeyvals.insert retvalKey (.int 0)), none, by decide⟩,
    ⟨sampleBenchmark, ['n'], 1, none, none, by decide⟩]

theorem sample_runs_land : ∃ result,
    organizeResults (fun _ => none) ∅ sampleRuns [['m'], ['n']] [sampleBenchmark] false = some (result, [sampleBenchmark]) ∧
      Organized false ∅ sampleRuns [['m'], ['n']] result ∧ ∀ other : List BenchmarkRun, other.Perm sampleRuns →
        ∃ permuted, organizeResults (fun _ => none) ∅ other [['m'], ['n']] [sampleBenchmark] false = some (permuted, [sampleBenchmark]) ∧
          ∀ bench, permuted.lookup bench = result.lookup bench := by
  refine results_land_in_their_slots false ∅ sampleRuns [['m'], ['n']] (fun _ => none) [sampleBenchmark] ⟨by decide, by decide, by decide, ?_, ?_⟩
  · simp [sampleRuns]
  · intro run member keyvals result key held
    have same : keyvals = newKeyvals.insert retvalKey (.int 0) := by
      rcases List.mem_cons.mp member with rfl | later
      · exact (Option.some.inj result).symm
      · rw [List.mem_singleton.mp later] at result
        cases result
    rw [same] at held
    rcases (AList.mem_insert _).mp held with rfl | old
    · decide
    · exact absurd old (AList.notMem_empty key)

end ToolchainUtils.Crosperf.ResultsOrganizer
