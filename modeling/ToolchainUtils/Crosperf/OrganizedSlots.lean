import ToolchainUtils.FailingFold
import ToolchainUtils.Crosperf.ResultsOrganizer

set_option autoImplicit false

namespace ToolchainUtils.Crosperf.ResultsOrganizer

open PyString CachedResults

section Filling

variable (jsonReport : Bool) (summaryFile : SummaryFile)

-- The keys that the summary list of a benchmark lets through.
def Admitted (benchmark : Benchmark) (key : Text) : Prop :=
  jsonReport = true ∨ benchmark.showAllResults = true ∨ (summaryFile.lookup benchmark.testName).getD [] = [] ∨
    key ∈ (summaryFile.lookup benchmark.testName).getD [] ∨ key = retvalKey

def admits (benchmark : Benchmark) (key : Text) : Bool :=
  (summaryOf jsonReport benchmark summaryFile).1 || (summaryOf jsonReport benchmark summaryFile).2.1.contains key

theorem admits_iff (benchmark : Benchmark) (key : Text) :
    admits jsonReport summaryFile benchmark key = true ↔ Admitted jsonReport summaryFile benchmark key := by
  by_cases all : (jsonReport || benchmark.showAllResults) = true
  · simp only [admits, summaryOf, all, if_true, Bool.true_or, true_iff]
    rw [Bool.or_eq_true] at all
    exact all.elim .inl fun shown => .inr (.inl shown)
  · obtain ⟨noReport, notShown⟩ : jsonReport = false ∧ benchmark.showAllResults = false := by simpa using all
    simp only [admits, summaryOf, Admitted, noReport, notShown, Bool.or_self, if_false, Bool.false_eq_true, false_or]
    match summaryFile.lookup benchmark.testName with
    | none => simp
    | some [] => simp
    | some (first :: rest) => simp [or_assoc]

-- Appending 'retval' once more admits nothing new.
theorem admits_kept (other benchmark : Benchmark) (key : Text) :
    admits jsonReport (summaryOf jsonReport other summaryFile).2.2 benchmark key = admits jsonReport summaryFile benchmark key := by
  rw [Bool.eq_iff_iff, admits_iff, admits_iff]
  by_cases all : (jsonReport || other.showAllResults) = true
  · simp [summaryOf, all]
  · simp only [summaryOf, all, if_false, Bool.false_eq_true]
    cases found : summaryFile.lookup other.testName with
    | none => rfl
    | some list =>
        cases list with
        | nil => rfl
        | cons first rest =>
            by_cases same : benchmark.testName = other.testName
            · rw [Admitted, Admitted, same, AList.lookup_insert, found]
              simp only [Option.getD_some, reduceCtorEq, false_or, List.mem_append, List.mem_cons, List.cons_append,
                List.not_mem_nil, or_false]
              grind
            · simp only [Admitted, AList.lookup_insert_ne same]

theorem fill_entries_lookup (allow : Text → Bool) (entries : List (Σ _ : Text, Value)) (once : entries.NodupKeys)
    (curDict : Keyvals) (key : Text) :
    (entries.foldl (fun curDict entry => if allow entry.1 then curDict.insert entry.1 entry.2 else curDict) curDict).lookup key =
      if allow key then (entries.dlookup key).or (curDict.lookup key) else curDict.lookup key := by
  induction entries generalizing curDict with
  | nil => simp
  | cons entry rest ih =>
      obtain ⟨apart, once⟩ := List.nodupKeys_cons.mp once
      rw [List.foldl_cons, ih once]
      by_cases here : entry.1 = key
      · subst here
        have later : rest.dlookup entry.1 = none := List.dlookup_eq_none.mpr apart
        have found : (entry :: rest).dlookup entry.1 = some entry.2 := List.dlookup_cons_eq rest entry.1 entry.2
        by_cases ok : allow entry.1
        · simp [ok, later, found]
        · simp [ok]
      · have skipped : (entry :: rest).dlookup key = rest.dlookup key := List.dlookup_cons_ne _ _ (Ne.symm here)
        by_cases ok : allow entry.1
        · simp [ok, skipped, AList.lookup_insert_ne (Ne.symm here)]
        · simp [ok, skipped]

theorem fill_dict_lookup (showAll : Bool) (summaryList : List Text) (keyvals : Keyvals) (key : Text) :
    (fillDict showAll summaryList keyvals newKeyvals).lookup key =
      if showAll || summaryList.contains key then keyvals.lookup key else none := by
  rw [fillDict, fill_entries_lookup (fun key => showAll || summaryList.contains key) keyvals.entries keyvals.nodupKeys]
  simp [newKeyvals, AList.lookup]

-- What organizeRun puts into a slot that is still empty.
def runSlot (run : BenchmarkRun) (keyvals : Keyvals) : Option Keyvals :=
  (forceFail (fillDict (summaryOf jsonReport run.benchmark summaryFile).1 (summaryOf jsonReport run.benchmark summaryFile).2.1
    keyvals newKeyvals)).map (addMachine jsonReport run.machine)

def MachineField (run : BenchmarkRun) (key : Text) : Prop :=
  jsonReport = true ∧ run.machine.isSome ∧ (key = machineKey ∨ key = machineChecksumKey ∨ key = machineStringKey)

-- Nothing but retval is admitted.
def NoResults (benchmark : Benchmark) (keyvals : Keyvals) : Prop :=
  ∀ key ∈ keyvals, Admitted jsonReport summaryFile benchmark key → key = retvalKey

structure SlotHolds (run : BenchmarkRun) (keyvals slot : Keyvals) : Prop where
  kept : ∀ key value, keyvals.lookup key = some value → Admitted jsonReport summaryFile run.benchmark key →
    ¬ MachineField jsonReport run key → ¬ (key = retvalKey ∧ NoResults jsonReport summaryFile run.benchmark keyvals ∧ isZero value = true) →
      slot.lookup key = some value
  forced : ∀ value, keyvals.lookup retvalKey = some value → NoResults jsonReport summaryFile run.benchmark keyvals →
    isZero value = true → slot.lookup retvalKey = some (.int 1)
  machine : jsonReport = true → ∀ machine, run.machine = some machine → slot.lookup machineKey = some (.str machine.name) ∧
    slot.lookup machineChecksumKey = some (.str machine.checksum) ∧
      slot.lookup machineStringKey = some (.str machine.checksumString)
  nothing_else : ∀ key ∈ slot, MachineField jsonReport run key ∨
    key ∈ keyvals ∧ Admitted jsonReport summaryFile run.benchmark key

theorem add_machine_other (run : BenchmarkRun) (curDict : Keyvals) (key : Text) (other : ¬ MachineField jsonReport run key) :
    (addMachine jsonReport run.machine curDict).lookup key = curDict.lookup key := by
  cases here : run.machine with
  | none => rfl
  | some machine =>
      by_cases report : jsonReport = true
      · have apart : ¬ (key = machineKey ∨ key = machineChecksumKey ∨ key = machineStringKey) := fun field =>
          other ⟨report, by rw [here]; rfl, field⟩
        obtain ⟨first, second, third⟩ : key ≠ machineKey ∧ key ≠ machineChecksumKey ∧ key ≠ machineStringKey := by
          simpa [not_or] using apart
        rw [addMachine, if_pos report, AList.lookup_insert_ne third, AList.lookup_insert_ne second, AList.lookup_insert_ne first]
      · simp [addMachine, report]

theorem add_machine_fields (machine : Machine) (curDict : Keyvals) :
    (addMachine true (some machine) curDict).lookup machineKey = some (.str machine.name) ∧
      (addMachine true (some machine) curDict).lookup machineChecksumKey = some (.str machine.checksum) ∧
        (addMachine true (some machine) curDict).lookup machineStringKey = some (.str machine.checksumString) := by
  refine ⟨?_, ?_, AList.lookup_insert _⟩
  · rw [addMachine, if_pos rfl, AList.lookup_insert_ne (by decide), AList.lookup_insert_ne (by decide)]
    exact AList.lookup_insert _
  · rw [addMachine, if_pos rfl, AList.lookup_insert_ne (by decide)]
    exact AList.lookup_insert _

theorem one_key_iff (curDict : Keyvals) (retval : retvalKey ∈ curDict) :
    curDict.keys.length = 1 ↔ ∀ key ∈ curDict, key = retvalKey := by
  constructor
  · intro one key member
    obtain ⟨only, same⟩ := List.length_eq_one_iff.mp one
    rw [AList.mem_keys, same, List.mem_singleton] at member retval
    rw [member, retval]
  · intro alone
    have all : curDict.keys = [retvalKey] := by
      refine List.perm_singleton.mp ((List.perm_ext_iff_of_nodup curDict.keys_nodup (List.nodup_singleton _)).mpr fun key => ?_)
      rw [← AList.mem_keys, List.mem_singleton]
      exact ⟨alone key, fun same => same ▸ retval⟩
    rw [all]
    rfl

theorem force_fail_cases (curDict : Keyvals) (value : Value) (retval : curDict.lookup retvalKey = some value) :
    (forceFail curDict = some (curDict.insert retvalKey (.int 1)) ∧ (∀ key ∈ curDict, key = retvalKey) ∧ isZero value = true) ∨
      (forceFail curDict = some curDict ∧ ¬ ((∀ key ∈ curDict, key = retvalKey) ∧ isZero value = true)) := by
  have one := one_key_iff curDict (AList.lookup_isSome.mp (by rw [retval]; rfl))
  by_cases alone : ∀ key ∈ curDict, key = retvalKey
  · by_cases zero : isZero value = true
    · exact .inl ⟨by rw [forceFail, if_pos (one.mpr alone), retval, Option.map_some, if_pos zero], alone, zero⟩
    · exact .inr ⟨by rw [forceFail, if_pos (one.mpr alone), retval, Option.map_some, if_neg zero], fun both => zero both.2⟩
  · exact .inr ⟨by rw [forceFail, if_neg (mt one.mp alone)], fun both => alone both.1⟩

theorem retval_no_field (run : BenchmarkRun) : ¬ MachineField jsonReport run retvalKey := fun field =>
  absurd field.2.2 (by decide)

theorem machine_added_holds (run : BenchmarkRun) (keyvals curDict : Keyvals)
    (kept : ∀ key value, keyvals.lookup key = some value → Admitted jsonReport summaryFile run.benchmark key →
      ¬ (key = retvalKey ∧ NoResults jsonReport summaryFile run.benchmark keyvals ∧ isZero value = true) →
        curDict.lookup key = some value)
    (forced : ∀ value, keyvals.lookup retvalKey = some value → NoResults jsonReport summaryFile run.benchmark keyvals →
      isZero value = true → curDict.lookup retvalKey = some (.int 1))
    (admitted : ∀ key ∈ curDict, key ∈ keyvals ∧ Admitted jsonReport summaryFile run.benchmark key) :
    SlotHolds jsonReport summaryFile run keyvals (addMachine jsonReport run.machine curDict) := by
  have other := add_machine_other jsonReport run curDict
  refine ⟨fun key value found ok noField notForced => ?_, fun value found alone zero => ?_, fun report machine here => ?_,
    fun key member => ?_⟩
  · rw [other key noField]
    exact kept key value found ok notForced
  · rw [other retvalKey (retval_no_field jsonReport run)]
    exact forced value found alone zero
  · rw [here, report]
    exact add_machine_fields machine curDict
  · by_cases field : MachineField jsonReport run key
    · exact .inl field
    · rw [← AList.lookup_isSome, other key field, AList.lookup_isSome] at member
      exact .inr (admitted key member)

theorem run_slot_holds (run : BenchmarkRun) (keyvals : Keyvals) (retval : retvalKey ∈ keyvals) :
    ∃ slot, runSlot jsonReport summaryFile run keyvals = some slot ∧ SlotHolds jsonReport summaryFile run keyvals slot := by
  obtain ⟨value, found⟩ := Option.isSome_iff_exists.mp (AList.lookup_isSome.mpr retval)
  let filled := fillDict (summaryOf jsonReport run.benchmark summaryFile).1 (summaryOf jsonReport run.benchmark summaryFile).2.1
    keyvals newKeyvals
  have lookup (key : Text) : filled.lookup key =
      if admits jsonReport summaryFile run.benchmark key then keyvals.lookup key else none := fill_dict_lookup _ _ keyvals key
  have agrees (key : Text) (admitted : Admitted jsonReport summaryFile run.benchmark key) : filled.lookup key = keyvals.lookup key := by
    rw [lookup, if_pos ((admits_iff jsonReport summaryFile run.benchmark key).mpr admitted)]
  have member (key : Text) : key ∈ filled ↔ key ∈ keyvals ∧ Admitted jsonReport summaryFile run.benchmark key := by
    rw [← AList.lookup_isSome, ← AList.lookup_isSome, ← admits_iff, lookup]
    split <;> simp_all
  have alone : (∀ key ∈ filled, key = retvalKey) ↔ NoResults jsonReport summaryFile run.benchmark keyvals :=
    forall_congr' fun key => by rw [member, and_imp]
  have retvalAdmitted : Admitted jsonReport summaryFile run.benchmark retvalKey := .inr (.inr (.inr (.inr rfl)))
  rcases force_fail_cases filled value ((agrees retvalKey retvalAdmitted).trans found) with ⟨failed, only, zero⟩ | ⟨asIs, notBoth⟩
  · refine ⟨addMachine jsonReport run.machine (filled.insert retvalKey (.int 1)), ?_, machine_added_holds jsonReport summaryFile
      run keyvals _ (fun key other held ok notForced => ?_) (fun _ _ _ _ => AList.lookup_insert _) fun key held => ?_⟩
    · exact congrArg (Option.map (addMachine jsonReport run.machine)) failed
    · have elsewhere : key ≠ retvalKey := fun same => by
        subst same
        obtain rfl := Option.some.inj (found.symm.trans held)
        exact notForced ⟨rfl, alone.mp only, zero⟩
      rw [AList.lookup_insert_ne elsewhere, agrees key ok, held]
    · rcases (AList.mem_insert _).mp held with rfl | old
      · exact ⟨retval, retvalAdmitted⟩
      · exact (member key).mp old
  · refine ⟨addMachine jsonReport run.machine filled, ?_, machine_added_holds jsonReport summaryFile
      run keyvals filled (fun key other held ok _ => (agrees key ok).trans held) (fun other held noResults zero => ?_)
        fun key held => (member key).mp held⟩
    · exact congrArg (Option.map (addMachine jsonReport run.machine)) asIs
    · obtain rfl := Option.some.inj (found.symm.trans held)
      exact absurd ⟨alone.mpr noResults, zero⟩ notBoth

end Filling

section Shape

def highestIteration (runs : List BenchmarkRun) (bench : Text) : Nat :=
  (runs.filter fun run => run.benchmark.name = bench).foldl (fun highest run => max highest run.iteration) 0

def Ran (runs : List BenchmarkRun) (bench : Text) : Prop := ∃ run ∈ runs, run.benchmark.name = bench

structure Shaped (runs : List BenchmarkRun) (labels : List Text) (result : Results) : Prop where
  benches : ∀ bench, bench ∈ result ↔ Ran runs bench
  lists : ∀ bench data, result.lookup bench = some data → data.length = labels.length ∧
    ∀ slots ∈ data, slots.length = highestIteration runs bench

theorem ran_append (before : List BenchmarkRun) (last : BenchmarkRun) (bench : Text) :
    Ran (before ++ [last]) bench ↔ Ran before bench ∨ last.benchmark.name = bench := by
  simp [Ran, or_and_right, exists_or]

theorem highest_append (before : List BenchmarkRun) (last : BenchmarkRun) (bench : Text) :
    highestIteration (before ++ [last]) bench =
      if last.benchmark.name = bench then max (highestIteration before bench) last.iteration else highestIteration before bench := by
  by_cases same : last.benchmark.name = bench
  · simp [highestIteration, List.filter_append, same]
  · simp [highestIteration, List.filter_append, same]

theorem not_ran_highest (runs : List BenchmarkRun) (bench : Text) (unrun : ¬ Ran runs bench) : highestIteration runs bench = 0 := by
  have none_left : (runs.filter fun run => run.benchmark.name = bench) = [] := by
    rw [List.filter_eq_nil_iff]
    intro run member same
    exact unrun ⟨run, member, of_decide_eq_true same⟩
  rw [highestIteration, none_left]
  rfl

theorem iteration_count_lookup (runs : List BenchmarkRun) (bench : Text) :
    (Ran runs bench → (iterationCount runs).lookup bench = some (highestIteration runs bench : Int)) ∧
      (¬ Ran runs bench → (iterationCount runs).lookup bench = none) := by
  induction runs using List.reverseRecOn with
  | nil => exact ⟨fun ⟨_, absent, _⟩ => absurd absent List.not_mem_nil, fun _ => rfl⟩
  | append_singleton before last ih =>
      have step : iterationCount (before ++ [last]) = (iterationCount before).insert last.benchmark.name
          (max (((iterationCount before).lookup last.benchmark.name).getD (-1)) last.iteration) := by
        rw [iterationCount, List.foldl_append]
        rfl
      rw [step, ran_append, highest_append]
      by_cases same : last.benchmark.name = bench
      · subst same
        refine ⟨fun _ => ?_, fun unrun => absurd (.inr rfl) unrun⟩
        rw [AList.lookup_insert, if_pos rfl]
        by_cases earlier : Ran before last.benchmark.name
        · rw [ih.1 earlier, Option.getD_some]
          congr 1
          omega
        · rw [ih.2 earlier, not_ran_highest before _ earlier, Option.getD_none]
          congr 1
      · rw [AList.lookup_insert_ne (Ne.symm same), if_neg same, or_iff_left same]
        exact ih

theorem highest_reaches (runs : List BenchmarkRun) (run : BenchmarkRun) (member : run ∈ runs) :
    run.iteration ≤ highestIteration runs run.benchmark.name := by
  induction runs using List.reverseRecOn with
  | nil => exact absurd member List.not_mem_nil
  | append_singleton before last ih =>
      rw [highest_append]
      rcases List.mem_append.mp member with earlier | final
      · have reached := ih earlier
        split <;> omega
      · obtain rfl := List.mem_singleton.mp final
        rw [if_pos rfl]
        exact le_max_right _ _

def blankLists (runs : List BenchmarkRun) (labels : List Text) (bench : Text) : List (List Keyvals) :=
  .replicate labels.length (.replicate (highestIteration runs bench) newKeyvals)

theorem outline_runs (runs : List BenchmarkRun) (labels : List Text) (done : List BenchmarkRun) (among : ∀ run ∈ done, run ∈ runs) :
    ∃ outline, done.foldlM (outlineRun (iterationCount runs) labels) ∅ = some outline ∧ ∀ bench,
      (Ran done bench → outline.lookup bench = some (blankLists runs labels bench)) ∧ (¬ Ran done bench → bench ∉ outline) := by
  induction done using List.reverseRecOn with
  | nil => exact ⟨∅, rfl, fun bench => ⟨fun ⟨_, absent, _⟩ => absurd absent List.not_mem_nil, fun _ => AList.notMem_empty bench⟩⟩
  | append_singleton before last ih =>
      obtain ⟨outline, ran, blank⟩ := ih fun run member => among run (List.mem_append_left _ member)
      have count := (iteration_count_lookup runs last.benchmark.name).1
        ⟨last, among last (List.mem_append_right _ List.mem_cons_self), rfl⟩
      have stepped : outlineRun (iterationCount runs) labels outline last =
          some (outline.insert last.benchmark.name (blankLists runs labels last.benchmark.name)) := by
        rw [outlineRun, count]
        rfl
      refine ⟨outline.insert last.benchmark.name (blankLists runs labels last.benchmark.name), ?_, fun bench => ?_⟩
      · simp [List.foldlM_append, ran, stepped]
      · rw [ran_append]
        by_cases same : last.benchmark.name = bench
        · subst same
          exact ⟨fun _ => AList.lookup_insert _, fun unrun => absurd (.inr rfl) unrun⟩
        · rw [or_iff_left same, AList.lookup_insert_ne (Ne.symm same), AList.mem_insert, not_or]
          exact ⟨(blank bench).1, fun unrun => ⟨Ne.symm same, (blank bench).2 unrun⟩⟩

theorem outline_shaped (runs : List BenchmarkRun) (labels : List Text) :
    ∃ outline, makeOrganizeResultOutline runs labels = some outline ∧ Shaped runs labels outline ∧
      ∀ bench data, outline.lookup bench = some data → ∀ slots ∈ data, ∀ slot ∈ slots, slot = newKeyvals := by
  obtain ⟨outline, made, blank⟩ := outline_runs runs labels runs fun run member => member
  have lists (bench : Text) (data : List (List Keyvals)) (found : outline.lookup bench = some data) :
      data = blankLists runs labels bench := by
    have ran : Ran runs bench := by
      by_contra unrun
      exact (blank bench).2 unrun (AList.lookup_isSome.mp (by rw [found]; rfl))
    exact Option.some.inj (found.symm.trans ((blank bench).1 ran))
  refine ⟨outline, made, ⟨fun bench => ⟨fun held => ?_, fun ran => ?_⟩, fun bench data found => ?_⟩, fun bench data found slots listed slot held => ?_⟩
  · by_contra unrun
    exact (blank bench).2 unrun held
  · rw [← AList.lookup_isSome, (blank bench).1 ran]
    rfl
  · rw [lists bench data found]
    refine ⟨List.length_replicate, fun slots listed => ?_⟩
    rw [List.eq_of_mem_replicate listed, List.length_replicate]
  · rw [lists bench data found] at listed
    rw [List.eq_of_mem_replicate listed] at held
    exact List.eq_of_mem_replicate held

end Shape

section Slots

def slotAt (result : Results) (bench : Text) (i k : Nat) : Option Keyvals :=
  (result.lookup bench).bind fun data => data[i]?.bind fun slots => slots[k]?

def putSlot (result : Results) (bench : Text) (data : List (List Keyvals)) (slots : List Keyvals) (i k : Nat)
    (slot : Keyvals) : Results :=
  result.insert bench (data.set i (slots.set k slot))

variable (runs : List BenchmarkRun) (labels : List Text) (result : Results) (bench : Text) (data : List (List Keyvals))
  (slots : List Keyvals) (i k : Nat) (slot : Keyvals)

theorem put_slot_shaped (shaped : Shaped runs labels result) (found : result.lookup bench = some data)
    (listed : data[i]? = some slots) : Shaped runs labels (putSlot result bench data slots i k slot) := by
  refine ⟨fun other => ?_, fun other lists held => ?_⟩
  · rw [putSlot, AList.mem_insert, shaped.benches]
    refine or_iff_right_of_imp ?_
    rintro rfl
    exact (shaped.benches other).mp (AList.lookup_isSome.mp (by rw [found]; rfl))
  · by_cases same : other = bench
    · subst same
      rw [putSlot, AList.lookup_insert] at held
      obtain rfl := Option.some.inj held
      obtain ⟨length, each⟩ := shaped.lists other data found
      refine ⟨by rw [List.length_set, length], fun changed member => ?_⟩
      rcases List.mem_or_eq_of_mem_set member with old | rfl
      · exact each changed old
      · rw [List.length_set]
        exact each slots (List.mem_of_getElem? listed)
    · rw [putSlot, AList.lookup_insert_ne same] at held
      exact shaped.lists other lists held

theorem put_slot_same (listed : data[i]? = some slots) (inside : k < slots.length) :
    slotAt (putSlot result bench data slots i k slot) bench i k = some slot := by
  have range := (List.getElem?_eq_some_iff.mp listed).1
  simp [slotAt, putSlot, range, inside]

theorem put_slot_other (found : result.lookup bench = some data) (listed : data[i]? = some slots) (other : Text) (row column : Nat)
    (apart : ¬ (other = bench ∧ row = i ∧ column = k)) :
    slotAt (putSlot result bench data slots i k slot) other row column = slotAt result other row column := by
  by_cases same : other = bench
  · subst same
    obtain ⟨range, rfl⟩ := List.getElem?_eq_some_iff.mp listed
    by_cases here : row = i
    · subst here
      have elsewhere : k ≠ column := fun equal => apart ⟨rfl, rfl, equal.symm⟩
      simp [slotAt, putSlot, found, range, List.getElem?_set_ne elsewhere]
    · simp [slotAt, putSlot, found, List.getElem?_set_ne (Ne.symm here)]
  · rw [slotAt, putSlot, AList.lookup_insert_ne same, slotAt]

end Slots

theorem label_index (labels : List Text) (label : Text) (listed : label ∈ labels) :
    ∃ i, (labelIndices labels).lookup label = some i ∧ labels[i]? = some label := by
  induction labels using List.reverseRecOn with
  | nil => exact absurd listed List.not_mem_nil
  | append_singleton before last ih =>
      have step : labelIndices (before ++ [last]) = (labelIndices before).insert last before.length := by
        rw [labelIndices, List.zipIdx_append, List.foldl_append, ← labelIndices]
        simp
      rw [step]
      by_cases same : label = last
      · subst same
        exact ⟨before.length, AList.lookup_insert _, by simp⟩
      · have earlier : label ∈ before := (List.mem_append.mp listed).resolve_right fun final => same (List.mem_singleton.mp final)
        obtain ⟨i, found, named⟩ := ih earlier
        refine ⟨i, by rw [AList.lookup_insert_ne same, found], ?_⟩
        rw [List.getElem?_append_left (List.getElem?_eq_some_iff.mp named).1, named]

theorem iteration_index (length iteration : Nat) (first : 1 ≤ iteration) (reached : iteration ≤ length) :
    pyIndex length ((iteration : Int) - 1) = some (iteration - 1) := by
  have index : ((iteration : Int) - 1).toNat = iteration - 1 := by omega
  rw [pyIndex, if_pos (by omega), index, if_pos (by omega)]

theorem fill_dict_congr (showAll others : Bool) (summaryList list : List Text) (keyvals : Keyvals)
    (same : ∀ key, (showAll || summaryList.contains key) = (others || list.contains key)) :
    fillDict showAll summaryList keyvals newKeyvals = fillDict others list keyvals newKeyvals := by
  simp only [fillDict, same]

end ToolchainUtils.Crosperf.ResultsOrganizer
