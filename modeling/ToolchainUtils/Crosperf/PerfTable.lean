import ToolchainUtils.UpdatedEntries
import ToolchainUtils.Crosperf.OrganizedSlots

set_option autoImplicit false

namespace ToolchainUtils.Crosperf.PerfTable

open PyString UpdatedEntries
open ResultsOrganizer (labelIndices label_index)

section Model

variable {Pct : Type}

-- The share of each function in the time of one event.
abbrev FunctionPcts (Pct : Type) := AList fun _ : Text => Pct

abbrev PerfReport (Pct : Type) := AList fun _ : Text => FunctionPcts Pct

-- For each event the list of its labels, for each label that of its iterations.
abbrev BenData (Pct : Type) := AList fun _ : Text => List (List (FunctionPcts Pct))

abbrev PerfData (Pct : Type) := AList fun _ : Text => BenData Pct

@[ext]
structure PerfRun where
  label : Text
  benchmarkName : Text
  iteration : Nat
deriving DecidableEq

-- A list that is long enough already stays as it is.
def appendUntilLengthIs {Item : Type} (gen : Item) (list : List Item) (targetLen : Nat) : List Item :=
  list ++ .replicate (targetLen - list.length) gen

def filterDict [LE Pct] [DecidableLE Pct] (eventThreshold : Pct) (m : FunctionPcts Pct) : FunctionPcts Pct where
  entries := m.entries.filter fun entry => eventThreshold ≤ entry.2
  nodupKeys := m.nodupKeys.sublist List.filter_sublist

def filterPerfReport [LE Pct] [DecidableLE Pct] (eventThreshold : Pct) (report : PerfReport Pct) : PerfReport Pct :=
  mapValues (filterDict eventThreshold) report

def perfOfRun [LE Pct] [DecidableLE Pct] (eventThreshold : Option Pct) (perfReport : PerfReport Pct) : PerfReport Pct :=
  match eventThreshold with
  | some threshold => filterPerfReport threshold perfReport
  | none => perfReport

-- The events of a benchmark, none of them with data yet.
def noData (report : PerfReport Pct) : BenData Pct := mapValues (fun _ => []) report

def putIteration (labelIndex iteration : Nat) (functions : FunctionPcts Pct) (eventData : List (List (FunctionPcts Pct))) :
    List (List (FunctionPcts Pct)) :=
  (appendUntilLengthIs [] eventData (labelIndex + 1)).modify labelIndex fun dataForLabel =>
    (appendUntilLengthIs ∅ dataForLabel (iteration + 1)).set iteration functions

-- perf_of_run[event] is a KeyError where the run has data but not for this event.
def addIteration (report : PerfReport Pct) (labelIndex iteration : Nat) (event : Text) (eventData : List (List (FunctionPcts Pct))) :
    Option (List (List (FunctionPcts Pct))) :=
  (if report.entries.isEmpty then some ∅ else report.lookup event).map fun functions =>
    putIteration labelIndex iteration functions eventData

def addReport (labels : List Text) (report : PerfReport Pct) (run : PerfRun) (perfData : PerfData Pct) : Option (PerfData Pct) :=
  ((labelIndices labels).lookup run.label).bind fun labelIndex =>
    (updateEach (addIteration report labelIndex run.iteration) ((perfData.lookup run.benchmarkName).getD (noData report))).map
      fun benData => perfData.insert run.benchmarkName benData

def processPerfReport [LE Pct] [DecidableLE Pct] (eventThreshold : Option Pct) (labels : List Text) (perfReport : PerfReport Pct)
    (run : PerfRun) (perfData : PerfData Pct) : Option (PerfData Pct) :=
  addReport labels (perfOfRun eventThreshold perfReport) run perfData

def perfTable [LE Pct] [DecidableLE Pct] (eventThreshold : Option Pct) (readPerfReport : PerfRun → PerfReport Pct)
    (benchmarks : List (Text × Nat)) (labels : List Text) : Option (PerfData Pct) :=
  labels.foldlM (fun perfData label =>
    benchmarks.foldlM (fun perfData bench =>
      (List.range bench.2).foldlM (fun perfData i =>
        processPerfReport eventThreshold labels (readPerfReport ⟨label, bench.1, i⟩) ⟨label, bench.1, i⟩ perfData) perfData)
      perfData) ∅

end Model

section Lists

variable {Item : Type}

def slotOf (data : List (List Item)) (i k : Nat) : Option Item := data[i]?.bind fun slots => slots[k]?

theorem appended_get (gen : Item) (list : List Item) (targetLen k : Nat) (item : Item) (held : list[k]? = some item) :
    (appendUntilLengthIs gen list targetLen)[k]? = some item := by
  rw [appendUntilLengthIs, List.getElem?_append_left (List.getElem?_eq_some_iff.mp held).1, held]

theorem appended_long (gen : Item) (list : List Item) (targetLen : Nat) : targetLen ≤ (appendUntilLengthIs gen list targetLen).length := by
  rw [appendUntilLengthIs, List.length_append, List.length_replicate]
  omega

end Lists

section Put

variable {Pct : Type} (labelIndex iteration : Nat) (functions : FunctionPcts Pct) (eventData : List (List (FunctionPcts Pct)))

theorem put_iteration_same : slotOf (putIteration labelIndex iteration functions eventData) labelIndex iteration = some functions := by
  have inside := appended_long [] eventData (labelIndex + 1)
  rw [slotOf, putIteration, List.getElem?_modify_eq, List.getElem?_eq_getElem inside]
  exact List.getElem?_set_self (appended_long ∅ _ (iteration + 1))

theorem put_iteration_other (i k : Nat) (held : FunctionPcts Pct) (found : slotOf eventData i k = some held)
    (apart : ¬ (i = labelIndex ∧ k = iteration)) :
    slotOf (putIteration labelIndex iteration functions eventData) i k = some held := by
  obtain ⟨slots, listed, found⟩ := Option.bind_eq_some_iff.mp found
  have grown := appended_get [] eventData (labelIndex + 1) i slots listed
  by_cases here : labelIndex = i
  · have elsewhere : iteration ≠ k := fun same => apart ⟨here.symm, same.symm⟩
    rw [← here] at grown ⊢
    rw [slotOf, putIteration, List.getElem?_modify_eq, grown]
    exact (List.getElem?_set_ne elsewhere).trans (appended_get ∅ slots (iteration + 1) k held found)
  · rw [slotOf, putIteration, List.getElem?_modify_ne _ _ here, grown]
    exact found

end Put

end ToolchainUtils.Crosperf.PerfTable
