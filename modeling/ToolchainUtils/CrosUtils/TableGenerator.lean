import Mathlib.Data.Char
import Mathlib.Data.List.Lex
import ToolchainUtils.ItemByItem
import ToolchainUtils.Crosperf.JsonReport

set_option autoImplicit false

namespace ToolchainUtils.CrosUtils.Tabulator

open PyString ItemByItem
open Crosperf.CachedResults (Value Keyvals)
open Crosperf.JsonReport (Number float floatLimit floatText)

-- How values compare with each other, and numbers with numbers, in max, min and sorted.
structure Comparison where
  Rank : Type
  ofValue : Value → Rank
  ofNumber : Number → Rank
  le : Rank → Rank → Bool

inductive SortBy where
  | keys
  | keysDesc
  | values
  | valuesDesc
deriving DecidableEq

structure Row where
  key : Text
  values : List (List Value)

structure Table where
  keyName : Text
  labels : List Text
  rows : List Row

abbrev Runs := List (List Keyvals)

def aggregateKeys (runs : Runs) : List Text := (runs.flatMap fun runList => runList.flatMap AList.keys).dedup

def valuesOf (runs : Runs) (key : Text) : List Value := runs.flatMap fun runList => runList.filterMap fun run => run.lookup key

def stripNone (results : List Value) : List Value := results.filter fun result =>
  match result with
  | .null => false
  | _ => true

-- float() of a list or a dictionary is a TypeError, that of a large integer an
-- OverflowError, and IsFloat catches neither.
def isFloat : Value → Option Bool
  | .null => some false
  | .str text => some (floatText text)
  | value => (float value).map fun _ => true

def ranks (python : Comparison) (values : List Value) : Option (List python.Rank) :=
  (values.mapM isFloat).bind fun floats =>
    if floats.all id then (values.mapM float).map fun numbers => numbers.map python.ofNumber
    else some (values.map python.ofValue)

-- max and min of nothing are a ValueError.
def extreme {Rank : Type} (keeps : Rank → Rank → Bool) : List Rank → Option Rank
  | [] => none
  | first :: rest => some (rest.foldl (fun best item => if keeps best item then best else item) first)

def getHighestValue (python : Comparison) (runs : Runs) (key : Text) : Option python.Rank :=
  (ranks python (stripNone (valuesOf runs key))).bind (extreme fun best item => python.le item best)

def getLowestValue (python : Comparison) (runs : Runs) (key : Text) : Option python.Rank :=
  (ranks python (stripNone (valuesOf runs key))).bind (extreme fun best item => python.le best item)

def sortedBy {Rank : Type} (le : Rank → Rank → Bool) (rank : Text → Option Rank) (keys : List Text) : Option (List Text) :=
  (keys.mapM fun key => (rank key).map fun value => (key, value)).map fun ranked =>
    (ranked.mergeSort fun first second => le first.2 second.2).map Prod.fst

-- The sort by descending keys is not implemented and fails its assertion.
def sortKeys (python : Comparison) (sort : SortBy) (runs : Runs) (keys : List Text) : Option (List Text) :=
  match sort with
  | .keys => some (keys.mergeSort fun first second => first ≤ second)
  | .keysDesc => none
  | .values => sortedBy python.le (getLowestValue python runs) keys
  | .valuesDesc => sortedBy (fun first second => python.le second first) (getHighestValue python runs) keys

-- The values of one label so far and the last unit seen.
def addRunValue (key : Text) (state : List Value × Option Value) (run : Keyvals) : Option (List Value × Option Value) :=
  match run.lookup key with
  | none => some (state.1 ++ [.null], state.2)
  | some (.list (value :: unit :: _)) => some (state.1 ++ [value], some unit)
  | some (.list _) => none
  | some value => some (state.1 ++ [value], state.2)

def addRunList (key : Text) (state : List (List Value) × Option Value) (runList : List Keyvals) :
    Option (List (List Value) × Option Value) :=
  (runList.foldlM (addRunValue key) ([], state.2)).map fun made => (state.1 ++ [made.1], made.2)

def withUnit (str : Value → Option Text) (key : Text) : Option Value → Option Text
  | none => some key
  | some unit => if unit.truthy then (str unit).map fun name => key ++ " (".toList ++ name ++ ") ".toList else some key

def rowOf (str : Value → Option Text) (runs : Runs) (key : Text) : Option Row :=
  (runs.foldlM (addRunList key) ([], none)).bind fun made => (withUnit str key made.2).map fun name => ⟨name, made.1⟩

-- The loop stops after number_of_rows rows, and never if that is 0.
def getTable (str : Value → Option Text) (python : Comparison) (sort : SortBy) (keyName : Text) (numberOfRows : Nat) (runs : Runs)
    (labels : List Text) : Option Table :=
  (sortKeys python sort runs (aggregateKeys runs)).bind fun keys =>
    ((if numberOfRows = 0 then keys else keys.take numberOfRows).mapM (rowOf str runs)).map fun rows => ⟨keyName, labels, rows⟩

theorem add_run_list_length (runs : Runs) (key : Text) (start made : List (List Value) × Option Value)
    (ran : runs.foldlM (addRunList key) start = some made) : made.1.length = start.1.length + runs.length := by
  induction runs generalizing start with
  | nil =>
      obtain rfl := Option.some.inj ran
      rfl
  | cons runList rest ih =>
      rw [List.foldlM_cons] at ran
      obtain ⟨next, stepped, ran⟩ := Option.bind_eq_some_iff.mp ran
      obtain ⟨label, _, rfl⟩ := Option.map_eq_some_iff.mp stepped
      rw [ih _ ran, List.length_append, List.length_cons, List.length_cons, List.length_nil]
      omega

theorem row_values (str : Value → Option Text) (runs : Runs) (key : Text) (row : Row) (made : rowOf str runs key = some row) :
    row.values.length = runs.length := by
  obtain ⟨values, ran, made⟩ := Option.bind_eq_some_iff.mp made
  obtain ⟨name, _, rfl⟩ := Option.map_eq_some_iff.mp made
  rw [add_run_list_length runs key ([], none) values ran]
  exact Nat.zero_add _

theorem sorted_by_length {Rank : Type} (le : Rank → Rank → Bool) (rank : Text → Option Rank) (keys sorted : List Text)
    (ran : sortedBy le rank keys = some sorted) : sorted.length = keys.length := by
  obtain ⟨ranked, made, rfl⟩ := Option.map_eq_some_iff.mp ran
  rw [List.length_map, List.length_mergeSort, ((made_iff _ keys ranked).mp made).length_eq]

theorem sort_keys_length (python : Comparison) (sort : SortBy) (runs : Runs) (keys sorted : List Text)
    (ran : sortKeys python sort runs keys = some sorted) : sorted.length = keys.length := by
  cases sort with
  | keys =>
      obtain rfl := Option.some.inj ran
      exact List.length_mergeSort keys
  | keysDesc => cases ran
  | values => exact sorted_by_length python.le (getLowestValue python runs) keys sorted ran
  | valuesDesc => exact sorted_by_length (fun first second => python.le second first) (getHighestValue python runs) keys sorted ran

-- What the formatter finds in a table: its labels, some rows, and a list of values for each
-- list of runs in every row.
structure Generated (runs : Runs) (labels : List Text) (table : Table) : Prop where
  labels : table.labels = labels
  rows : table.rows ≠ []
  values : ∀ row ∈ table.rows, row.values.length = runs.length

theorem get_table_generated (str : Value → Option Text) (python : Comparison) (sort : SortBy) (keyName : Text) (numberOfRows : Nat)
    (runs : Runs) (labels : List Text) (table : Table) (someKey : aggregateKeys runs ≠ [])
    (made : getTable str python sort keyName numberOfRows runs labels = some table) : Generated runs labels table := by
  obtain ⟨keys, sorted, made⟩ := Option.bind_eq_some_iff.mp made
  obtain ⟨rows, each, rfl⟩ := Option.map_eq_some_iff.mp made
  have related := (made_iff _ _ rows).mp each
  have some_sorted : 0 < keys.length := by
    rw [sort_keys_length python sort runs _ keys sorted]
    exact List.length_pos_iff.mpr someKey
  refine ⟨rfl, fun nothing => ?_, fun row member => ?_⟩
  · have count := related.length_eq
    rw [show rows = [] from nothing, List.length_nil] at count
    split at count
    · omega
    · rw [List.length_take] at count
      omega
  · obtain ⟨key, _, made⟩ := related_to_member _ _ rows related row member
    exact row_values str runs key row made

end ToolchainUtils.CrosUtils.Tabulator
