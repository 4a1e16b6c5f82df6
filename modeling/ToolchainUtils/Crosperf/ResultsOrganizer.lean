import ToolchainUtils.Crosperf.Result

set_option autoImplicit false

namespace ToolchainUtils.Crosperf.ResultsOrganizer

open PyString CachedResults

structure Benchmark where
  name : Text
  testName : Text
  showAllResults : Bool
  iterations : Nat
  iterationAdjusted : Bool
deriving DecidableEq

structure Machine where
  name : Text
  checksum : Text
  checksumString : Text

-- result is the keyvals of the run's Result, and iterations count from 1.
structure BenchmarkRun where
  benchmark : Benchmark
  label : Text
  iteration : Nat
  result : Option Keyvals
  machine : Option Machine
  counted : 1 ≤ iteration

-- For each benchmark the list of its labels, for each label that of its runs.
abbrev Results := AList fun _ : Text => List (List Keyvals)

abbrev SummaryFile := AList fun _ : Text => List Text

-- An index from the end is negative, and one out of range an IndexError.
def pyIndex (length : Nat) (i : Int) : Option Nat :=
  if 0 ≤ i then if i.toNat < length then some i.toNat else none
  else if (-i).toNat ≤ length then some (length - (-i).toNat) else none

def iterationCount (runs : List BenchmarkRun) : AList fun _ : Text => Int :=
  runs.foldl (fun count run =>
    count.insert run.benchmark.name (max ((count.lookup run.benchmark.name).getD (-1)) run.iteration)) ∅

def outlineRun (count : AList fun _ : Text => Int) (labels : List Text) (result : Results) (run : BenchmarkRun) :
    Option Results :=
  (count.lookup run.benchmark.name).map fun numIterations =>
    result.insert run.benchmark.name (.replicate labels.length (.replicate numIterations.toNat newKeyvals))

def makeOrganizeResultOutline (runs : List BenchmarkRun) (labels : List Text) : Option Results :=
  runs.foldlM (outlineRun (iterationCount runs) labels) ∅

def labelIndices (labels : List Text) : AList fun _ : Text => Nat :=
  labels.zipIdx.foldl (fun indices pair => indices.insert pair.1 pair.2) ∅

-- What == 0 holds of.
def isZero : Value → Bool
  | .int n => n == 0
  | .bool b => !b
  | .float repr => repr == "0.0".toList || repr == "-0.0".toList
  | _ => false

-- show_all_results, summary_list and the table, to whose list 'retval' is appended in place.
def summaryOf (jsonReport : Bool) (benchmark : Benchmark) (summaryFile : SummaryFile) : Bool × List Text × SummaryFile :=
  if jsonReport || benchmark.showAllResults then (true, [], summaryFile)
  else match summaryFile.lookup benchmark.testName with
    | some (first :: rest) =>
        (false, first :: rest ++ [retvalKey], summaryFile.insert benchmark.testName (first :: rest ++ [retvalKey]))
    | _ => (true, [], summaryFile)

def fillDict (showAll : Bool) (summaryList : List Text) (keyvals curDict : Keyvals) : Keyvals :=
  keyvals.entries.foldl (fun curDict entry =>
    if showAll || summaryList.contains entry.1 then curDict.insert entry.1 entry.2 else curDict) curDict

-- A run that returned no results is forced to be a fail.
def forceFail (curDict : Keyvals) : Option Keyvals :=
  if curDict.keys.length = 1 then
    (curDict.lookup retvalKey).map fun retval => if isZero retval then curDict.insert retvalKey (.int 1) else curDict
  else some curDict

def machineKey : Text := "machine".toList

def machineChecksumKey : Text := "machine_checksum".toList

def machineStringKey : Text := "machine_string".toList

def addMachine (jsonReport : Bool) (machine : Option Machine) (curDict : Keyvals) : Keyvals :=
  match machine with
  | some machine =>
      if jsonReport then
        ((curDict.insert machineKey (.str machine.name)).insert machineChecksumKey (.str machine.checksum)).insert
          machineStringKey (.str machine.checksumString)
      else curDict
  | none => curDict

def organizeRun (labels : List Text) (jsonReport : Bool) (state : Results × SummaryFile) (run : BenchmarkRun) :
    Option (Results × SummaryFile) :=
  match run.result with
  | none => some state
  | some keyvals =>
      ((labelIndices labels).lookup run.label).bind fun labelIndex =>
        (state.1.lookup run.benchmark.name).bind fun data =>
          data[labelIndex]?.bind fun curLabelList =>
            (pyIndex curLabelList.length (run.iteration - 1)).bind fun slot =>
              curLabelList[slot]?.bind fun curDict =>
                let (showAll, summaryList, summaryFile) := summaryOf jsonReport run.benchmark state.2
                (forceFail (fillDict showAll summaryList keyvals curDict)).map fun filled =>
                  (state.1.insert run.benchmark.name
                    (data.set labelIndex (curLabelList.set slot (addMachine jsonReport run.machine filled))), summaryFile)

-- _DUP_KEY_REGEX at the start of a key: \w+, then digits in braces.
def wordChar (c : Char) : Bool := c.isAlphanum || c == '_'

def dupKey (key : Text) : Option (Text × Text) :=
  match key.dropWhile wordChar with
  | '\x7b' :: rest =>
      match rest.dropWhile Char.isDigit with
      | '\x7d' :: _ =>
          if (key.takeWhile wordChar).isEmpty || (rest.takeWhile Char.isDigit).isEmpty then none
          else some (key.takeWhile wordChar, rest.takeWhile Char.isDigit)
      | _ => none
  | _ => none

def indexOf (indexStr : Text) : Nat := Nat.ofDigitChars 10 indexStr 0

def maxDupOfKey (maxDup : Nat) (key : Text) : Nat :=
  match dupKey key with
  | some (_, indexStr) => max maxDup (indexOf indexStr)
  | none => maxDup

def getMaxDup (data : List (List Keyvals)) : Nat :=
  data.foldl (fun maxDup label => label.foldl (fun maxDup run => run.keys.foldl maxDupOfKey maxDup) maxDup) 0

-- new_run and added_runs after one more key; str is Python's and raises on what it cannot encode.
def splitKey (str : Value → Option Text) (state : Keyvals × List Keyvals) (entry : Σ _ : Text, Value) : Option (Keyvals × List Keyvals) :=
  match dupKey entry.1 with
  | none => some (state.1.insert entry.1 entry.2, state.2)
  | some (newKey, indexStr) => (str entry.2).bind fun text =>
      (pyIndex state.2.length (indexOf indexStr - 1)).map fun position =>
        (state.1, state.2.modify position fun added => added.insert newKey (.str text))

def splitRun (str : Value → Option Text) (maxDup : Nat) (run : Keyvals) : Option (Keyvals × List Keyvals) :=
  run.entries.foldlM (splitKey str) (newKeyvals, .replicate maxDup newKeyvals)

def getNonDupLabel (str : Value → Option Text) (maxDup : Nat) (runs : List Keyvals) : Option (List Keyvals) :=
  runs.foldlM (fun newRuns run => (splitRun str maxDup run).map fun made => newRuns ++ made.1 :: made.2) []

def adjustIteration (benchmarks : List Benchmark) (maxDup : Nat) (bench : Text) : List Benchmark :=
  benchmarks.map fun benchmark =>
    if benchmark.name ≠ bench ∨ benchmark.iterationAdjusted then benchmark
    else { benchmark with iterationAdjusted := true, iterations := benchmark.iterations * (maxDup + 1) }

def duplicateBench (str : Value → Option Text) (state : Results × List Benchmark) (entry : Σ _ : Text, List (List Keyvals)) :
    Option (Results × List Benchmark) :=
  if getMaxDup entry.2 = 0 then some state
  else (entry.2.mapM (getNonDupLabel str (getMaxDup entry.2))).map fun data =>
    (state.1.insert entry.1 data, adjustIteration state.2 (getMaxDup entry.2) entry.1)

def duplicatePass (str : Value → Option Text) (result : Results) (benchmarks : List Benchmark) : Option (Results × List Benchmark) :=
  result.entries.foldlM (duplicateBench str) (result, benchmarks)

-- The summary file is what _ReadSummaryFile returned.
def organizeResults (str : Value → Option Text) (summaryFile : SummaryFile) (runs : List BenchmarkRun) (labels : List Text)
    (benchmarks : List Benchmark) (jsonReport : Bool) : Option (Results × List Benchmark) :=
  (makeOrganizeResultOutline runs labels).bind fun outline =>
    (runs.foldlM (organizeRun labels jsonReport) (outline, summaryFile)).bind fun state =>
      duplicatePass str state.1 benchmarks

end ToolchainUtils.Crosperf.ResultsOrganizer
