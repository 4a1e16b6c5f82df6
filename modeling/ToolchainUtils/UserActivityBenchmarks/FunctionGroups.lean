import Mathlib.Algebra.BigOperators.Group.List.Basic
import Mathlib.Algebra.GroupWithZero.Nat
import Mathlib.Algebra.Ring.Int.Defs
import Mathlib.Algebra.Ring.Rat
import Mathlib.Data.Char
import Mathlib.Data.List.Lex
import ToolchainUtils.FailingFold
import ToolchainUtils.GroupedFold
import ToolchainUtils.UserActivityBenchmarks.FunctionKeys

set_option autoImplicit false

namespace ToolchainUtils.UserActivityBenchmarks

open PyString TextReplace FailingFold GroupedFold

-- `if path not in file_name: continue`, and `break` after the first that is. The four
-- routines differ in what they do in between.
def inFirstGroup {σ : Type} (fileName : Text) (entered : Text → Text → σ → σ) : List (Text × Text) → σ → σ
  | [], state => state
  | (group, path) :: rest, state =>
      if (find path fileName).isSome then entered group path state else inFirstGroup fileName entered rest state

structure ComponentMetrics where
  commonPath : Text
  functionCount : ℚ
  distanceCum : ℚ
  distanceAvg : ℚ
  scoreCum : ℚ
  scoreAvg : ℚ

-- The places 1, 2 and 4 of the default (0, 0.0, 0.0, 0.0, 0.0) are zero. It has one place less.
def addMetric (groupStatistic : Option ComponentMetrics) (added : Text × Text × ℚ × ℚ) : ComponentMetrics :=
  let functionCount := (groupStatistic.map (·.functionCount)).getD 0 + 1
  let functionDistanceCum := added.2.2.1 + (groupStatistic.map (·.distanceCum)).getD 0
  let functionScoreCum := added.2.2.2 + (groupStatistic.map (·.scoreCum)).getD 0
  { commonPath := added.1
    functionCount := functionCount
    distanceCum := functionDistanceCum
    distanceAvg := functionDistanceCum / functionCount
    scoreCum := functionScoreCum
    scoreAvg := functionScoreCum / functionCount }

-- none stands for the ValueError of a key that does not have two parts.
def computeMetricsForComponents (cwpFunctionGroups : List (Text × Text)) (functionMetrics : List (Text × ℚ × ℚ)) :
    Option (SortedDict Text ComponentMetrics) :=
  functionMetrics.foldlM (fun functionGroupsMetrics metric =>
    (twoParts [','] metric.1).map fun parts =>
      inFirstGroup parts.2 (fun group commonPath metrics => addTo addMetric metrics (group, commonPath, metric))
        cwpFunctionGroups functionGroupsMetrics) SortedDict.empty

def addKey (functions : Option (List Text)) (added : Text × Text) : List Text := functions.getD [] ++ [added.2]

def organizeCWPFunctionsInGroups (cwpInclusiveCountStatistics : List Text) (cwpFunctionGroups : List (Text × Text)) :
    Option (SortedDict Text (List Text)) :=
  cwpInclusiveCountStatistics.foldlM (fun cwpFunctionsGrouped functionKey =>
    (twoParts [','] functionKey).map fun parts =>
      inFirstGroup parts.2 (fun groupName filePath grouped => addTo addKey grouped (groupName, filePath, functionKey))
        cwpFunctionGroups cwpFunctionsGrouped) SortedDict.empty

-- A row of a file with the common functions of a benchmark.
structure CommonFunction where
  function : Text
  file : Text
  distance : ℚ
  score : ℚ

def CommonFunction.key (statistic : CommonFunction) : Text := statistic.function ++ ',' :: statistic.file

def CommonFunction.item (statistic : CommonFunction) : Text × ℚ × ℚ := (statistic.key, statistic.distance, statistic.score)

abbrev GroupedFunctions := SortedDict Text (SortedDict Text (ℚ × ℚ))

def addFunction (functions : Option (SortedDict Text (ℚ × ℚ))) (added : Text × CommonFunction) : SortedDict Text (ℚ × ℚ) :=
  (functions.getD SortedDict.empty).insert added.2.item.1 added.2.item.2

def groupBenchmarkFunctions (cwpFunctionGroups : List (Text × Text)) (statistics : List CommonFunction) : GroupedFunctions :=
  statistics.foldl (fun benchmarkFunctionsGrouped statistic =>
    inFirstGroup statistic.file (fun groupName filePath grouped => addTo addFunction grouped (groupName, filePath, statistic))
      cwpFunctionGroups benchmarkFunctionsGrouped) SortedDict.empty

-- A file gets its entry in the round of a row, so that one without rows has none.
def organizeBenchmarkSetFunctionsInGroups (benchmarkSetFiles : List Text) (statisticsReader : Text → List CommonFunction)
    (cwpFunctionGroups : List (Text × Text)) : SortedDict Text GroupedFunctions :=
  benchmarkSetFiles.foldl (fun benchmarkSetFunctionsGrouped benchmarkFileName =>
    if statisticsReader benchmarkFileName = [] then benchmarkSetFunctionsGrouped
    else
      benchmarkSetFunctionsGrouped.insert benchmarkFileName
        (groupBenchmarkFunctions cwpFunctionGroups (statisticsReader benchmarkFileName))) SortedDict.empty

inductive FunctionMarker where
  | common
  | extra
deriving DecidableEq, Repr

structure CwpStatistic where
  function : Text
  dso : Text
  inclusiveCount : Int
  inclusiveCountFraction : ℚ
  marker : FunctionMarker

-- A line is kept as its fields.
structure ExtraGroup where
  groupLines : List (Text × Text × Int × ℚ)
  groupCommonPath : Text
  groupInclusiveCount : Int
  groupInclusiveCountFraction : ℚ

def CwpStatistic.line (statistic : CwpStatistic) : Text × Text × Int × ℚ :=
  (statistic.function, statistic.dso, statistic.inclusiveCount, statistic.inclusiveCountFraction)

def addExtra (groupStatistics : Option ExtraGroup) (added : Text × CwpStatistic) : ExtraGroup :=
  let groupStatistics := groupStatistics.getD ⟨[], [], 0, 0⟩
  { groupLines := groupStatistics.groupLines ++ [added.2.line]
    groupCommonPath := added.1
    groupInclusiveCount := added.2.inclusiveCount + groupStatistics.groupInclusiveCount
    groupInclusiveCountFraction := added.2.inclusiveCountFraction + groupStatistics.groupInclusiveCountFraction }

-- The loop that fills cwp_function_groups_statistics. none stands for the IndexError of
-- function.split(',')[1].
def groupExtraFunctions (cwpStatistics : List CwpStatistic) (cwpFunctionGroups : List (Text × Text)) :
    Option (SortedDict Text ExtraGroup) :=
  cwpStatistics.foldlM (fun cwpFunctionGroupsStatistics statistics =>
    if statistics.marker = .common then some cwpFunctionGroupsStatistics
    else
      (splitAt [','] statistics.function)[1]?.map fun fileName =>
        inFirstGroup fileName (fun groupName groupCommonPath groups => addTo addExtra groups (groupName, groupCommonPath, statistics))
          cwpFunctionGroups cwpFunctionGroupsStatistics) SortedDict.empty

end ToolchainUtils.UserActivityBenchmarks
