import Mathlib.Algebra.Order.Group.Abs
import ToolchainUtils.UserActivityBenchmarks.BenchmarkMetrics

set_option autoImplicit false

namespace ToolchainUtils.UserActivityBenchmarks

open PyString GroupedFold

-- The loop over a dictionary that makes another one of its keys.
def forEntries {ν ω : Type} (made : Text → ν → Option ω) (dict : SortedDict Text ν) : Option (SortedDict Text ω) :=
  dict.entries.foldlM (fun result entry => (made entry.1 entry.2).map fun value => result.insert entry.1 value) SortedDict.empty

def addCount (count : Option Int) (added : Int) : Int := count.getD 0 + added

def computeCWPCummulativeInclusiveStatistics (cwpInclusiveCountStatistics : List CwpStatistic) : Option (SortedDict Text Int) :=
  cwpInclusiveCountStatistics.foldlM (fun cumulative statistics =>
    (twoParts [','] statistics.function).map fun parts => addTo addCount cumulative (parts.1, statistics.inclusiveCount))
    SortedDict.empty

-- A parent that CWP does not have gets zero fractions. none stands for the ZeroDivisionError.
def childFunctionsFractions (cumulative : SortedDict Text Int) (parent : Text) (childFunctionsMetrics : SortedDict Text ℚ) :
    Option (SortedDict Text ℚ) :=
  match cumulative.get? parent with
  | some parentInclusiveCount => forEntries (fun _ count => divided count parentInclusiveCount) childFunctionsMetrics
  | none => forEntries (fun _ _ => some 0) childFunctionsMetrics

def computeCWPChildFunctionsFractions (cumulative : SortedDict Text Int) (pairwise : SortedDict Text (SortedDict Text ℚ)) :
    Option (SortedDict Text (SortedDict Text ℚ)) :=
  forEntries (childFunctionsFractions cumulative) pairwise

-- What a pprof --tree line says of a child: its percentage is matched by [0-9.]+.
abbrev Percentage := {fraction : ℚ // 0 ≤ fraction}

def computeDistanceForFunction (sample : SortedDict Text Percentage) (reference : SortedDict Text ℚ) : ℚ :=
  let distance := reference.entries.foldl (fun distance child =>
    distance + |((sample.get? child.1).map Subtype.val).getD 0 - child.2|) 1
  sample.entries.foldl (fun distance child =>
    if (reference.get? child.1).isSome then distance else distance + child.2) distance

def computeScoreForFunction (distance referenceFraction sampleFraction : ℚ) : Option ℚ :=
  divided (referenceFraction * sampleFraction) distance

def computeMetricsForBenchmark (functionMetrics : List (Text × ℚ × ℚ)) : Option (ℚ × ℚ × ℚ × ℚ × ℚ) :=
  let functionCount : ℚ := functionMetrics.length
  let distanceCum := (functionMetrics.map fun metric => metric.2.1).sum
  let scoreCum := (functionMetrics.map fun metric => metric.2.2).sum
  (divided distanceCum functionCount).bind fun distanceAvg =>
    (divided scoreCum functionCount).map fun scoreAvg => (functionCount, distanceCum, distanceAvg, scoreCum, scoreAvg)

-- The flat, flat percentage, sum percentage and cumulative values are only written out.
structure PprofTop where
  key : Text
  flat : Text
  flatP : Text
  sumP : Text
  cum : Text
  cumP : ℚ

-- A line of a common functions file, as its fields.
structure CommonLine where
  cwp : CwpStatistic
  pprof : PprofTop
  distance : ℚ
  score : ℚ

structure Profile where
  pprofFile : Text
  top : List PprofTop
  tree : SortedDict Text (SortedDict Text Percentage)

structure CommonFunctionsFile where
  pprofFile : Text
  lines : List CommonLine
  groups : SortedDict Text ComponentMetrics
  metrics : ℚ × ℚ × ℚ × ℚ × ℚ

def markCommon (key : Text) (cwpInclusiveCountStatistics : List CwpStatistic) : List CwpStatistic :=
  cwpInclusiveCountStatistics.map fun statistics =>
    if statistics.function = key then { statistics with marker := .common } else statistics

-- A round of the loop over the functions of a profile.
def extractFunction (fractions : SortedDict Text (SortedDict Text ℚ)) (tree : SortedDict Text (SortedDict Text Percentage))
    (state : List CwpStatistic × List CommonLine) (function : PprofTop) : Option (List CwpStatistic × List CommonLine) :=
  match state.1.find? fun statistics => statistics.function = function.key with
  | none => some state
  | some statistics =>
      (twoParts [','] function.key).bind fun parts =>
        let distance := computeDistanceForFunction ((tree.get? function.key).getD SortedDict.empty)
          ((fractions.get? parts.1).getD SortedDict.empty)
        (computeScoreForFunction distance statistics.inclusiveCountFraction function.cumP).map fun score =>
          (markCommon function.key state.1, state.2 ++ [⟨statistics, function, distance, score⟩])

def CommonLine.metric (line : CommonLine) : Text × ℚ × ℚ := (line.pprof.key, line.distance, line.score)

-- A round of the loop over the profiles. The lines are written by falling score.
def extractProfile (cwpFunctionGroups : List (Text × Text)) (fractions : SortedDict Text (SortedDict Text ℚ))
    (state : List CwpStatistic × List CommonFunctionsFile) (profile : Profile) :
    Option (List CwpStatistic × List CommonFunctionsFile) :=
  (profile.top.foldlM (extractFunction fractions profile.tree) (state.1, [])).bind fun extracted =>
    (computeMetricsForComponents cwpFunctionGroups (extracted.2.map CommonLine.metric)).bind fun groups =>
      (computeMetricsForBenchmark (extracted.2.map CommonLine.metric)).map fun metrics =>
        (extracted.1, state.2 ++ [⟨profile.pprofFile,
          extracted.2.mergeSort fun first second => decide (second.score ≤ first.score), groups, metrics⟩])

def extractCommonFunctions (profiles : List Profile) (cwpInclusiveCountStatistics : List CwpStatistic)
    (pairwise : SortedDict Text (SortedDict Text ℚ)) (cwpFunctionGroups : List (Text × Text)) :
    Option (List CwpStatistic × List CommonFunctionsFile) :=
  (computeCWPCummulativeInclusiveStatistics cwpInclusiveCountStatistics).bind fun cumulative =>
    (computeCWPChildFunctionsFractions cumulative pairwise).bind fun fractions =>
      profiles.foldlM (extractProfile cwpFunctionGroups fractions) (cwpInclusiveCountStatistics, [])

end ToolchainUtils.UserActivityBenchmarks
