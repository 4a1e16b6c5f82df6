import Mathlib.Algebra.Group.Prod
import Mathlib.Algebra.Order.Ring.Rat
import Mathlib.Data.Finset.Card
import ToolchainUtils.UserActivityBenchmarks.FunctionGroups

set_option autoImplicit false

namespace ToolchainUtils.UserActivityBenchmarks

open PyString GroupedFold

-- The first and the second value of a metric, and those of each group.
abbrev SetMetrics := (ℚ × ℚ) × SortedDict Text (ℚ × ℚ)

def cwpFunctionsCount (cwpFunctions : SortedDict Text (List Text)) : Nat :=
  (cwpFunctions.entries.map fun entry => entry.2.length).sum

-- none stands for the ZeroDivisionError.
def divided (amount divisor : ℚ) : Option ℚ := if divisor = 0 then none else some (amount / divisor)

-- The second pass of the three functions: a value for every group, and a running total.
def forEachGroup {ν ω γ : Type} [AddMonoid γ] (made : Text → ν → Option ω) (amount : ν → γ)
    (groups : SortedDict Text ν) : Option (SortedDict Text ω × γ) :=
  groups.entries.foldlM (fun state entry =>
    (made entry.1 entry.2).map fun value => (state.1.insert entry.1 value, state.2 + amount entry.2)) (SortedDict.empty, 0)

def addFunctions (functions : Option (Finset Text)) (added : Finset Text) : Finset Text := functions.getD ∅ ∪ added

def setGroupsFunctions (setFunctionMetrics : List GroupedFunctions) : SortedDict Text (Finset Text) :=
  setFunctionMetrics.foldl (fun groups benchmarkFunctionMetrics =>
    benchmarkFunctionMetrics.entries.foldl (fun groups entry => addTo addFunctions groups (entry.1, entry.2.keys.toFinset)) groups)
    SortedDict.empty

def groupFunctionCount (cwpFunctions : SortedDict Text (List Text)) (groupName : Text) (functions : Finset Text) :
    Option (ℚ × ℚ) :=
  match cwpFunctions.get? groupName with
  | some given => (divided functions.card given.length).map fun fraction => ((functions.card : ℚ), fraction)
  | none => some (functions.card, 0)

def computeFunctionCountForBenchmarkSet (setFunctionMetrics : List GroupedFunctions) (cwpFunctions : SortedDict Text (List Text)) :
    Option SetMetrics :=
  (forEachGroup (groupFunctionCount cwpFunctions) (fun functions => (functions.card : ℚ))
    (setGroupsFunctions setFunctionMetrics)).bind fun counted =>
      (divided counted.2 (cwpFunctionsCount cwpFunctions)).map fun fraction => ((counted.2, fraction), counted.1)

-- The loops over the benchmarks, their groups and the functions of these.
def gatherUnique (add : Option ℚ → ℚ × ℚ → ℚ) (setFunctionMetrics : List GroupedFunctions) :
    SortedDict Text (SortedDict Text ℚ) :=
  setFunctionMetrics.foldl (fun unique benchmarkFunctionMetrics =>
    benchmarkFunctionMetrics.entries.foldl (fun unique group =>
      group.2.entries.foldl (fun unique function => addTo (addWithin add) unique (group.1, function.1, function.2)) unique)
      unique) SortedDict.empty

-- The minimum of a distance and the default, infinity, is the distance.
def minDistance (previousDistance : Option ℚ) (metrics : ℚ × ℚ) : ℚ := previousDistance.elim metrics.1 (min metrics.1)

def groupDistanceVariation (functionsDistances : SortedDict Text ℚ) : ℚ :=
  (functionsDistances.entries.map Prod.snd).sum - functionsDistances.entries.length

def computeDistanceForBenchmarkSet (setFunctionMetrics : List GroupedFunctions) (_cwpFunctions : SortedDict Text (List Text)) :
    Option SetMetrics :=
  (forEachGroup (fun _ functionsDistances =>
      (divided (groupDistanceVariation functionsDistances) functionsDistances.entries.length).map fun perFunction =>
        (perFunction, groupDistanceVariation functionsDistances))
    (fun functionsDistances => (groupDistanceVariation functionsDistances, functionsDistances.entries.length))
    (gatherUnique minDistance setFunctionMetrics)).bind fun varied =>
      (divided varied.2.1 varied.2.2).map fun perFunction => ((perFunction, varied.2.1), varied.1)

def maxScore (previousScore : Option ℚ) (metrics : ℚ × ℚ) : ℚ := max metrics.2 (previousScore.getD 0)

def groupScore (functionScores : SortedDict Text ℚ) : ℚ := (functionScores.entries.map Prod.snd).sum

-- A group that CWP does not have gets an empty list from the default dictionary.
def computeScoreForBenchmarkSet (setFunctionMetrics : List GroupedFunctions) (cwpFunctions : SortedDict Text (List Text)) :
    Option SetMetrics :=
  (forEachGroup (fun groupName functionScores =>
      (divided (groupScore functionScores) ((cwpFunctions.get? groupName).getD []).length).map fun fraction =>
        (fraction, groupScore functionScores))
    groupScore (gatherUnique maxScore setFunctionMetrics)).bind fun scored =>
      (divided scored.2 (cwpFunctionsCount cwpFunctions)).map fun fraction => ((fraction, scored.2), scored.1)

end ToolchainUtils.UserActivityBenchmarks
