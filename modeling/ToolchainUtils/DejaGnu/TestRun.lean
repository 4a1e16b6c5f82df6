import Mathlib.Data.Char
import Mathlib.Data.Finset.Image
import Mathlib.Data.List.Lex
import Mathlib.Data.List.Sort
import ToolchainUtils.Glob
import ToolchainUtils.DejaGnu.TestResult

set_option autoImplicit false

namespace ToolchainUtils.DejaGnu

open PyString

-- The order in which Python goes through a set.
structure SetOrder (α : Type) [DecidableEq α] where
  list : Finset α → List α
  nodup : ∀ elements, (list elements).Nodup
  mem_list : ∀ elements element, element ∈ list elements ↔ element ∈ elements

noncomputable def SetOrder.any (α : Type) [DecidableEq α] : SetOrder α where
  list := Finset.toList
  nodup := Finset.nodup_toList
  mem_list := fun _ _ => Finset.mem_toList

structure Manifest where
  tool : Text
  board : Text
  results : List TestResult

structure TestRun where
  board : Text
  tool : Text
  results : Finset TestResult
  deriving DecidableEq

namespace TestRun

def unknown : Text := "unknown".toList

def new : TestRun := ⟨unknown, unknown, ∅⟩

-- The text before and after the last `needle`, as a greedy group leaves it.
def splitLast (needle : Text) : Text → Option (Text × Text)
  | [] => if needle.isEmpty then some ([], []) else none
  | c :: rest =>
      ((splitLast needle rest).map fun parts => (c :: parts.1, parts.2)).or
        (if needle.isPrefixOf (c :: rest) then some ([], (c :: rest).drop needle.length) else none)

def after (start line : Text) : Option Text := if start.isPrefixOf line then some (line.drop start.length) else none

def boardField (line : Text) : Option Text := (after "Running target ".toList line).map strip

def dateField (line : Text) : Option Text :=
  ((after "Test Run By ".toList line).bind (splitLast " on ".toList)).map fun parts => strip parts.2

def toolField (line : Text) : Option Text :=
  ((after "=== ".toList line).bind (splitLast " tests ===".toList)).map fun parts => strip parts.1

-- The date, the target and the host are for the log only, but strptime raises on what
-- is not a date.
def readHeader (isDate : Text → Bool) (run : TestRun) (line : Text) : Option TestRun :=
  match boardField line, dateField line, toolField line with
  | some board, _, _ => some { run with board := board }
  | none, some date, _ => if isDate date then some run else none
  | none, none, some tool => some { run with tool := tool }
  | none, none, none => some run

def readLine (isDate : Text → Bool) (run : TestRun) (line : Text) : Option TestRun :=
  match fromLine line with
  | some result => some { run with results := insert result run.results }
  | none => readHeader isDate run line

def fromDejaGnuOutput (isDate : Text → Bool) (report : Text) : Option TestRun :=
  (((readlines report).filter fun line => strip line ≠ []).map strip).foldlM (readLine isDate) new

def fail : Text := "FAIL".toList

def unresolved : Text := "UNRESOLVED".toList

def unsupported : Text := "UNSUPPORTED".toList

def excessErrors : Text := "(test for excess errors)".toList

-- What is left of the results after the round of the loop for the results of one name.
def cleanGroup (kept : Finset TestResult) (group : List TestResult) : Finset TestResult :=
  match group with
  | [] => kept
  | first :: _ =>
      let results := group.toFinset
      let dependants :=
        if ⟨first.name, excessErrors, fail, false⟩ ∈ results then results.filter fun res => res.result ≠ fail else ∅
      let duplicates := (results.filter fun res => res.result = unsupported).image fun res =>
        { res with result := unresolved }
      (kept \ dependants) \ duplicates

def cleanUpTestResults (order : SetOrder TestResult) (run : TestRun) : TestRun :=
  let resultsByName := (order.list run.results).insertionSort fun first second => first.name ≤ second.name
  let groups := resultsByName.splitBy fun first second => first.name == second.name
  { run with results := groups.foldl cleanGroup run.results }

def fromFile (order : SetOrder TestResult) (isDate : Text → Bool) (report : Text) : Option TestRun :=
  (fromDejaGnuOutput isDate report).map (cleanUpTestResults order)

def isApplicable (run : TestRun) (manifest : Manifest) : Bool :=
  Glob.fnmatch manifest.tool run.tool && Glob.fnmatch manifest.board run.board

-- One result of the loop of SuppressTestResults: it is removed and added with the mark.
def suppress (results : Finset TestResult) (result : TestResult) : Finset TestResult :=
  insert { result with result := '!' :: result.result } (results.erase result)

-- The loop over the sorted set, in whatever order `sorted` leaves it.
def suppressTestResults (sorted : SetOrder TestResult) (run : TestRun) (manifests : List Manifest) : TestRun :=
  let manifestResults := (manifests.filter run.isApplicable).foldl
    (fun results manifest => results ∪ manifest.results.toFinset) ∅
  { run with results := (sorted.list (run.results ∩ manifestResults)).foldl suppress run.results }

end TestRun

end ToolchainUtils.DejaGnu
