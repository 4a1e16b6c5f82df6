import ToolchainUtils.DejaGnu.TestRun

set_option autoImplicit false

namespace ToolchainUtils.DejaGnu

open PyString

namespace Manifest

def suppressibleResults : List Text := ["FAIL".toList, "UNRESOLVED".toList, "XPASS".toList, "ERROR".toList]

def fromDejaGnuTestRun (order : SetOrder TestResult) (run : TestRun) : Manifest where
  tool := run.tool
  board := run.board
  results := (order.list run.results).filter fun result => result.result ∈ suppressibleResults

def parameterMark : Text := "#@".toList

structure Reader where
  params : List (Text × Text)
  results : List TestResult

-- A line without its comment; none for an empty or a malformed line.
def readEntry (line : Text) : Option TestResult :=
  let text := strip (line.takeWhile fun c => c != '#')
  if text.isEmpty then none else fromLine text

def readParameter (line : Text) : Option (Text × Text) :=
  let text := line.drop parameterMark.length
  match text.dropWhile fun c => c != ':' with
  | [] => none
  | _ :: value => some (strip (text.takeWhile fun c => c != ':'), strip value)

def readLine (reader : Reader) (line : Text) : Reader :=
  if parameterMark.isPrefixOf line then { reader with params := (readParameter line).toList ++ reader.params }
  else { reader with results := reader.results ++ (readEntry line).toList }

def fromFile (text : Text) : Manifest :=
  let reader := (readlines text).foldl readLine ⟨[], []⟩
  ⟨(reader.params.lookup "tool".toList).getD ['*'], (reader.params.lookup "board".toList).getD ['*'], reader.results⟩

def parameterLine (name value : Text) : Text := parameterMark ++ ' ' :: name ++ ':' :: ' ' :: value ++ ['\n']

def generate (manifest : Manifest) : Text :=
  let sorted := manifest.results.insertionSort fun first second => first.result ≤ second.result
  parameterLine "tool".toList manifest.tool ++ parameterLine "board".toList manifest.board ++ '\n' ::
    sorted.flatMap fun result => result.str ++ ['\n']

end Manifest

-- The report of both directions: what the build has and the manifest has not, and
-- what the manifest has, not flaky, and the build has not.
def compareResults (manifest actual : Finset TestResult) : Finset TestResult × Finset TestResult :=
  (actual \ manifest, (manifest.filter fun result => !result.flaky) \ actual)

-- The failures of all the summaries of a build.
def actualFailures (order : SetOrder TestResult) (isDate : Text → Bool) (summaries : List Text) :
    Option (Finset TestResult) :=
  (summaries.mapM (TestRun.fromFile order isDate)).map fun runs =>
    runs.foldl (fun actual run => actual ∪ (Manifest.fromDejaGnuTestRun order run).results.toFinset) ∅

def checkExpectedResults (order : SetOrder TestResult) (isDate : Text → Bool) (manifest : Text) (summaries : List Text) :
    Option (Finset TestResult × Finset TestResult) :=
  (actualFailures order isDate summaries).map (compareResults (Manifest.fromFile manifest).results.toFinset)

-- none when the manifest exists and is not to be overwritten, or a summary is not read.
def produceManifest (order : SetOrder TestResult) (isDate : Text → Bool) (manifest : Option Text) (overwrite : Bool)
    (summaries : List Text) : Option Text :=
  if manifest.isSome && !overwrite then none
  else
    (summaries.mapM (TestRun.fromFile order isDate)).map fun runs =>
      ['\n'].intercalate (runs.map fun run => (Manifest.fromDejaGnuTestRun order run).generate)

end ToolchainUtils.DejaGnu
