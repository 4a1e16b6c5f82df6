import Mathlib.Algebra.Group.Nat.Defs
import Mathlib.Data.List.AList
import ToolchainUtils.PyString

set_option autoImplicit false

namespace ToolchainUtils.Crosperf.CachedResults

open PyString

-- A value of json.loads or of keyvals. A dictionary has its entries in the order in which
-- Python goes through them, a float is what repr prints.
inductive Value where
  | null
  | bool (b : Bool)
  | int (n : Int)
  | float (repr : Text)
  | str (text : Text)
  | list (items : List Value)
  | dict (entries : List (Text × Value))

namespace Value

def truthy : Value → Bool
  | null => false
  | bool b => b
  | int n => n != 0
  | float repr => repr != "0.0".toList && repr != "-0.0".toList
  | str text => !text.isEmpty
  | list items => !items.isEmpty
  | dict entries => !entries.isEmpty

def isStr (text : Text) : Value → Bool
  | str other => other == text
  | _ => false

-- What "for item in value: value[item]" goes through; anything but an empty sequence
-- or a dictionary raises.
def items : Value → Option (List (Text × Value))
  | dict entries => some entries
  | str [] => some []
  | list [] => some []
  | _ => none

def iteritems : Value → Option (List (Text × Value))
  | dict entries => some entries
  | _ => none

def charts : Value → Value
  | dict entries => (entries.lookup "charts".toList).getD (dict entries)
  | value => value

end Value

abbrev Fields := List (Text × Value)

abbrev Keyvals := AList fun _ : Text => Value

def newKeyvals : Keyvals := ∅

def sampleDigit (second : Bool) : Char := if second then '2' else '1'

def sampleNumber (second : Bool) : Int := if second then 2 else 1

def emptyText : Text := "\x7b\x7d".toList

def chartText (second : Bool) : Text :=
  "\x7b\"a\": \x7b\"b\": \x7b\"value\": ".toList ++ sampleDigit second :: ", \"units\": \"u\"\x7d\x7d\x7d".toList

def lineText (second : Bool) : Text :=
  "\x7b\"graph\": \"a\", \"description\": \"b\", \"value\": ".toList ++ sampleDigit second :: ", \"units\": \"u\"\x7d".toList

def valueKey : Text := "value".toList

def valuesKey : Text := "values".toList

def unitsKey : Text := "units".toList

-- json.loads, sum(values) / float(len(values)) and str(float(number) * factor), with what
-- is known of them about a few short texts.
structure Python where
  loads : Text → Option Value
  mean : Value → Option Value
  strFloat : Text → Nat → Text
  loads_empty : loads emptyText = some (.dict [])
  loads_chart : ∀ second, ∃ fields : Fields,
    loads (chartText second) = some (.dict [(['a'], .dict [(['b'], .dict fields)])]) ∧
      fields.lookup valueKey = some (.int (sampleNumber second)) ∧ fields.lookup unitsKey = some (.str ['u'])
  loads_line : ∀ second, ∃ fields : Fields, loads (lineText second) = some (.dict fields) ∧
    fields.lookup "charts".toList = none ∧ fields.lookup "graph".toList = some (.str ['a']) ∧
      fields.lookup "description".toList = some (.str ['b']) ∧
        fields.lookup valueKey = some (.int (sampleNumber second)) ∧ fields.lookup unitsKey = some (.str ['u'])
  floats_differ : strFloat ['1'] 1 ≠ strFloat ['2'] 1

-- A file by its folders below the directory's root and its name.
structure RelPath where
  folders : List Text
  name : Text
deriving DecidableEq

-- os.path.join with a second part that does not begin with a slash.
def joinPath (root rest : Text) : Text :=
  if root.isEmpty || root.getLast? == some '/' then root ++ rest else root ++ '/' :: rest

def RelPath.text (root : Text) (path : RelPath) : Text :=
  joinPath root (path.folders.flatMap (fun folder => folder ++ ['/']) ++ path.name)

abbrev Files := RelPath → Option Text

-- The listing is in the order in which find goes through the directory.
structure Directory where
  listing : List RelPath
  content : RelPath → Text

namespace Directory

def files (dir : Directory) : Files := fun path => if path ∈ dir.listing then some (dir.content path) else none

def findName (dir : Directory) (name : Text) : List RelPath := dir.listing.filter fun path => path.name == name

def write (dir : Directory) (path : RelPath) (text : Text) : Directory :=
  { listing := if path ∈ dir.listing then dir.listing else dir.listing ++ [path]
    content := Function.update dir.content path text }

end Directory

def resultsChart : Text := "results-chart.json".toList

def perfMeasurements : Text := "perf_measurements".toList

def perfData : Text := "perf.data".toList

def perfDataReport : Text := "perf.data.report".toList

def RelPath.report (path : RelPath) : RelPath := { path with name := path.name ++ ".report".toList }

def Directory.getDataMeasurementsFiles (dir : Directory) : List RelPath :=
  if (dir.findName perfMeasurements).isEmpty then dir.findName resultsChart else dir.findName perfMeasurements

-- tar --exclude of var/spool and var/log drops what is one of these or is below it.
def excluded : List Text → Bool
  | first :: second :: rest =>
      (first == "var".toList && (second == "spool".toList || second == "log".toList)) || excluded (second :: rest)
  | _ => false

def RelPath.archived (path : RelPath) : Bool := !excluded (path.folders ++ [path.name])

-- What the shell's * at the top of the directory does not match.
def RelPath.hidden (path : RelPath) : Bool := ((path.folders ++ [path.name]).head?.bind List.head?) == some '.'

def restrict (keep : RelPath → Bool) (files : Files) : Files := fun path => if keep path then files path else none

-- The key and the value of one line of generate_test_report; tokens[-2] raises if the
-- line has one token only.
def toolKeyval (dir line : Text) : Option (Text × Text) :=
  match (line.splitOnP fun c => c == '=' || c == ',').reverse with
  | value :: key :: _ => some (if dir.isPrefixOf key then key.drop (dir.length + 1) else key, value)
  | _ => none

-- generate_test_report prints lines about a directory, which it is given by name: once
-- the name is taken off they depend on the files only.
structure KeyvalsTool where
  lines : Text → Files → List Text
  of_content : ∀ dir other files, (lines dir files).map (toolKeyval dir) = (lines other files).map (toolKeyval other)

def scalarValues : Text := "list_of_scalar_values".toList

-- The mean of a list of scalars, and any other values as they are.
def resultOfValues (python : Python) (fields : Fields) (values : Value) : Option Value :=
  if (fields.lookup "type".toList).any (Value.isStr scalarValues) && values.truthy && !values.isStr "null".toList then
    python.mean values
  else some values

def underscored (first second : Text) : Text := first ++ '_' :: '_' :: second

-- One item of a chart in ProcessJsonResults. last is what the variable result still holds.
def jsonItem (python : Python) (key : Text) (state : Option Value × Keyvals) : Text × Value → Option (Option Value × Keyvals)
  | (item, .dict fields) =>
      let store := fun result => (fields.lookup unitsKey).map fun units =>
        (some result, state.2.insert (underscored key item) (.list [result, units]))
      match fields.lookup valueKey, fields.lookup valuesKey with
      | some value, _ => store value
      | none, some values => if values.truthy then (resultOfValues python fields values).bind store else some state
      | none, none => state.1.bind store
  | _ => none

def jsonField (python : Python) (state : Option Value × Keyvals) (field : Text × Value) : Option (Option Value × Keyvals) :=
  field.2.items.bind fun items => items.foldlM (jsonItem python field.1) state

-- ProcessJsonResults once the file is parsed.
def processRaw (python : Python) (raw : Value) : Option Keyvals :=
  raw.charts.iteritems.bind fun fields => (fields.foldlM (jsonField python) (none, newKeyvals)).map Prod.snd

def processJsonResults (python : Python) (root : Text) (dir : Directory) (filename : RelPath) : Option Keyvals :=
  if ".json".toList.isSuffixOf (filename.text root) then (python.loads (dir.content filename)).bind (processRaw python)
  else none

-- keyvals_dict and units_dict.
abbrev Measured := Keyvals × Keyvals

def chartItem (python : Python) (key : Text) (state : Measured) : Text × Value → Option Measured
  | (item, .dict fields) =>
      let keyvals :=
        match fields.lookup valueKey, fields.lookup valuesKey with
        | some value, _ => some (state.1.insert (underscored key item) value)
        | none, some values => (resultOfValues python fields values).map (state.1.insert (underscored key item))
        | none, none => some state.1
      keyvals.bind fun keyvals => (fields.lookup unitsKey).map fun units =>
        (keyvals, state.2.insert (underscored key item) units)
  | _ => none

def chartField (python : Python) (state : Measured) (field : Text × Value) : Option Measured :=
  field.2.items.bind fun items => items.foldlM (chartItem python field.1) state

def readChart (python : Python) (text : Text) (state : Measured) : Option Measured :=
  (python.loads text).bind fun raw => raw.charts.items.bind fun fields => fields.foldlM (chartField python) state

-- A falsy graph name of any type is left out, a truthy one that is no string raises.
def graphStr : Value → Option Text
  | .str [] => some []
  | .str (c :: name) => some (underscored (c :: name) [])
  | other => if other.truthy then none else some []

def strText : Value → Option Text
  | .str text => some text
  | _ => none

def measurementLine (python : Python) (state : Measured) (line : Text) : Option Measured :=
  (python.loads line).bind fun tmpDict => tmpDict.iteritems.bind fun fields =>
    ((fields.lookup "graph".toList).bind graphStr).bind fun graph =>
      ((fields.lookup "description".toList).bind strText).bind fun description =>
        (fields.lookup valueKey).bind fun value => (fields.lookup unitsKey).map fun units =>
          (state.1.insert (graph ++ description) value, state.2.insert (graph ++ description) units)

-- data_filename.find('.json') > 0.
def jsonNamed (root : Text) (filename : RelPath) : Bool := (find ".json".toList (filename.text root)).any fun n => 0 < n

def readDataFile (python : Python) (root : Text) (dir : Directory) (state : Measured) (filename : RelPath) : Option Measured :=
  if jsonNamed root filename then readChart python (dir.content filename) state
  else (readlines (dir.content filename)).foldlM (measurementLine python) state

-- Every file that find has just printed exists.
def getNewKeyvals (python : Python) (root : Text) (dir : Directory) (keyvals : Keyvals) : Option Measured :=
  dir.getDataMeasurementsFiles.foldlM (readDataFile python root dir)
    (keyvals, keyvals.keys.foldl (fun units key => units.insert key (.str [])) newKeyvals)

def telemetryCrosperf : Text := "telemetry_Crosperf".toList

def appendTelemetryUnits (keyvals units : Keyvals) : Option Keyvals :=
  keyvals.keys.foldlM (fun results key =>
    if key == [] || key == telemetryCrosperf then some results
    else (keyvals.lookup key).bind fun val => (units.lookup key).map fun unit =>
      results.insert key (.list [val, unit])) newKeyvals

def toolKeyvals (keyvals : List (Option (Text × Text))) : Option Keyvals :=
  keyvals.foldlM (fun keyvals keyval => keyval.map fun keyval => keyvals.insert keyval.1 (.str keyval.2)) newKeyvals

-- lines are what generate_test_report printed about the directory inside_chroot.
def getKeyvals (python : Python) (suite root : Text) (dir : Directory) (insideChroot : Text) (lines : List Text) :
    Option Keyvals :=
  (toolKeyvals (lines.map (toolKeyval insideChroot))).bind fun keyvals =>
    (getNewKeyvals python root dir keyvals).bind fun measured =>
      if suite == telemetryCrosperf then appendTelemetryUnits measured.1 measured.2 else some measured.1

def eventsText : Text := "Events: ".toList

-- The regular expression 'Events: (\S+) (\S+)' at the start of a text, with the length
-- of what it takes.
def eventAt (text : Text) : Option ((Text × Text) × Nat) :=
  if eventsText.isPrefixOf text then
    let number := word (text.drop eventsText.length)
    let rest := text.drop (eventsText.length + number.length)
    let name := word rest.tail
    if number.isEmpty || rest.head? != some ' ' || name.isEmpty then none
    else some ((number, name), eventsText.length + number.length + 1 + name.length)
  else none

-- re.findall; skip counts what is left of the last match.
def findEvents : Nat → Text → List (Text × Text)
  | _, [] => []
  | skip + 1, _ :: rest => findEvents skip rest
  | 0, c :: rest =>
      match eventAt (c :: rest) with
      | some (event, length) => event :: findEvents (length - 1) rest
      | none => findEvents 0 rest

def unitDict : List (Text × Nat) :=
  [("kilo".toList, 1000), ("mega".toList, 1000 ^ 2), ("giga".toList, 1000 ^ 3)]

-- str(misc.UnitToNumber(..)).
def unitToNumber (python : Python) (unitNum : Text) : Option Text :=
  let number := (unitNum.map Char.toLower).takeWhile Char.isDigit
  let unit := (unitNum.map Char.toLower).dropWhile Char.isDigit
  if number.isEmpty then none
  else if unit.isEmpty then some (python.strFloat number 1)
  else (unitDict.find? fun entry => unit.isPrefixOf entry.1).map fun entry => python.strFloat number entry.2

-- report_id stays 0.
def perfKey (eventName : Text) : Text := "perf_0_".toList ++ eventName

def gatherEvent (python : Python) (keyvals : Keyvals) (event : Text × Text) : Option Keyvals :=
  (unitToNumber python event.1).map fun number => keyvals.insert (perfKey event.2) (.str number)

def gatherReport (python : Python) (dir : Directory) (keyvals : Keyvals) (report : RelPath) : Option Keyvals :=
  (findEvents 0 (dir.content report)).foldlM (gatherEvent python) keyvals

def gatherPerfResults (python : Python) (dir : Directory) (reports : List RelPath) (keyvals : Keyvals) : Option Keyvals :=
  reports.foldlM (gatherReport python dir) keyvals

def mentionsChart (root : Text) (filename : RelPath) : Bool := (find resultsChart (filename.text root)).isSome

def collectedKeyvals (python : Python) (suite root : Text) (dir : Directory) (resultsFile : List RelPath)
    (insideChroot : Text) (lines : List Text) : Option Keyvals :=
  match resultsFile.head?.filter (mentionsChart root) with
  | some filename => processJsonResults python root dir filename
  | none => getKeyvals python suite root dir insideChroot lines

def retvalKey : Text := "retval".toList

def processResults (python : Python) (suite : Text) (retval : Int) (root : Text) (dir : Directory)
    (resultsFile reports : List RelPath) (insideChroot : Text) (lines : List Text) : Option Keyvals :=
  (collectedKeyvals python suite root dir resultsFile insideChroot lines).bind fun keyvals =>
    gatherPerfResults python dir reports (keyvals.insert retvalKey (.int retval))

-- perf report writes a file for each perf.data, unless there is one already.
def generatePerfReportFiles (perfReport : Text → Text) : List RelPath → Directory → Option (List RelPath × Directory)
  | [], dir => some ([], dir)
  | data :: rest, dir =>
      if data.report ∈ dir.listing then none
      else
        (generatePerfReportFiles perfReport rest (dir.write data.report (perfReport (dir.content data)))).map fun made =>
          (data.report :: made.1, made.2)

def placedText : Text := "Results placed in ".toList

def getResultsDir : Text → Option Text
  | [] => none
  | c :: rest =>
      let dir := word ((c :: rest).drop placedText.length)
      if placedText.isPrefixOf (c :: rest) && !dir.isEmpty then some dir else getResultsDir rest

def chroot (chromeosRoot : Text) : Text := joinPath chromeosRoot "chroot".toList

def getOutsideChrootPath (chromeosRoot path : Text) : Text := joinPath (chroot chromeosRoot) (path.dropWhile (· == '/'))

def tmpDir (name : Text) : Text := "/tmp/".toList ++ name

-- What a test run leaves to its Result. madeDir and readDir are the names that mkdtemp
-- makes up when the run is collected and when it is read from the cache.
structure TestRun where
  chromeosRoot : Text
  suite : Text
  out : Text
  err : Text
  retval : Int
  madeDir : Text
  readDir : Text

-- resultsDir is what the directory of the results holds in the end, if there is one.
structure Result where
  out : Text
  err : Text
  retval : Int
  keyvals : Keyvals
  resultsDir : Option Directory

-- results.txt and the tarball.
structure CacheDir where
  out : Text
  err : Text
  retval : Int
  tarball : Option Directory

def Result.populateFromRun (python : Python) (tool : KeyvalsTool) (perfReport : Text → Text) (run : TestRun)
    (dir : Directory) : Option Result :=
  (getResultsDir run.out).bind fun chrootResultsDir =>
    (generatePerfReportFiles perfReport (dir.findName perfData) dir).bind fun made =>
      let copied := restrict (fun path => !path.hidden) made.2.files
      (processResults python run.suite run.retval (getOutsideChrootPath run.chromeosRoot chrootResultsDir) made.2
        (dir.findName resultsChart) made.1 (tmpDir run.madeDir) (tool.lines (tmpDir run.madeDir) copied)).map fun keyvals =>
          { out := run.out, err := run.err, retval := run.retval, keyvals := keyvals, resultsDir := some made.2 }

def Result.storeToCacheDir (result : Result) : CacheDir :=
  { out := result.out, err := result.err, retval := result.retval
    tarball := result.resultsDir.map fun dir => { dir with listing := dir.listing.filter RelPath.archived } }

-- find goes through a directory in an order of its own.
structure Traversal where
  order : List RelPath → List RelPath
  perm : ∀ files, (order files).Perm files

def Result.populateFromCacheDir (python : Python) (tool : KeyvalsTool) (traversal : Traversal) (run : TestRun)
    (cacheDir : CacheDir) : Option Result :=
  cacheDir.tarball.bind fun tarball =>
    let dir : Directory := { tarball with listing := traversal.order tarball.listing }
    (processResults python run.suite cacheDir.retval (getOutsideChrootPath run.chromeosRoot (tmpDir run.readDir)) dir
      dir.getDataMeasurementsFiles (dir.findName perfDataReport) (tmpDir run.readDir)
      (tool.lines (tmpDir run.readDir) dir.files)).map fun keyvals =>
        { out := cacheDir.out, err := cacheDir.err, retval := cacheDir.retval, keyvals := keyvals, resultsDir := some dir }

namespace TelemetryResult

def dataLines (out : Text) : List Text :=
  match splitlines out with
  | [] => []
  | line :: lines => if "JSON.stringify".toList.isPrefixOf line then lines else line :: lines

def addLine (labels : List Text) (keyvals : Keyvals) (line : Text) : Keyvals :=
  let fields := line.splitOn ','
  if fields.length != labels.length then keyvals
  else (labels.zip fields).tail.foldl
    (fun keyvals entry => keyvals.insert (fields.headD [] ++ ' ' :: entry.1) (.str entry.2)) keyvals

def processResults (out : Text) (retval : Int) : Keyvals :=
  match dataLines out with
  | [] => newKeyvals
  | line :: lines => (lines.foldl (addLine (line.splitOn ',')) newKeyvals).insert retvalKey (.int retval)

def populateFromRun (run : TestRun) : Result :=
  { out := run.out, err := run.err, retval := run.retval, keyvals := processResults run.out run.retval, resultsDir := none }

def populateFromCacheDir (cacheDir : CacheDir) : Result :=
  { out := cacheDir.out, err := cacheDir.err, retval := cacheDir.retval
    keyvals := processResults cacheDir.out cacheDir.retval, resultsDir := none }

end TelemetryResult

def telemetry : Text := "telemetry".toList

def createFromRun (python : Python) (tool : KeyvalsTool) (perfReport : Text → Text) (run : TestRun) (dir : Directory) :
    Option Result :=
  if run.suite == telemetry then some (TelemetryResult.populateFromRun run)
  else Result.populateFromRun python tool perfReport run dir

def createFromCacheHit (python : Python) (tool : KeyvalsTool) (traversal : Traversal) (run : TestRun) (cacheDir : CacheDir) :
    Option Result :=
  if run.suite == telemetry then some (TelemetryResult.populateFromCacheDir cacheDir)
  else Result.populateFromCacheDir python tool traversal run cacheDir

end ToolchainUtils.Crosperf.CachedResults
