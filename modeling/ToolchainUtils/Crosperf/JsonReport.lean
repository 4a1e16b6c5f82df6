import Mathlib.Algebra.Group.Nat.Defs
import ToolchainUtils.ItemByItem
import ToolchainUtils.Crosperf.OrganizedSlots

set_option autoImplicit false

namespace ToolchainUtils.Crosperf.JsonReport

open PyString CachedResults
open ResultsOrganizer (Results SummaryFile isZero machineKey)

-- What float() returns, by what it was read from: its rounding is not modelled.
inductive Number where
  | ofFloat (repr : Text)
  | ofInt (n : Int)
  | ofText (text : Text)
deriving DecidableEq

def unsigned : Text → Text
  | '+' :: rest => rest
  | '-' :: rest => rest
  | text => text

def exponentText : Text → Bool
  | [] => true
  | e :: rest => (e == 'e' || e == 'E') && !(unsigned rest).isEmpty && (unsigned rest).all Char.isDigit

def decimalText (text : Text) : Bool :=
  match text.dropWhile Char.isDigit with
  | '.' :: rest =>
      (!(text.takeWhile Char.isDigit).isEmpty || !(rest.takeWhile Char.isDigit).isEmpty) && exponentText (rest.dropWhile Char.isDigit)
  | rest => !(text.takeWhile Char.isDigit).isEmpty && exponentText rest

def numberWords : List Text := ["inf".toList, "infinity".toList, "nan".toList]

def floatText (text : Text) : Bool :=
  numberWords.contains ((unsigned (strip text)).map Char.toLower) || decimalText (unsigned (strip text))

-- The least integer that is an OverflowError.
@[irreducible]
def floatLimit : Nat := 2 ^ 1024 - 2 ^ 970

def float : Value → Option Number
  | .bool b => some (.ofInt (if b then 1 else 0))
  | .int n => if n.natAbs < floatLimit then some (.ofInt n) else none
  | .float repr => some (.ofFloat repr)
  | .str text => if floatText text then some (.ofText text) else none
  | _ => none

-- l[0] is an IndexError of an empty list.
def unlist : Value → Option Value
  | .list [] => none
  | .list (first :: _) => some first
  | value => some value

inductive Detail where
  | one (number : Number)
  | many (numbers : List Number)

abbrev Details := AList fun _ : Text => Detail

inductive Field where
  | text (text : Text)
  | flag (flag : Bool)
  | overall (value : List (Text × Number))
  | detailed (details : Details)
  | raw (value : Value)

abbrev JsonResults := AList fun _ : Text => Field

def labelKey : Text := "label".toList

def testNameKey : Text := "test_name".toList

def passKey : Text := "pass".toList

def passText : Text := "PASS".toList

def passed (iterResults : Keyvals) : Bool := (iterResults.lookup retvalKey).any isZero

def overallField (iterResults : Keyvals) (value : List (Text × Number)) (f : Text) : Option (List (Text × Number)) :=
  match iterResults.lookup f with
  | none => some value
  | some .null => some value
  | some v => (unlist v).bind fun v => (unlist v).bind fun v => (float v).map fun number => value ++ [(f, number)]

def skips (k : Text) (v : Value) : Bool := k == retvalKey || k == passText || v.isStr passText

def aboutMachine (k : Text) : Bool := (find machineKey k).isSome

def detailOf : Value → Option (Option Detail)
  | .null => some none
  | .list items => (items.mapM float).map fun numbers => some (.many numbers)
  | v => (float v).map fun number => some (.one number)

def addDetail (details : Details) (k : Text) : Option Detail → Details
  | some detail => details.insert k detail
  | none => details

def detailField (state : JsonResults × Details) (entry : Σ _ : Text, Value) : Option (JsonResults × Details) :=
  if skips entry.1 entry.2 then some state
  else (unlist entry.2).bind fun v =>
    if aboutMachine entry.1 then some (state.1.insert entry.1 (.raw v), state.2)
    else (detailOf v).map fun detail => (state.1, addDetail state.2 entry.1 detail)

def required (date time label test : Text) (iterResults : Keyvals) : JsonResults :=
  ((((((∅ : JsonResults).insert "date".toList (.text date)).insert "time".toList (.text time)).insert labelKey (.text label)).insert
    testNameKey (.text test)).insert passKey (.flag (passed iterResults)))

def addOverall (defaults : SummaryFile) (test : Text) (iterResults : Keyvals) (made : JsonResults) : Option JsonResults :=
  match defaults.lookup test with
  | some fields => (fields.foldlM (overallField iterResults) []).map fun value => made.insert "overall_result".toList (.overall value)
  | none => some made

-- The dictionary of the details is put in empty and filled there.
def addDetails (iterResults : Keyvals) (made : JsonResults) : Option JsonResults :=
  (iterResults.entries.foldlM detailField (made, ∅)).map fun done => done.1.insert "detailed_results".toList (.detailed done.2)

def jsonResults (defaults : SummaryFile) (date time label test : Text) (iterResults : Keyvals) : Option JsonResults :=
  if passed iterResults then
    (addOverall defaults test iterResults (required date time label test iterResults)).bind (addDetails iterResults)
  else some (required date time label test iterResults)

def getReportObjectIgnoringExperiment (defaults : SummaryFile) (date time : Text) (labelNames : List Text) (runKeyvals : Results) :
    Option (List JsonResults) :=
  runKeyvals.entries.foldlM (fun finalResults test =>
    (labelNames.zip test.2).foldlM (fun finalResults label =>
      label.2.foldlM (fun finalResults iterResults =>
        (jsonResults defaults date time label.1 test.1 iterResults).map fun made => finalResults ++ [made]) finalResults)
      finalResults) []

end ToolchainUtils.Crosperf.JsonReport
