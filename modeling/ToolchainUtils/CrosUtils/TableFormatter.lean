import ToolchainUtils.CrosUtils.TableGenerator

set_option autoImplicit false

namespace ToolchainUtils.CrosUtils.Tabulator

open PyString
open Crosperf.CachedResults (Value Keyvals)
open Crosperf.ResultsOrganizer (isZero)

inductive TableType where
  | full
  | summary
deriving DecidableEq

structure Cell where
  stringValue : Option Text
  colspan : Nat
  name : Option Text
  header : Bool
deriving DecidableEq

-- compute is that of the result and then that of the format, either of which may raise.
structure Column where
  needsBaseline : Bool
  compute : Cell → List Value → Option (List Value) → Option Cell
  name : Text
  resultName : Text
  formatName : Text

def newCell : Cell := ⟨none, 1, none, false⟩

def keyCell (key : Text) : Cell := { newCell with stringValue := some key }

def headerCell (text : Text) : Cell := { newCell with stringValue := some text, header := true }

def retvalText : Text := "retval".toList

def failText : Value := .str "Fail".toList

structure CellTable where
  outTable : List (List Cell)
  tableColumns : List Column
  rowIndex : Nat
  allFailed : Bool

section Rows

variable (columns : List Column)

-- The cells of a row and the columns collected while it is the first.
def addCell (rowIndex : Nat) (key : Text) (values : List Value) (baseline : Option (List Value)) (state : List Cell × List Column)
    (column : Column) : Option (List Cell × List Column) :=
  if column.needsBaseline && baseline.isNone then some state
  else (column.compute { newCell with name := some key } values baseline).map fun cell =>
    (state.1 ++ [cell], if rowIndex = 0 then state.2 ++ [column] else state.2)

def addValues (rowIndex : Nat) (key : Text) (state : (List Cell × List Column) × Option (List Value)) (values : List Value) :
    Option ((List Cell × List Column) × Option (List Value)) :=
  (columns.foldlM (addCell rowIndex key values state.2) state.1).map fun made => (made, some (state.2.getD values))

def dataRow (rowIndex : Nat) (row : Row) (tableColumns : List Column) : Option (List Cell × List Column) :=
  (row.values.foldlM (addValues columns rowIndex row.key) (([keyCell row.key], tableColumns), none)).map Prod.fst

-- It does not make sense to put retval in the summary table.
def hidden (tableType : TableType) (row : Row) : Bool := row.key == retvalText && tableType == .summary

def addRow (tableType : TableType) (state : CellTable) (row : Row) : Option CellTable :=
  if hidden tableType row then some { state with allFailed := !row.values.any fun values => values.any isZero }
  else (dataRow columns state.rowIndex row state.tableColumns).map fun made =>
    { state with outTable := state.outTable ++ [made.1], tableColumns := made.2, rowIndex := state.rowIndex + 1 }

-- Here a column that needs a baseline is not left out for the first label.
def addFailCell (rowIndex : Nat) (state : List Cell × List Column) (column : Column) : Option (List Cell × List Column) :=
  (column.compute { newCell with name := some "Results".toList } [failText] none).map fun cell =>
    (state.1 ++ [cell], if rowIndex = 0 then state.2 ++ [column] else state.2)

def resultsRow (labels : List Text) (state : CellTable) : Option CellTable :=
  (labels.foldlM (fun row _ => columns.foldlM (addFailCell state.rowIndex) row) ([keyCell "Results".toList], state.tableColumns)).map
    fun made => { state with outTable := state.outTable ++ [made.1], tableColumns := made.2 }

def generateCellTable (table : Table) (tableType : TableType) : Option CellTable :=
  (table.rows.foldlM (addRow columns tableType) ⟨[], [], 0, false⟩).bind fun state =>
    if tableType = .summary ∧ state.allFailed ∧ table.rows.length = 1 then resultsRow columns table.labels state else some state

end Rows

-- str.replace with the empty text.
def without (needle : Text) : Text → Text
  | [] => []
  | c :: rest =>
      if needle.isPrefixOf (c :: rest) ∧ needle ≠ [] then without needle (rest.drop (needle.length - 1)) else c :: without needle rest
termination_by text => text.length
decreasing_by
  all_goals simp only [List.length_cons, List.length_drop]
  all_goals omega

def columnTitle (column : Column) : Text :=
  if column.name.isEmpty then
    without "Result".toList column.resultName ++ ' ' :: without "Format".toList column.formatName
  else column.name

def addColumnName (tableColumns : List Column) : List Cell :=
  headerCell "Keys".toList :: tableColumns.map fun column => headerCell (columnTitle column)

def getPassesAndFails (values : List Value) : Nat × Nat := (values.countP isZero, values.countP fun value => !isZero value)

def baseColspan (columns : List Column) : Nat := (columns.filter fun column => !column.needsBaseline).length

-- The second cell has the columns without a baseline below it, and all later ones every column.
def labelColspan (columns : List Column) (position : Nat) : Nat :=
  if position = 0 then 1 else if position = 1 then baseColspan columns else columns.length

-- A header that begins with 'retval' is found as well, but counts no passes.
def retvalRow (table : Table) : Option Row := table.rows.findRev? fun row => row.key == retvalText

def labelText (table : Table) (position : Nat) (label : Text) : Option Text :=
  match position, retvalRow table with
  | n + 1, some row => row.values[n]?.map fun values =>
      label ++ "  (pass:".toList ++ str (getPassesAndFails values).1 ++ " fail:".toList ++ str (getPassesAndFails values).2 ++ [')']
  | _, _ => some label

def addLabelName (columns : List Column) (table : Table) : Option (List Cell) :=
  (table.keyName :: table.labels).zipIdx.mapM fun label =>
    (labelText table label.2 label.1).map fun text => { headerCell text with colspan := labelColspan columns label.2 }

def getCellTable (columns : List Column) (table : Table) (tableType : TableType) : Option (List (List Cell)) :=
  (generateCellTable columns table tableType).bind fun state =>
    (addLabelName columns table).map fun topHeader => topHeader :: addColumnName state.tableColumns :: state.outTable

end ToolchainUtils.CrosUtils.Tabulator
