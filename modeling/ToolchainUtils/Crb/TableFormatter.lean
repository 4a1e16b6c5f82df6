import Mathlib.Data.Rat.Floor
import ToolchainUtils.TableGrids
import ToolchainUtils.CrosUtils.SimpleTable

set_option autoImplicit false

namespace ToolchainUtils.Crb.TableFormatter

open PyString TableGrids
open CrosUtils.Tabulator (FloatValue)

-- A number with its str, which has no plus sign and is no word of the formatter.
structure Number where
  value : FloatValue
  text : Text
  unsigned : text.head? ≠ some '+'
  notBad : text ≠ ['x']

inductive Cell where
  | text (t : Text)
  | number (n : Number)

abbrev Table := List (List Cell)

def Cell.str : Cell → Text
  | .text t => t
  | .number n => n.text

-- IsFloat and float.
def Cell.float : Cell → Option FloatValue
  | .text t => (parseFloat t).map FloatValue.ofText
  | .number n => some n.value

def badResult : Text := ['x']

-- A half is rounded to the even neighbour.
def nearest (q : ℚ) : ℕ :=
  let whole := ⌊q⌋.toNat
  if q - whole < 1 / 2 ∨ q - whole = 1 / 2 ∧ whole % 2 = 0 then whole else whole + 1

-- '%+1.1f'
def percentText : FloatValue → Text
  | .finite q => (if q < 0 then '-' else '+') :: (str (nearest (|q| * 10) / 10) ++ '.' :: str (nearest (|q| * 10) % 10))
  | .infinite negative => if negative then "-inf".toList else "+inf".toList
  | .nan => "+nan".toList

-- (float(other) / float(baseline) - 1) * 100, where none stands for the ZeroDivisionError.
def percentOf : FloatValue → FloatValue → Option FloatValue
  | .finite baseline, other =>
      if baseline = 0 then none
      else match other with
        | .finite value => some (.finite ((value / baseline - 1) * 100))
        | .infinite negative => some (.infinite (negative ^^ decide (baseline < 0)))
        | .nan => some .nan
  | .infinite _, .finite _ => some (.finite (-100))
  | _, _ => some .nan

def getPercent (baseline other : Cell) (bad : Text) : Text :=
  match baseline.float, other.float with
  | some b, some v => (percentOf b v).elim bad percentText
  | _, _ => bad

-- The percentages of the values of a row to the first one. An index out of range is none.
def percentRow (width : ℕ) (row : List Cell) : Option (List Cell) :=
  row[0]?.bind fun label =>
    ((List.range' 1 (width - 1)).mapM fun j =>
      row[j]?.bind fun c => row[1]?.map fun b => Cell.text (getPercent b c badResult)).map (label :: ·)

def getTablePercents : Table → Option Table
  | [] => none
  | header :: rows => (rows.mapM (percentRow header.length)).map (header :: ·)

def transposeTable (table : Table) : Option Table := if table = [] then none else transposed table

section Text

-- str of a float, and '%1.1ef' of it.
variable (floatStr exponential : FloatValue → Text)

-- The loop over the digits and the points of a number.
def humanDigits (n : ℕ) : Text → Bool → ℕ → Text
  | [], _, _ => []
  | digit :: rest, decimalFound, sigFigs =>
      let found := decimalFound || digit == '.'
      let figures := if digit ≠ '.' ∧ (sigFigs ≠ 0 ∨ digit ≠ '0') then sigFigs + 1 else sigFigs
      if found ∧ n ≤ figures then [] else digit :: humanDigits n rest found figures

def humanizeFloat (x : FloatValue) (n : ℕ) : Text :=
  humanDigits n ((floatStr x).filter fun c => c.isDigit || c == '.') false 0

-- '\.0*$' and then '(\.[1-9]*)0+$' without its zeros.
def removeTrailingZeros (x : Text) : Text :=
  let behind := (x.dropWhile (· ≠ '.')).drop 1
  if '.' ∈ x ∧ behind.all (· == '0') then x.takeWhile (· ≠ '.')
  else if '.' ∈ x ∧ (behind.dropWhile (· ≠ '0')).all (· == '0') then x.takeWhile (· ≠ '.') ++ '.' :: behind.takeWhile (· ≠ '0')
  else x

def formatFloat (x : FloatValue) : Text :=
  let ret := removeTrailingZeros (humanizeFloat floatStr x 4)
  if 8 < ret.length then exponential x else ret

def valueText (c : Cell) : Text := c.float.elim c.str (formatFloat floatStr exponential)

def shownPercent (percentsOnly : Bool) (p : Cell) : Text := if p.float.isSome ∧ ¬ percentsOnly then p.str ++ ['%'] else p.str

-- Labels are replaced with numbers.
def cellText (percentsOnly : Bool) (i j : ℕ) (c p : Cell) : Text :=
  if j = 0 then valueText floatStr exponential c
  else if i = 0 then str j
  else if percentsOnly then shownPercent percentsOnly p
  else valueText floatStr exponential c ++ " (".toList ++ shownPercent percentsOnly p ++ [')']

def formatCells (percentsOnly : Bool) (table pctTable : Table) : Option (List (List Text)) :=
  (List.range table.length).mapM fun i => (List.range (table.headD []).length).mapM fun j =>
    (cellAt table i j).bind fun c => (cellAt pctTable i j).map fun p => cellText floatStr exponential percentsOnly i j c p

-- The transposed table is what is transposed for the percentages as well.
def formattedCells (table : Table) (isTransposed percentsOnly : Bool) : Option (List (List Text)) :=
  (getTablePercents table).bind fun pctTable =>
    if isTransposed then
      (transposeTable table).bind fun flipped =>
        (transposeTable flipped).bind fun pctFlipped => formatCells floatStr exponential percentsOnly flipped pctFlipped
    else formatCells floatStr exponential percentsOnly table pctTable

def fitString (text : Text) (length : ℕ) : Text :=
  if length < text.length then if length = 0 then text else text.drop (text.length - length)
  else List.replicate (length - text.length) ' ' ++ text

def getFormattedTable (table : Table) (isTransposed : Bool) (firstColumnWidth columnWidth : ℕ) (percentsOnly fits : Bool) : Option Text :=
  (formattedCells floatStr exponential table isTransposed percentsOnly).map fun cells =>
    cells.flatMap fun row => (row.zipIdx.flatMap fun cell =>
      (if fits then fitString cell.1 (if cell.2 = 0 then firstColumnWidth else columnWidth) else cell.1) ++ ['\t']) ++ ['\n']

end Text

end ToolchainUtils.Crb.TableFormatter
