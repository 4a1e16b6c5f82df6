import ToolchainUtils.CrosUtils.RatioColors
import ToolchainUtils.ItemByItem

set_option autoImplicit false

-- GetSimpleTable: a mean for each value, and for each but the first its ratio to the first one,
-- as a percentage and as a colour box. none stands for an exception.
namespace ToolchainUtils.CrosUtils.Tabulator

open PyString ItemByItem

inductive Datum where
  | text (t : Text)
  | number (q : ℚ)
deriving DecidableEq

-- A float, where the arithmetic of finite ones is exact.
inductive FloatValue where
  | finite (q : ℚ)
  | infinite (negative : Bool)
  | nan
deriving DecidableEq

def FloatValue.ofText : FloatText → FloatValue
  | .nan => .nan
  | .infinite negative => .infinite negative
  | .decimal negative digits exponent => .finite ((if negative then -1 else 1) * digits * (10 : ℚ) ^ exponent)

-- IsFloat and float.
def asFloat : Datum → Option FloatValue
  | .text t => (parseFloat t).map FloatValue.ofText
  | .number q => some (.finite q)

inductive CellValue where
  | text (t : Text)
  | float (x : FloatValue)
deriving DecidableEq

structure SimpleCell where
  value : CellValue
  color : Option (Color ℤ)
  bgcolor : Option (Color ℤ)
  colspan : ℕ

def plainCell (value : CellValue) : SimpleCell := ⟨value, none, none, 1⟩

def meanValue : Datum → CellValue
  | .text t => ((parseFloat t).map FloatValue.ofText).elim (.text t) .float
  | .number q => .float (.finite q)

def ratio : FloatValue → FloatValue → FloatValue
  | .finite value, .finite baseline => .finite (ameanRatio [value] [baseline])
  | .infinite negative, .finite baseline => if baseline = 0 then .finite 0 else .infinite (negative ^^ decide (baseline < 0))
  | .nan, .finite baseline => if baseline = 0 then .finite 0 else .nan
  | .finite _, .infinite _ => .finite 0
  | _, _ => .nan

def inverted (key : Text) : FloatValue → FloatValue
  | .finite q => .finite (invertIfLowerIsBetter key q)
  | .infinite negative => if isLowerBetter key then .finite 0 else .infinite negative
  | .nan => .nan

def ratioValue (key : Text) (baseline value : Datum) : CellValue :=
  match asFloat value, asFloat baseline with
  | some x, some y => .float (inverted key (ratio x y))
  | _, _ => .text (if value = baseline then "SAME" else "DIFFERENT").toList

-- A value above the middle is folded, so that the largest one is at the end of the range.
def floatColor (scale : Scale) : FloatValue → Option (Color ℤ)
  | .finite q => getColor q scale 6 1
  | .infinite negative => if negative then none else getColorBetweenRange 2 0 1 2 scale 6
  | .nan => some (round scale.mid)

def percentCell : CellValue → Option SimpleCell
  | .text t => some (plainCell (.text t))
  | .float x => (floatColor blackScale x).map fun color => { plainCell (.float x) with color := some color }

def colorBoxCell : CellValue → Option SimpleCell
  | .text t => some (plainCell (.text t))
  | .float x => (floatColor whiteScale x).map fun color => { plainCell (.float x) with color := some color, bgcolor := some color }

def comparedCells (key : Text) (baseline value : Datum) : Option (List SimpleCell) :=
  (percentCell (ratioValue key baseline value)).bind fun percent =>
    (colorBoxCell (ratioValue key baseline value)).map fun box => [plainCell (meanValue value), percent, box]

def simpleRow (row : Text × List Datum) : Option (List SimpleCell) :=
  match row.2 with
  | [] => some [plainCell (.text row.1)]
  | baseline :: later => (later.mapM (comparedCells row.1 baseline)).map fun cells =>
      plainCell (.text row.1) :: plainCell (meanValue baseline) :: cells.flatten

-- The columns are collected from the first row.
def columnNames (rows : List (List SimpleCell)) : List SimpleCell :=
  plainCell (.text "Keys".toList) :: ((rows.headD []).drop 1).map fun _ => plainCell (.text [])

def labelSpan (position : ℕ) : ℕ := if position ≤ 1 then 1 else 3

-- A label tells whether the value below it in a row named 'retval' is 0.
def retvalLabel (rows : List (Text × List Datum)) (label : Text × ℕ) : Text :=
  match label.2, rows.findRev? fun row => row.1 = "retval".toList with
  | n + 1, some row => row.2[n]?.elim label.1 fun value =>
      label.1 ++ (if value = .number 0 then "  (pass:1 fail:0)" else "  (pass:0 fail:1)").toList
  | _, _ => label.1

def labelRow (rows : List (Text × List Datum)) (labels : List Text) : List SimpleCell :=
  labels.zipIdx.map fun label => { plainCell (.text (retvalLabel rows label)) with colspan := labelSpan label.2 }

def longestRow (rows : List (List SimpleCell)) : ℕ := (rows.map List.length).foldr max 0

-- A row without wider cells has a cell in every column.
def styled (longest : ℕ) (row : List SimpleCell) : Bool := row.any (fun cell => cell.colspan ≠ 1) || longest ≤ row.length

-- A wider cell ends within the columns.
def spansFit (longest start : ℕ) : List SimpleCell → Bool
  | [] => true
  | cell :: rest => (cell.colspan ≤ 1 || start + cell.colspan ≤ longest) && spansFit longest (start + cell.colspan) rest

-- The style of the columns and the widths of the cells index the rows and the columns.
def printRows (rows : List (List SimpleCell)) : Option (List (List SimpleCell)) :=
  if rows.all fun row => styled (longestRow rows) row && spansFit (longestRow rows) 0 row then some rows else none

def getSimpleTable (labels : List Text) (rows : List (Text × List Datum)) : Option (List (List SimpleCell)) :=
  (rows.mapM simpleRow).bind fun made => printRows (labelRow rows labels :: columnNames made :: made)

section Layout

theorem longest_row_le_iff (rows : List (List SimpleCell)) (width : ℕ) :
    longestRow rows ≤ width ↔ ∀ row ∈ rows, row.length ≤ width := by
  induction rows with
  | nil => exact iff_of_true (Nat.zero_le width) (List.forall_mem_nil _)
  | cons row rest ih =>
      rw [List.forall_mem_cons, ← ih]
      exact max_le_iff

theorem longest_row_is (rows : List (List SimpleCell)) (width : ℕ) (bound : ∀ row ∈ rows, row.length ≤ width)
    (row : List SimpleCell) (member : row ∈ rows) (reached : row.length = width) : longestRow rows = width :=
  le_antisymm ((longest_row_le_iff rows width).mpr bound)
    (reached ▸ (longest_row_le_iff rows (longestRow rows)).mp (le_refl _) row member)

theorem spans_fit_of_sum (longest start : ℕ) (row : List SimpleCell) (bound : start + (row.map SimpleCell.colspan).sum ≤ longest) :
    spansFit longest start row = true := by
  induction row generalizing start with
  | nil => rfl
  | cons cell rest ih =>
      rw [List.map_cons, List.sum_cons, ← Nat.add_assoc] at bound
      have within : start + cell.colspan ≤ longest := (Nat.le_add_right _ _).trans bound
      rw [spansFit, ih _ bound, Bool.and_true, decide_eq_true within, Bool.or_true]

theorem spans_of_plain (row : List SimpleCell) (plain : ∀ cell ∈ row, cell.colspan = 1) :
    (row.map SimpleCell.colspan).sum = row.length := by
  rw [List.map_congr_left plain, List.map_const', List.sum_replicate, Nat.nsmul_eq_mul, Nat.mul_one]

theorem later_label_spans (labels : List Text) (position : ℕ) (later : 2 ≤ position) :
    ((labels.zipIdx position).map fun label => labelSpan label.2).sum = 3 * labels.length := by
  induction labels generalizing position with
  | nil => rfl
  | cons label rest ih =>
      rw [List.zipIdx_cons, List.map_cons, List.sum_cons, ih (position + 1) (by omega), labelSpan, if_neg (by omega), List.length_cons]
      omega

theorem label_row_length (rows : List (Text × List Datum)) (labels : List Text) : (labelRow rows labels).length = labels.length := by
  rw [labelRow, List.length_map, List.length_zipIdx]

theorem label_row_spans (rows : List (Text × List Datum)) (first second : Text) (rest : List Text) :
    ((labelRow rows (first :: second :: rest)).map SimpleCell.colspan).sum = 2 + 3 * rest.length := by
  have later := later_label_spans rest 2 (le_refl 2)
  rw [labelRow, List.map_map, List.zipIdx_cons, List.zipIdx_cons, List.map_cons, List.map_cons, List.sum_cons, List.sum_cons, ← later,
    ← Nat.add_assoc]
  rfl

-- A row that consists of plain cells needs one for every column.
theorem styled_plain (longest : ℕ) (row : List SimpleCell) (plain : ∀ cell ∈ row, cell.colspan = 1) :
    styled longest row = true ↔ longest ≤ row.length := by
  have none_wide : row.any (fun cell => cell.colspan ≠ 1) = false := by
    rw [List.any_eq_false]
    intro cell member
    simpa using plain cell member
  rw [styled, none_wide, Bool.false_or, decide_eq_true_iff]

end Layout

section Rows

-- The cells of a row with so many values.
def simpleWidth (values : ℕ) : ℕ := if values = 0 then 1 else 3 * values - 1

theorem percent_cell_plain (value : CellValue) (cell : SimpleCell) (made : percentCell value = some cell) : cell.colspan = 1 := by
  cases value with
  | text t =>
      cases made
      rfl
  | float x =>
      obtain ⟨color, _, rfl⟩ := Option.map_eq_some_iff.mp made
      rfl

theorem color_box_cell_plain (value : CellValue) (cell : SimpleCell) (made : colorBoxCell value = some cell) : cell.colspan = 1 := by
  cases value with
  | text t =>
      cases made
      rfl
  | float x =>
      obtain ⟨color, _, rfl⟩ := Option.map_eq_some_iff.mp made
      rfl

theorem compared_cells_plain (key : Text) (baseline value : Datum) (cells : List SimpleCell)
    (made : comparedCells key baseline value = some cells) : cells.length = 3 ∧ ∀ cell ∈ cells, cell.colspan = 1 := by
  obtain ⟨percent, first, rest⟩ := Option.bind_eq_some_iff.mp made
  obtain ⟨box, second, rfl⟩ := Option.map_eq_some_iff.mp rest
  refine ⟨rfl, List.forall_mem_cons.mpr ⟨rfl, List.forall_mem_cons.mpr ⟨percent_cell_plain _ percent first, ?_⟩⟩⟩
  exact List.forall_mem_singleton.mpr (color_box_cell_plain _ box second)

theorem compared_row_plain (key : Text) (baseline : Datum) (later : List Datum) (compared : List (List SimpleCell))
    (each : List.Forall₂ (fun value cells => comparedCells key baseline value = some cells) later compared) :
    compared.flatten.length = 3 * later.length ∧ ∀ cell ∈ compared.flatten, cell.colspan = 1 := by
  induction each with
  | nil => exact ⟨rfl, List.forall_mem_nil _⟩
  | cons made _ ih =>
      obtain ⟨length, plain⟩ := compared_cells_plain key baseline _ _ made
      rw [List.flatten_cons, List.length_append, List.length_cons, length, ih.1, List.forall_mem_append]
      exact ⟨by omega, plain, ih.2⟩

theorem simple_row_plain (row : Text × List Datum) (cells : List SimpleCell) (made : simpleRow row = some cells) :
    cells.length = simpleWidth row.2.length ∧ ∀ cell ∈ cells, cell.colspan = 1 := by
  obtain ⟨key, values⟩ := row
  cases values with
  | nil =>
      cases made
      exact ⟨rfl, List.forall_mem_singleton.mpr rfl⟩
  | cons baseline later =>
      obtain ⟨compared, ran, rfl⟩ := Option.map_eq_some_iff.mp made
      obtain ⟨length, plain⟩ := compared_row_plain key baseline later compared ((made_iff _ later compared).mp ran)
      refine ⟨?_, List.forall_mem_cons.mpr ⟨rfl, List.forall_mem_cons.mpr ⟨rfl, plain⟩⟩⟩
      rw [List.length_cons, List.length_cons, length, simpleWidth, List.length_cons, if_neg (Nat.succ_ne_zero _)]
      omega

theorem column_names_plain (rows : List (List SimpleCell)) : ∀ cell ∈ columnNames rows, cell.colspan = 1 := by
  refine List.forall_mem_cons.mpr ⟨rfl, fun cell member => ?_⟩
  obtain ⟨_, _, rfl⟩ := List.mem_map.mp member
  rfl

-- All rows below the labels have the cells of the first one.
theorem plain_row_prints (width : ℕ) (row : List SimpleCell) (length : row.length = width) (plain : ∀ cell ∈ row, cell.colspan = 1) :
    (styled width row && spansFit width 0 row) = true := by
  rw [Bool.and_eq_true, styled_plain width row plain, length]
  exact ⟨le_refl width, spans_fit_of_sum width 0 row (by rw [spans_of_plain row plain, length, Nat.zero_add])⟩

theorem label_row_prints (rows : List (Text × List Datum)) (first second : Text) (rest : List Text) :
    (styled (2 + 3 * rest.length) (labelRow rows (first :: second :: rest)) &&
      spansFit (2 + 3 * rest.length) 0 (labelRow rows (first :: second :: rest))) = true := by
  rw [Bool.and_eq_true]
  refine ⟨?_, spans_fit_of_sum _ 0 _ (by rw [label_row_spans, Nat.zero_add])⟩
  cases rest with
  | nil => rfl
  | cons third rest => rfl

theorem print_rows_some_iff (rows : List (List SimpleCell)) :
    (printRows rows).isSome = true ↔ ∀ row ∈ rows, (styled (longestRow rows) row && spansFit (longestRow rows) 0 row) = true := by
  rw [printRows]
  by_cases prints : (rows.all fun row => styled (longestRow rows) row && spansFit (longestRow rows) 0 row) = true
  · rw [if_pos prints]
    exact iff_of_true rfl (List.all_eq_true.mp prints)
  · rw [if_neg prints]
    exact iff_of_false Bool.false_ne_true fun each => prints (List.all_eq_true.mpr each)

-- Without rows the row with the names of the columns is shorter than the one with the labels.
theorem empty_table_prints_iff (first : Text) (labels : List Text) :
    (getSimpleTable (first :: labels) []).isSome = true ↔ labels = [] := by
  change (printRows [labelRow [] (first :: labels), columnNames []]).isSome = true ↔ labels = []
  cases labels with
  | nil => exact iff_of_true rfl rfl
  | cons second rest =>
      refine iff_of_false (fun prints => ?_) (List.cons_ne_nil second rest)
      have names := (print_rows_some_iff _).mp prints (columnNames []) (by simp)
      have styles := (styled_plain _ _ (column_names_plain [])).mp (Bool.and_eq_true_iff.mp names).1
      have bound := (longest_row_le_iff _ _).mp styles (labelRow [] (first :: second :: rest)) List.mem_cons_self
      rw [label_row_length, List.length_cons, List.length_cons] at bound
      exact absurd bound (by simp [columnNames])

theorem filled_table_prints (rows : List (Text × List Datum)) (first second : Text) (labels : List Text)
    (made : List (List SimpleCell)) (filled : made ≠ [])
    (same : ∀ cells ∈ made, cells.length = 2 + 3 * labels.length ∧ ∀ cell ∈ cells, cell.colspan = 1) :
    (printRows (labelRow rows (first :: second :: labels) :: columnNames made :: made)).isSome = true := by
  have names : (columnNames made).length = 2 + 3 * labels.length := by
    cases made with
    | nil => exact absurd rfl filled
    | cons cells rest =>
        rw [columnNames, List.length_cons, List.length_map, List.headD_cons, List.length_drop, (same cells List.mem_cons_self).1]
        omega
  have longest : longestRow (labelRow rows (first :: second :: labels) :: columnNames made :: made) = 2 + 3 * labels.length := by
    refine longest_row_is _ _ ?_ (columnNames made) (by simp) names
    refine List.forall_mem_cons.mpr ⟨?_, List.forall_mem_cons.mpr ⟨names.le, fun cells member => (same cells member).1.le⟩⟩
    rw [label_row_length, List.length_cons, List.length_cons]
    omega
  rw [print_rows_some_iff, longest]
  refine List.forall_mem_cons.mpr ⟨label_row_prints rows first second labels, List.forall_mem_cons.mpr ⟨?_, fun cells member => ?_⟩⟩
  · exact plain_row_prints _ _ names (column_names_plain made)
  · exact plain_row_prints _ cells (same cells member).1 (same cells member).2

theorem simple_table_iff (first : Text) (labels : List Text) (rows : List (Text × List Datum))
    (widths : ∀ row ∈ rows, row.2.length = labels.length) (labelled : rows ≠ [] → labels ≠ []) :
    (getSimpleTable (first :: labels) rows).isSome = true ↔
      (rows = [] → labels = []) ∧ ∀ row ∈ rows, (simpleRow row).isSome = true := by
  by_cases empty : rows = []
  · rw [empty, empty_table_prints_iff, and_iff_left (List.forall_mem_nil _)]
    exact ⟨fun none_left _ => none_left, fun given => given rfl⟩
  · rw [and_iff_right fun same => absurd same empty]
    constructor
    · intro printed row member
      obtain ⟨cells, printed⟩ := Option.isSome_iff_exists.mp printed
      obtain ⟨made, ran, -⟩ := Option.bind_eq_some_iff.mp printed
      obtain ⟨cells, shown⟩ := (made_each_iff simpleRow rows).mp ⟨made, ran⟩ row member
      rw [shown, Option.isSome_some]
    · intro each
      obtain ⟨made, ran⟩ := (made_each_iff simpleRow rows).mpr fun row member => Option.isSome_iff_exists.mp (each row member)
      obtain ⟨second, rest, rfl⟩ := List.exists_cons_of_ne_nil (labelled empty)
      rw [getSimpleTable, ran, Option.bind_some]
      refine filled_table_prints rows first second rest made ?_ fun cells member => ?_
      · rintro rfl
        exact empty (List.forall₂_nil_right_iff.mp ((made_iff simpleRow rows []).mp ran))
      · obtain ⟨row, listed, shown⟩ := (mem_made simpleRow rows made ran cells).mp member
        obtain ⟨length, plain⟩ := simple_row_plain row cells shown
        refine ⟨?_, plain⟩
        rw [length, simpleWidth, widths row listed, List.length_cons, if_neg (Nat.succ_ne_zero _)]
        omega

end Rows

-- A ratio below zero is below the range of the colours. That of an infinite value to a finite one
-- is infinite, unless it is inverted.
def Opposed (key : Text) (baseline value : Datum) : Prop :=
  match asFloat baseline, asFloat value with
  | some (.finite b), some (.finite v) => v * b < 0
  | some (.finite b), some (.infinite negative) => b ≠ 0 ∧ (negative ^^ decide (b < 0)) = true ∧ isLowerBetter key = false
  | _, _ => False

section Ratios

theorem color_between_some (value minValue midValue maxValue : ℚ) (scale : Scale) (power : ℕ)
    (made : (getColorBetweenRange value minValue midValue maxValue scale power).isSome = true) :
    minValue ≤ value ∧ value ≤ maxValue := by
  rw [getColorBetweenRange] at made
  split at made
  · exact ⟨‹_ ∧ _›.2, ‹_ ∧ _›.1⟩
  · cases made

theorem get_color_some_iff (scale : Scale) (scaled : ScaleInByte scale) (value : ℚ) :
    (getColor value scale 6 1).isSome = true ↔ 0 ≤ value := by
  rw [← get_color_iff scale scaled 6 value]
  constructor
  · intro made
    exact (color_between_range_iff scale scaled 6 _ 0 1 2 one_pos one_lt_two).mpr (color_between_some _ 0 1 2 scale 6 made)
  · rintro ⟨color, made, -⟩
    rw [made, Option.isSome_some]

def Coloured : FloatValue → Prop
  | .finite q => 0 ≤ q
  | .infinite negative => negative = false
  | .nan => True

theorem float_color_iff (scale : Scale) (scaled : ScaleInByte scale) (x : FloatValue) :
    (floatColor scale x).isSome = true ↔ Coloured x := by
  cases x with
  | finite q => exact get_color_some_iff scale scaled q
  | infinite negative =>
      cases negative with
      | true => exact iff_of_false Bool.false_ne_true Bool.false_ne_true.symm
      | false =>
          obtain ⟨color, made, -⟩ := (color_between_range_iff scale scaled 6 2 0 1 2 one_pos one_lt_two).mpr ⟨by norm_num, le_refl 2⟩
          rw [floatColor, if_neg Bool.false_ne_true, made]
          exact iff_of_true rfl rfl
  | nan => exact iff_of_true rfl trivial

def CellColoured : CellValue → Prop
  | .text _ => True
  | .float x => Coloured x

theorem percent_cell_iff (value : CellValue) : (percentCell value).isSome = true ↔ CellColoured value := by
  cases value with
  | text t => exact iff_of_true rfl trivial
  | float x =>
      rw [percentCell, Option.isSome_map]
      exact float_color_iff blackScale black_scale_in_byte x

theorem color_box_cell_iff (value : CellValue) : (colorBoxCell value).isSome = true ↔ CellColoured value := by
  cases value with
  | text t => exact iff_of_true rfl trivial
  | float x =>
      rw [colorBoxCell, Option.isSome_map]
      exact float_color_iff whiteScale white_scale_in_byte x

theorem compared_cells_some_iff (key : Text) (baseline value : Datum) :
    (comparedCells key baseline value).isSome = true ↔ CellColoured (ratioValue key baseline value) := by
  constructor
  · intro made
    obtain ⟨cells, made⟩ := Option.isSome_iff_exists.mp made
    obtain ⟨percent, first, -⟩ := Option.bind_eq_some_iff.mp made
    exact (percent_cell_iff _).mp (by rw [first, Option.isSome_some])
  · intro coloured
    obtain ⟨percent, first⟩ := Option.isSome_iff_exists.mp ((percent_cell_iff _).mpr coloured)
    rw [comparedCells, first, Option.bind_some, Option.isSome_map]
    exact (color_box_cell_iff _).mpr coloured

theorem single_mean (q : ℚ) : mean [q] = q := by
  rw [mean, List.sum_singleton, List.length_singleton, Nat.cast_one, div_one]

theorem finite_ratio_iff (key : Text) (value baseline : ℚ) :
    Coloured (inverted key (ratio (.finite value) (.finite baseline))) ↔ ¬ value * baseline < 0 := by
  change 0 ≤ invertIfLowerIsBetter key (ameanRatio [value] [baseline]) ↔ ¬ value * baseline < 0
  rw [inverted_sign, ratio_sign, single_mean, single_mean, not_lt]

theorem infinite_ratio_iff (key : Text) (negative : Bool) (baseline : ℚ) :
    Coloured (inverted key (ratio (.infinite negative) (.finite baseline))) ↔
      ¬ (baseline ≠ 0 ∧ (negative ^^ decide (baseline < 0)) = true ∧ isLowerBetter key = false) := by
  rw [ratio]
  by_cases zero : baseline = 0
  · rw [if_pos zero]
    refine iff_of_true ((inverted_sign key 0).mpr (le_refl 0)) fun opposed => opposed.1 zero
  · rw [if_neg zero, inverted, and_iff_right zero]
    cases lower : isLowerBetter key with
    | true => exact iff_of_true (le_refl (0 : ℚ)) fun both => Bool.false_ne_true both.2.symm
    | false =>
        rw [if_neg Bool.false_ne_true, and_iff_left rfl, Bool.not_eq_true]
        exact Iff.rfl

-- An infinite baseline leaves nothing or something that is no number.
theorem infinite_baseline (key : Text) (value : FloatValue) (negative : Bool) :
    Coloured (inverted key (ratio value (.infinite negative))) := by
  cases value with
  | finite q => exact (inverted_sign key 0).mpr (le_refl 0)
  | infinite other => exact trivial
  | nan => exact trivial

theorem undefined_value (key : Text) (baseline : ℚ) : Coloured (inverted key (ratio .nan (.finite baseline))) := by
  rw [ratio]
  by_cases zero : baseline = 0
  · rw [if_pos zero]
    exact (inverted_sign key 0).mpr (le_refl 0)
  · rw [if_neg zero]
    exact trivial

theorem compared_cells_iff (key : Text) (baseline value : Datum) :
    (comparedCells key baseline value).isSome = true ↔ ¬ Opposed key baseline value := by
  rw [compared_cells_some_iff, ratioValue, Opposed]
  cases asFloat baseline with
  | none =>
      cases asFloat value with
      | none => exact iff_of_true trivial not_false
      | some x => exact iff_of_true trivial not_false
  | some y =>
      cases asFloat value with
      | none =>
          cases y with
          | finite b => exact iff_of_true trivial not_false
          | infinite negative => exact iff_of_true trivial not_false
          | nan => exact iff_of_true trivial not_false
      | some x =>
          cases y with
          | finite b =>
              cases x with
              | finite v => exact finite_ratio_iff key v b
              | infinite negative => exact infinite_ratio_iff key negative b
              | nan => exact iff_of_true (undefined_value key b) not_false
          | infinite negative => exact iff_of_true (infinite_baseline key x negative) not_false
          | nan =>
              cases x with
              | finite v => exact iff_of_true trivial not_false
              | infinite negative => exact iff_of_true trivial not_false
              | nan => exact iff_of_true trivial not_false

theorem simple_row_iff (key : Text) (baseline : Datum) (later : List Datum) :
    (simpleRow (key, baseline :: later)).isSome = true ↔ ∀ value ∈ later, ¬ Opposed key baseline value := by
  rw [simpleRow, Option.isSome_map, Option.isSome_iff_exists, made_each_iff]
  exact forall₂_congr fun value _ => by rw [← compared_cells_iff, Option.isSome_iff_exists]

-- Numbers that are not negative do not oppose each other.
theorem nonneg_not_opposed (key : Text) (baseline value : Datum) (b v : ℚ) (first : asFloat baseline = some (.finite b))
    (second : asFloat value = some (.finite v)) (low : 0 ≤ b) (high : 0 ≤ v) : ¬ Opposed key baseline value := by
  rw [Opposed, first, second]
  exact not_lt.mpr (mul_nonneg high low)

end Ratios

end ToolchainUtils.CrosUtils.Tabulator
