import Mathlib.Algebra.Order.Ring.Nat
import ToolchainUtils.FailingFold
import ToolchainUtils.CrosUtils.TableFormatter

set_option autoImplicit false

namespace ToolchainUtils.CrosUtils.Tabulator

open PyString ItemByItem FailingFold
open Crosperf.CachedResults (Value Keyvals)
open Crosperf.ResultsOrganizer (isZero)

section Widths

-- A row has grown by so many cells, and the collected columns by as many if it is the first.
structure Grown (rowIndex count : Nat) (before after : List Cell × List Column) : Prop where
  cells : after.1.length = before.1.length + count
  first : rowIndex = 0 → after.2.length = before.2.length + count
  later : rowIndex ≠ 0 → after.2 = before.2

theorem grown_nothing (rowIndex : Nat) (state : List Cell × List Column) : Grown rowIndex 0 state state :=
  ⟨rfl, fun _ => rfl, fun _ => rfl⟩

theorem grown_on (rowIndex first second : Nat) (before between after : List Cell × List Column)
    (grown : Grown rowIndex first before between) (again : Grown rowIndex second between after) :
    Grown rowIndex (first + second) before after := by
  refine ⟨?_, fun zero => ?_, fun later => (again.later later).trans (grown.later later)⟩
  · rw [again.cells, grown.cells, Nat.add_assoc]
  · rw [again.first zero, grown.first zero, Nat.add_assoc]

theorem grown_one (rowIndex : Nat) (state : List Cell × List Column) (cell : Cell) (column : Column) :
    Grown rowIndex 1 state (state.1 ++ [cell], if rowIndex = 0 then state.2 ++ [column] else state.2) :=
  ⟨List.length_append, fun zero => by rw [if_pos zero, List.length_append]; rfl, fun later => if_neg later⟩

theorem grown_fold {Item : Type} (rowIndex : Nat) (step : List Cell × List Column → Item → Option (List Cell × List Column))
    (count : Item → Nat) (items : List Item) (before after : List Cell × List Column)
    (grows : ∀ item state next, step state item = some next → Grown rowIndex (count item) state next)
    (ran : items.foldlM step before = some after) : Grown rowIndex (items.map count).sum before after := by
  induction items generalizing before with
  | nil =>
      obtain rfl := Option.some.inj ran
      exact grown_nothing rowIndex before
  | cons item rest ih =>
      rw [List.foldlM_cons] at ran
      obtain ⟨next, stepped, ran⟩ := Option.bind_eq_some_iff.mp ran
      rw [List.map_cons, List.sum_cons]
      exact grown_on rowIndex _ _ before next after (grows item before next stepped) (ih next ran)

variable (columns : List Column)

-- The cells that one label adds to a row, without and with a baseline.
def labelWidth (baseline : Bool) : Nat := if baseline then columns.length else baseColspan columns

def rowWidth : Nat → Nat
  | 0 => 0
  | n + 1 => baseColspan columns + n * columns.length

theorem plain_columns_counted : (columns.map fun column => if column.needsBaseline then 0 else 1).sum = baseColspan columns := by
  induction columns with
  | nil => rfl
  | cons column rest ih =>
      rw [List.map_cons, List.sum_cons, ih, baseColspan, baseColspan]
      cases needs : column.needsBaseline with
      | true => simp [needs]
      | false => simp [needs, Nat.add_comm]

theorem add_cells_grown (rowIndex : Nat) (key : Text) (values : List Value) (baseline : Option (List Value))
    (before after : List Cell × List Column) (ran : columns.foldlM (addCell rowIndex key values baseline) before = some after) :
    Grown rowIndex (labelWidth columns baseline.isSome) before after := by
  have one (column : Column) (state next : List Cell × List Column)
      (stepped : addCell rowIndex key values baseline state column = some next) :
      Grown rowIndex (if column.needsBaseline && baseline.isNone then 0 else 1) state next := by
    unfold addCell at stepped
    split at stepped
    · obtain rfl := Option.some.inj stepped
      rw [if_pos ‹_›]
      exact grown_nothing rowIndex state
    · obtain ⟨cell, _, rfl⟩ := Option.map_eq_some_iff.mp stepped
      rw [if_neg ‹_›]
      exact grown_one rowIndex state cell column
  have width : (columns.map fun column => if column.needsBaseline && baseline.isNone then 0 else 1).sum =
      labelWidth columns baseline.isSome := by
    cases baseline with
    | some values => simp [labelWidth]
    | none => simpa [labelWidth] using plain_columns_counted columns
  rw [← width]
  exact grown_fold rowIndex _ _ columns before after one ran

theorem later_labels_grown (rowIndex : Nat) (key : Text) (lists : List (List Value)) (baseline : List Value)
    (before : List Cell × List Column) (after : (List Cell × List Column) × Option (List Value))
    (ran : lists.foldlM (addValues columns rowIndex key) (before, some baseline) = some after) :
    Grown rowIndex (lists.length * columns.length) before after.1 := by
  induction lists generalizing before with
  | nil =>
      obtain rfl := Option.some.inj ran
      rw [List.length_nil, Nat.zero_mul]
      exact grown_nothing rowIndex before
  | cons values rest ih =>
      rw [List.foldlM_cons] at ran
      obtain ⟨next, stepped, ran⟩ := Option.bind_eq_some_iff.mp ran
      obtain ⟨made, added, rfl⟩ := Option.map_eq_some_iff.mp stepped
      have grown := grown_on rowIndex _ _ before made after.1 (add_cells_grown columns rowIndex key values (some baseline) before made added)
        (ih made ran)
      rw [List.length_cons, Nat.succ_mul, Nat.add_comm]
      exact grown

theorem data_row_grown (rowIndex : Nat) (row : Row) (tableColumns : List Column) (made : List Cell × List Column)
    (ran : dataRow columns rowIndex row tableColumns = some made) :
    Grown rowIndex (rowWidth columns row.values.length) ([keyCell row.key], tableColumns) made := by
  obtain ⟨after, folded, rfl⟩ := Option.map_eq_some_iff.mp ran
  cases lists : row.values with
  | nil =>
      rw [lists] at folded
      obtain rfl := Option.some.inj folded
      exact grown_nothing rowIndex _
  | cons values rest =>
      rw [lists, List.foldlM_cons] at folded
      obtain ⟨next, stepped, folded⟩ := Option.bind_eq_some_iff.mp folded
      obtain ⟨made, added, rfl⟩ := Option.map_eq_some_iff.mp stepped
      exact grown_on rowIndex _ _ _ made after.1 (add_cells_grown columns rowIndex row.key values none _ made added)
        (later_labels_grown columns rowIndex row.key rest values made after folded)

theorem fail_cells_grown (state : CellTable) (labels : List Text) (before after : List Cell × List Column)
    (ran : labels.foldlM (fun row _ => columns.foldlM (addFailCell state.rowIndex) row) before = some after) :
    Grown state.rowIndex (labels.length * columns.length) before after := by
  have one (column : Column) (cells next : List Cell × List Column) (stepped : addFailCell state.rowIndex cells column = some next) :
      Grown state.rowIndex 1 cells next := by
    obtain ⟨cell, _, rfl⟩ := Option.map_eq_some_iff.mp stepped
    exact grown_one state.rowIndex cells cell column
  have grown := grown_fold state.rowIndex _ (fun _ => (columns.map fun _ => 1).sum) labels before after
    (fun _ cells next stepped => grown_fold state.rowIndex _ (fun _ => 1) columns cells next one stepped) ran
  simpa using grown

end Widths

section Cells

variable (columns : List Column) (tableType : TableType)

-- The rows so far have the width of their first one, whose columns were collected.
structure Aligned (width : Nat) (state : CellTable) : Prop where
  index : state.rowIndex = state.outTable.length
  columns : state.tableColumns.length = if state.outTable = [] then 0 else width
  rows : ∀ row ∈ state.outTable, row.length = 1 + width

theorem aligned_append (width : Nat) (state : CellTable) (row : List Cell) (made : List Cell × List Column)
    (before : Aligned width state) (grown : Grown state.rowIndex width (row, state.tableColumns) made) (key : row.length = 1)
    (rowIndex : Nat) (allFailed : Bool) (counted : rowIndex = state.rowIndex + 1) :
    Aligned width ⟨state.outTable ++ [made.1], made.2, rowIndex, allFailed⟩ := by
  have length : made.1.length = 1 + width := by rw [grown.cells, key]
  refine ⟨?_, ?_, fun other member => ?_⟩
  · rw [counted, before.index, List.length_append]
    rfl
  · rw [if_neg (by simp)]
    by_cases first : state.rowIndex = 0
    · have empty : state.outTable = [] := List.eq_nil_of_length_eq_zero (before.index ▸ first)
      rw [grown.first first, before.columns, if_pos empty, Nat.zero_add]
    · have nonempty : state.outTable ≠ [] := fun empty => first (by rw [before.index, empty]; rfl)
      rw [grown.later first, before.columns, if_neg nonempty]
  · rcases List.mem_append.mp member with earlier | last
    · exact before.rows other earlier
    · rw [List.mem_singleton.mp last, length]

theorem add_row_aligned (runLists : Nat) (state next : CellTable) (row : Row) (lists : row.values.length = runLists)
    (before : Aligned (rowWidth columns runLists) state) (ran : addRow columns tableType state row = some next) :
    Aligned (rowWidth columns runLists) next ∧
      (next.outTable = [] ↔ state.outTable = [] ∧ hidden tableType row = true) ∧
        (hidden tableType row = true → next.allFailed = !row.values.any fun values => values.any isZero) := by
  unfold addRow at ran
  split at ran
  · obtain rfl := Option.some.inj ran
    exact ⟨⟨before.index, before.columns, before.rows⟩, by simp [*], fun _ => rfl⟩
  · obtain ⟨made, folded, rfl⟩ := Option.map_eq_some_iff.mp ran
    have grown := data_row_grown columns state.rowIndex row state.tableColumns made folded
    rw [lists] at grown
    exact ⟨aligned_append _ state _ made before grown rfl _ _ rfl, by simp [*], fun isHidden => absurd isHidden ‹_›⟩

theorem rows_aligned (runLists : Nat) (rows : List Row) (lists : ∀ row ∈ rows, row.values.length = runLists) (state final : CellTable)
    (before : Aligned (rowWidth columns runLists) state) (ran : rows.foldlM (addRow columns tableType) state = some final) :
    Aligned (rowWidth columns runLists) final ∧ (final.outTable = [] ↔ state.outTable = [] ∧ ∀ row ∈ rows, hidden tableType row = true) := by
  induction rows generalizing state with
  | nil =>
      obtain rfl := Option.some.inj ran
      exact ⟨before, by simp⟩
  | cons row rest ih =>
      rw [List.foldlM_cons] at ran
      obtain ⟨next, stepped, ran⟩ := Option.bind_eq_some_iff.mp ran
      obtain ⟨listsFirst, listsRest⟩ := List.forall_mem_cons.mp lists
      obtain ⟨after, empty, _⟩ := add_row_aligned columns tableType runLists state next row listsFirst before stepped
      obtain ⟨aligned, still⟩ := ih listsRest next after ran
      exact ⟨aligned, by rw [still, empty, List.forall_mem_cons, and_assoc]⟩

end Cells

section Header

variable (columns : List Column) (table : Table)

theorem later_colspans (labels : List Text) (position : Nat) (later : 2 ≤ position) :
    ((labels.zipIdx position).map fun label => labelColspan columns label.2).sum = labels.length * columns.length := by
  induction labels generalizing position with
  | nil => simp
  | cons label rest ih =>
      have own : labelColspan columns position = columns.length := by
        rw [labelColspan, if_neg (by omega), if_neg (by omega)]
      rw [List.zipIdx_cons, List.map_cons, List.sum_cons, ih _ (by omega), own, List.length_cons, Nat.succ_mul, Nat.add_comm]

theorem label_colspans (topHeader : List Cell) (made : addLabelName columns table = some topHeader) :
    (topHeader.map Cell.colspan).sum = 1 + rowWidth columns table.labels.length := by
  have spans : topHeader.map Cell.colspan = (table.keyName :: table.labels).zipIdx.map fun label => labelColspan columns label.2 := by
    have each := (made_iff _ _ topHeader).mp made
    clear made
    generalize (table.keyName :: table.labels).zipIdx = placed at each ⊢
    induction each with
    | nil => rfl
    | cons made_one _ ih =>
        obtain ⟨text, _, rfl⟩ := Option.map_eq_some_iff.mp made_one
        rw [List.map_cons, List.map_cons, ih]
  rw [spans]
  cases labels : table.labels with
  | nil => rfl
  | cons label rest =>
      rw [List.zipIdx_cons, List.zipIdx_cons, List.map_cons, List.map_cons, List.sum_cons, List.sum_cons, later_colspans columns rest _ (by omega)]
      rfl

end Header

section Returned

variable (columns : List Column) (tableType : TableType) (table : Table)

def LinesUp (cells : List (List Cell)) : Prop :=
  ∃ topHeader header rows, cells = topHeader :: header :: rows ∧ (topHeader.map Cell.colspan).sum = header.length ∧
    ∀ row ∈ rows, row.length = header.length

-- The only row is that of retval, and none of its values is 0.
def AllFailed : Prop := ∃ row, table.rows = [row] ∧ ∀ values ∈ row.values, ∀ value ∈ values, isZero value = false

structure HeadersFit (runLists : Nat) : Prop where
  rows : (∃ row ∈ table.rows, hidden tableType row = false) → columns = [] ∨ runLists = table.labels.length
  failed : (∀ row ∈ table.rows, hidden tableType row = true) → AllFailed table → ∀ column ∈ columns, column.needsBaseline = false
  passed : (∀ row ∈ table.rows, hidden tableType row = true) → ¬ AllFailed table →
    columns = [] ∨ table.labels.length = 1 ∧ ∀ column ∈ columns, column.needsBaseline = true

theorem plain_iff : baseColspan columns = columns.length ↔ ∀ column ∈ columns, column.needsBaseline = false := by
  rw [baseColspan, List.length_filter_eq_length_iff]
  simp

theorem no_plain_iff : baseColspan columns = 0 ↔ ∀ column ∈ columns, column.needsBaseline = true := by
  rw [baseColspan, List.length_eq_zero_iff, List.filter_eq_nil_iff]
  simp

theorem same_width_iff (first second : Nat) (some_first : 0 < first) (some_second : 0 < second) :
    rowWidth columns first = rowWidth columns second ↔ columns = [] ∨ first = second := by
  obtain ⟨n, rfl⟩ := Nat.exists_eq_succ_of_ne_zero some_first.ne'
  obtain ⟨m, rfl⟩ := Nat.exists_eq_succ_of_ne_zero some_second.ne'
  rw [rowWidth, rowWidth, Nat.add_right_inj, Nat.succ_inj, ← List.length_eq_zero_iff, or_comm]
  exact mul_eq_mul_right_iff

theorem fail_width_iff (labels : Nat) (some_label : 0 < labels) :
    rowWidth columns labels = labels * columns.length ↔ ∀ column ∈ columns, column.needsBaseline = false := by
  obtain ⟨n, rfl⟩ := Nat.exists_eq_succ_of_ne_zero some_label.ne'
  rw [rowWidth, Nat.succ_mul, Nat.add_comm, Nat.add_right_inj, plain_iff]

theorem no_width_iff (labels : Nat) (some_label : 0 < labels) :
    rowWidth columns labels = 0 ↔ columns = [] ∨ labels = 1 ∧ ∀ column ∈ columns, column.needsBaseline = true := by
  obtain ⟨n, rfl⟩ := Nat.exists_eq_succ_of_ne_zero some_label.ne'
  have single : n.succ = 1 ↔ n = 0 := Nat.succ_inj
  rw [rowWidth, Nat.add_eq_zero_iff, no_plain_iff, Nat.mul_eq_zero, List.length_eq_zero_iff, single]
  constructor
  · rintro ⟨needs, single | none_at_all⟩
    · exact .inr ⟨single, needs⟩
    · exact .inl none_at_all
  · rintro (rfl | ⟨single, needs⟩)
    · exact ⟨nofun, .inr rfl⟩
    · exact ⟨needs, .inl single⟩

theorem lines_up_iff (topHeader : List Cell) (state : CellTable) (made : addLabelName columns table = some topHeader)
    (rows : ∀ row ∈ state.outTable, row.length = 1 + state.tableColumns.length) :
    LinesUp (topHeader :: addColumnName state.tableColumns :: state.outTable) ↔
      rowWidth columns table.labels.length = state.tableColumns.length := by
  have header : (addColumnName state.tableColumns).length = 1 + state.tableColumns.length := by
    rw [addColumnName, List.length_cons, List.length_map, Nat.add_comm]
  have spans := label_colspans columns table topHeader made
  constructor
  · rintro ⟨_, _, _, same, sum, _⟩
    obtain ⟨first, rest⟩ := List.cons.inj same
    obtain ⟨second, _⟩ := List.cons.inj rest
    rw [← first, ← second] at sum
    omega
  · intro same
    exact ⟨_, _, _, rfl, by omega, fun row member => by rw [rows row member, header]⟩

theorem one_hidden_row (state : CellTable) (row : Row) (isHidden : hidden tableType row = true)
    (ran : [row].foldlM (addRow columns tableType) ⟨[], [], 0, false⟩ = some state) :
    state = ⟨[], [], 0, !row.values.any fun values => values.any isZero⟩ := by
  rw [List.foldlM_cons, addRow, if_pos isHidden] at ran
  exact (Option.some.inj ran).symm

theorem one_visible_row (state : CellTable) (row : Row) (visible : hidden tableType row = false)
    (ran : [row].foldlM (addRow columns tableType) ⟨[], [], 0, false⟩ = some state) : state.allFailed = false := by
  rw [List.foldlM_cons, addRow, visible, if_neg Bool.false_ne_true] at ran
  obtain ⟨next, stepped, ended⟩ := Option.bind_eq_some_iff.mp ran
  obtain ⟨made, _, rfl⟩ := Option.map_eq_some_iff.mp stepped
  rw [← Option.some.inj ended]

-- The width of the column names and of every row: that of the first row, of the row of
-- results that all failed, or of no row.
structure TableWidth (width : Nat) (state : CellTable) : Prop where
  columns : state.tableColumns.length = width
  rows : ∀ row ∈ state.outTable, row.length = 1 + width

theorem no_zero_iff (row : Row) : (!row.values.any fun values => values.any isZero) = true ↔
    ∀ values ∈ row.values, ∀ value ∈ values, isZero value = false := by
  simp

theorem visible_width (runLists : Nat) (lists : ∀ row ∈ table.rows, row.values.length = runLists) (state : CellTable)
    (made : generateCellTable columns table tableType = some state) (visible : ∃ row ∈ table.rows, hidden tableType row = false) :
    TableWidth (rowWidth columns runLists) state := by
  obtain ⟨before, ran, made⟩ := Option.bind_eq_some_iff.mp made
  obtain ⟨aligned, empty⟩ := rows_aligned columns tableType runLists table.rows lists ⟨[], [], 0, false⟩ before ⟨rfl, rfl, nofun⟩ ran
  obtain ⟨row, member, shown⟩ := visible
  have nonempty : before.outTable ≠ [] := fun nothing => by
    have isHidden := (empty.mp nothing).2 row member
    rw [shown] at isHidden
    cases isHidden
  have notFailed : ¬ (tableType = .summary ∧ before.allFailed ∧ table.rows.length = 1) := fun ⟨_, failed, one⟩ => by
    obtain ⟨only, alone⟩ := List.length_eq_one_iff.mp one
    rw [alone] at ran member
    obtain rfl := List.mem_singleton.mp member
    rw [one_visible_row columns tableType before row shown ran] at failed
    cases failed
  rw [if_neg notFailed] at made
  obtain rfl := Option.some.inj made
  exact ⟨by rw [aligned.columns, if_neg nonempty], aligned.rows⟩

theorem failed_width (state : CellTable) (made : generateCellTable columns table tableType = some state)
    (nothing : ∀ row ∈ table.rows, hidden tableType row = true) (failed : AllFailed table) :
    TableWidth (table.labels.length * columns.length) state := by
  obtain ⟨before, ran, made⟩ := Option.bind_eq_some_iff.mp made
  obtain ⟨row, alone, none_zero⟩ := failed
  have isHidden := nothing row (by rw [alone]; exact List.mem_cons_self)
  have summary : tableType = .summary := by simpa using (Bool.and_eq_true_iff.mp isHidden).2
  rw [alone] at ran
  have start := one_hidden_row columns tableType before row isHidden ran
  rw [(no_zero_iff row).mpr none_zero] at start
  rw [start, alone, if_pos ⟨summary, rfl, rfl⟩] at made
  obtain ⟨cells, folded, rfl⟩ := Option.map_eq_some_iff.mp made
  have grown := fail_cells_grown columns ⟨[], [], 0, true⟩ table.labels _ cells folded
  refine ⟨(grown.first rfl).trans (Nat.zero_add _), fun row member => ?_⟩
  obtain rfl := List.mem_singleton.mp member
  exact grown.cells

theorem passed_width (runLists : Nat) (lists : ∀ row ∈ table.rows, row.values.length = runLists) (state : CellTable)
    (made : generateCellTable columns table tableType = some state) (nothing : ∀ row ∈ table.rows, hidden tableType row = true)
    (passed : ¬ AllFailed table) : TableWidth 0 state := by
  obtain ⟨before, ran, made⟩ := Option.bind_eq_some_iff.mp made
  obtain ⟨aligned, empty⟩ := rows_aligned columns tableType runLists table.rows lists ⟨[], [], 0, false⟩ before ⟨rfl, rfl, nofun⟩ ran
  have none_shown := empty.mpr ⟨rfl, nothing⟩
  have notFailed : ¬ (tableType = .summary ∧ before.allFailed ∧ table.rows.length = 1) := fun ⟨_, failed, one⟩ => by
    obtain ⟨row, alone⟩ := List.length_eq_one_iff.mp one
    have isHidden := nothing row (by rw [alone]; exact List.mem_cons_self)
    rw [alone] at ran
    rw [one_hidden_row columns tableType before row isHidden ran] at failed
    exact passed ⟨row, alone, (no_zero_iff row).mp failed⟩
  rw [if_neg notFailed] at made
  obtain rfl := Option.some.inj made
  exact ⟨by rw [aligned.columns, if_pos none_shown], fun row member => by rw [none_shown] at member; cases member⟩

end Returned

theorem headers_line_up_iff (str : Value → Option Text) (python : Comparison) (sort : SortBy) (keyName : Text) (numberOfRows : Nat)
    (runs : Runs) (labels : List Text) (table : Table) (columns : List Column) (tableType : TableType) (cells : List (List Cell))
    (someLabel : labels ≠ []) (someKey : aggregateKeys runs ≠ [])
    (generated : getTable str python sort keyName numberOfRows runs labels = some table)
    (returned : getCellTable columns table tableType = some cells) :
    LinesUp cells ↔ HeadersFit columns tableType table runs.length := by
  have shape := get_table_generated str python sort keyName numberOfRows runs labels table someKey generated
  have labelled : 0 < table.labels.length := by
    rw [shape.labels]
    exact List.length_pos_iff.mpr someLabel
  have someRuns : 0 < runs.length := List.length_pos_iff.mpr fun nothing => someKey (by rw [nothing]; rfl)
  obtain ⟨state, made, returned⟩ := Option.bind_eq_some_iff.mp returned
  obtain ⟨topHeader, named, rfl⟩ := Option.map_eq_some_iff.mp returned
  have up (width : Nat) (sized : TableWidth width state) := lines_up_iff columns table topHeader state named
    fun row member => by rw [sized.rows row member, sized.columns]
  by_cases visible : ∃ row ∈ table.rows, hidden tableType row = false
  · have sized := visible_width columns tableType table runs.length shape.values state made visible
    have shown (nothing : ∀ row ∈ table.rows, hidden tableType row = true) : False := by
      obtain ⟨row, member, notHidden⟩ := visible
      rw [nothing row member] at notHidden
      cases notHidden
    rw [up _ sized, sized.columns, same_width_iff columns _ _ labelled someRuns, eq_comm (a := table.labels.length)]
    exact ⟨fun fits => ⟨fun _ => fits, fun nothing => absurd nothing shown, fun nothing => absurd nothing shown⟩,
      fun fits => fits.rows visible⟩
  · have nothing : ∀ row ∈ table.rows, hidden tableType row = true := by simpa using visible
    by_cases failed : AllFailed table
    · have sized := failed_width columns tableType table state made nothing failed
      rw [up _ sized, sized.columns, fail_width_iff columns _ labelled]
      exact ⟨fun fits => ⟨fun shown => absurd shown visible, fun _ _ => fits, fun _ passed => absurd failed passed⟩,
        fun fits => fits.failed nothing failed⟩
    · have sized := passed_width columns tableType table runs.length shape.values state made nothing failed
      rw [up _ sized, sized.columns, no_width_iff columns _ labelled]
      exact ⟨fun fits => ⟨fun shown => absurd shown visible, fun _ isFailed => absurd isFailed failed, fun _ _ => fits⟩,
        fun fits => fits.passed nothing failed⟩

def sampleComparison : Comparison := ⟨Unit, fun _ => (), fun _ => (), fun _ _ => true⟩

def meanColumn : Column where
  needsBaseline := false
  compute := fun cell values _ => some { cell with
    stringValue := some (if values.any (Value.isStr "Fail".toList) then "Fail".toList else "1.00".toList) }
  name := []
  resultName := "AmeanResult".toList
  formatName := "Format".toList

-- Without a baseline the value of the cell is the empty text.
def ratioColumn : Column where
  needsBaseline := true
  compute := fun cell _ baseline => some { cell with stringValue := some (if baseline.isSome then "+0.0%".toList else []) }
  name := []
  resultName := "AmeanRatioResult".toList
  formatName := "PercentFormat".toList

theorem one_key_table (runs : Runs) (labels : List Text) (key : Text) (row : Row) (keys : aggregateKeys runs = [key])
    (made : rowOf (fun _ => none) runs key = some row) :
    getTable (fun _ => none) sampleComparison .keys "keys".toList 0 runs labels = some ⟨"keys".toList, labels, [row]⟩ := by
  rw [getTable, keys, sortKeys, List.mergeSort_singleton, Option.bind_some, if_pos rfl, List.mapM_cons, made]
  rfl

def scoreRun : Keyvals := (∅ : Keyvals).insert "score".toList (.int 1)

def failedRun : Keyvals := (∅ : Keyvals).insert retvalText (.int 1)

theorem two_labels_line_up : ∃ table cells, getTable (fun _ => none) sampleComparison .keys "keys".toList 0 [[scoreRun], [scoreRun]]
    [['a'], ['b']] = some table ∧ getCellTable [meanColumn, ratioColumn] table .full = some cells ∧ LinesUp cells := by
  have generated := one_key_table [[scoreRun], [scoreRun]] [['a'], ['b']] "score".toList ⟨"score".toList, [[.int 1], [.int 1]]⟩ rfl rfl
  refine ⟨_, _, generated, rfl, ?_⟩
  refine (headers_line_up_iff (fun _ => none) sampleComparison .keys "keys".toList 0 [[scoreRun], [scoreRun]] [['a'], ['b']] _
    [meanColumn, ratioColumn] .full _ nofun nofun generated rfl).mpr ⟨fun _ => .inr rfl, fun nothing => ?_, fun nothing => ?_⟩
  · exact absurd (nothing _ List.mem_cons_self) (by decide)
  · exact absurd (nothing _ List.mem_cons_self) (by decide)

-- The row for the results that all failed has a cell below no label.
theorem failed_summary_out_of_line : ∃ table cells, getTable (fun _ => none) sampleComparison .keys "keys".toList 0 [[failedRun]] [['l']] =
    some table ∧ getCellTable [meanColumn, ratioColumn] table .summary = some cells ∧ ¬ LinesUp cells := by
  have generated := one_key_table [[failedRun]] [['l']] retvalText ⟨retvalText, [[.int 1]]⟩ rfl rfl
  refine ⟨_, _, generated, rfl, ?_⟩
  rintro ⟨topHeader, header, rows, same, sum, _⟩
  obtain ⟨rfl, rest⟩ := List.cons.inj same
  obtain ⟨rfl, _⟩ := List.cons.inj rest
  exact absurd sum (by decide)

end ToolchainUtils.CrosUtils.Tabulator
