import ToolchainUtils.Crb.TableFormatter

set_option autoImplicit false

namespace ToolchainUtils.Crb.TableFormatter

open PyString TableGrids ItemByItem
open CrosUtils.Tabulator (FloatValue)

structure RectangularTable where
  cells : Table
  width : ℕ
  filled : cells ≠ []
  wide : width ≠ 0
  same : ∀ row ∈ cells, row.length = width

def nanText : Text := "+nan".toList

-- The transposed table raises nothing and has the mirror image of the inner cells of the table.
def TransposedRight (floatStr exponential : FloatValue → Text) (table : Table) : Prop :=
  ∀ percentsOnly, ∃ shown flipped, formattedCells floatStr exponential table false percentsOnly = some shown ∧
    formattedCells floatStr exponential table true percentsOnly = some flipped ∧
    ∀ i j, 1 ≤ i → 1 ≤ j → cellAt flipped i j = cellAt shown j i

-- There is nothing but what stands for no percentage, and for that of values which are no numbers.
structure Mirrored (table : RectangularTable) : Prop where
  square : table.cells.length = table.width
  inner : ∀ i j, 1 ≤ i → 1 ≤ j → ∀ cell ∈ cellAt table.cells i j, cell = .text badResult ∨ cell = .text nanText
  symmetric : ∀ i j, 1 ≤ i → 1 ≤ j → cellAt table.cells i j = cellAt table.cells j i
  first : ∀ i j, 1 ≤ i → 1 ≤ j → cellAt table.cells i j = some (.text nanText) → cellAt table.cells i 1 = some (.text nanText)

section Grids

variable (floatStr exponential : FloatValue → Text) (percentsOnly : Bool)

-- The percentages of a grid, with the labels of its rows and columns.
def percentCell (cell : ℕ → ℕ → Cell) (i j : ℕ) : Cell :=
  if i = 0 ∨ j = 0 then cell i j else .text (getPercent (cell i 1) (cell i j) badResult)

theorem row_percents (cols : ℕ) (cell : ℕ → ℕ → Cell) (i : ℕ) (inner : i ≠ 0) (wide : cols ≠ 0) :
    percentRow cols ((List.range cols).map fun j => cell i j) = some ((List.range cols).map fun j => percentCell cell i j) := by
  obtain ⟨m, rfl⟩ : ∃ m, cols = m + 1 := Nat.exists_eq_succ_of_ne_zero wide
  have cell_at : ∀ j, j ≤ m → ((List.range (m + 1)).map fun j => cell i j)[j]? = some (cell i j) := by
    intro j within
    rw [List.getElem?_map, List.getElem?_range (by omega), Option.map_some]
  have values : ((List.range' 1 m).mapM fun j => (((List.range (m + 1)).map fun j => cell i j)[j]?).bind fun c =>
      (((List.range (m + 1)).map fun j => cell i j)[1]?).map fun b => Cell.text (getPercent b c badResult)) =
      some ((List.range' 1 m).map fun j => .text (getPercent (cell i 1) (cell i j) badResult)) := by
    refine map_some _ _ _ fun j member => ?_
    have within := List.mem_range'_1.mp member
    rw [cell_at j (by omega), cell_at 1 (by omega), Option.bind_some, Option.map_some]
  have label : percentCell cell i 0 = cell i 0 := if_pos (.inr rfl)
  rw [percentRow, cell_at 0 (Nat.zero_le m), Option.bind_some, Nat.add_sub_cancel, values, Option.map_some, List.range_succ_eq_map,
    List.map_cons, label, List.range'_eq_map_range, List.map_map, List.map_map]
  refine congrArg some (congrArg _ (List.map_congr_left fun j _ => ?_))
  rw [Function.comp_apply, Function.comp_apply, Nat.add_comm 1 j]
  exact (if_neg (by omega)).symm

theorem grid_percents (rows cols : ℕ) (cell : ℕ → ℕ → Cell) (filled : rows ≠ 0) (wide : cols ≠ 0) :
    getTablePercents (grid rows cols cell) = some (grid rows cols (percentCell cell)) := by
  obtain ⟨n, rfl⟩ := Nat.exists_eq_succ_of_ne_zero filled
  have header : ((List.range cols).map fun j => percentCell cell 0 j) = (List.range cols).map fun j => cell 0 j :=
    List.map_congr_left fun j _ => if_pos (.inl rfl)
  rw [grid, grid, List.range_succ_eq_map, List.map_cons, List.map_cons, header, getTablePercents, List.length_map, List.length_range,
    List.map_map, List.map_map, List.mapM_map]
  rw [map_some (percentRow cols ∘ (fun i => (List.range cols).map fun j => cell i j) ∘ Nat.succ)
    (fun i => (List.range cols).map fun j => percentCell cell (i + 1) j) (List.range n)
    fun i _ => row_percents cols cell (i + 1) (Nat.succ_ne_zero i) wide, Option.map_some]
  rfl

theorem format_grids (rows cols pctRows pctCols : ℕ) (cell pct : ℕ → ℕ → Cell) (filled : rows ≠ 0) (inside : rows ≤ pctRows ∧ cols ≤ pctCols) :
    formatCells floatStr exponential percentsOnly (grid rows cols cell) (grid pctRows pctCols pct) =
      some (grid rows cols fun i j => cellText floatStr exponential percentsOnly i j (cell i j) (pct i j)) := by
  rw [formatCells, grid_length, grid_width rows cols cell filled]
  refine map_some _ _ _ fun i row => map_some _ _ _ fun j col => ?_
  have rowInside := List.mem_range.mp row
  have colInside := List.mem_range.mp col
  rw [grid_cell rows cols cell i j rowInside colInside, Option.bind_some,
    grid_cell pctRows pctCols pct i j (rowInside.trans_le inside.1) (colInside.trans_le inside.2), Option.map_some]

-- An index out of the range of the percentages raises.
theorem format_outside (rows cols pctRows pctCols : ℕ) (cell pct : ℕ → ℕ → Cell) (filled : rows ≠ 0) (wide : cols ≠ 0)
    (outside : ¬ (rows ≤ pctRows ∧ cols ≤ pctCols)) :
    formatCells floatStr exponential percentsOnly (grid rows cols cell) (grid pctRows pctCols pct) = none := by
  refine Option.eq_none_iff_forall_ne_some.mpr fun made ran => ?_
  rw [formatCells, grid_length, grid_width rows cols cell filled] at ran
  obtain ⟨row, ran⟩ := (made_each_iff _ _).mp ⟨made, ran⟩ (rows - 1) (List.mem_range.mpr (by omega))
  obtain ⟨text, ran⟩ := (made_each_iff _ _).mp ⟨row, ran⟩ (cols - 1) (List.mem_range.mpr (by omega))
  obtain ⟨_, _, ran⟩ := Option.bind_eq_some_iff.mp ran
  rw [grid_outside pctRows pctCols pct _ _ (by omega)] at ran
  cases ran

theorem plain_grid (rows cols : ℕ) (cell : ℕ → ℕ → Cell) (filled : rows ≠ 0) (wide : cols ≠ 0) :
    formattedCells floatStr exponential (grid rows cols cell) false percentsOnly =
      some (grid rows cols fun i j => cellText floatStr exponential percentsOnly i j (cell i j) (percentCell cell i j)) := by
  rw [formattedCells, grid_percents rows cols cell filled wide, Option.bind_some, if_neg Bool.false_ne_true,
    format_grids _ _ _ rows cols rows cols cell _ filled ⟨le_refl _, le_refl _⟩]

theorem transpose_grid (rows cols : ℕ) (cell : ℕ → ℕ → Cell) (filled : rows ≠ 0) :
    transposeTable (grid rows cols cell) = some (grid cols rows fun i j => cell j i) := by
  rw [transposeTable, if_neg, transposed_grid rows cols cell filled]
  intro empty
  have lengths := grid_length rows cols cell
  rw [empty] at lengths
  exact filled lengths.symm

-- The percentages of the transposed table are the table itself.
theorem flipped_grid (rows cols : ℕ) (cell : ℕ → ℕ → Cell) (filled : rows ≠ 0) (wide : cols ≠ 0) :
    formattedCells floatStr exponential (grid rows cols cell) true percentsOnly =
      formatCells floatStr exponential percentsOnly (grid cols rows fun i j => cell j i) (grid rows cols cell) := by
  rw [formattedCells, grid_percents rows cols cell filled wide, Option.bind_some, if_pos rfl, transpose_grid rows cols cell filled,
    Option.bind_some, transpose_grid cols rows _ wide, Option.bind_some]

end Grids

section Percents

theorem nan_float : (Cell.text nanText).float = some .nan := by decide

theorem bad_float : (Cell.text badResult).float = none := by decide

def evenText : Text := "+0.0".toList

theorem even_float : (Cell.text evenText).float = some (.finite 0) := by
  have parsed : parseFloat evenText = some (.decimal false 0 (-1)) := by decide
  rw [Cell.float, parsed, Option.map_some, FloatValue.ofText, Nat.cast_zero, mul_zero, zero_mul]

theorem even_percent : percentText (.finite 0) = evenText := by decide +kernel

-- A number is never shown with a plus sign.
theorem text_of_signed (cell : Cell) (rest : Text) (same : cell.str = '+' :: rest) : cell = .text ('+' :: rest) := by
  cases cell with
  | text t => exact congrArg Cell.text same
  | number n =>
      have text : n.text = '+' :: rest := same
      exact absurd (by rw [text, List.head?_cons]) n.unsigned

theorem text_of_bad (cell : Cell) (same : cell.str = badResult) : cell = .text badResult := by
  cases cell with
  | text t => exact congrArg Cell.text same
  | number n => exact absurd same n.notBad

theorem undefined_percent (baseline : Cell) (undefined : baseline.float = none) (other : Cell) :
    getPercent baseline other badResult = badResult := by
  rw [getPercent, undefined]

theorem defined_percent (baseline other : Cell) (b v : FloatValue) (first : baseline.float = some b) (second : other.float = some v) :
    getPercent baseline other badResult = (percentOf b v).elim badResult percentText := by
  rw [getPercent, first, second]

theorem nan_percent (other : Cell) :
    getPercent (.text nanText) other badResult = if other.float.isSome then nanText else badResult := by
  rw [getPercent, nan_float]
  cases other.float with
  | none => rfl
  | some v =>
      cases v with
      | finite q => rfl
      | infinite negative => rfl
      | nan => rfl

-- A cell that reads as its own percentage is one of the two.
theorem own_percent (cell : Cell) (same : cell.str = getPercent cell cell badResult) :
    cell = .text badResult ∨ cell = .text nanText := by
  cases value : cell.float with
  | none =>
      rw [undefined_percent cell value] at same
      exact .inl (text_of_bad cell same)
  | some x =>
      rw [defined_percent cell cell x x value value] at same
      cases x with
      | finite q =>
          by_cases zero : q = 0
          · rw [show percentOf (.finite q) (.finite q) = none from if_pos zero] at same
            exact .inl (text_of_bad cell same)
          · have even : percentOf (.finite q) (.finite q) = some (.finite 0) := by
              rw [percentOf, if_neg zero, div_self zero, sub_self, zero_mul]
            rw [even] at same
            have text := text_of_signed cell ['0', '.', '0'] (same.trans even_percent)
            rw [text] at value
            exact absurd (FloatValue.finite.inj (Option.some.inj (value.symm.trans even_float))) zero
      | infinite negative => exact .inr (text_of_signed cell ['n', 'a', 'n'] same)
      | nan => exact .inr (text_of_signed cell ['n', 'a', 'n'] same)

theorem text_of_either (cell : Cell) (same : cell.str = nanText ∨ cell.str = badResult) :
    cell = .text badResult ∨ cell = .text nanText := by
  rcases same with nan | bad
  · exact .inr (text_of_signed cell ['n', 'a', 'n'] nan)
  · exact .inl (text_of_bad cell bad)

end Percents

section Mirror

variable (n : ℕ) (cell : ℕ → ℕ → Cell)

-- Each inner cell reads as the percentage of the cell opposite to it.
def Opposite : Prop := ∀ i j, 1 ≤ i → i < n → 1 ≤ j → j < n → (cell i j).str = getPercent (cell j 1) (cell j i) badResult

def EachMirrored : Prop := ∀ i j, 1 ≤ i → i < n → 1 ≤ j → j < n →
  (cell i j = .text badResult ∨ cell i j = .text nanText) ∧ cell i j = cell j i ∧ (cell i j = .text nanText → cell i 1 = .text nanText)

theorem bad_not_nan : Cell.text badResult ≠ .text nanText := by
  intro same
  exact absurd (Cell.text.inj same) (by decide)

-- A percentage to one of the two is one of the two.
theorem either_percent (baseline other : Cell) (either : baseline = .text badResult ∨ baseline = .text nanText) :
    getPercent baseline other badResult = nanText ∨ getPercent baseline other badResult = badResult := by
  rcases either with rfl | rfl
  · exact .inr (undefined_percent _ bad_float other)
  · rw [nan_percent]
    split
    · exact .inl rfl
    · exact .inr rfl

theorem either_is (baseline other : Cell) (first : baseline = .text badResult ∨ baseline = .text nanText)
    (second : other = .text badResult ∨ other = .text nanText) :
    getPercent baseline other badResult = nanText ↔ baseline = .text nanText ∧ other = .text nanText := by
  have apart : badResult ≠ nanText := by decide
  rcases first with rfl | rfl
  · rw [undefined_percent _ bad_float]
    exact iff_of_false apart fun both => bad_not_nan both.1
  · rw [nan_percent, and_iff_right rfl]
    rcases second with rfl | rfl
    · rw [bad_float]
      exact iff_of_false apart bad_not_nan
    · rw [nan_float]
      exact iff_of_true rfl rfl

theorem opposite_either (opposite : Opposite n cell) (i j : ℕ) (low : 1 ≤ i) (high : i < n) (left : 1 ≤ j) (right : j < n) :
    cell i j = .text badResult ∨ cell i j = .text nanText := by
  have one : 1 < n := low.trans_lt high
  have corner := own_percent (cell 1 1) (opposite 1 1 (le_refl 1) one (le_refl 1) one)
  have column : ∀ i, 1 ≤ i → i < n → cell i 1 = .text badResult ∨ cell i 1 = .text nanText := by
    intro i low high
    have same := opposite i 1 low high (le_refl 1) one
    exact text_of_either _ (by rw [same]; exact either_percent _ _ corner)
  have same := opposite i j low high left right
  exact text_of_either _ (by rw [same]; exact either_percent _ _ (column j left right))

theorem opposite_iff : Opposite n cell ↔ EachMirrored n cell := by
  constructor
  · intro opposite
    have either := opposite_either n cell opposite
    have nan : ∀ i j, 1 ≤ i → i < n → 1 ≤ j → j < n →
        (cell i j = .text nanText ↔ cell j 1 = .text nanText ∧ cell j i = .text nanText) := by
      intro i j low high left right
      have one : 1 < n := low.trans_lt high
      rw [← either_is _ _ (either j 1 left right (le_refl 1) one) (either j i left right low high), ← opposite i j low high left right]
      exact ⟨fun same => by rw [same]; rfl, text_of_signed (cell i j) ['n', 'a', 'n']⟩
    intro i j low high left right
    refine ⟨either i j low high left right, ?_, fun same => ?_⟩
    · rcases either i j low high left right with bad | same
      · rcases either j i left right low high with also | other
        · rw [bad, also]
        · rw [((nan j i left right low high).mp other).2, other]
      · rw [((nan i j low high left right).mp same).2, same]
    · have back := ((nan i j low high left right).mp same).2
      exact ((nan j i left right low high).mp back).1
  · intro mirrored i j low high left right
    have one : 1 < n := low.trans_lt high
    obtain ⟨either, symmetric, _⟩ := mirrored i j low high left right
    obtain ⟨opposite, _, first⟩ := mirrored j i left right low high
    obtain ⟨base, _, _⟩ := mirrored j 1 left right (le_refl 1) one
    have reads := either_is _ _ base opposite
    rcases either with bad | same
    · rcases either_percent (cell j 1) (cell j i) base with nan | equal
      · exact absurd (bad.symm.trans (symmetric.trans (reads.mp nan).2)) bad_not_nan
      · rw [bad, equal]
        rfl
    · have back := symmetric.symm.trans same
      rw [same, reads.mpr ⟨first back, back⟩]
      rfl

end Mirror

section Claim

variable (floatStr exponential : FloatValue → Text)

theorem inner_text (percentsOnly : Bool) (i j : ℕ) (row : 1 ≤ i) (col : 1 ≤ j) (c p : Cell) :
    cellText floatStr exponential percentsOnly i j c p =
      if percentsOnly then shownPercent percentsOnly p
      else valueText floatStr exponential c ++ " (".toList ++ shownPercent percentsOnly p ++ [')'] := by
  rw [cellText, if_neg (by omega), if_neg (by omega)]

theorem cell_text_iff (percentsOnly : Bool) (i j : ℕ) (row : 1 ≤ i) (col : 1 ≤ j) (c p q : Cell) :
    cellText floatStr exponential percentsOnly i j c p = cellText floatStr exponential percentsOnly j i c q ↔
      shownPercent percentsOnly p = shownPercent percentsOnly q := by
  rw [inner_text _ _ _ i j row col, inner_text _ _ _ j i col row]
  cases percentsOnly with
  | true => rw [if_pos rfl, if_pos rfl]
  | false =>
      rw [if_neg Bool.false_ne_true, if_neg Bool.false_ne_true, List.append_cancel_right_eq, List.append_cancel_left_eq]

theorem percent_shown_alone (p : Cell) : shownPercent true p = p.str := if_neg fun both => both.2 rfl

theorem inner_percent (cell : ℕ → ℕ → Cell) (i j : ℕ) (row : 1 ≤ i) (col : 1 ≤ j) :
    percentCell cell i j = .text (getPercent (cell i 1) (cell i j) badResult) := if_neg (by omega)

theorem square_right_iff (n : ℕ) (cell : ℕ → ℕ → Cell) (filled : n ≠ 0) :
    TransposedRight floatStr exponential (grid n n cell) ↔ Opposite n cell := by
  have flipped := fun percentsOnly => (flipped_grid floatStr exponential percentsOnly n n cell filled filled).trans
    (format_grids floatStr exponential percentsOnly n n n n (fun i j => cell j i) cell filled ⟨le_refl n, le_refl n⟩)
  have plain := fun percentsOnly => plain_grid floatStr exponential percentsOnly n n cell filled filled
  constructor
  · intro right i j low high left below
    obtain ⟨_, _, first, second, same⟩ := right true
    cases (plain true).symm.trans first
    cases (flipped true).symm.trans second
    have texts := same i j low left
    rw [grid_cell n n _ i j high below, grid_cell n n _ j i below high, Option.some.injEq, cell_text_iff _ _ _ i j low left,
      percent_shown_alone, percent_shown_alone, inner_percent cell j i left low] at texts
    exact texts
  · intro opposite percentsOnly
    refine ⟨_, _, plain percentsOnly, flipped percentsOnly, fun i j low left => ?_⟩
    by_cases inside : i < n ∧ j < n
    · rw [grid_cell n n _ i j inside.1 inside.2, grid_cell n n _ j i inside.2 inside.1, Option.some.injEq,
        cell_text_iff _ _ _ i j low left, inner_percent cell j i left low, ← opposite i j low inside.1 left inside.2]
      rcases opposite_either n cell opposite i j low inside.1 left inside.2 with bad | nan
      · rw [bad]
        rfl
      · rw [nan]
        rfl
    · rw [grid_outside n n _ i j inside, grid_outside n n _ j i fun both => inside ⟨both.2, both.1⟩]

theorem grid_right_iff (rows cols : ℕ) (cell : ℕ → ℕ → Cell) (filled : rows ≠ 0) (wide : cols ≠ 0) :
    TransposedRight floatStr exponential (grid rows cols cell) ↔ rows = cols ∧ Opposite rows cell := by
  by_cases square : rows = cols
  · subst square
    rw [square_right_iff floatStr exponential rows cell filled]
    exact (and_iff_right rfl).symm
  · refine iff_of_false (fun right => ?_) fun both => square both.1
    obtain ⟨_, _, _, second, _⟩ := right true
    rw [flipped_grid _ _ _ rows cols cell filled wide,
      format_outside _ _ _ cols rows rows cols _ cell wide filled fun both => square (le_antisymm both.2 both.1)] at second
    cases second

def RectangularTable.cell (table : RectangularTable) (i j : ℕ) : Cell := (cellAt table.cells i j).getD (.text [])

theorem rectangular_grid (table : RectangularTable) : table.cells = grid table.cells.length table.width table.cell :=
  table_is_grid table.cells table.width table.same (.text [])

theorem rectangular_cell (table : RectangularTable) (i j : ℕ) (row : i < table.cells.length) (col : j < table.width) :
    cellAt table.cells i j = some (table.cell i j) :=
  (congrArg (fun cells => cellAt cells i j) (rectangular_grid table)).trans (grid_cell _ _ _ i j row col)

theorem rectangular_outside (table : RectangularTable) (i j : ℕ) (outside : ¬ (i < table.cells.length ∧ j < table.width)) :
    cellAt table.cells i j = none :=
  (congrArg (fun cells => cellAt cells i j) (rectangular_grid table)).trans (grid_outside _ _ _ i j outside)

theorem rectangular_inside (table : RectangularTable) (i j : ℕ) (cell : Cell) (found : cellAt table.cells i j = some cell) :
    i < table.cells.length ∧ j < table.width ∧ table.cell i j = cell := by
  by_cases inside : i < table.cells.length ∧ j < table.width
  · rw [rectangular_cell table i j inside.1 inside.2] at found
    exact ⟨inside.1, inside.2, Option.some.inj found⟩
  · rw [rectangular_outside table i j inside] at found
    cases found

theorem mirrored_iff (table : RectangularTable) :
    Mirrored table ↔ table.cells.length = table.width ∧ EachMirrored table.cells.length table.cell := by
  constructor
  · intro mirrored
    refine ⟨mirrored.square, fun i j low high left right => ?_⟩
    have square := mirrored.square
    have here := rectangular_cell table i j high (by omega)
    have there := rectangular_cell table j i right (by omega)
    have symmetric := mirrored.symmetric i j low left
    rw [here, there] at symmetric
    refine ⟨mirrored.inner i j low left _ here, Option.some.inj symmetric, fun nan => ?_⟩
    have first := mirrored.first i j low left (here.trans (congrArg some nan))
    exact (rectangular_inside table i 1 _ first).2.2
  · rintro ⟨square, each⟩
    refine ⟨square, fun i j low left cell found => ?_, fun i j low left => ?_, fun i j low left found => ?_⟩
    · obtain ⟨row, col, rfl⟩ := rectangular_inside table i j cell found
      exact (each i j low row left (by omega)).1
    · by_cases inside : i < table.cells.length ∧ j < table.width
      · rw [rectangular_cell table i j inside.1 inside.2, rectangular_cell table j i (by omega) (by omega)]
        exact congrArg some (each i j low inside.1 left (by omega)).2.1
      · rw [rectangular_outside table i j inside, rectangular_outside table j i (by omega)]
    · obtain ⟨row, col, nan⟩ := rectangular_inside table i j _ found
      rw [rectangular_cell table i 1 row (by omega)]
      exact congrArg some ((each i j low row left (by omega)).2.2 nan)

theorem transposed_right_iff (table : RectangularTable) : TransposedRight floatStr exponential table.cells ↔ Mirrored table := by
  have filled : table.cells.length ≠ 0 := fun empty => table.filled (List.length_eq_zero_iff.mp empty)
  have right := grid_right_iff floatStr exponential table.cells.length table.width table.cell filled table.wide
  rw [← rectangular_grid, opposite_iff, ← mirrored_iff] at right
  exact right

-- A table with one row and two columns.
theorem two_columns_raise : ¬ TransposedRight (fun _ => []) (fun _ => []) [[.text ['k'], .text ['a']]] := by
  intro right
  obtain ⟨_, _, _, flipped, _⟩ := right true
  have raised : formattedCells (fun _ => []) (fun _ => []) [[.text ['k'], .text ['a']]] true true = none := rfl
  rw [raised] at flipped
  cases flipped

end Claim

end ToolchainUtils.Crb.TableFormatter
