import Mathlib.Data.List.Basic
import ToolchainUtils.ItemByItem

set_option autoImplicit false

-- Rectangular tables as lists of rows.
namespace ToolchainUtils.TableGrids

open ItemByItem

variable {Cell : Type}

def cellAt (table : List (List Cell)) (i j : ℕ) : Option Cell := table[i]?.bind fun row => row[j]?

def grid (rows cols : ℕ) (cell : ℕ → ℕ → Cell) : List (List Cell) :=
  (List.range rows).map fun i => (List.range cols).map fun j => cell i j

-- The column of each place of the first row.
def transposed (table : List (List Cell)) : Option (List (List Cell)) :=
  (List.range (table.headD []).length).mapM fun i => table.mapM fun row => row[i]?

theorem grid_row (rows cols : ℕ) (cell : ℕ → ℕ → Cell) (i : ℕ) (inside : i < rows) :
    (grid rows cols cell)[i]? = some ((List.range cols).map fun j => cell i j) := by
  rw [grid, List.getElem?_map, List.getElem?_range inside, Option.map_some]

theorem grid_cell (rows cols : ℕ) (cell : ℕ → ℕ → Cell) (i j : ℕ) (row : i < rows) (col : j < cols) :
    cellAt (grid rows cols cell) i j = some (cell i j) := by
  rw [cellAt, grid_row rows cols cell i row, Option.bind_some, List.getElem?_map, List.getElem?_range col, Option.map_some]

theorem grid_outside (rows cols : ℕ) (cell : ℕ → ℕ → Cell) (i j : ℕ) (outside : ¬ (i < rows ∧ j < cols)) :
    cellAt (grid rows cols cell) i j = none := by
  rw [cellAt, grid]
  by_cases row : i < rows
  · have col : cols ≤ j := Nat.le_of_not_lt fun inside => outside ⟨row, inside⟩
    rw [List.getElem?_map, List.getElem?_range row, Option.map_some, Option.bind_some]
    exact List.getElem?_eq_none (by rw [List.length_map, List.length_range]; exact col)
  · rw [List.getElem?_eq_none (by rw [List.length_map, List.length_range]; exact Nat.le_of_not_lt row), Option.bind_none]

theorem grid_length (rows cols : ℕ) (cell : ℕ → ℕ → Cell) : (grid rows cols cell).length = rows := by
  rw [grid, List.length_map, List.length_range]

theorem grid_width (rows cols : ℕ) (cell : ℕ → ℕ → Cell) (filled : rows ≠ 0) : ((grid rows cols cell).headD []).length = cols := by
  obtain ⟨n, rfl⟩ := Nat.exists_eq_succ_of_ne_zero filled
  rw [grid, List.range_succ_eq_map, List.map_cons, List.headD_cons, List.length_map, List.length_range]

-- A loop that makes something for every item.
theorem map_some {First Second : Type} (make : First → Option Second) (value : First → Second) (firsts : List First)
    (makes : ∀ first ∈ firsts, make first = some (value first)) : firsts.mapM make = some (firsts.map value) :=
  (made_iff make firsts _).mpr (List.forall₂_map_right_iff.mpr (List.forall₂_same.mpr makes))

theorem transposed_grid (rows cols : ℕ) (cell : ℕ → ℕ → Cell) (filled : rows ≠ 0) :
    transposed (grid rows cols cell) = some (grid cols rows fun i j => cell j i) := by
  rw [transposed, grid_width rows cols cell filled]
  refine map_some _ _ _ fun i inside => ?_
  rw [grid, List.mapM_map]
  refine map_some _ _ _ fun j _ => ?_
  rw [Function.comp_apply, List.getElem?_map, List.getElem?_range (List.mem_range.mp inside), Option.map_some]

theorem table_is_grid (table : List (List Cell)) (width : ℕ) (same : ∀ row ∈ table, row.length = width) (filler : Cell) :
    table = grid table.length width fun i j => (cellAt table i j).getD filler := by
  refine List.ext_getElem (grid_length _ _ _).symm fun i inside _ => ?_
  have width_here := same table[i] (List.getElem_mem inside)
  refine List.ext_getElem ?_ fun j within _ => ?_
  · simp only [grid, List.getElem_map, List.length_map, List.length_range, width_here]
  · simp only [grid, List.getElem_map, List.getElem_range]
    rw [cellAt, List.getElem?_eq_getElem inside, Option.bind_some, List.getElem?_eq_getElem within, Option.getD_some]

end ToolchainUtils.TableGrids
