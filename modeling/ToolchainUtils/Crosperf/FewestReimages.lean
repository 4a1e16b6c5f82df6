import Mathlib.Data.Finset.Lattice.Fold
import Mathlib.Order.Bounds.Basic
import Mathlib.Order.Lattice.Nat
import ToolchainUtils.Crosperf.InitialAllocation

set_option autoImplicit false

namespace ToolchainUtils.Crosperf

open Backtracking

variable {labels duts : Nat}

def load (assignment : Fin labels → Fin duts) (j : Fin duts) : Nat :=
  (List.finRange labels).countP fun i => assignment i = j

def largestLoad (assignment : Fin labels → Fin duts) : Nat := Finset.univ.sup (load assignment)

def largestColumn (matrix : Fin labels → Fin duts → Cell) : Nat := Finset.univ.sup (columnCount matrix)

def Compatible (matrix : Fin labels → Fin duts → Cell) (assignment : Fin labels → Fin duts) : Prop :=
  ∀ i, matrix i (assignment i) ≠ .incompatible

-- N re-images for each machine are enough, and fewer are not.
def FewestReimages (matrix : Fin labels → Fin duts → Cell) (n : Nat) : Prop :=
  IsLeast { most | ∃ assignment, Compatible matrix assignment ∧ largestLoad assignment = most } n

def FirstFit (matrix : Fin labels → Fin duts → Cell) (assignment : Fin labels → Fin duts) : Prop :=
  ∀ i, matrix i (assignment i) ≠ .incompatible ∧ ∀ j, j < assignment i → matrix i j = .incompatible

-- On a matrix without marks a column counts the labels given to its dut.
theorem column_count_marked (matrix : Fin labels → Fin duts → Cell) (assignment : Fin labels → Fin duts)
    (unmarked : ∀ i j, matrix i j ≠ .allotted) (j : Fin duts) :
    columnCount (marked matrix (List.finRange labels) assignment) j = load assignment j := by
  refine List.countP_congr fun i _ => ?_
  simp [marked_all, unmarked]

theorem largest_column_marked (matrix : Fin labels → Fin duts → Cell) (assignment : Fin labels → Fin duts)
    (unmarked : ∀ i j, matrix i j ≠ .allotted) :
    largestColumn (marked matrix (List.finRange labels) assignment) = largestLoad assignment :=
  Finset.sup_congr rfl fun j _ => column_count_marked matrix assignment unmarked j

theorem column_count_set_cell_le (matrix : Fin labels → Fin duts → Cell) (i : Fin labels) (j column : Fin duts) :
    columnCount (setCell matrix i j .allotted) column ≤ columnCount matrix column + 1 := by
  by_cases mark : matrix i j = .allotted
  · have same : setCell matrix i j .allotted = matrix := by
      rw [← mark]
      simp [setCell]
    rw [same]
    exact Nat.le_succ _
  · rw [column_count_set_cell matrix i j column mark]
    split <;> omega

-- The first blank cell of every row.
def FirstBlank (matrix : Fin labels → Fin duts → Cell) (levels : List (Fin labels)) (assignment : Fin labels → Fin duts) : Prop :=
  BlankOn matrix levels assignment ∧ ∀ i ∈ levels, ∀ j, j < assignment i → matrix i j ≠ .blank

theorem first_blank_rest (matrix : Fin labels → Fin duts → Cell) (level : Fin labels) (rest : List (Fin labels)) (j : Fin duts)
    (assignment : Fin labels → Fin duts) (apart : level ∉ rest) (first : FirstBlank matrix (level :: rest) assignment) :
    FirstBlank (setCell matrix level j .allotted) rest assignment := by
  refine ⟨(blank_on_rest matrix level rest j assignment apart).mpr fun i member => first.1 i (List.mem_cons_of_mem _ member), ?_⟩
  intro i member column less
  rw [set_cell_other _ _ _ _ _ _ (.inl (ne_of_mem_of_not_mem member apart))]
  exact first.2 i (List.mem_cons_of_mem _ member) column less

theorem tried_first (n : Nat) (earlier later : List (Fin duts)) (choice : Fin duts)
    (order : (marking labels duts n).choices = earlier ++ choice :: later) (other : Fin duts) :
    other ∈ earlier ↔ other < choice := by
  have ascending : (earlier ++ choice :: later).Pairwise (· < ·) := order ▸ List.pairwise_lt_finRange duts
  exact tried_before_iff_lt earlier later choice other ascending (order ▸ List.mem_finRange other)

-- Where the first blank cells fit within the limit, the search takes them.
theorem first_blanks_found (n : Nat) (levels : List (Fin labels)) (once : levels.Nodup) (path : List (Fin duts))
    (matrix result : Fin labels → Fin duts → Cell) (assignment : Fin labels → Fin duts)
    (found : (marking labels duts n).FirstSolution levels path matrix result) (first : FirstBlank matrix levels assignment)
    (fits : ∀ j, columnCount (marked matrix levels assignment) j ≤ n) : result = marked matrix levels assignment := by
  induction found with
  | done state =>
      funext i j
      simp [marked]
  | step level rest earlier later choice path state result order allowed dead _ ih =>
      obtain ⟨apart, once⟩ := List.nodup_cons.mp once
      have solves := assignment_solves n (level :: rest) (List.nodup_cons.mpr ⟨apart, once⟩) state assignment first.1 fits
      cases solves with
      | step _ _ _ _ _ _ _ placed deeper =>
          rcases lt_trichotomy choice (assignment level) with before | same | after
          · exact absurd allowed.1 (first.2 level List.mem_cons_self choice before)
          · subst same
            rw [← marked_cons] at fits ⊢
            exact ih once (first_blank_rest state level rest _ assignment apart first) fits
          · exact absurd deeper (dead _ ((tried_first n earlier later choice order _).mpr after) placed _ _)

theorem moved_mark_fits (n : Nat) (rest : List (Fin labels)) (state : Fin labels → Fin duts → Cell)
    (assignment : Fin labels → Fin duts) (level : Fin labels) (choice column j : Fin duts)
    (under : columnCount (marked (setCell state level choice .allotted) rest assignment) j < n) :
    columnCount (marked (setCell state level column .allotted) rest assignment) j ≤ n := by
  have one_more := column_count_set_cell_le (marked (setCell state level choice .allotted) rest assignment) level column j
  refine ((column_count_mono _ _ j fun i mark => ?_).trans one_more).trans under
  by_cases here : i = level ∧ j = column
  · obtain ⟨rfl, rfl⟩ := here
    exact set_cell_same ..
  · have apart := not_and_or.mp here
    rw [set_cell_other _ _ _ _ _ _ apart]
    by_cases chosen : i ∈ rest ∧ assignment i = j
    · rw [marked, if_pos chosen]
    · rw [marked, if_neg chosen, set_cell_other _ _ _ _ _ _ apart] at mark
      rw [marked, if_neg chosen]
      by_cases there : i = level ∧ j = choice
      · obtain ⟨rfl, rfl⟩ := there
        exact set_cell_same ..
      · rw [set_cell_other _ _ _ _ _ _ (not_and_or.mp there), mark]

-- A search that stayed under its limit in every column never passed a blank cell over.
theorem under_the_limit (n : Nat) (levels : List (Fin labels)) (once : levels.Nodup) (path : List (Fin duts))
    (matrix result : Fin labels → Fin duts → Cell) (assignment : Fin labels → Fin duts)
    (found : (marking labels duts n).FirstSolution levels path matrix result) (first : FirstBlank matrix levels assignment)
    (under : ∀ j, columnCount result j < n) : result = marked matrix levels assignment := by
  induction found with
  | done state =>
      funext i j
      simp [marked]
  | step level rest earlier later choice path state result order allowed dead deeper ih =>
      obtain ⟨apart, once⟩ := List.nodup_cons.mp once
      have ih := fun state_first => ih once state_first under
      rcases lt_trichotomy choice (assignment level) with before | same | after
      · exact absurd allowed.1 (first.2 level List.mem_cons_self choice before)
      · subst same
        rw [← marked_cons]
        exact ih (first_blank_rest state level rest _ assignment apart first)
      · -- The cell passed over would have led to the same marks below it, one more in its column.
        obtain ⟨other, blank, same, _⟩ := solution_assigns n rest once path _ result
          (first_solution_solves _ _ _ _ _ deeper) (Fin.pos choice)
        have passed := (tried_first n earlier later choice order _).mpr after
        have blank_here := first.1 level List.mem_cons_self
        have kept (i : Fin labels) (j : Fin duts) (mark : state i j = .allotted) : result i j = .allotted := by
          by_cases here : i = level ∧ j = choice
          · obtain ⟨rfl, rfl⟩ := here
            simp [same, marked, marking, set_cell_same]
          · simp [same, marked, marking, set_cell_other _ _ _ _ _ _ (not_and_or.mp here), mark]
        have room := (column_count_mono state result (assignment level) fun i => kept i _).trans_lt (under _)
        have blank_rest := (blank_on_rest state level rest (assignment level) other apart).mpr
          ((blank_on_rest state level rest choice other apart).mp blank)
        have fits (j : Fin duts) := moved_mark_fits n rest state other level choice (assignment level) j (same ▸ under j)
        exact absurd (assignment_solves n rest once _ other blank_rest fits) (dead _ passed ⟨blank_here, room⟩ _ _)

theorem fewest_iff (matrix : Fin labels → Fin duts → Cell) (assignment : Fin labels → Fin duts)
    (fits : Compatible matrix assignment) :
    FewestReimages matrix (largestLoad assignment) ↔
      ∀ other, Compatible matrix other → largestLoad assignment ≤ largestLoad other := by
  constructor
  · intro least other compatible
    exact least.2 ⟨other, compatible, rfl⟩
  · intro below
    refine ⟨⟨assignment, fits, rfl⟩, ?_⟩
    rintro most ⟨other, compatible, rfl⟩
    exact below other compatible

theorem first_fit_exists (matrix : Fin labels → Fin duts → Cell) (possible : ∀ i, ∃ j, matrix i j ≠ .incompatible) :
    ∃ assignment, FirstFit matrix assignment := by
  have least (i : Fin labels) : ∃ j, matrix i j ≠ .incompatible ∧ ∀ other, other < j → matrix i other = .incompatible := by
    obtain ⟨j, fits, smallest⟩ := wellFounded_lt.has_min { j | matrix i j ≠ .incompatible } (possible i)
    exact ⟨j, fits, fun other less => by_contra fun compatible => smallest other compatible less⟩
  exact Classical.axiomOfChoice least

-- What computeInitialAllocation leaves, as an assignment of the labels to duts.
structure Searched (manager : MachineImageManager labels duts) (n : Nat) (assignment : Fin labels → Fin duts) : Prop where
  result : manager.computeInitialAllocation.1.matrix = marked manager.matrix (List.finRange labels) assignment
  fits : Compatible manager.matrix assignment
  limit : initialN labels duts ≤ n
  within : largestLoad assignment ≤ n
  fewer : ∀ other, Compatible manager.matrix other → initialN labels duts ≤ largestLoad other → n ≤ largestLoad other
  first : ∀ other, FirstFit manager.matrix other → (largestLoad other ≤ n ∨ largestLoad assignment < n) → assignment = other

theorem allocation_searched (manager : MachineImageManager labels duts) (fresh : manager.Fresh) (several_labels : 2 ≤ labels)
    (several_duts : 2 ≤ duts) (possible : ∀ i, ∃ j, manager.matrix i j ≠ .incompatible) :
    ∃ n assignment, Searched manager n assignment := by
  have unmarked := fresh_unmarked manager fresh
  have once := List.nodup_finRange labels
  simp only [fresh_blank_iff manager fresh] at possible
  obtain ⟨n, path, result, limit, first, fewer_fail, computed⟩ :=
    allocation_succeeds manager several_labels several_duts possible
  obtain ⟨assignment, blank, same, bounded⟩ := solution_assigns n _ once path _ result
    (first_solution_solves _ _ _ _ _ first) (by omega)
  have blanks (other : Fin labels → Fin duts) (compatible : Compatible manager.matrix other) :
      BlankOn manager.matrix (List.finRange labels) other := fun i _ => (fresh_blank_iff manager fresh i _).mp (compatible i)
  have columns (other : Fin labels → Fin duts) (most : Nat) (within : largestLoad other ≤ most) (j : Fin duts) :
      columnCount (marked manager.matrix (List.finRange labels) other) j ≤ most := by
    rw [column_count_marked manager.matrix other unmarked]
    exact (Finset.le_sup (Finset.mem_univ j)).trans within
  refine ⟨n, assignment, ?_, fun i => ?_, limit, Finset.sup_le fun j _ => ?_, ?_, ?_⟩
  · rw [computed, same]
  · exact (fresh_blank_iff manager fresh i _).mpr (blank i (List.mem_finRange i))
  · have empty : columnCount manager.matrix j = 0 := by simp [columnCount, unmarked]
    have column := bounded j
    rwa [same, column_count_marked manager.matrix assignment unmarked, empty, Nat.max_zero] at column
  · intro other compatible reached
    by_contra below
    have solves := assignment_solves (largestLoad other) _ once manager.matrix other (blanks other compatible)
      (columns other _ le_rfl)
    have found := search_complete _ _ _ _ _ solves
    rw [fewer_fail _ reached (Nat.lt_of_not_le below)] at found
    cases found
  · intro other fit room
    have first_blank : FirstBlank manager.matrix (List.finRange labels) other := by
      refine ⟨blanks other fun i => (fit i).1, fun i _ j less here => ?_⟩
      rw [(fit i).2 j less] at here
      cases here
    have agree : result = marked manager.matrix (List.finRange labels) other := by
      rcases room with within | under
      · exact first_blanks_found n _ once path _ result other first first_blank (columns other n within)
      · refine under_the_limit n _ once path _ result other first first_blank fun j => ?_
        rw [same, column_count_marked manager.matrix assignment unmarked]
        exact (Finset.le_sup (Finset.mem_univ j)).trans_lt under
    funext i
    have cell := congrFun (congrFun (same.symm.trans agree) i) (other i)
    rw [marked_all, marked_all, if_pos rfl] at cell
    by_contra different
    rw [if_neg different] at cell
    exact unmarked i _ cell

theorem fewest_reimages_iff (manager : MachineImageManager labels duts) (fresh : manager.Fresh) (several_labels : 2 ≤ labels)
    (several_duts : 2 ≤ duts) (possible : ∀ i, ∃ j, manager.matrix i j ≠ .incompatible) :
    FewestReimages manager.matrix (largestColumn manager.computeInitialAllocation.1.matrix) ↔
      (∀ assignment, Compatible manager.matrix assignment → initialN labels duts ≤ largestLoad assignment) ∨
        ∃ assignment, FirstFit manager.matrix assignment ∧ FewestReimages manager.matrix (largestLoad assignment) := by
  obtain ⟨n, chosen, searched⟩ := allocation_searched manager fresh several_labels several_duts possible
  rw [searched.result, largest_column_marked _ _ (fresh_unmarked manager fresh), fewest_iff manager.matrix chosen searched.fits]
  constructor
  · intro smallest
    by_cases limit_low : ∀ assignment, Compatible manager.matrix assignment → initialN labels duts ≤ largestLoad assignment
    · exact .inl limit_low
    · obtain ⟨other, higher⟩ := not_forall.mp limit_low
      obtain ⟨compatible, lower⟩ := Classical.not_imp.mp higher
      obtain ⟨fit, first⟩ := first_fit_exists manager.matrix possible
      have under := (smallest other compatible).trans_lt ((Nat.lt_of_not_le lower).trans_le searched.limit)
      obtain rfl := searched.first fit first (.inr under)
      exact .inr ⟨chosen, first, (fewest_iff manager.matrix chosen searched.fits).mpr smallest⟩
  · intro condition other compatible
    rcases condition with limit_low | ⟨fit, first, least⟩
    · exact searched.within.trans (searched.fewer other compatible (limit_low other compatible))
    · have smallest := least.2 ⟨other, compatible, rfl⟩
      by_cases limit_low : initialN labels duts ≤ largestLoad other
      · exact searched.within.trans (searched.fewer other compatible limit_low)
      · have within : largestLoad fit ≤ n := smallest.trans ((Nat.le_of_not_le limit_low).trans searched.limit)
        rw [searched.first fit first (.inl within)]
        exact smallest

theorem shared_dut_needs_one_reimage :
    FewestReimages sharedDut.matrix (largestColumn sharedDut.computeInitialAllocation.1.matrix) ↔
      (∀ assignment, Compatible sharedDut.matrix assignment → initialN 2 2 ≤ largestLoad assignment) ∨
        ∃ assignment, FirstFit sharedDut.matrix assignment ∧ FewestReimages sharedDut.matrix (largestLoad assignment) :=
  fewest_reimages_iff sharedDut ⟨by decide, by decide, rfl⟩ (by decide) (by decide) (by decide)

-- Four labels that fit both of two duts: N starts at 3, though two labels on each would do.
def fourLabels : MachineImageManager 4 2 :=
  newMachineImageManager ![⟨"l0", [], none⟩, ⟨"l1", [], none⟩, ⟨"l2", [], none⟩, ⟨"l3", [], none⟩] !["m0", "m1"]

theorem four_labels_reimage_one_dut_thrice :
    ¬ ∀ (labels duts : Nat) (manager : MachineImageManager labels duts), manager.Fresh → 2 ≤ labels → 2 ≤ duts →
      (∀ i, ∃ j, manager.matrix i j ≠ .incompatible) →
        FewestReimages manager.matrix (largestColumn manager.computeInitialAllocation.1.matrix) := by
  intro fewest
  have least := fewest 4 2 fourLabels ⟨by decide, by decide, rfl⟩ (by decide) (by decide) (by decide)
  have found : largestColumn fourLabels.computeInitialAllocation.1.matrix = 3 := by decide
  have balanced : largestLoad (![0, 0, 1, 1] : Fin 4 → Fin 2) = 2 := by decide
  have smaller := least.2 ⟨![0, 0, 1, 1], by rw [Compatible]; decide, balanced⟩
  rw [found] at smaller
  omega

end ToolchainUtils.Crosperf
