import Mathlib.Data.Fin.VecNotation
import Mathlib.Data.Fintype.Card
import ToolchainUtils.Backtracking
import ToolchainUtils.Crosperf.MachineImageManager

set_option autoImplicit false

namespace ToolchainUtils.Crosperf

open Backtracking

variable {labels duts : Nat}

theorem column_count_card (matrix : Fin labels → Fin duts → Cell) (j : Fin duts) :
    columnCount matrix j = (Finset.univ.filter fun i => matrix i j = .allotted).card := by
  rw [columnCount, List.countP_eq_length_filter]
  rfl

theorem column_count_mono (matrix other : Fin labels → Fin duts → Cell) (j : Fin duts)
    (kept : ∀ i, matrix i j = .allotted → other i j = .allotted) : columnCount matrix j ≤ columnCount other j := by
  rw [column_count_card, column_count_card]
  exact Finset.card_le_card (Finset.monotone_filter_right _ fun i _ => kept i)

theorem column_count_set_cell (matrix : Fin labels → Fin duts → Cell) (i : Fin labels) (j column : Fin duts)
    (unmarked : matrix i j ≠ .allotted) :
    columnCount (setCell matrix i j .allotted) column = columnCount matrix column + if column = j then 1 else 0 := by
  rw [column_count_card, column_count_card]
  by_cases same : column = j
  · subst same
    have grown : (Finset.univ.filter fun row => setCell matrix i column .allotted row column = .allotted) =
        insert i (Finset.univ.filter fun row => matrix row column = .allotted) := by
      ext row
      by_cases here : row = i
      · simp [here, set_cell_same]
      · simp [here, set_cell_other]
    rw [grown, Finset.card_insert_of_notMem (by simpa using unmarked), if_pos rfl]
  · simp [same, set_cell_other]

-- The search of _compute_initial_allocation_internal as a problem of its own.
def marking (labels duts n : Nat) : Problem (Fin labels) (Fin duts) (Fin labels → Fin duts → Cell) where
  choices := List.finRange duts
  allowed matrix level j := matrix level j = .blank ∧ columnCount matrix j < n
  place matrix level j := setCell matrix level j .allotted

instance (labels duts n : Nat) (matrix : Fin labels → Fin duts → Cell) (level : Fin labels) (j : Fin duts) :
    Decidable ((marking labels duts n).allowed matrix level j) :=
  inferInstanceAs (Decidable (_ ∧ _))

def unmark (matrix : Fin labels → Fin duts → Cell) (level : Fin labels) (j : Fin duts) : Fin labels → Fin duts → Cell :=
  setCell matrix level j .blank

theorem unmark_marked (n : Nat) (matrix : Fin labels → Fin duts → Cell) (level : Fin labels) (j : Fin duts)
    (allowed : (marking labels duts n).allowed matrix level j) :
    unmark ((marking labels duts n).place matrix level j) level j = matrix := by
  have blank : matrix level j = .blank := allowed.1
  simp [unmark, marking, setCell, ← blank]

theorem mark_level_in_place (n : Nat) (deeper : (Fin labels → Fin duts → Cell) → (Fin labels → Fin duts → Cell) × Bool)
    (level : Fin labels) (columns : List (Fin duts)) (matrix : Fin labels → Fin duts → Cell) :
    markLevel n deeper level columns matrix = (marking labels duts n).tryChoices unmark deeper level columns matrix := by
  induction columns generalizing matrix with
  | nil => rfl
  | cons j columns ih =>
      have placed : (marking labels duts n).place matrix level j = setCell matrix level j .allotted := rfl
      rw [markLevel, Problem.tryChoices, placed]
      refine ite_congr rfl (fun _ => ?_) fun _ => ih matrix
      rcases deeper (setCell matrix level j .allotted) with ⟨left, _ | _⟩
      · exact ih (setCell left level j .blank)
      · rfl

theorem compute_internal_in_place (n : Nat) (levels : List (Fin labels)) (matrix : Fin labels → Fin duts → Cell) :
    computeInitialAllocationInternal n levels matrix = (marking labels duts n).searchInPlace unmark levels matrix := by
  induction levels generalizing matrix with
  | nil => rfl
  | cons level rest ih =>
      rw [computeInitialAllocationInternal, mark_level_in_place, funext ih]
      rfl

-- A search that fails has taken back every mark it made.
theorem compute_internal_restores (n : Nat) (levels : List (Fin labels)) (matrix : Fin labels → Fin duts → Cell) :
    computeInitialAllocationInternal n levels matrix = restoring matrix ((marking labels duts n).search levels matrix) := by
  rw [compute_internal_in_place]
  exact search_in_place_restores (marking labels duts n) unmark (unmark_marked n) levels matrix

theorem raise_n_restores (limits : List Nat) (matrix : Fin labels → Fin duts → Cell) :
    raiseN limits matrix =
      restoring matrix (limits.findSome? fun n => (marking labels duts n).search (List.finRange labels) matrix) := by
  induction limits with
  | nil => rfl
  | cons n later ih =>
      rw [raiseN, compute_internal_restores, List.findSome?_cons]
      cases (marking labels duts n).search (List.finRange labels) matrix with
      | some found => rfl
      | none => exact ih

-- The search only turns blank cells into 'Y'.
theorem search_marks (n : Nat) (levels : List (Fin labels)) (matrix result : Fin labels → Fin duts → Cell)
    (found : (marking labels duts n).search levels matrix = some result) (i : Fin labels) (j : Fin duts) :
    result i j = matrix i j ∨ (matrix i j = .blank ∧ result i j = .allotted) := by
  induction levels generalizing matrix with
  | nil =>
      obtain rfl : matrix = result := Option.some.inj found
      exact .inl rfl
  | cons level rest ih =>
      obtain ⟨column, _, inside⟩ := List.exists_of_findSome?_eq_some found
      obtain ⟨⟨blank, _⟩, deeper⟩ := Option.ite_none_right_eq_some.mp inside
      have marked := ih _ deeper
      by_cases here : i = level ∧ j = column
      · obtain ⟨rfl, rfl⟩ := here
        have now : (marking labels duts n).place matrix i j i j = .allotted := set_cell_same matrix i j .allotted
        rw [now] at marked
        exact .inr ⟨blank, marked.elim id fun changed => by cases changed.1⟩
      · have other : (marking labels duts n).place matrix level column i j = matrix i j :=
          set_cell_other _ _ _ _ _ _ (not_and_or.mp here)
        rwa [other] at marked

theorem compute_initial_allocation_marks (manager : MachineImageManager labels duts) (i : Fin labels) (j : Fin duts) :
    (manager.computeInitialAllocation.1.matrix i j = .incompatible ↔ manager.matrix i j = .incompatible) ∧
      (manager.computeInitialAllocation.1.matrix i j = .taken → manager.matrix i j = .taken) := by
  unfold MachineImageManager.computeInitialAllocation
  split
  · by_cases crossed : manager.matrix i j = .incompatible <;> simp [crossed]
  · dsimp only
    rw [raise_n_restores]
    generalize initial : List.range' _ _ = limits
    cases searched : limits.findSome? fun n => (marking labels duts n).search (List.finRange labels) manager.matrix with
    | none => exact ⟨Iff.rfl, id⟩
    | some matrix =>
        obtain ⟨n, _, found⟩ := List.exists_of_findSome?_eq_some searched
        rcases search_marks n _ manager.matrix matrix found i j with same | ⟨blank, allotted⟩
        · simp [restoring, same]
        · simp [restoring, blank, allotted]

def marked (matrix : Fin labels → Fin duts → Cell) (levels : List (Fin labels)) (assignment : Fin labels → Fin duts) :
    Fin labels → Fin duts → Cell :=
  fun i j => if i ∈ levels ∧ assignment i = j then .allotted else matrix i j

theorem marked_cons (matrix : Fin labels → Fin duts → Cell) (level : Fin labels) (rest : List (Fin labels))
    (assignment : Fin labels → Fin duts) :
    marked (setCell matrix level (assignment level) .allotted) rest assignment = marked matrix (level :: rest) assignment := by
  funext i j
  by_cases here : i = level ∧ j = assignment level
  · obtain ⟨rfl, rfl⟩ := here
    simp [marked, set_cell_same]
  · have other := set_cell_other matrix level i (assignment level) j .allotted (not_and_or.mp here)
    have elsewhere : ¬ (i = level ∧ assignment i = j) := fun ⟨row, column⟩ => here ⟨row, by rw [← column, row]⟩
    simp only [marked, other, List.mem_cons, or_and_right, elsewhere, false_or]

theorem marked_congr (matrix : Fin labels → Fin duts → Cell) (levels : List (Fin labels))
    (assignment other : Fin labels → Fin duts) (agree : ∀ i ∈ levels, assignment i = other i) :
    marked matrix levels assignment = marked matrix levels other := by
  funext i j
  by_cases member : i ∈ levels
  · simp [marked, agree i member]
  · simp [marked, member]

def BlankOn (matrix : Fin labels → Fin duts → Cell) (levels : List (Fin labels)) (assignment : Fin labels → Fin duts) : Prop :=
  ∀ i ∈ levels, matrix i (assignment i) = .blank

theorem blank_on_rest (matrix : Fin labels → Fin duts → Cell) (level : Fin labels) (rest : List (Fin labels)) (j : Fin duts)
    (assignment : Fin labels → Fin duts) (once : level ∉ rest) :
    BlankOn (setCell matrix level j .allotted) rest assignment ↔ BlankOn matrix rest assignment := by
  refine forall₂_congr fun i member => ?_
  rw [set_cell_other _ _ _ _ _ _ (.inl (ne_of_mem_of_not_mem member once))]

-- Every way to mark a blank cell in each row within the limit is a solution.
theorem assignment_solves (n : Nat) (levels : List (Fin labels)) (once : levels.Nodup)
    (matrix : Fin labels → Fin duts → Cell) (assignment : Fin labels → Fin duts) (blank : BlankOn matrix levels assignment)
    (fits : ∀ j, columnCount (marked matrix levels assignment) j ≤ n) :
    (marking labels duts n).Solves levels (levels.map assignment) matrix (marked matrix levels assignment) := by
  induction levels generalizing matrix with
  | nil =>
      have same : marked matrix [] assignment = matrix := by
        funext i j
        simp [marked]
      rw [same]
      exact .done matrix
  | cons level rest ih =>
      obtain ⟨apart, once⟩ := List.nodup_cons.mp once
      have here : matrix level (assignment level) = .blank := blank level List.mem_cons_self
      have grown := column_count_set_cell matrix level (assignment level) (assignment level) (by simp [here])
      have bounded := column_count_mono (setCell matrix level (assignment level) .allotted)
        (marked matrix (level :: rest) assignment) (assignment level) (fun i mark => by
          rw [← marked_cons, marked, mark, ite_self])
      have room := fits (assignment level)
      rw [if_pos rfl] at grown
      refine .step level rest (assignment level) _ matrix _ (List.mem_finRange _) ⟨here, by omega⟩ ?_
      rw [← marked_cons] at fits ⊢
      have later : BlankOn matrix rest assignment := fun i member => blank i (List.mem_cons_of_mem _ member)
      exact ih once _ ((blank_on_rest matrix level rest _ assignment apart).mpr later) fits

theorem solution_assigns (n : Nat) (levels : List (Fin labels)) (once : levels.Nodup) (path : List (Fin duts))
    (matrix result : Fin labels → Fin duts → Cell) (solves : (marking labels duts n).Solves levels path matrix result)
    (some_dut : 0 < duts) :
    ∃ assignment, BlankOn matrix levels assignment ∧ result = marked matrix levels assignment ∧
      ∀ j, columnCount result j ≤ max n (columnCount matrix j) := by
  induction solves with
  | done state =>
      refine ⟨fun _ => ⟨0, some_dut⟩, fun i absent => absurd absent List.not_mem_nil, ?_, fun j => le_max_right _ _⟩
      funext i j
      simp [marked]
  | step level rest choice path state result _ allowed _ ih =>
      obtain ⟨apart, once⟩ := List.nodup_cons.mp once
      obtain ⟨assignment, blank, same, bounded⟩ := ih once
      have agree : ∀ i ∈ rest, assignment i = Function.update assignment level choice i := fun i member => by
        rw [Function.update_of_ne (ne_of_mem_of_not_mem member apart)]
      have chosen : Function.update assignment level choice level = choice := Function.update_self ..
      refine ⟨Function.update assignment level choice, ?_, ?_, fun j => ?_⟩
      · intro i member
        rcases List.mem_cons.mp member with rfl | member
        · rw [chosen]
          exact allowed.1
        · rw [← agree i member]
          exact (blank_on_rest state level rest choice assignment apart).mp blank i member
      · rw [same, ← marked_cons, chosen]
        exact marked_congr _ _ _ _ agree
      · have grown := column_count_set_cell state level choice j (by simp [allowed.1])
        have room : columnCount state choice < n := allowed.2
        have within := bounded j
        by_cases here : j = choice
        · subst here
          rw [if_pos rfl] at grown
          simp only [marking, grown] at within
          omega
        · rw [if_neg here] at grown
          simp only [marking, grown] at within
          omega

-- Each row got one 'Y', on a blank cell, and nothing else changed.
structure OneMarkEach (before after : Fin labels → Fin duts → Cell) : Prop where
  one : ∀ i, ∃! j, after i j = .allotted
  formerly_blank : ∀ i j, after i j = .allotted → before i j = .blank
  unchanged : ∀ i j, after i j ≠ .allotted → after i j = before i j

theorem marked_all (matrix : Fin labels → Fin duts → Cell) (assignment : Fin labels → Fin duts) (i : Fin labels)
    (j : Fin duts) :
    marked matrix (List.finRange labels) assignment i j = if assignment i = j then .allotted else matrix i j := by
  simp [marked]

theorem marked_one_each (matrix : Fin labels → Fin duts → Cell) (assignment : Fin labels → Fin duts)
    (unmarked : ∀ i j, matrix i j ≠ .allotted) (blank : BlankOn matrix (List.finRange labels) assignment) :
    OneMarkEach matrix (marked matrix (List.finRange labels) assignment) := by
  have cell := marked_all matrix assignment
  refine ⟨fun i => ⟨assignment i, by simp [cell], fun j mark => ?_⟩, fun i j mark => ?_, fun i j other => ?_⟩
  · by_contra different
    simp only [cell, if_neg (Ne.symm different)] at mark
    exact unmarked i j mark
  · by_cases here : assignment i = j
    · rw [← here]
      exact blank i (List.mem_finRange i)
    · rw [cell, if_neg here] at mark
      exact absurd mark (unmarked i j)
  · by_cases here : assignment i = j
    · simp [cell, here] at other
    · rw [cell, if_neg here]

def initialN (labels duts : Nat) : Nat := if labels ≤ duts then 1 else labels - duts + 1

theorem fresh_blank_iff (manager : MachineImageManager labels duts) (fresh : manager.Fresh) (i : Fin labels) (j : Fin duts) :
    manager.matrix i j ≠ .incompatible ↔ manager.matrix i j = .blank := by
  rcases fresh.unmarked i j with blank | crossed
  · simp [blank]
  · simp [crossed]

theorem fresh_unmarked (manager : MachineImageManager labels duts) (fresh : manager.Fresh) (i : Fin labels) (j : Fin duts) :
    manager.matrix i j ≠ .allotted := by
  rcases fresh.unmarked i j with blank | crossed
  · simp [blank]
  · simp [crossed]

theorem several_not_one (labels duts : Nat) (several_labels : 2 ≤ labels) (several_duts : 2 ≤ duts) :
    ¬ (duts = 1 ∨ labels = 1) := by
  omega

theorem initial_n_bounds (labels duts : Nat) (several_labels : 2 ≤ labels) (several_duts : 2 ≤ duts) :
    1 ≤ initialN labels duts ∧ initialN labels duts ≤ labels := by
  unfold initialN
  split <;> omega

theorem compute_initial_allocation_searches (manager : MachineImageManager labels duts) (several_labels : 2 ≤ labels)
    (several_duts : 2 ≤ duts) :
    manager.computeInitialAllocation =
      match (List.range' (initialN labels duts) (labels + 1 - initialN labels duts)).findSome? fun n =>
          (marking labels duts n).search (List.finRange labels) manager.matrix with
      | some matrix => ({ manager with matrix := matrix }, some true)
      | none => (manager, some false) := by
  have general := several_not_one labels duts several_labels several_duts
  simp only [MachineImageManager.computeInitialAllocation, if_neg general, raise_n_restores]
  rw [← initialN]
  cases (List.range' (initialN labels duts) (labels + 1 - initialN labels duts)).findSome? fun n =>
    (marking labels duts n).search (List.finRange labels) manager.matrix <;> rfl

theorem allocation_succeeds (manager : MachineImageManager labels duts) (several_labels : 2 ≤ labels)
    (several_duts : 2 ≤ duts) (possible : ∀ i, ∃ j, manager.matrix i j = .blank) :
    ∃ n path result, initialN labels duts ≤ n ∧
      (marking labels duts n).FirstSolution (List.finRange labels) path manager.matrix result ∧
        (∀ fewer, initialN labels duts ≤ fewer → fewer < n →
          (marking labels duts fewer).search (List.finRange labels) manager.matrix = none) ∧
          manager.computeInitialAllocation = ({ manager with matrix := result }, some true) := by
  have bounds := initial_n_bounds labels duts several_labels several_duts
  rw [compute_initial_allocation_searches manager several_labels several_duts]
  cases searched : (List.range' (initialN labels duts) (labels + 1 - initialN labels duts)).findSome? fun n =>
      (marking labels duts n).search (List.finRange labels) manager.matrix with
  | none =>
      -- The last limit, the number of labels, bounds nothing.
      have last : labels ∈ List.range' (initialN labels duts) (labels + 1 - initialN labels duts) := by
        rw [List.mem_range'_1]
        omega
      obtain ⟨assignment, blank⟩ := Classical.axiomOfChoice possible
      have fits (j : Fin duts) : columnCount (marked manager.matrix (List.finRange labels) assignment) j ≤ labels := by
        rw [column_count_card]
        exact (Finset.card_le_univ _).trans_eq (Fintype.card_fin labels)
      have solves := assignment_solves labels (List.finRange labels) (List.nodup_finRange labels) manager.matrix assignment
        (fun i _ => blank i) fits
      have found := search_complete _ _ _ _ _ solves
      rw [List.findSome?_eq_none_iff.mp searched labels last] at found
      cases found
  | some result =>
      obtain ⟨n, above, _, found, fewer_fail⟩ := first_limit _ _ _ _ searched
      obtain ⟨path, first⟩ := search_first _ _ _ _ found
      exact ⟨n, path, result, above, first, fewer_fail, rfl⟩

theorem allocation_fails (manager : MachineImageManager labels duts) (several_labels : 2 ≤ labels) (several_duts : 2 ≤ duts)
    (label : Fin labels) (impossible : ∀ j, manager.matrix label j ≠ .blank) :
    manager.computeInitialAllocation = (manager, some false) := by
  rw [compute_initial_allocation_searches manager several_labels several_duts]
  cases searched : (List.range' (initialN labels duts) (labels + 1 - initialN labels duts)).findSome? fun n =>
      (marking labels duts n).search (List.finRange labels) manager.matrix with
  | none => rfl
  | some result =>
      obtain ⟨n, _, found⟩ := List.exists_of_findSome?_eq_some searched
      obtain ⟨path, first⟩ := search_first _ _ _ _ found
      obtain ⟨assignment, blank, _⟩ := solution_assigns n _ (List.nodup_finRange labels) path _ _
        (first_solution_solves _ _ _ _ _ first) (by omega)
      exact absurd (blank label (List.mem_finRange label)) (impossible _)

theorem initial_allocation_is_complete (manager : MachineImageManager labels duts) (fresh : manager.Fresh)
    (several_labels : 2 ≤ labels) (several_duts : 2 ≤ duts) :
    (manager.computeInitialAllocation.2 = some true ↔ ∀ i, ∃ j, manager.matrix i j ≠ .incompatible) ∧
      (manager.computeInitialAllocation.2 = some true →
        OneMarkEach manager.matrix manager.computeInitialAllocation.1.matrix) ∧
        (manager.computeInitialAllocation.2 ≠ some true → manager.computeInitialAllocation = (manager, some false)) := by
  simp only [fresh_blank_iff manager fresh]
  by_cases possible : ∀ i, ∃ j, manager.matrix i j = .blank
  · obtain ⟨n, path, result, _, first, _, computed⟩ := allocation_succeeds manager several_labels several_duts possible
    obtain ⟨assignment, blank, same, _⟩ := solution_assigns n _ (List.nodup_finRange labels) path _ _
      (first_solution_solves _ _ _ _ _ first) (by omega)
    rw [computed]
    refine ⟨iff_of_true rfl possible, fun _ => ?_, fun other => absurd rfl other⟩
    dsimp only
    rw [same]
    exact marked_one_each manager.matrix assignment (fresh_unmarked manager fresh) blank
  · obtain ⟨label, impossible⟩ := not_forall.mp possible
    rw [allocation_fails manager several_labels several_duts label (not_exists.mp impossible)]
    exact ⟨iff_of_false nofun possible, nofun, fun _ => rfl⟩

def sharedDut : MachineImageManager 2 2 :=
  newMachineImageManager ![⟨"l0", ["m0", "m1"], none⟩, ⟨"l1", ["m0"], none⟩] !["m0", "m1"]

theorem shared_dut_is_complete :
    (sharedDut.computeInitialAllocation.2 = some true ↔ ∀ i, ∃ j, sharedDut.matrix i j ≠ .incompatible) ∧
      (sharedDut.computeInitialAllocation.2 = some true →
        OneMarkEach sharedDut.matrix sharedDut.computeInitialAllocation.1.matrix) ∧
        (sharedDut.computeInitialAllocation.2 ≠ some true → sharedDut.computeInitialAllocation = (sharedDut, some false)) := by
  have built := (init_iff ![⟨"l0", ["m0", "m1"], none⟩, ⟨"l1", ["m0"], none⟩] !["m0", "m1"] (by decide) sharedDut).mpr ⟨by decide, rfl⟩
  exact initial_allocation_is_complete sharedDut (init_fresh _ _ sharedDut built) (by decide) (by decide)

end ToolchainUtils.Crosperf
