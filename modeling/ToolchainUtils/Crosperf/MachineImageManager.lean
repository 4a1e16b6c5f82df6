import Mathlib.Data.List.FinRange
import Mathlib.Logic.Function.Basic

set_option autoImplicit false

namespace ToolchainUtils.Crosperf

-- Two labels are equal when their names are; remote is what is left of the label's
-- machines after the unreachable ones were dropped.
structure Label where
  name : String
  remote : List String
  checksum : Option String
deriving DecidableEq, Repr

-- The cells ' ', 'X', 'Y' and '_' of matrix_.
inductive Cell where
  | blank
  | incompatible
  | allotted
  | taken
deriving DecidableEq, Repr

structure MachineImageManager (labels duts : Nat) where
  matrix : Fin labels → Fin duts → Cell
  labelDuts : Fin labels → List (Fin duts)
  allocateLog : List (Fin labels × Fin duts)

variable {labels duts : Nat}

-- Labels, DUTs and runs are numbered, and lists of them have the numbers.
instance (priority := 2000) decidableMemFin {n : Nat} (number : Fin n) (numbers : List (Fin n)) : Decidable (number ∈ numbers) :=
  inferInstance

def setCell (matrix : Fin labels → Fin duts → Cell) (i : Fin labels) (j : Fin duts) (cell : Cell) :
    Fin labels → Fin duts → Cell :=
  Function.update matrix i (Function.update (matrix i) j cell)

-- dut_name_ordinal_: a later dut takes the name over from an earlier one.
def dutNameOrdinal (dut : Fin duts → String) (name : String) : Option (Fin duts) :=
  (List.finRange duts).reverse.find? fun j => dut j = name

-- The inner loop of __init__ over the remotes of a label; an unknown name is a KeyError.
def openRemotes (dut : Fin duts → String) (i : Fin labels) (matrix : Fin labels → Fin duts → Cell) (remote : List String) :
    Except String (Fin labels → Fin duts → Cell) :=
  remote.foldlM (fun matrix r => match dutNameOrdinal dut r with
    | some j => .ok (setCell matrix i j .blank)
    | none => .error r) matrix

-- The comprehension that makes the matrix and the loop over the labels after it.
def initMatrix (label : Fin labels → Label) (dut : Fin duts → String) : Except String (Fin labels → Fin duts → Cell) :=
  (List.finRange labels).foldlM (fun matrix i => openRemotes dut i matrix (label i).remote) fun i _ =>
    if (label i).remote = [] then .blank else .incompatible

def MachineImageManager.init (label : Fin labels → Label) (dut : Fin duts → String) :
    Except String (MachineImageManager labels duts) :=
  (initMatrix label dut).map fun matrix => { matrix := matrix, labelDuts := fun _ => [], allocateLog := [] }

-- ny, the 'Y' cells of a column.
def columnCount (matrix : Fin labels → Fin duts → Cell) (j : Fin duts) : Nat :=
  (List.finRange labels).countP fun i => matrix i j = .allotted

-- The loop over the columns of one level in _compute_initial_allocation_internal. All
-- levels write to one matrix, and a cell is read when its column comes.
def markLevel (n : Nat) (deeper : (Fin labels → Fin duts → Cell) → (Fin labels → Fin duts → Cell) × Bool) (level : Fin labels) :
    List (Fin duts) → (Fin labels → Fin duts → Cell) → (Fin labels → Fin duts → Cell) × Bool
  | [], matrix => (matrix, false)
  | j :: columns, matrix =>
      if matrix level j = .blank ∧ columnCount matrix j < n then
        match deeper (setCell matrix level j .allotted) with
        | (found, true) => (found, true)
        | (left, false) => markLevel n deeper level columns (setCell left level j .blank)
      else markLevel n deeper level columns matrix

-- With the levels from the current one on.
def computeInitialAllocationInternal (n : Nat) :
    List (Fin labels) → (Fin labels → Fin duts → Cell) → (Fin labels → Fin duts → Cell) × Bool
  | [], matrix => (matrix, true)
  | level :: rest, matrix => markLevel n (computeInitialAllocationInternal n rest) level (List.finRange duts) matrix

-- The while loop of compute_initial_allocation, which ends at the first n that succeeds.
def raiseN : List Nat → (Fin labels → Fin duts → Cell) → (Fin labels → Fin duts → Cell) × Bool
  | [], matrix => (matrix, false)
  | n :: later, matrix => match computeInitialAllocationInternal n (List.finRange labels) matrix with
      | (found, true) => (found, true)
      | (left, false) => raiseN later left

-- The last component is the return value; the two special cases return None.
def MachineImageManager.computeInitialAllocation (manager : MachineImageManager labels duts) :
    MachineImageManager labels duts × Option Bool :=
  if duts = 1 ∨ labels = 1 then
    ({ manager with matrix := fun i j => if manager.matrix i j = .incompatible then .incompatible else .allotted }, none)
  else
    let start := if labels ≤ duts then 1 else labels - duts + 1
    let searched := raiseN (List.range' start (labels + 1 - start)) manager.matrix
    ({ manager with matrix := searched.1 }, some searched.2)

def MachineImageManager.recordAllocate (manager : MachineImageManager labels duts) (i : Fin labels) (j : Fin duts) :
    MachineImageManager labels duts where
  matrix := setCell manager.matrix i j .taken
  labelDuts := Function.update manager.labelDuts i (manager.labelDuts i ++ [j])
  allocateLog := manager.allocateLog ++ [(i, j)]

-- The can_ variables of allocate.
structure Candidate (labels : Nat) where
  label : Fin labels
  reimageNumber : Nat
  pendingBrNum : Nat
deriving DecidableEq, Repr

inductive Considered (labels : Nat) where
  | take
  | goOn (candidate : Option (Candidate labels))
deriving DecidableEq, Repr

-- The body of allocate's loop; there is no pending number without a scheduler.
def MachineImageManager.considerLabel (manager : MachineImageManager labels duts) (j : Fin duts) (pending : Option Nat)
    (candidate : Option (Candidate labels)) (i : Fin labels) : Considered labels :=
  if pending = some 0 then .goOn candidate
  else
    let offer : Candidate labels :=
      { label := i, reimageNumber := (manager.labelDuts i).length, pendingBrNum := pending.getD 0 }
    match manager.matrix i j, candidate with
    | .allotted, _ => .take
    | .blank, none => .goOn (some offer)
    | .blank, some best =>
        if offer.reimageNumber < best.reimageNumber ∨
            (offer.reimageNumber = best.reimageNumber ∧ best.pendingBrNum ≤ offer.pendingBrNum) then .goOn (some offer)
        else .goOn candidate
    | _, _ => .goOn candidate

def MachineImageManager.allocateFrom (manager : MachineImageManager labels duts) (j : Fin duts) (pending : Fin labels → Option Nat) :
    Option (Candidate labels) → List (Fin labels) → MachineImageManager labels duts × Option (Fin labels)
  | none, [] => (manager, none)
  | some best, [] => (manager.recordAllocate best.label j, some best.label)
  | candidate, i :: rest => match manager.considerLabel j (pending i) candidate i with
      | .take => (manager.recordAllocate i j, some i)
      | .goOn next => manager.allocateFrom j pending next rest

def MachineImageManager.allocate (manager : MachineImageManager labels duts) (j : Fin duts) (pending : Fin labels → Option Nat) :
    MachineImageManager labels duts × Option (Fin labels) :=
  manager.allocateFrom j pending none (List.finRange labels)

theorem set_cell_same (matrix : Fin labels → Fin duts → Cell) (i : Fin labels) (j : Fin duts) (cell : Cell) :
    setCell matrix i j cell i j = cell := by
  simp [setCell]

theorem set_cell_other (matrix : Fin labels → Fin duts → Cell) (i other : Fin labels) (j column : Fin duts) (cell : Cell)
    (different : other ≠ i ∨ column ≠ j) : setCell matrix i j cell other column = matrix other column := by
  by_cases row : other = i
  · subst row
    simp [setCell, different.resolve_left (fun apart => apart rfl)]
  · simp [setCell, row]

-- Whether a label may be imaged onto a dut at all.
def compatible (label : Fin labels → Label) (dut : Fin duts → String) (i : Fin labels) (j : Fin duts) : Bool :=
  (label i).remote = [] ∨ dut j ∈ (label i).remote

-- What __init__ builds when every remote of a label is the name of a dut.
def newMachineImageManager (label : Fin labels → Label) (dut : Fin duts → String) : MachineImageManager labels duts where
  matrix i j := if compatible label dut i j then .blank else .incompatible
  labelDuts _ := []
  allocateLog := []

-- What __init__ leaves: no label was given to a dut yet.
structure MachineImageManager.Fresh (manager : MachineImageManager labels duts) : Prop where
  unmarked : ∀ i j, manager.matrix i j = .blank ∨ manager.matrix i j = .incompatible
  unimaged : ∀ i, manager.labelDuts i = []
  unlogged : manager.allocateLog = []

def Opened (dut : Fin duts → String) (remote : List String) (j : Fin duts) : Prop :=
  ∃ r ∈ remote, dutNameOrdinal dut r = some j

-- __init__ changes cells to blank only.
theorem open_remotes_cells (dut : Fin duts → String) (i : Fin labels) (remote : List String)
    (matrix result : Fin labels → Fin duts → Cell) (opened : openRemotes dut i matrix remote = .ok result)
    (row : Fin labels) (j : Fin duts) :
    (result row j = .blank ↔ matrix row j = .blank ∨ row = i ∧ Opened dut remote j) ∧
      (result row j = .blank ∨ result row j = matrix row j) := by
  induction remote generalizing matrix with
  | nil =>
      obtain rfl : matrix = result := Except.ok.inj opened
      simp [Opened]
  | cons r rest ih =>
      rw [openRemotes, List.foldlM_cons] at opened
      cases ordinal : dutNameOrdinal dut r with
      | none =>
          rw [ordinal] at opened
          cases opened
      | some column =>
          rw [ordinal] at opened
          obtain ⟨blank, kept⟩ := ih _ opened
          have split : Opened dut (r :: rest) j ↔ column = j ∨ Opened dut rest j := by simp [Opened, ordinal]
          rw [split]
          by_cases here : row = i ∧ j = column
          · obtain ⟨rfl, rfl⟩ := here
            rw [set_cell_same] at blank kept
            have now : result row j = .blank := kept.elim id id
            exact ⟨by simp [now], .inl now⟩
          · rw [set_cell_other _ _ _ _ _ _ (not_and_or.mp here)] at blank kept
            refine ⟨?_, kept⟩
            rw [blank]
            grind

theorem open_rows_cells (label : Fin labels → Label) (dut : Fin duts → String) (rows : List (Fin labels))
    (matrix result : Fin labels → Fin duts → Cell)
    (opened : rows.foldlM (fun matrix i => openRemotes dut i matrix (label i).remote) matrix = .ok result)
    (i : Fin labels) (j : Fin duts) :
    (result i j = .blank ↔ matrix i j = .blank ∨ i ∈ rows ∧ Opened dut (label i).remote j) ∧
      (result i j = .blank ∨ result i j = matrix i j) := by
  induction rows generalizing matrix with
  | nil =>
      obtain rfl : matrix = result := Except.ok.inj opened
      simp
  | cons row rest ih =>
      rw [List.foldlM_cons] at opened
      cases first : openRemotes dut row matrix (label row).remote with
      | error unknown =>
          rw [first] at opened
          cases opened
      | ok next =>
          rw [first] at opened
          obtain ⟨later, stays⟩ := ih next opened
          obtain ⟨blank, kept⟩ := open_remotes_cells dut row (label row).remote matrix next first i j
          refine ⟨?_, ?_⟩
          · rw [later, blank, List.mem_cons]
            grind
          · rcases stays with now | same
            · exact .inl now
            · rw [same]
              exact kept

theorem open_remotes_known (dut : Fin duts → String) (i : Fin labels) (remote : List String)
    (matrix : Fin labels → Fin duts → Cell) :
    (∃ result, openRemotes dut i matrix remote = .ok result) ↔ ∀ r ∈ remote, ∃ j, dutNameOrdinal dut r = some j := by
  induction remote generalizing matrix with
  | nil => exact ⟨fun _ r absent => absurd absent List.not_mem_nil, fun _ => ⟨matrix, rfl⟩⟩
  | cons r rest ih =>
      rw [List.forall_mem_cons]
      cases ordinal : dutNameOrdinal dut r with
      | none => simp [openRemotes, ordinal, bind, Except.bind]
      | some column =>
          rw [openRemotes, List.foldlM_cons, ordinal]
          refine (ih _).trans ⟨fun known => ⟨⟨column, rfl⟩, known⟩, fun known => known.2⟩

theorem open_rows_known (label : Fin labels → Label) (dut : Fin duts → String) (rows : List (Fin labels))
    (matrix : Fin labels → Fin duts → Cell) :
    (∃ result, rows.foldlM (fun matrix i => openRemotes dut i matrix (label i).remote) matrix = .ok result) ↔
      ∀ i ∈ rows, ∀ r ∈ (label i).remote, ∃ j, dutNameOrdinal dut r = some j := by
  induction rows generalizing matrix with
  | nil => exact ⟨fun _ i absent => absurd absent List.not_mem_nil, fun _ => ⟨matrix, rfl⟩⟩
  | cons row rest ih =>
      rw [List.forall_mem_cons, ← open_remotes_known dut row (label row).remote matrix, List.foldlM_cons]
      cases first : openRemotes dut row matrix (label row).remote with
      | error unknown => simp [bind, Except.bind]
      | ok next => exact (ih next).trans ⟨fun known => ⟨⟨next, rfl⟩, known⟩, fun known => known.2⟩

theorem init_matrix_cells (label : Fin labels → Label) (dut : Fin duts → String) (matrix : Fin labels → Fin duts → Cell)
    (opened : initMatrix label dut = .ok matrix) (i : Fin labels) (j : Fin duts) :
    (matrix i j = .blank ↔ (label i).remote = [] ∨ Opened dut (label i).remote j) ∧
      (matrix i j = .blank ∨ matrix i j = .incompatible) := by
  obtain ⟨blank, kept⟩ := open_rows_cells label dut _ _ matrix opened i j
  by_cases universal : (label i).remote = []
  · have now : matrix i j = .blank := by simpa [universal] using blank
    exact ⟨by simp [universal, now], .inl now⟩
  · simp only [universal, if_false] at blank kept
    simpa [universal, kept] using blank

theorem init_fresh (label : Fin labels → Label) (dut : Fin duts → String) (manager : MachineImageManager labels duts)
    (built : MachineImageManager.init label dut = .ok manager) : manager.Fresh := by
  cases opened : initMatrix label dut with
  | error unknown =>
      rw [MachineImageManager.init, opened] at built
      cases built
  | ok matrix =>
      rw [MachineImageManager.init, opened] at built
      obtain rfl := Except.ok.inj built
      exact ⟨fun i j => (init_matrix_cells label dut matrix opened i j).2, fun _ => rfl, rfl⟩

theorem ordinal_of_name (dut : Fin duts → String) (distinct : Function.Injective dut) (j : Fin duts) (name : String) :
    dutNameOrdinal dut name = some j ↔ dut j = name := by
  constructor
  · intro found
    simpa using List.find?_some found
  · intro same
    cases ordinal : dutNameOrdinal dut name with
    | none => exact absurd same (by simpa using List.find?_eq_none.mp ordinal j (by simp))
    | some other =>
        have named : dut other = name := by simpa using List.find?_some ordinal
        rw [distinct (named.trans same.symm)]

-- Every remote of a label is the name of a dut.
def RemotesListed (label : Fin labels → Label) (dut : Fin duts → String) : Prop :=
  ∀ i, ∀ r ∈ (label i).remote, ∃ j, dut j = r

instance (label : Fin labels → Label) (dut : Fin duts → String) : Decidable (RemotesListed label dut) :=
  inferInstanceAs (Decidable (∀ i, ∀ r ∈ (label i).remote, ∃ j, dut j = r))

-- A remote that is no dut is a KeyError; without one the rows are those of newMachineImageManager.
theorem init_iff (label : Fin labels → Label) (dut : Fin duts → String) (distinct : Function.Injective dut)
    (manager : MachineImageManager labels duts) :
    MachineImageManager.init label dut = .ok manager ↔
      RemotesListed label dut ∧ manager = newMachineImageManager label dut := by
  have ordinals : (∃ matrix, initMatrix label dut = .ok matrix) ↔ RemotesListed label dut := by
    rw [initMatrix, open_rows_known]
    simp [RemotesListed, ordinal_of_name dut distinct]
  have same (matrix : Fin labels → Fin duts → Cell) (opened : initMatrix label dut = .ok matrix) :
      matrix = (newMachineImageManager label dut).matrix := by
    funext i j
    have covered : Opened dut (label i).remote j ↔ dut j ∈ (label i).remote := by
      simp [Opened, ordinal_of_name dut distinct]
    obtain ⟨blank, cases_of⟩ := init_matrix_cells label dut matrix opened i j
    rw [covered] at blank
    by_cases fits : (label i).remote = [] ∨ dut j ∈ (label i).remote
    · simp [newMachineImageManager, compatible, fits, blank.mpr fits]
    · simp [newMachineImageManager, compatible, fits, cases_of.resolve_left fun now => fits (blank.mp now)]
  rw [← ordinals, MachineImageManager.init]
  cases opened : initMatrix label dut with
  | error unknown => simp [Except.map]
  | ok matrix =>
      rw [same matrix opened]
      simp only [Except.map, Except.ok.injEq, exists_eq', true_and]
      exact eq_comm

end ToolchainUtils.Crosperf
