import ToolchainUtils.FileSystem
import ToolchainUtils.Transition
import ToolchainUtils.BinarySearchTool.State

set_option autoImplicit false

namespace ToolchainUtils.BinarySearchTool.StateFile

open FileSystem Transition

variable {α : Type}

-- STATE_FILE, '%s.link' % HIDDEN_STATE_FILE, and the files that mkstemp makes with
-- the prefix HIDDEN_STATE_FILE; its random part never is '.link'.
inductive Name where
  | stateFile
  | tempLink
  | hidden (random : Nat)
deriving DecidableEq, Repr

-- A hidden file holds a whole pickle or one that LoadState cannot read.
abbrev Directory (α : Type) := Files Name (Option (BinarySearchState α))

inductive SaveError where
  | os (error : OSError)
  | notSymlink (path : Name)
deriving DecidableEq, Repr

def fileOperation {β : Type} (result : Except OSError β) : Except SaveError β := result.mapError SaveError.os

theorem file_operation_ok (files : Directory α) : fileOperation (.ok files) = .ok files := rfl

-- Where STATE_FILE points before it is replaced.
def readOldState (files : Directory α) (path : Name) : Except SaveError (Option Name) :=
  if isfile files .stateFile then
    if islink files .stateFile then fileOperation ((readlink files .stateFile).map some)
    else .error (.notSymlink path)
  else .ok none

def saveState (files : Directory α) (random : Nat) (bss : BinarySearchState α) : Except SaveError (Directory α) := do
  let path := Name.hidden random
  let files ← fileOperation (create files path none)
  let files ← fileOperation (write files path (some bss))
  let oldState ← readOldState files path
  let files ← fileOperation (symlink files path .tempLink)
  let files ← fileOperation (rename files .tempLink .stateFile)
  match oldState with
  | none => .ok files
  | some old => fileOperation (remove files old)

def loadStateFile (files : Directory α) : Option (BinarySearchState α) :=
  if isfile files .stateFile then
    match read files .stateFile with
    | .ok (some saved) => some (loadState saved)
    | _ => none
  else none

-- SaveState taken apart: the file operation that comes next.
inductive SavePoint where
  | mkstemp
  | dump (path : Name)
  | symlink (path : Name)
  | rename (oldState : Option Name)
  | removeOld (oldState : Name)
  | finished
deriving DecidableEq, Repr

def afterRename : Option Name → SavePoint
  | none => .finished
  | some old => .removeOld old

def saveOperation (files : Directory α) (random : Nat) (bss : BinarySearchState α) :
    SavePoint → Except SaveError (Directory α × SavePoint)
  | .mkstemp => do
      let files ← fileOperation (create files (.hidden random) none)
      return (files, .dump (.hidden random))
  | .dump path => do
      let files ← fileOperation (write files path (some bss))
      return (files, .symlink path)
  | .symlink path => do
      let oldState ← readOldState files path
      let files ← fileOperation (FileSystem.symlink files path .tempLink)
      return (files, .rename oldState)
  | .rename oldState => do
      let files ← fileOperation (FileSystem.rename files .tempLink .stateFile)
      return (files, afterRename oldState)
  | .removeOld old => do
      let files ← fileOperation (remove files old)
      return (files, .finished)
  | .finished => return (files, .finished)

def finishSave (random : Nat) (bss : BinarySearchState α) : Nat → Directory α → SavePoint → Except SaveError (Directory α)
  | 0, files, _ => .ok files
  | operations + 1, files, point => do
      let next ← saveOperation files random bss point
      finishSave random bss operations next.1 next.2

theorem save_state_operations (files : Directory α) (random : Nat) (bss : BinarySearchState α) :
    finishSave random bss 5 files .mkstemp = saveState files random bss := by
  simp only [finishSave, saveOperation, saveState, bind_assoc, pure_bind]
  congr 1
  funext created
  congr 1
  funext dumped
  congr 1
  funext oldState
  congr 1
  funext linked
  congr 1
  funext renamed
  cases oldState with
  | none => rfl
  | some old =>
      change (fileOperation (remove renamed old) >>= fun files => pure (files, SavePoint.finished)) >>= _ =
        fileOperation (remove renamed old)
      cases fileOperation (remove renamed old) <;> rfl

inductive Process (α : Type) where
  | down
  | running
  | saving (bss : BinarySearchState α) (point : SavePoint)

-- `latest` is what the last SaveState call replaces and saves, `committed` the last
-- state whose link was renamed to STATE_FILE. The code keeps neither.
structure Machine (α : Type) where
  files : Directory α
  process : Process α
  latest : Option (Option (BinarySearchState α) × BinarySearchState α)
  committed : Option (BinarySearchState α)

inductive Action (α : Type) where
  | save (bss : BinarySearchState α)
  | operate (random : Nat)
  | crash
  | restart

def Machine.afterOperation (machine : Machine α) (bss : BinarySearchState α) (point : SavePoint)
    (files : Directory α) (next : SavePoint) : Machine α :=
  { machine with
    files := files
    process := if next = .finished then .running else .saving bss next
    committed := match point with
      | .rename _ => some bss
      | _ => machine.committed }

-- mkstemp takes a name that is not in use. An exception in SaveState ends the process.
def step (machine : Machine α) : Action α → Option (Machine α)
  | .save bss => match machine.process with
      | .running => some { machine with process := .saving bss .mkstemp, latest := some (machine.committed, bss) }
      | _ => none
  | .operate random => match machine.process with
      | .saving bss point =>
          if point = .mkstemp ∧ (machine.files (.hidden random)).isSome then none
          else match saveOperation machine.files random bss point with
            | .ok (files, next) => some (machine.afterOperation bss point files next)
            | .error _ => some { machine with process := .down }
      | _ => none
  | .crash => some { machine with process := .down }
  | .restart => match machine.process with
      | .down => some { machine with process := .running }
      | _ => none

def start : Machine α := { files := fun _ => none, process := .running, latest := none, committed := none }

-- STATE_FILE links to one complete state: the one before or after the last save.
structure StateFileComplete (machine : Machine α) : Prop where
  absent : machine.files .stateFile = none ↔ machine.committed = none
  complete : ∀ bss, machine.committed = some bss → ∃ path, machine.files .stateFile = some (.link path) ∧
    machine.files path = some (.file (some bss)) ∧ loadStateFile machine.files = some (loadState bss)
  beforeOrAfter : ∀ before bss, machine.latest = some (before, bss) →
    machine.committed = before ∨ machine.committed = some bss

def SaveCompletes (files : Directory α) : Prop :=
  ∀ random bss, files (.hidden random) = none →
    ∃ after, saveState files random bss = .ok after ∧ loadStateFile after = some (loadState bss)

def LaterSaveCompletes (machine : Machine α) : Prop :=
  machine.process = .down ∨ machine.process = .running → SaveCompletes machine.files

-- The process dies after os.symlink and before os.rename.
def CrashesBeforeRename (machine : Machine α) (action : Action α) : Prop :=
  action = .crash ∧ ∃ bss oldState, machine.process = .saving bss (.rename oldState)

structure Stored (files : Directory α) (path : Name) (content : Option (BinarySearchState α)) : Prop where
  hidden : ∃ random, path = .hidden random
  file : files path = some (.file content)

structure Unlinked (files : Directory α) (path : Name) : Prop where
  unlinked : files .stateFile ≠ some (.link path)

-- What holds before each file operation of a SaveState call.
def AtPoint (files : Directory α) (committed : Option (BinarySearchState α)) (bss : BinarySearchState α) : SavePoint → Prop
  | .mkstemp => True
  | .dump path => Stored files path none ∧ Unlinked files path
  | .symlink path => Stored files path (some bss) ∧ Unlinked files path
  | .rename oldState => (∃ path, Stored files path (some bss) ∧ Unlinked files path ∧ files .tempLink = some (.link path)) ∧
      files .stateFile = oldState.map Entry.link
  | .removeOld old => committed = some bss ∧ (∃ content, Stored files old content) ∧ Unlinked files old
  | .finished => False

structure Holds (files : Directory α) (committed : Option (BinarySearchState α)) : Prop where
  absent : committed = none → files .stateFile = none
  complete : ∀ bss, committed = some bss → ∃ path, files .stateFile = some (.link path) ∧ Stored files path (some bss)
  unused : ∃ bound, ∀ random ≥ bound, files (.hidden random) = none

structure Inv (machine : Machine α) : Prop where
  holds : Holds machine.files machine.committed
  beforeOrAfter : ∀ before bss, machine.latest = some (before, bss) →
    machine.committed = before ∨ machine.committed = some bss
  saving : ∀ bss point, machine.process = .saving bss point →
    (∃ before, machine.latest = some (before, bss)) ∧ AtPoint machine.files machine.committed bss point

theorem load_stored (files : Directory α) (path : Name) (bss : BinarySearchState α)
    (linked : files .stateFile = some (.link path)) (stored : Stored files path (some bss)) :
    isfile files .stateFile = true ∧ islink files .stateFile = true ∧ loadStateFile files = some (loadState bss) := by
  have content := read_link files _ path _ linked stored.file
  have exists_file : isfile files .stateFile = true := by simp [isfile, content, Except.isOk, Except.toBool]
  exact ⟨exists_file, by simp [islink, linked], by simp [loadStateFile, exists_file, content]⟩

theorem read_old_state (machine : Machine α) (inv : Inv machine) (path : Name) :
    ∃ oldState, readOldState machine.files path = .ok oldState ∧ machine.files .stateFile = oldState.map Entry.link := by
  cases committed : machine.committed with
  | none =>
      have absent := inv.holds.absent committed
      refine ⟨none, ?_, absent⟩
      simp [readOldState, isfile, read_missing _ _ absent, Except.isOk, Except.toBool]
  | some bss =>
      obtain ⟨old, linked, stored⟩ := inv.holds.complete bss committed
      obtain ⟨isFile, isLink, _⟩ := load_stored machine.files old bss linked stored
      refine ⟨some old, ?_, linked⟩
      simp [readOldState, isFile, isLink, readlink, linked, fileOperation, Except.map, Except.mapError]

theorem state_file_complete (machine : Machine α) (inv : Inv machine) : StateFileComplete machine := by
  refine ⟨⟨?_, inv.holds.absent⟩, ?_, inv.beforeOrAfter⟩
  · intro absent
    cases committed : machine.committed with
    | none => rfl
    | some bss =>
        obtain ⟨path, linked, _⟩ := inv.holds.complete bss committed
        rw [absent] at linked
        cases linked
  · intro bss committed
    obtain ⟨path, linked, stored⟩ := inv.holds.complete bss committed
    exact ⟨path, linked, stored.file, (load_stored machine.files path bss linked stored).2.2⟩

theorem stored_put (files : Directory α) (path name : Name) (content : Option (BinarySearchState α))
    (entry : Option (Entry Name (Option (BinarySearchState α)))) (stored : Stored files path content) (different : path ≠ name) :
    Stored (put files name entry) path content :=
  ⟨stored.hidden, by rw [put_other _ _ _ _ different]; exact stored.file⟩

theorem unused_put (files : Directory α) (name : Name) (entry : Option (Entry Name (Option (BinarySearchState α))))
    (unused : ∃ bound, ∀ random ≥ bound, files (.hidden random) = none) :
    ∃ bound, ∀ random ≥ bound, put files name entry (.hidden random) = none := by
  obtain ⟨bound, free⟩ := unused
  cases name with
  | hidden taken =>
      refine ⟨max bound (taken + 1), fun random beyond => ?_⟩
      have different : Name.hidden random ≠ Name.hidden taken := by
        intro same
        cases same
        omega
      rw [put_other _ _ _ _ different]
      exact free random (by omega)
  | stateFile => exact ⟨bound, fun random beyond => by rw [put_other _ _ _ _ (by simp)]; exact free random beyond⟩
  | tempLink => exact ⟨bound, fun random beyond => by rw [put_other _ _ _ _ (by simp)]; exact free random beyond⟩

-- Changing any name that STATE_FILE does not depend on.
theorem holds_put (files : Directory α) (committed : Option (BinarySearchState α)) (name : Name)
    (entry : Option (Entry Name (Option (BinarySearchState α)))) (holds : Holds files committed)
    (other : name ≠ .stateFile) (unlinked : Unlinked files name) : Holds (put files name entry) committed := by
  refine ⟨?_, ?_, unused_put files name entry holds.unused⟩
  · intro nothing
    rw [put_other _ _ _ _ other.symm]
    exact holds.absent nothing
  · intro bss some_bss
    obtain ⟨path, linked, stored⟩ := holds.complete bss some_bss
    have different : path ≠ name := by
      intro same
      exact unlinked.unlinked (same ▸ linked)
    exact ⟨path, by rw [put_other _ _ _ _ other.symm]; exact linked, stored_put files path name _ entry stored different⟩

theorem holds_unlinked (files : Directory α) (committed : Option (BinarySearchState α)) (holds : Holds files committed)
    (name : Name) (loose : ∀ content, ¬ Stored files name (some content)) : Unlinked files name := by
  constructor
  intro linked
  cases nothing : committed with
  | none =>
      rw [holds.absent nothing] at linked
      cases linked
  | some bss =>
      obtain ⟨path, same, stored⟩ := holds.complete bss nothing
      rw [linked] at same
      cases same
      exact loose bss stored

theorem holds_renamed (files : Directory α) (committed : Option (BinarySearchState α)) (bss : BinarySearchState α) (path : Name)
    (holds : Holds files committed) (stored : Stored files path (some bss)) :
    Holds (put (put files .tempLink none) .stateFile (some (.link path))) (some bss) := by
  obtain ⟨random, isHidden⟩ := stored.hidden
  refine ⟨by simp, ?_, unused_put _ _ _ (unused_put _ _ _ holds.unused)⟩
  intro other same
  cases same
  refine ⟨path, put_same _ _ _, ?_⟩
  exact stored_put _ _ _ _ _ (stored_put _ _ _ _ _ stored (by simp [isHidden])) (by simp [isHidden])

def SavePoint.remaining : SavePoint → Nat
  | .mkstemp => 5
  | .dump _ => 4
  | .symlink _ => 3
  | .rename _ => 2
  | .removeOld _ => 1
  | .finished => 0

structure Operated (machine : Machine α) (bss : BinarySearchState α) (point : SavePoint) (files : Directory α)
    (next : SavePoint) : Prop where
  holds : Holds files (machine.afterOperation bss point files next).committed
  atNext : (next = .finished ∧ (machine.afterOperation bss point files next).committed = some bss) ∨
    AtPoint files (machine.afterOperation bss point files next).committed bss next
  tempLink : (∃ oldState, next = .rename oldState) ∨ files .tempLink = none ∨
    (files .tempLink = machine.files .tempLink ∧ ∀ oldState, point ≠ .rename oldState)
  progress : next.remaining < point.remaining

theorem mkstemp_operated (machine : Machine α) (inv : Inv machine) (bss : BinarySearchState α) (random : Nat)
    (fresh : machine.files (.hidden random) = none) :
    ∃ files, saveOperation machine.files random bss .mkstemp = .ok (files, .dump (.hidden random)) ∧
      Operated machine bss .mkstemp files (.dump (.hidden random)) := by
  have unlinked : Unlinked machine.files (.hidden random) := by
    refine holds_unlinked _ _ inv.holds _ ?_
    intro content stored
    have present := stored.file
    rw [fresh] at present
    cases present
  refine ⟨put machine.files (.hidden random) (some (.file none)), ?_, ?_, .inr ⟨⟨⟨random, rfl⟩, put_same _ _ _⟩, ⟨?_⟩⟩, ?_, by simp [SavePoint.remaining]⟩
  · simp only [saveOperation, create_fresh _ _ _ fresh, file_operation_ok]
    rfl
  · exact holds_put _ _ _ _ inv.holds (by simp) unlinked
  · rw [put_other _ _ _ _ (by simp)]
    exact unlinked.unlinked
  · exact .inr (.inr ⟨put_other _ _ _ _ (by simp), by simp⟩)

theorem dump_operated (machine : Machine α) (inv : Inv machine) (bss : BinarySearchState α) (random : Nat) (path : Name)
    (stored : Stored machine.files path none) (unlinked : Unlinked machine.files path) :
    ∃ files, saveOperation machine.files random bss (.dump path) = .ok (files, .symlink path) ∧
      Operated machine bss (.dump path) files (.symlink path) := by
  obtain ⟨suffix, rfl⟩ := stored.hidden
  refine ⟨put machine.files (.hidden suffix) (some (.file (some bss))), ?_, ?_, .inr ⟨⟨⟨suffix, rfl⟩, put_same _ _ _⟩, ⟨?_⟩⟩, ?_, ?_⟩
  · simp only [saveOperation, write_file _ _ _ _ stored.file, file_operation_ok]
    rfl
  · exact holds_put _ _ _ _ inv.holds (by simp) unlinked
  · rw [put_other _ _ _ _ (by simp)]
    exact unlinked.unlinked
  · exact .inr (.inr ⟨put_other _ _ _ _ (by simp), by simp⟩)
  · simp [SavePoint.remaining]

theorem symlink_operated (machine : Machine α) (inv : Inv machine) (bss : BinarySearchState α) (random : Nat) (path : Name)
    (stored : Stored machine.files path (some bss)) (unlinked : Unlinked machine.files path)
    (free : machine.files .tempLink = none) :
    ∃ files oldState, saveOperation machine.files random bss (.symlink path) = .ok (files, .rename oldState) ∧
      Operated machine bss (.symlink path) files (.rename oldState) := by
  obtain ⟨suffix, rfl⟩ := stored.hidden
  obtain ⟨oldState, wasLinked, pointed⟩ := read_old_state machine inv (.hidden suffix)
  refine ⟨put machine.files .tempLink (some (.link (.hidden suffix))), oldState, ?_, ?_, .inr ⟨⟨.hidden suffix, ?_, ⟨?_⟩, put_same _ _ _⟩, ?_⟩,
    .inl ⟨oldState, rfl⟩, ?_⟩
  · simp only [saveOperation, wasLinked, symlink_fresh _ _ _ free, file_operation_ok]
    rfl
  · refine holds_put _ _ _ _ inv.holds (by simp) (holds_unlinked _ _ inv.holds _ ?_)
    intro content temp
    obtain ⟨number, same⟩ := temp.hidden
    cases same
  · exact stored_put _ _ _ _ _ stored (by simp)
  · rw [put_other _ _ _ _ (by simp)]
    exact unlinked.unlinked
  · rw [put_other _ _ _ _ (by simp)]
    exact pointed
  · simp [SavePoint.remaining]

theorem symlink_refused (machine : Machine α) (inv : Inv machine) (bss : BinarySearchState α) (random : Nat) (path : Name)
    (leftover : machine.files .tempLink ≠ none) :
    saveOperation machine.files random bss (.symlink path) = .error (.os .fileExists) := by
  obtain ⟨oldState, wasLinked, _⟩ := read_old_state machine inv path
  simp only [saveOperation, wasLinked, symlink_taken _ _ _ leftover]
  rfl

theorem rename_operated (machine : Machine α) (inv : Inv machine) (bss : BinarySearchState α) (random : Nat) (path : Name)
    (oldState : Option Name) (stored : Stored machine.files path (some bss)) (unlinked : Unlinked machine.files path)
    (linked : machine.files .tempLink = some (.link path)) (pointed : machine.files .stateFile = oldState.map Entry.link) :
    ∃ files next, saveOperation machine.files random bss (.rename oldState) = .ok (files, next) ∧
      Operated machine bss (.rename oldState) files next := by
  refine ⟨put (put machine.files .tempLink none) .stateFile (some (.link path)), afterRename oldState, ?_, ?_, ?_, ?_, ?_⟩
  · simp only [saveOperation, rename_entry _ _ _ _ linked, file_operation_ok]
    rfl
  · exact holds_renamed _ _ _ _ inv.holds stored
  · cases oldState with
    | none => exact .inl ⟨rfl, rfl⟩
    | some old =>
        have oldLinked : machine.files .stateFile = some (.link old) := pointed
        obtain ⟨content, oldStored⟩ : ∃ content, Stored machine.files old content := by
          by_contra loose
          exact (holds_unlinked _ _ inv.holds old fun content kept => loose ⟨_, kept⟩).unlinked oldLinked
        obtain ⟨suffix, isHidden⟩ := oldStored.hidden
        refine .inr ⟨rfl, ⟨content, stored_put _ _ _ _ _ (stored_put _ _ _ _ _ oldStored ?_) ?_⟩, ⟨?_⟩⟩
        · simp [isHidden]
        · simp [isHidden]
        · rw [put_same]
          intro same
          cases same
          exact unlinked.unlinked oldLinked
  · exact .inr (.inl (by rw [put_other _ _ _ _ (by simp), put_same]))
  · cases oldState <;> simp [SavePoint.remaining, afterRename]

theorem remove_operated (machine : Machine α) (inv : Inv machine) (bss : BinarySearchState α) (random : Nat) (old : Name)
    (content : Option (BinarySearchState α)) (committed : machine.committed = some bss)
    (stored : Stored machine.files old content) (unlinked : Unlinked machine.files old) :
    ∃ files, saveOperation machine.files random bss (.removeOld old) = .ok (files, .finished) ∧
      Operated machine bss (.removeOld old) files .finished := by
  obtain ⟨suffix, rfl⟩ := stored.hidden
  refine ⟨put machine.files (.hidden suffix) none, ?_, ?_, .inl ⟨rfl, committed⟩, ?_, by simp [SavePoint.remaining]⟩
  · simp only [saveOperation, remove_entry _ _ _ stored.file, file_operation_ok]
    rfl
  · exact holds_put _ _ _ _ inv.holds (by simp) unlinked
  · exact .inr (.inr ⟨put_other _ _ _ _ (by simp), by simp⟩)

-- Only a leftover temporary link can make a file operation fail.
theorem save_operation_spec (machine : Machine α) (inv : Inv machine) (bss : BinarySearchState α) (point : SavePoint)
    (random : Nat) (here : AtPoint machine.files machine.committed bss point)
    (fresh : point = .mkstemp → machine.files (.hidden random) = none) :
    (∃ files next, saveOperation machine.files random bss point = .ok (files, next) ∧ Operated machine bss point files next) ∨
    (machine.files .tempLink ≠ none ∧ (∀ oldState, point ≠ .rename oldState) ∧
      saveOperation machine.files random bss point = .error (.os .fileExists)) := by
  cases point with
  | mkstemp =>
      obtain ⟨files, done, operated⟩ := mkstemp_operated machine inv bss random (fresh rfl)
      exact .inl ⟨files, _, done, operated⟩
  | dump path =>
      obtain ⟨files, done, operated⟩ := dump_operated machine inv bss random path here.1 here.2
      exact .inl ⟨files, _, done, operated⟩
  | symlink path =>
      by_cases free : machine.files .tempLink = none
      · obtain ⟨files, oldState, done, operated⟩ := symlink_operated machine inv bss random path here.1 here.2 free
        exact .inl ⟨files, _, done, operated⟩
      · exact .inr ⟨free, by simp, symlink_refused machine inv bss random path free⟩
  | rename oldState =>
      obtain ⟨⟨path, stored, unlinked, linked⟩, pointed⟩ := here
      exact .inl (rename_operated machine inv bss random path oldState stored unlinked linked pointed)
  | removeOld old =>
      obtain ⟨committed, ⟨content, stored⟩, unlinked⟩ := here
      obtain ⟨files, done, operated⟩ := remove_operated machine inv bss random old content committed stored unlinked
      exact .inl ⟨files, _, done, operated⟩
  | finished => exact here.elim

theorem operated_inv (machine : Machine α) (inv : Inv machine) (bss : BinarySearchState α) (point next : SavePoint)
    (files : Directory α) (saving : machine.process = .saving bss point) (operated : Operated machine bss point files next) :
    Inv (machine.afterOperation bss point files next) := by
  obtain ⟨⟨before, latest⟩, here⟩ := inv.saving bss point saving
  refine ⟨operated.holds, ?_, ?_⟩
  · intro other same latestIs
    have pair : (other, same) = (before, bss) := Option.some.inj (latestIs.symm.trans latest)
    cases pair
    cases point with
    | rename oldState => exact .inr rfl
    | mkstemp | dump | symlink | removeOld | finished => exact inv.beforeOrAfter before bss latest
  · intro other further process
    by_cases done : next = .finished
    · simp [Machine.afterOperation, done] at process
    · simp only [Machine.afterOperation, done, if_false, Process.saving.injEq] at process
      obtain ⟨rfl, rfl⟩ := process
      exact ⟨⟨before, latest⟩, operated.atNext.resolve_left fun finished => done finished.1⟩

structure LinkFree (machine : Machine α) : Prop where
  free : machine.files .tempLink = none ∨ ∃ bss oldState, machine.process = .saving bss (.rename oldState)

theorem operated_link_free (machine : Machine α) (bss : BinarySearchState α) (point next : SavePoint) (files : Directory α)
    (saving : machine.process = .saving bss point) (linkFree : LinkFree machine)
    (operated : Operated machine bss point files next) : LinkFree (machine.afterOperation bss point files next) := by
  constructor
  rcases operated.tempLink with ⟨oldState, rfl⟩ | free | ⟨same, notRename⟩
  · exact .inr ⟨bss, oldState, by simp [Machine.afterOperation]⟩
  · exact .inl free
  · refine .inl (same.trans (linkFree.free.resolve_right ?_))
    rintro ⟨other, oldState, replacing⟩
    rw [saving] at replacing
    cases replacing
    exact notRename oldState rfl

theorem finish_save_completes (operations : Nat) (machine : Machine α) (inv : Inv machine) (linkFree : LinkFree machine)
    (bss : BinarySearchState α) (point : SavePoint) (random : Nat) (saving : machine.process = .saving bss point)
    (fresh : point = .mkstemp → machine.files (.hidden random) = none) (enough : point.remaining ≤ operations) :
    ∃ after, finishSave random bss operations machine.files point = .ok after ∧ Holds after (some bss) ∧ after .tempLink = none := by
  induction operations generalizing machine point with
  | zero =>
      have here := (inv.saving bss point saving).2
      cases point <;> simp [SavePoint.remaining] at enough
      exact here.elim
  | succ operations ih =>
      have here := (inv.saving bss point saving).2
      rcases save_operation_spec machine inv bss point random here fresh with
        ⟨files, next, done, operated⟩ | ⟨leftover, notRename, _⟩
      · have step : finishSave random bss (operations + 1) machine.files point = finishSave random bss operations files next := by
          simp only [finishSave, done]
          rfl
        rw [step]
        rcases operated.atNext with ⟨finished, committed⟩ | atNext
        · refine ⟨files, ?_, committed ▸ operated.holds, ?_⟩
          · rw [finished]
            cases operations with
            | zero => rfl
            | succ more =>
                have still : ∀ count, finishSave random bss count files .finished = .ok files := by
                  intro count
                  induction count with
                  | zero => rfl
                  | succ count ih => exact ih
                exact still (more + 1)
          · have free := (operated_link_free machine bss point next files saving linkFree operated).free
            refine free.resolve_right ?_
            rintro ⟨other, oldState, replacing⟩
            simp [Machine.afterOperation, finished] at replacing
        · have unfinished : next ≠ .finished := by
            rintro rfl
            exact atNext
          have progress := operated.progress
          refine ih (machine.afterOperation bss point files next) (operated_inv machine inv bss point next files saving operated)
            (operated_link_free machine bss point next files saving linkFree operated) next
            (by simp [Machine.afterOperation, unfinished]) ?_ (by omega)
          rintro rfl
          cases point <;> simp [SavePoint.remaining] at progress
      · rcases linkFree.free with free | ⟨other, oldState, replacing⟩
        · exact absurd free leftover
        · rw [saving] at replacing
          cases replacing
          exact absurd rfl (notRename oldState)

theorem save_blocked (files : Directory α) (random : Nat) (bss : BinarySearchState α) (fresh : files (.hidden random) = none)
    (leftover : files .tempLink ≠ none) : ∀ after, saveState files random bss ≠ .ok after := by
  intro after completes
  let dumped := put (put files (.hidden random) (some (.file none))) (.hidden random) (some (.file (some bss)))
  have taken : dumped .tempLink ≠ none := by
    simp only [dumped]
    rw [put_other _ _ _ _ (by simp), put_other _ _ _ _ (by simp)]
    exact leftover
  have written := write_file (put files (.hidden random) (some (.file none))) (.hidden random) none (some bss) (put_same _ _ _)
  simp only [saveState, create_fresh _ _ _ fresh, file_operation_ok, bind, Except.bind, written] at completes
  cases old : readOldState dumped (.hidden random) with
  | error error =>
      rw [old] at completes
      cases completes
  | ok oldState =>
      rw [old] at completes
      have refused := symlink_taken dumped (.hidden random) .tempLink taken
      simp only [dumped] at refused
      simp only [refused] at completes
      cases completes

-- A call that finds no temporary link and is not interrupted.
theorem save_state_stores (files : Directory α) (committed : Option (BinarySearchState α)) (holds : Holds files committed)
    (free : files .tempLink = none) (random : Nat) (bss : BinarySearchState α) (fresh : files (.hidden random) = none) :
    ∃ after, saveState files random bss = .ok after ∧ Holds after (some bss) ∧ after .tempLink = none := by
  let called : Machine α := ⟨files, .saving bss .mkstemp, some (committed, bss), committed⟩
  have begun : Inv called := by
    refine ⟨holds, ?_, ?_⟩
    · intro before other same
      cases same
      exact .inl rfl
    · intro other point same
      cases same
      exact ⟨⟨_, rfl⟩, trivial⟩
  rw [← save_state_operations]
  exact finish_save_completes 5 called begun ⟨.inl free⟩ bss .mkstemp random rfl (fun _ => fresh) (Nat.le_refl 5)

theorem loads_held (files : Directory α) (bss : BinarySearchState α) (holds : Holds files (some bss)) :
    loadStateFile files = some (loadState bss) := by
  obtain ⟨path, linked, stored⟩ := holds.complete bss rfl
  exact (load_stored files path bss linked stored).2.2

theorem save_completes_iff (machine : Machine α) (inv : Inv machine) :
    SaveCompletes machine.files ↔ machine.files .tempLink = none := by
  constructor
  · intro completes
    by_contra leftover
    obtain ⟨bound, free⟩ := inv.holds.unused
    let bss : BinarySearchState α := {
      incremental := false, prune := false, iterations := 0, pruneIterations := 0, verify := false, resumed := false
      pruneCycles := 0, searchCycles := 0, binarySearch := BinarySearcher.init, allItems := []
      currentlyGoodItems := [], currentlyBadItems := [], foundItems := [], knownGood := [] }
    obtain ⟨after, saved, _⟩ := completes bound bss (free bound (Nat.le_refl bound))
    exact save_blocked machine.files bound bss (free bound (Nat.le_refl bound)) leftover after saved
  · intro free random bss fresh
    obtain ⟨after, saved, holds, _⟩ := save_state_stores machine.files machine.committed inv.holds free random bss fresh
    exact ⟨after, saved, loads_held after bss holds⟩

-- The saves of a search, with the names that mkstemp finds.
def saveAll (random : Directory α → Nat) : List (BinarySearchState α) → Directory α → Except SaveError (Directory α)
  | [], files => .ok files
  | bss :: rest, files => do
      let files ← saveState files (random files) bss
      saveAll random rest files

-- Without a temporary link that is left over, the saves of a search that nothing interrupts
-- all succeed, and the last one is there to be loaded.
theorem saves_are_stored (random : Directory α → Nat)
    (unused : ∀ files : Directory α, (∃ number, files (.hidden number) = none) → files (.hidden (random files)) = none)
    (saves : List (BinarySearchState α)) (files : Directory α) (committed : Option (BinarySearchState α))
    (holds : Holds files committed) (free : files .tempLink = none) :
    ∃ after, saveAll random saves files = .ok after ∧ after .tempLink = none ∧ Holds after (saves.getLast?.or committed) := by
  induction saves generalizing files committed with
  | nil => exact ⟨files, rfl, free, holds⟩
  | cons bss rest ih =>
      obtain ⟨bound, beyond⟩ := holds.unused
      obtain ⟨saved, stores, held, still⟩ := save_state_stores files committed holds free (random files) bss
        (unused files ⟨bound, beyond bound (Nat.le_refl bound)⟩)
      obtain ⟨after, ran, last, ends⟩ := ih saved (some bss) held still
      refine ⟨after, ?_, last, ?_⟩
      · rw [saveAll, stores]
        exact ran
      · rw [List.getLast?_cons]
        cases final : rest.getLast? with
        | none =>
            rw [final] at ends
            exact ends
        | some other =>
            rw [final] at ends
            exact ends

-- What a session of the search has listed as saved is what a new process loads.
theorem session_saves_stored {σ : Type} (random : Directory α → Nat)
    (unused : ∀ files : Directory α, (∃ number, files (.hidden number) = none) → files (.hidden (random files)) = none)
    (session : Session α σ) (bss : BinarySearchState α) (last : session.saves.getLast? = some bss) :
    ∃ after, saveAll random session.saves (fun _ => none) = .ok after ∧ loadStateFile after = some (loadState bss) := by
  have empty : Holds (fun _ => none : Directory α) none := ⟨fun _ => rfl, (fun _ same => nomatch same), 0, fun _ _ => rfl⟩
  obtain ⟨after, ran, -, holds⟩ := saves_are_stored random unused session.saves _ none empty rfl
  rw [last] at holds
  exact ⟨after, ran, loads_held after bss holds⟩

-- One case for each action, with the two outcomes of a file operation apart.
inductive Stepped (machine : Machine α) : Action α → Machine α → Prop where
  | saves (bss : BinarySearchState α) (running : machine.process = .running) :
      Stepped machine (.save bss)
        { machine with process := .saving bss .mkstemp, latest := some (machine.committed, bss) }
  | operated (random : Nat) (bss : BinarySearchState α) (point next : SavePoint) (files : Directory α)
      (saving : machine.process = .saving bss point) (operated : Operated machine bss point files next) :
      Stepped machine (.operate random) (machine.afterOperation bss point files next)
  | blocked (random : Nat) (bss : BinarySearchState α) (point : SavePoint) (saving : machine.process = .saving bss point)
      (leftover : machine.files .tempLink ≠ none) (notRename : ∀ oldState, point ≠ .rename oldState) :
      Stepped machine (.operate random) { machine with process := .down }
  | crashes : Stepped machine .crash { machine with process := .down }
  | restarts (down : machine.process = .down) : Stepped machine .restart { machine with process := .running }

theorem step_cases (machine : Machine α) (action : Action α) (next : Machine α) (inv : Inv machine)
    (taken : step machine action = some next) : Stepped machine action next := by
  cases action with
  | save bss =>
      cases process : machine.process with
      | running =>
          simp only [step, process, Option.some.injEq] at taken
          subst taken
          exact .saves bss process
      | down | saving => simp [step, process] at taken
  | operate random =>
      cases process : machine.process with
      | saving bss point =>
          simp only [step, process] at taken
          split at taken
          · cases taken
          · next usable =>
              have fresh : point = .mkstemp → machine.files (.hidden random) = none := fun first => by
                simpa [first] using usable
              rcases save_operation_spec machine inv bss point random (inv.saving bss point process).2 fresh with
                ⟨files, after, done, operated⟩ | ⟨leftover, notRename, failed⟩
              · rw [done] at taken
                cases taken
                exact .operated random bss point after files process operated
              · rw [failed] at taken
                cases taken
                exact .blocked random bss point process leftover notRename
      | down | running => simp [step, process] at taken
  | crash =>
      simp only [step, Option.some.injEq] at taken
      subst taken
      exact .crashes
  | restart =>
      cases process : machine.process with
      | down =>
          simp only [step, process, Option.some.injEq] at taken
          subst taken
          exact .restarts process
      | running | saving => simp [step, process] at taken

theorem step_inv (machine : Machine α) (action : Action α) (next : Machine α) (inv : Inv machine)
    (taken : step machine action = some next) : Inv next := by
  cases step_cases machine action next inv taken with
  | saves bss running =>
      refine ⟨inv.holds, ?_, ?_⟩
      · intro before other same
        cases same
        exact .inl rfl
      · intro other point same
        cases same
        exact ⟨⟨_, rfl⟩, trivial⟩
  | operated random bss point after files saving operated => exact operated_inv machine inv bss point after files saving operated
  | blocked | crashes | restarts => exact ⟨inv.holds, inv.beforeOrAfter, by simp⟩

-- Any other crash leaves no temporary link, and neither does a SaveState that
-- found none.
theorem step_link_free (machine : Machine α) (action : Action α) (next : Machine α) (inv : Inv machine)
    (linkFree : LinkFree machine) (safe : ¬ CrashesBeforeRename machine action) (taken : step machine action = some next) :
    LinkFree next := by
  cases step_cases machine action next inv taken with
  | saves bss running => exact ⟨.inl (linkFree.free.resolve_right (by simp [running]))⟩
  | operated random bss point after files saving operated =>
      exact operated_link_free machine bss point after files saving linkFree operated
  | blocked random bss point saving leftover notRename =>
      rcases linkFree.free with free | ⟨other, oldState, replacing⟩
      · exact absurd free leftover
      · rw [saving] at replacing
        cases replacing
        exact absurd rfl (notRename oldState)
  | crashes =>
      refine ⟨.inl (linkFree.free.resolve_right ?_)⟩
      rintro ⟨bss, oldState, replacing⟩
      exact safe ⟨rfl, bss, oldState, replacing⟩
  | restarts down => exact ⟨.inl (linkFree.free.resolve_right (by simp [down]))⟩

theorem crash_before_rename_leaves_link (machine : Machine α) (action : Action α) (next : Machine α) (inv : Inv machine)
    (crashes : CrashesBeforeRename machine action) (taken : step machine action = some next) : ¬ LaterSaveCompletes next := by
  have kept := step_inv machine action next inv taken
  obtain ⟨rfl, bss, oldState, replacing⟩ := crashes
  simp only [step, Option.some.injEq] at taken
  subst taken
  intro completes
  obtain ⟨⟨path, _, _, linked⟩, _⟩ := (inv.saving bss _ replacing).2
  have free := (save_completes_iff _ kept).mp (completes (.inl rfl))
  rw [linked] at free
  cases free

theorem start_inv : Inv (start : Machine α) := by
  refine ⟨⟨fun _ => rfl, ?_, 0, fun _ _ => rfl⟩, ?_, ?_⟩ <;> simp [start]

theorem link_free_completes (machine : Machine α) (inv : Inv machine) (linkFree : LinkFree machine) :
    LaterSaveCompletes machine := by
  intro resting
  apply (save_completes_iff machine inv).mpr
  refine linkFree.free.resolve_right ?_
  rintro ⟨bss, oldState, replacing⟩
  rcases resting with down | running
  · simp [down] at replacing
  · simp [running] at replacing

theorem state_file_survives_iff (actions : List (Action α)) (finish : Machine α) (run : exec step start actions = some finish) :
    (Throughout step (fun machine => StateFileComplete machine ∧ LaterSaveCompletes machine) start actions ↔
      Along step (fun machine action => ¬ CrashesBeforeRename machine action) start actions) ∧
    Throughout step StateFileComplete start actions := by
  constructor
  · refine throughout_iff_along step _ (fun machine => Inv machine ∧ LinkFree machine) _ ?_ ?_ ?_ actions start finish
      ⟨start_inv, ⟨.inl rfl⟩⟩ run
    · intro machine action next inv safe taken
      exact ⟨step_inv machine action next inv.1 taken, step_link_free machine action next inv.1 inv.2 safe taken⟩
    · intro machine inv
      exact ⟨state_file_complete machine inv.1, link_free_completes machine inv.1 inv.2⟩
    · intro machine action next inv taken good crashes
      exact crash_before_rename_leaves_link machine action next inv.1 crashes taken good.2
  · have kept : Throughout step Inv (start : Machine α) actions := throughout_invariant step Inv
      (fun machine action next inv taken => step_inv machine action next inv taken) actions start start_inv
    exact throughout_mono step Inv StateFileComplete state_file_complete start actions kept

-- Killed between os.symlink and os.rename, a search can be resumed but never saves
-- its state again.
theorem leftover_link_blocks_saving : ∃ (bss : BinarySearchState Nat) (crashed : Machine Nat),
    newState ⟨true, false, 50, 100, true⟩ [0, 1] = .ok bss ∧
    exec step start [.save bss, .operate 0, .operate 1, .operate 2, .crash] = some crashed ∧
    StateFileComplete crashed ∧
    ∀ later random after, crashed.files (.hidden random) = none → saveState crashed.files random later ≠ .ok after := by
  obtain ⟨bss, created, _⟩ := new_state_ok ⟨true, false, 50, 100, true⟩ [0, 1] (by decide)
  obtain ⟨crashed, run, leftover⟩ : ∃ crashed,
      exec step start [.save bss, .operate 0, .operate 1, .operate 2, .crash] = some crashed ∧
      crashed.files .tempLink = some (.link (.hidden 0)) := ⟨_, rfl, rfl⟩
  refine ⟨bss, crashed, created, run, ?_, ?_⟩
  · exact state_file_complete crashed (reachable_invariant step Inv start crashed step_inv start_inv ⟨_, run⟩)
  · intro later random after fresh
    exact save_blocked crashed.files random later fresh (by simp [leftover]) after

theorem state_file_survives_two_saves : ∃ (bss : BinarySearchState Nat) (finish : Machine Nat),
    exec step start [.save bss, .operate 0, .operate 1, .operate 2, .operate 3, .save bss, .operate 4, .crash, .restart] =
      some finish ∧
    ((Throughout step (fun machine => StateFileComplete machine ∧ LaterSaveCompletes machine) start
        [.save bss, .operate 0, .operate 1, .operate 2, .operate 3, .save bss, .operate 4, .crash, .restart] ↔
      Along step (fun machine action => ¬ CrashesBeforeRename machine action) start
        [.save bss, .operate 0, .operate 1, .operate 2, .operate 3, .save bss, .operate 4, .crash, .restart]) ∧
    Throughout step StateFileComplete start
      [.save bss, .operate 0, .operate 1, .operate 2, .operate 3, .save bss, .operate 4, .crash, .restart]) := by
  obtain ⟨bss, _, _⟩ := new_state_ok ⟨true, false, 50, 100, true⟩ [0, 1] (by decide)
  exact ⟨bss, _, rfl, state_file_survives_iff _ _ rfl⟩

end ToolchainUtils.BinarySearchTool.StateFile
