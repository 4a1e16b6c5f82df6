import Mathlib.Data.List.Nodup
import ToolchainUtils.BinarySearchTool.Searcher

set_option autoImplicit false

namespace ToolchainUtils.BinarySearchTool

-- A Python set is kept as a list that holds each member once; `xs ∪ ys` adds the
-- members of xs to ys. Nothing below depends on the order.
structure BinarySearchState (α : Type) where
  incremental : Bool
  prune : Bool
  iterations : Nat
  pruneIterations : Nat
  verify : Bool
  resumed : Bool
  pruneCycles : Nat
  searchCycles : Nat
  binarySearch : BinarySearcher α
  allItems : List α
  currentlyGoodItems : List α
  currentlyBadItems : List α
  foundItems : List α
  knownGood : List α
deriving DecidableEq, Repr

-- The contents of the files named by BISECT_GOOD_SET and BISECT_BAD_SET.
structure SetFiles (α : Type) where
  goodSet : List α
  badSet : List α

-- The user's scripts act on an environment of their own and return an exit status.
structure Scripts (α σ : Type) where
  switchToGood : SetFiles α → List α → σ → Int × σ
  switchToBad : SetFiles α → List α → σ → Int × σ
  testSetupScript : Option (SetFiles α → σ → Int × σ)
  testScript : SetFiles α → σ → Int × σ

inductive LogLine (α : Type) where
  | terminated
  | ranOutOfIterations
  | firstBadItemIsLast
  | foundItemAlready (item : α)
  | noMoreBadItems
  | pruneIsNotSet
  | badItemsAre (items : List α)
deriving DecidableEq, Repr

-- `saves` lists what SaveState stored, the state STATE_FILE links to last.
structure Session (α σ : Type) where
  bss : BinarySearchState α
  world : σ
  saves : List (BinarySearchState α)
  log : List (LogLine α)

abbrev SearchM (α σ : Type) := EStateM SearchFailure (Session α σ)

variable {α σ : Type}

def getBss : SearchM α σ (BinarySearchState α) := fun session => .ok session.bss session

def modifyBss (change : BinarySearchState α → BinarySearchState α) : SearchM α σ Unit :=
  fun session => .ok () { session with bss := change session.bss }

def logOutput (line : LogLine α) : SearchM α σ Unit :=
  fun session => .ok () { session with log := session.log ++ [line] }

def check {β : Type} (result : Except SearchFailure β) : SearchM α σ β :=
  fun session => match result with
    | .ok value => .ok value session
    | .error failure => .error failure session

def runScript (script : σ → Int × σ) : SearchM α σ Int :=
  fun session => .ok (script session.world).1 { session with world := (script session.world).2 }

theorem run_bind {β γ : Type} (first : SearchM α σ β) (next : β → SearchM α σ γ) (session : Session α σ) :
    (first >>= next) session = match first session with
      | .ok value after => next value after
      | .error failure after => .error failure after := by
  change EStateM.bind first next session = _
  unfold EStateM.bind
  cases first session <;> rfl

theorem run_pure {β : Type} (value : β) (session : Session α σ) :
    (pure value : SearchM α σ β) session = .ok value session := rfl

theorem run_throw {β : Type} (failure : SearchFailure) (session : Session α σ) :
    (throw failure : SearchM α σ β) session = .error failure session := rfl

theorem run_get_bss (session : Session α σ) : getBss session = .ok session.bss session := rfl

theorem run_modify_bss (change : BinarySearchState α → BinarySearchState α) (session : Session α σ) :
    modifyBss change session = .ok () { session with bss := change session.bss } := rfl

theorem run_log_output (line : LogLine α) (session : Session α σ) :
    logOutput line session = .ok () { session with log := session.log ++ [line] } := rfl

theorem run_check_ok {β : Type} (value : β) (session : Session α σ) :
    check (.ok value) session = .ok value session := rfl

theorem run_check_error {β : Type} (failure : SearchFailure) (session : Session α σ) :
    (check (.error failure) : SearchM α σ β) session = .error failure session := rfl

-- assert ret == 0. The script is taken to get the very items. With file_args they are the lines
-- of a file, so that none of them may have a newline. Without it the shell reads the command: no
-- item may have a character with a meaning there, and a list that is too long for it raises Error,
-- which is assumed not to happen.
def runSwitchScript (script : List α → σ → Int × σ) (itemList : List α) : SearchM α σ Unit := do
  let ret ← runScript (script itemList)
  if ret ≠ 0 then throw (.switchAssertion ret)

variable [DecidableEq α]

-- SwitchToGood and SwitchToBad differ in the script and in the two current sets.
def BinarySearchState.current (bss : BinarySearchState α) : Bool → List α
  | false => bss.currentlyGoodItems
  | true => bss.currentlyBadItems

def BinarySearchState.withCurrent (bss : BinarySearchState α) (good bad : List α) : BinarySearchState α :=
  { bss with currentlyGoodItems := good, currentlyBadItems := bad }

def BinarySearchState.recordSwitch (bss : BinarySearchState α) (items : List α) : Bool → BinarySearchState α
  | false => bss.withCurrent (items ∪ bss.currentlyGoodItems) (bss.currentlyBadItems.filter (· ∉ items))
  | true => bss.withCurrent (bss.currentlyGoodItems.filter (· ∉ items)) (items ∪ bss.currentlyBadItems)

def switchItems (script : List α → σ → Int × σ) (bad : Bool) (itemList : List α) : SearchM α σ Unit := do
  let bss ← getBss
  let items := if bss.incremental then itemList.filter (· ∉ bss.current bad) else itemList
  if items = [] then return
  runSwitchScript script items
  modifyBss fun bss => bss.recordSwitch items bad

def switchToGood (scripts : Scripts α σ) (files : SetFiles α) (itemList : List α) : SearchM α σ Unit :=
  switchItems (scripts.switchToGood files) false itemList

def switchToBad (scripts : Scripts α σ) (files : SetFiles α) (itemList : List α) : SearchM α σ Unit :=
  switchItems (scripts.switchToBad files) true itemList

def testSetupScript (scripts : Scripts α σ) (files : SetFiles α) : SearchM α σ Int :=
  match scripts.testSetupScript with
  | none => pure 0
  | some script => runScript (script files)

def testScript (scripts : Scripts α σ) (files : SetFiles α) : SearchM α σ Int :=
  runScript (scripts.testScript files)

-- status = self.TestSetupScript(), then the test script when that is 0.
def testStatus (scripts : Scripts α σ) (files : SetFiles α) : SearchM α σ Int := do
  let status ← testSetupScript scripts files
  if status = 0 then testScript scripts files else return status

-- assert status == expected, message
def assertStatus (status expected : Int) (message : String) : SearchM α σ Unit :=
  if status = expected then pure () else throw (.verifyAssertion message)

def verifyGoodSet (scripts : Scripts α σ) : SearchM α σ Unit := do
  let bss ← getBss
  let files : SetFiles α := ⟨bss.allItems, []⟩
  switchToGood scripts files bss.allItems
  let status ← testSetupScript scripts files
  assertStatus status 0 "When reset_to_good, test setup should succeed."
  let status ← testScript scripts files
  assertStatus status 0 "When reset_to_good, status should be 0."

def verifyBadSet (scripts : Scripts α σ) : SearchM α σ Unit := do
  let bss ← getBss
  let files : SetFiles α := ⟨[], bss.allItems⟩
  switchToBad scripts files bss.allItems
  let status ← testStatus scripts files
  assertStatus status 1 "When reset_to_bad, status should be 1."

def doVerify (scripts : Scripts α σ) : SearchM α σ Unit := do
  let bss ← getBss
  if bss.verify then
    verifyGoodSet scripts
    verifyBadSet scripts

def populateItemsUsingList (allItems : List α) : SearchM α σ Unit := do
  let searcher ← check (BinarySearcher.init.setSortedList allItems)
  modifyBss fun bss => { bss with allItems := allItems, binarySearch := searcher }

omit [DecidableEq α] in
theorem run_populate (allItems : List α) (session : Session α σ) (nonempty : allItems.length > 0) :
    populateItemsUsingList allItems session = .ok () { session with bss := { session.bss with
      allItems := allItems
      binarySearch := { (BinarySearcher.init : BinarySearcher α) with
        sortedList := allItems, hi := allItems.length - 1 } } } := by
  have accepted : (BinarySearcher.init : BinarySearcher α).setSortedList allItems =
      .ok { (BinarySearcher.init : BinarySearcher α) with sortedList := allItems, hi := allItems.length - 1 } := by
    simp [BinarySearcher.setSortedList, nonempty, BinarySearcher.init]
  simp only [populateItemsUsingList, accepted, run_bind, run_check_ok, run_modify_bss]

-- One step, which does not fail. So it is with the file operations of SaveState as long as nothing
-- has left a temporary link behind (StateFile.session_saves_stored).
def saveState : SearchM α σ Unit :=
  fun session => .ok () { session with saves := session.saves ++ [session.bss] }

omit [DecidableEq α] in
theorem run_save_state (session : Session α σ) :
    saveState session = .ok () { session with saves := session.saves ++ [session.bss] } := rfl

-- all_items.index(border_item)
def itemIndex (allItems : List α) (item : α) : Except SearchFailure Nat :=
  match allItems.idxOf? item with
  | some index => .ok index
  | none => .error .valueError

theorem item_index_distinct (allItems : List α) (index : Nat) (distinct : allItems.Nodup) (within : index < allItems.length) :
    itemIndex allItems allItems[index] = .ok index := by
  have found : allItems.idxOf? allItems[index] = some index := by
    refine List.findIdx?_eq_some_iff_getElem.mpr ⟨within, by simp, ?_⟩
    intro earlier before same
    have equal := (distinct.getElem_inj_iff).mp (beq_iff_eq.mp same)
    omega
  simp only [itemIndex, found]

def getNextItems : SearchM α σ (SetFiles α) := do
  let bss ← getBss
  let next ← check bss.binarySearch.getNext
  modifyBss fun bss => { bss with binarySearch := next.1 }
  let index ← check (itemIndex bss.allItems next.2)
  return { badSet := bss.allItems.take (index + 1), goodSet := bss.allItems.drop (index + 1) ++ bss.knownGood }

def recordAnswer (status : Int) : SearchM α σ Bool := do
  let bss ← getBss
  let answer ← check (bss.binarySearch.setStatus status)
  modifyBss fun bss => { bss with binarySearch := answer.1 }
  if answer.2 then logOutput .terminated
  return answer.2

-- The body of DoBinarySearch's loop; returns what SetStatus returned.
def searchIteration (scripts : Scripts α σ) : SearchM α σ Bool := do
  saveState
  modifyBss fun bss => { bss with searchCycles := bss.searchCycles + 1 }
  let files ← getNextItems
  switchToGood scripts files files.goodSet
  switchToBad scripts files files.badSet
  let status ← testStatus scripts files
  recordAnswer status

-- while self.search_cycles < self.iterations and not terminated, where
-- `remaining` is iterations - search_cycles: every round adds one search cycle.
def searchIterations (scripts : Scripts α σ) : Nat → SearchM α σ Bool
  | 0 => pure false
  | remaining + 1 => do
      let terminated ← searchIteration scripts
      if terminated then pure true else searchIterations scripts remaining

-- If in resume mode don't reset search_cycles.
def BinarySearchState.beginCycle (bss : BinarySearchState α) : BinarySearchState α :=
  if bss.resumed then { bss with resumed := false } else { bss with searchCycles := 0 }

omit [DecidableEq α] in
theorem begin_cycle_keeps {β : Type} (field : BinarySearchState α → β)
    (blind : ∀ bss resumed searchCycles, field { bss with resumed := resumed, searchCycles := searchCycles } = field bss)
    (bss : BinarySearchState α) : field bss.beginCycle = field bss := by
  rw [BinarySearchState.beginCycle]
  split
  · exact blind bss false bss.searchCycles
  · exact blind bss bss.resumed 0

def endCycle (terminated : Bool) : SearchM α σ Bool := do
  if ¬ terminated then logOutput .ranOutOfIterations
  return terminated

def doBinarySearch (scripts : Scripts α σ) : SearchM α σ Bool := do
  modifyBss BinarySearchState.beginCycle
  let bss ← getBss
  let terminated ← searchIterations scripts (bss.iterations - bss.searchCycles)
  endCycle terminated

theorem do_binary_search_eq (scripts : Scripts α σ) (session begun : Session α σ)
    (cycle : begun = { session with bss := session.bss.beginCycle }) :
    doBinarySearch scripts session =
      (do let terminated ← searchIterations scripts (begun.bss.iterations - begun.bss.searchCycles)
          endCycle terminated) begun := by
  rw [cycle]
  rfl

-- What DoSearch does with a terminated cycle; returns whether the loop goes on.
def pruneFoundItem : SearchM α σ Bool := do
  let bss ← getBss
  let pruneIndex := bss.binarySearch.current
  if pruneIndex = bss.allItems.length - 1 then
    logOutput .firstBadItemIsLast
    logOutput (.badItemsAre (bss.allItems.drop pruneIndex))
    return false
  match bss.allItems[pruneIndex]? with
  | none => throw .indexError
  | some item =>
      if item ∈ bss.foundItems then
        logOutput (.foundItemAlready item)
        logOutput .noMoreBadItems
        logOutput (.badItemsAre bss.foundItems)
        return false
      let newAllItems := bss.allItems.eraseIdx pruneIndex ++ [item]
      modifyBss fun bss => { bss with
        foundItems := [item] ∪ bss.foundItems
        knownGood := newAllItems.take pruneIndex ∪ bss.knownGood }
      if ¬ bss.prune then
        logOutput .pruneIsNotSet
        return false
      populateItemsUsingList (newAllItems.drop pruneIndex)
      return true

theorem prune_found_last (session : Session α σ)
    (last : session.bss.binarySearch.current = session.bss.allItems.length - 1) :
    pruneFoundItem session = .ok false { session with
      log := session.log ++ [.firstBadItemIsLast] ++ [.badItemsAre (session.bss.allItems.drop session.bss.binarySearch.current)] } := by
  simp only [pruneFoundItem, run_bind, run_get_bss, if_pos last, run_log_output, run_pure]

theorem prune_found_again (session : Session α σ) (item : α)
    (inner : session.bss.binarySearch.current ≠ session.bss.allItems.length - 1)
    (listed : session.bss.allItems[session.bss.binarySearch.current]? = some item) (known : item ∈ session.bss.foundItems) :
    pruneFoundItem session = .ok false { session with
      log := session.log ++ [.foundItemAlready item] ++ [.noMoreBadItems] ++ [.badItemsAre session.bss.foundItems] } := by
  simp only [pruneFoundItem, run_bind, run_get_bss, if_neg inner, listed, if_pos known, run_log_output, run_pure]

-- What DoSearch makes of all_items when it finds a new item at prune_index.
def rotateItems (allItems : List α) (pruneIndex : Nat) (item : α) : List α :=
  (allItems.eraseIdx pruneIndex ++ [item]).drop pruneIndex

omit [DecidableEq α] in
theorem rotate_items_eq (allItems : List α) (pruneIndex : Nat) (item : α) (within : pruneIndex ≤ allItems.length) :
    rotateItems allItems pruneIndex item = allItems.drop (pruneIndex + 1) ++ [item] := by
  rw [rotateItems, List.eraseIdx_eq_take_drop_succ, List.append_assoc]
  exact List.drop_left' (List.length_take_of_le within)

omit [DecidableEq α] in
theorem take_before_rotated (allItems : List α) (pruneIndex : Nat) (item : α) (within : pruneIndex ≤ allItems.length) :
    (allItems.eraseIdx pruneIndex ++ [item]).take pruneIndex = allItems.take pruneIndex := by
  rw [List.eraseIdx_eq_take_drop_succ, List.append_assoc]
  exact List.take_left' (List.length_take_of_le within)

theorem prune_found_new (session : Session α σ) (item : α)
    (inner : session.bss.binarySearch.current ≠ session.bss.allItems.length - 1)
    (listed : session.bss.allItems[session.bss.binarySearch.current]? = some item) (fresh : item ∉ session.bss.foundItems)
    (prune : session.bss.prune = true) :
    pruneFoundItem session = .ok true { session with bss := { session.bss with
      foundItems := [item] ∪ session.bss.foundItems
      knownGood := session.bss.allItems.take session.bss.binarySearch.current ∪ session.bss.knownGood
      allItems := rotateItems session.bss.allItems session.bss.binarySearch.current item
      binarySearch := { (BinarySearcher.init : BinarySearcher α) with
        sortedList := rotateItems session.bss.allItems session.bss.binarySearch.current item
        hi := (rotateItems session.bss.allItems session.bss.binarySearch.current item).length - 1 } } } := by
  obtain ⟨within, _⟩ := List.getElem?_eq_some_iff.mp listed
  have nonempty : (rotateItems session.bss.allItems session.bss.binarySearch.current item).length > 0 := by
    rw [rotate_items_eq _ _ _ (Nat.le_of_lt within)]
    simp
  have below : (session.bss.allItems.eraseIdx session.bss.binarySearch.current ++ [item]).take
      session.bss.binarySearch.current = session.bss.allItems.take session.bss.binarySearch.current :=
    take_before_rotated session.bss.allItems session.bss.binarySearch.current item (Nat.le_of_lt within)
  simp only [pruneFoundItem, run_bind, run_get_bss, if_neg inner, listed, if_neg fresh, run_modify_bss, prune,
    not_true_eq_false, if_false, ← rotateItems.eq_1, run_populate _ _ nonempty, run_pure, below]

theorem prune_found_outside (session : Session α σ)
    (inner : session.bss.binarySearch.current ≠ session.bss.allItems.length - 1)
    (outside : session.bss.allItems[session.bss.binarySearch.current]? = none) :
    pruneFoundItem session = .error .indexError session := by
  simp only [pruneFoundItem, run_bind, run_get_bss, if_neg inner, outside, run_throw]

theorem prune_found_only (session : Session α σ) (item : α)
    (inner : session.bss.binarySearch.current ≠ session.bss.allItems.length - 1)
    (listed : session.bss.allItems[session.bss.binarySearch.current]? = some item) (fresh : item ∉ session.bss.foundItems)
    (prune : session.bss.prune = false) :
    pruneFoundItem session = .ok false { session with
      bss := { session.bss with
        foundItems := [item] ∪ session.bss.foundItems
        knownGood := session.bss.allItems.take session.bss.binarySearch.current ∪ session.bss.knownGood }
      log := session.log ++ [.pruneIsNotSet] } := by
  obtain ⟨within, _⟩ := List.getElem?_eq_some_iff.mp listed
  have below : (session.bss.allItems.eraseIdx session.bss.binarySearch.current ++ [item]).take
      session.bss.binarySearch.current = session.bss.allItems.take session.bss.binarySearch.current :=
    take_before_rotated session.bss.allItems session.bss.binarySearch.current item (Nat.le_of_lt within)
  simp only [pruneFoundItem, run_bind, run_get_bss, if_neg inner, listed, if_neg fresh, run_modify_bss, prune,
    Bool.false_eq_true, not_false_eq_true, if_true, run_log_output, run_pure, below]

-- while len(self.all_items) > 1 and self.prune_cycles < self.prune_iterations,
-- where `remaining` is prune_iterations - prune_cycles.
def searchCycles (scripts : Scripts α σ) : Nat → SearchM α σ Unit
  | 0 => pure ()
  | remaining + 1 => do
      let bss ← getBss
      if bss.allItems.length > 1 then
        let terminated ← doBinarySearch scripts
        modifyBss fun bss => { bss with pruneCycles := bss.pruneCycles + 1 }
        if terminated then
          let goesOn ← pruneFoundItem
          if goesOn then searchCycles scripts remaining

theorem search_cycles_succ (scripts : Scripts α σ) (remaining : Nat) (session : Session α σ)
    (several : session.bss.allItems.length > 1) :
    searchCycles scripts (remaining + 1) session = (do
      let terminated ← doBinarySearch scripts
      modifyBss fun bss => { bss with pruneCycles := bss.pruneCycles + 1 }
      if terminated then
        let goesOn ← pruneFoundItem
        if goesOn then searchCycles scripts remaining) session := by
  simp only [searchCycles, run_bind, run_get_bss, several, if_true]

def doSearch (scripts : Scripts α σ) : SearchM α σ Unit := do
  let bss ← getBss
  searchCycles scripts (bss.pruneIterations - bss.pruneCycles)

structure Options where
  incremental : Bool
  prune : Bool
  iterations : Nat
  pruneIterations : Nat
  verify : Bool
deriving DecidableEq, Repr

-- The constructor, with the items that get_initial_items printed.
def newState (options : Options) (items : List α) : Except SearchFailure (BinarySearchState α) := do
  let searcher ← BinarySearcher.init.setSortedList items
  return {
    incremental := options.incremental, prune := options.prune, iterations := options.iterations
    pruneIterations := options.pruneIterations, verify := options.verify, resumed := false
    pruneCycles := 0, searchCycles := 0, binarySearch := searcher, allItems := items
    currentlyGoodItems := [], currentlyBadItems := [], foundItems := [], knownGood := [] }

omit [DecidableEq α] in
theorem new_state_ok (options : Options) (items : List α) (nonempty : items.length > 0) :
    ∃ start, newState options items = .ok start ∧ start = {
      incremental := options.incremental, prune := options.prune, iterations := options.iterations
      pruneIterations := options.pruneIterations, verify := options.verify, resumed := false
      pruneCycles := 0, searchCycles := 0, allItems := items
      binarySearch := { (BinarySearcher.init : BinarySearcher α) with sortedList := items, hi := items.length - 1 }
      currentlyGoodItems := [], currentlyBadItems := [], foundItems := [], knownGood := [] } := by
  refine ⟨_, ?_, rfl⟩
  simp [newState, BinarySearcher.setSortedList, nonempty, BinarySearcher.init, bind, Except.bind, pure, Except.pure]

-- Pickle is taken to be lossless; LoadState then resets these three fields.
def loadState (saved : BinarySearchState α) : BinarySearchState α :=
  { saved with resumed := true, currentlyGoodItems := [], currentlyBadItems := [] }

-- Run, for a new search and for a resumed one.
def run (scripts : Scripts α σ) : SearchM α σ Unit := do
  doVerify scripts
  doSearch scripts

def resume (scripts : Scripts α σ) (saved : BinarySearchState α) (world : σ) : EStateM.Result SearchFailure (Session α σ) Unit :=
  doSearch scripts { bss := loadState saved, world := world, saves := [], log := [] }

end ToolchainUtils.BinarySearchTool
