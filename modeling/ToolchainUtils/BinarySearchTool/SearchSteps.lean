import ToolchainUtils.Transition
import ToolchainUtils.BinarySearchTool.Resume

set_option autoImplicit false

namespace ToolchainUtils.BinarySearchTool

open Transition

-- DoVerify and DoSearch taken apart at the calls of the user's scripts, so that
-- what holds at the moment of a test can be said, and the tool can die between two.
inductive SearchPoint (α : Type) where
  | verifying
  | resetToGood (files : SetFiles α)
  | goodVerified
  | resetToBad (files : SetFiles α)
  | searching
  | cycling
  | switchingToGood (files : SetFiles α)
  | switchingToBad (files : SetFiles α)
  | testing (files : SetFiles α)
  | cycleEnded (terminated : Bool)
  | returned
  | raised (failure : SearchFailure)

-- A test of the search; `border` is the index that GetNext chose for it.
structure TestRecord (α σ : Type) where
  border : Nat
  files : SetFiles α
  world : σ
  status : Int

-- An item that was added to found_items, with all_items and the cycle's tests then.
structure FoundRecord (α σ : Type) where
  allItems : List α
  index : Nat
  item : α
  tests : List (TestRecord α σ)

-- `tests`, `savedTests` (those made when the last state was saved) and `found` are
-- history; no step reads them.
structure SearchRun (α σ : Type) where
  session : Session α σ
  point : SearchPoint α
  tests : List (TestRecord α σ)
  savedTests : List (TestRecord α σ)
  found : List (FoundRecord α σ)

-- The tool dies at any moment; a later --resume finds the scripts' world as it is then.
inductive SearchAction (σ : Type) where
  | go
  | resume (world : σ)

variable {α σ : Type}

def SearchRun.after {β : Type} (run : SearchRun α σ) (program : SearchM α σ β) (next : β → SearchRun α σ → SearchRun α σ) :
    SearchRun α σ :=
  match program run.session with
  | .ok value session => next value { run with session := session }
  | .error failure session => { run with session := session, point := .raised failure }

theorem after_ok {β : Type} (run : SearchRun α σ) (program : SearchM α σ β) (next : β → SearchRun α σ → SearchRun α σ)
    (value : β) (session : Session α σ) (passed : program run.session = .ok value session) :
    run.after program next = next value { run with session := session } := by
  simp only [SearchRun.after, passed]

theorem after_error {β : Type} (run : SearchRun α σ) (program : SearchM α σ β) (next : β → SearchRun α σ → SearchRun α σ)
    (failure : SearchFailure) (session : Session α σ) (stopped : program run.session = .error failure session) :
    run.after program next = { run with session := session, point := .raised failure } := by
  simp only [SearchRun.after, stopped]

def SearchRun.moveTo (run : SearchRun α σ) (point : SearchPoint α) : SearchRun α σ := { run with point := point }

variable [DecidableEq α]

def checkGoodSet (scripts : Scripts α σ) (files : SetFiles α) : SearchM α σ Unit := do
  let status ← testSetupScript scripts files
  assertStatus status 0 "When reset_to_good, test setup should succeed."
  let status ← testScript scripts files
  assertStatus status 0 "When reset_to_good, status should be 0."

def checkBadSet (scripts : Scripts α σ) (files : SetFiles α) : SearchM α σ Unit := do
  let status ← testStatus scripts files
  assertStatus status 1 "When reset_to_bad, status should be 1."

def beginIteration : SearchM α σ (SetFiles α) := do
  saveState
  modifyBss fun bss => { bss with searchCycles := bss.searchCycles + 1 }
  getNextItems

def answerTest (scripts : Scripts α σ) (files : SetFiles α) : SearchM α σ (Int × Bool) := do
  let status ← testStatus scripts files
  let terminated ← recordAnswer status
  return (status, terminated)

def leaveCycle (terminated : Bool) : SearchM α σ Bool := do
  let terminated ← endCycle terminated
  modifyBss fun bss => { bss with pruneCycles := bss.pruneCycles + 1 }
  if terminated then pruneFoundItem else pure false

def SearchRun.newlyFound (run next : SearchRun α σ) : List (FoundRecord α σ) :=
  (next.session.bss.foundItems.filter (· ∉ run.session.bss.foundItems)).map fun item =>
    ⟨run.session.bss.allItems, run.session.bss.binarySearch.current, item, run.tests⟩

def SearchRun.recordTest (run next : SearchRun α σ) (files : SetFiles α) (status : Int) : SearchRun α σ :=
  { next with tests := run.tests ++ [⟨run.session.bss.binarySearch.current, files, run.session.world, status⟩] }

-- A found item that leaves the search on starts a cycle without tests.
def SearchRun.endedCycle (run : SearchRun α σ) (goesOn : Bool) (next : SearchRun α σ) : SearchRun α σ :=
  { next with
    found := run.found ++ run.newlyFound next
    tests := if goesOn then [] else run.tests
    point := if goesOn then .searching else .returned }

def SearchRun.go (scripts : Scripts α σ) (run : SearchRun α σ) : SearchRun α σ :=
  let bss := run.session.bss
  match run.point with
  | .verifying =>
      if bss.verify then
        run.after (switchToGood scripts ⟨bss.allItems, []⟩ bss.allItems) fun _ next => next.moveTo (.resetToGood ⟨bss.allItems, []⟩)
      else run.moveTo .searching
  | .resetToGood files => run.after (checkGoodSet scripts files) fun _ next => next.moveTo .goodVerified
  | .goodVerified =>
      run.after (switchToBad scripts ⟨[], bss.allItems⟩ bss.allItems) fun _ next => next.moveTo (.resetToBad ⟨[], bss.allItems⟩)
  | .resetToBad files => run.after (checkBadSet scripts files) fun _ next => next.moveTo .searching
  | .searching =>
      if bss.allItems.length > 1 ∧ bss.pruneCycles < bss.pruneIterations then
        run.after (modifyBss BinarySearchState.beginCycle) fun _ next => next.moveTo .cycling
      else run.moveTo .returned
  | .cycling =>
      if bss.searchCycles < bss.iterations then
        ({ run with savedTests := run.tests } : SearchRun α σ).after beginIteration fun files next => next.moveTo (.switchingToGood files)
      else run.moveTo (.cycleEnded false)
  | .switchingToGood files => run.after (switchToGood scripts files files.goodSet) fun _ next => next.moveTo (.switchingToBad files)
  | .switchingToBad files => run.after (switchToBad scripts files files.badSet) fun _ next => next.moveTo (.testing files)
  | .testing files => run.after (answerTest scripts files) fun answer next =>
      (run.recordTest next files answer.1).moveTo (if answer.2 then .cycleEnded true else .cycling)
  | .cycleEnded terminated => run.after (leaveCycle terminated) run.endedCycle
  | .returned => run
  | .raised _ => run

def SearchPoint.ended : SearchPoint α → Bool
  | .returned => true
  | .raised _ => true
  | _ => false

def SearchPoint.isReturned : SearchPoint α → Bool
  | .returned => true
  | _ => false

-- RemoveState follows a DoSearch that returned; after an exception the state file
-- is still there. A dead process saved last what the next one loads.
def searchStep (scripts : Scripts α σ) (run : SearchRun α σ) : SearchAction σ → Option (SearchRun α σ)
  | .go => if run.point.ended then none else some (run.go scripts)
  | .resume world =>
      if run.point.isReturned then none
      else run.session.saves.getLast?.map fun saved => { run with
        session := { run.session with bss := loadState saved, world := world }
        point := .searching
        tests := run.savedTests }

def beginSearch (start : BinarySearchState α) (world : σ) : SearchRun α σ :=
  { session := { bss := start, world := world, saves := [], log := [] }, point := .verifying, tests := [], savedTests := [], found := [] }

theorem go_taken (scripts : Scripts α σ) (run next : SearchRun α σ) (taken : searchStep scripts run .go = some next) :
    run.point.ended = false ∧ next = run.go scripts := by
  cases active : run.point.ended with
  | true => simp [searchStep, active] at taken
  | false => exact ⟨rfl, by simpa [searchStep, active] using taken.symm⟩

theorem resume_taken (scripts : Scripts α σ) (run next : SearchRun α σ) (world : σ)
    (taken : searchStep scripts run (.resume world) = some next) :
    ∃ saved, run.session.saves.getLast? = some saved ∧ next = { run with
      session := { run.session with bss := loadState saved, world := world }, point := .searching, tests := run.savedTests } := by
  cases returned : run.point.isReturned with
  | true => simp [searchStep, returned] at taken
  | false =>
      cases last : run.session.saves.getLast? with
      | none => simp [searchStep, returned, last] at taken
      | some saved =>
          simp only [searchStep, returned, last, Option.map_some] at taken
          exact ⟨saved, rfl, (Option.some.inj taken).symm⟩

theorem go_verifying (scripts : Scripts α σ) (run : SearchRun α σ) (point : run.point = .verifying)
    (verify : run.session.bss.verify = true) :
    run.go scripts = run.after (switchToGood scripts ⟨run.session.bss.allItems, []⟩ run.session.bss.allItems)
      fun _ next => next.moveTo (.resetToGood ⟨run.session.bss.allItems, []⟩) := by
  simp only [SearchRun.go, point, verify, if_true]

theorem go_unverified (scripts : Scripts α σ) (run : SearchRun α σ) (point : run.point = .verifying)
    (skip : ¬ run.session.bss.verify = true) : run.go scripts = run.moveTo .searching := by
  simp only [SearchRun.go, point, skip]
  rfl

theorem go_reset_to_good (scripts : Scripts α σ) (run : SearchRun α σ) (files : SetFiles α) (point : run.point = .resetToGood files) :
    run.go scripts = run.after (checkGoodSet scripts files) fun _ next => next.moveTo .goodVerified := by
  simp only [SearchRun.go, point]

theorem go_good_verified (scripts : Scripts α σ) (run : SearchRun α σ) (point : run.point = .goodVerified) :
    run.go scripts = run.after (switchToBad scripts ⟨[], run.session.bss.allItems⟩ run.session.bss.allItems)
      fun _ next => next.moveTo (.resetToBad ⟨[], run.session.bss.allItems⟩) := by
  simp only [SearchRun.go, point]

theorem go_reset_to_bad (scripts : Scripts α σ) (run : SearchRun α σ) (files : SetFiles α) (point : run.point = .resetToBad files) :
    run.go scripts = run.after (checkBadSet scripts files) fun _ next => next.moveTo .searching := by
  simp only [SearchRun.go, point]

theorem go_searching (scripts : Scripts α σ) (run : SearchRun α σ) (point : run.point = .searching)
    (more : run.session.bss.allItems.length > 1 ∧ run.session.bss.pruneCycles < run.session.bss.pruneIterations) :
    run.go scripts = run.after (modifyBss BinarySearchState.beginCycle) fun _ next => next.moveTo .cycling := by
  simp only [SearchRun.go, point, more, and_self, if_true]

theorem go_search_over (scripts : Scripts α σ) (run : SearchRun α σ) (point : run.point = .searching)
    (past : ¬ (run.session.bss.allItems.length > 1 ∧ run.session.bss.pruneCycles < run.session.bss.pruneIterations)) :
    run.go scripts = run.moveTo .returned := by
  simp only [SearchRun.go, point, past, if_false]

theorem go_cycling (scripts : Scripts α σ) (run : SearchRun α σ) (point : run.point = .cycling)
    (more : run.session.bss.searchCycles < run.session.bss.iterations) :
    run.go scripts = ({ run with savedTests := run.tests } : SearchRun α σ).after beginIteration
      fun files next => next.moveTo (.switchingToGood files) := by
  simp only [SearchRun.go, point, more, if_true]

theorem go_cycle_over (scripts : Scripts α σ) (run : SearchRun α σ) (point : run.point = .cycling)
    (past : ¬ run.session.bss.searchCycles < run.session.bss.iterations) :
    run.go scripts = run.moveTo (.cycleEnded false) := by
  simp only [SearchRun.go, point, past, if_false]

theorem go_switching_to_good (scripts : Scripts α σ) (run : SearchRun α σ) (files : SetFiles α)
    (point : run.point = .switchingToGood files) :
    run.go scripts = run.after (switchToGood scripts files files.goodSet) fun _ next => next.moveTo (.switchingToBad files) := by
  simp only [SearchRun.go, point]

theorem go_switching_to_bad (scripts : Scripts α σ) (run : SearchRun α σ) (files : SetFiles α)
    (point : run.point = .switchingToBad files) :
    run.go scripts = run.after (switchToBad scripts files files.badSet) fun _ next => next.moveTo (.testing files) := by
  simp only [SearchRun.go, point]

theorem go_testing (scripts : Scripts α σ) (run : SearchRun α σ) (files : SetFiles α) (point : run.point = .testing files) :
    run.go scripts = run.after (answerTest scripts files) fun answer next =>
      (run.recordTest next files answer.1).moveTo (if answer.2 then .cycleEnded true else .cycling) := by
  simp only [SearchRun.go, point]

theorem go_cycle_ended (scripts : Scripts α σ) (run : SearchRun α σ) (terminated : Bool)
    (point : run.point = .cycleEnded terminated) :
    run.go scripts = run.after (leaveCycle terminated) run.endedCycle := by
  simp only [SearchRun.go, point]

-- What each piece of a step can do to the session.
theorem switch_items_cases (script : List α → σ → Int × σ) (bad : Bool) (items : List α) (session : Session α σ) :
    (∃ good other world, switchItems script bad items session =
      .ok () { session with bss := session.bss.withCurrent good other, world := world }) ∨
    ∃ failure world, switchItems script bad items session = .error failure { session with world := world } := by
  obtain ⟨passed, filtered⟩ : ∃ passed, passed =
    if session.bss.incremental then items.filter (· ∉ session.bss.current bad) else items := ⟨_, rfl⟩
  rw [switch_items_eq script bad items passed session filtered]
  split
  · exact .inl ⟨session.bss.currentlyGoodItems, session.bss.currentlyBadItems, session.world, rfl⟩
  · split
    · obtain ⟨good, other, recorded⟩ := record_switch_current session.bss passed bad
      exact .inl ⟨good, other, _, by rw [recorded]⟩
    · exact .inr ⟨_, _, rfl⟩

-- What the test scripts leave alone in their world.
structure TestsKeep (scripts : Scripts α σ) (files : SetFiles α) (good : σ → Prop) : Prop where
  setup : ∀ script, scripts.testSetupScript = some script → ∀ world, good world → good (script files world).2
  test : ∀ world, good world → good (scripts.testScript files world).2

omit [DecidableEq α] in
theorem tests_keep_true (scripts : Scripts α σ) (files : SetFiles α) : TestsKeep scripts files fun _ => True :=
  ⟨fun _ _ _ _ => trivial, fun _ _ => trivial⟩

omit [DecidableEq α] in
theorem test_setup_cases (scripts : Scripts α σ) (files : SetFiles α) (good : σ → Prop) (keep : TestsKeep scripts files good)
    (session : Session α σ) (initial : good session.world) :
    ∃ status world, good world ∧ testSetupScript scripts files session = .ok status { session with world := world } := by
  cases setup : scripts.testSetupScript with
  | none => exact ⟨0, session.world, initial, by simp only [testSetupScript, setup, run_pure]⟩
  | some script => exact ⟨_, _, keep.setup script setup session.world initial, by simp only [testSetupScript, setup]; rfl⟩

omit [DecidableEq α] in
theorem test_status_cases (scripts : Scripts α σ) (files : SetFiles α) (good : σ → Prop) (keep : TestsKeep scripts files good)
    (session : Session α σ) (initial : good session.world) :
    ∃ status world, good world ∧ testStatus scripts files session = .ok status { session with world := world } := by
  obtain ⟨status, world, still, ran⟩ := test_setup_cases scripts files good keep session initial
  by_cases ready : status = 0
  · exact ⟨_, _, keep.test world still, by simp only [testStatus, run_bind, ran, ready, if_true]; rfl⟩
  · exact ⟨status, world, still, by simp only [testStatus, run_bind, ran, ready, if_false, run_pure]⟩

omit [DecidableEq α] in
theorem check_bad_set_cases (scripts : Scripts α σ) (files : SetFiles α) (good : σ → Prop) (keep : TestsKeep scripts files good)
    (session : Session α σ) (initial : good session.world) :
    ∃ world, good world ∧ (checkBadSet scripts files session = .ok () { session with world := world } ∨
      ∃ failure, checkBadSet scripts files session = .error failure { session with world := world }) := by
  obtain ⟨status, world, still, ran⟩ := test_status_cases scripts files good keep session initial
  refine ⟨world, still, ?_⟩
  rcases assert_status_cases status 1 "When reset_to_bad, status should be 1." { session with world := world } with passed | refused
  · exact .inl (by simp only [checkBadSet, run_bind, ran, passed])
  · exact .inr ⟨_, by simp only [checkBadSet, run_bind, ran, refused]; rfl⟩

omit [DecidableEq α] in
theorem check_good_set_cases (scripts : Scripts α σ) (files : SetFiles α) (good : σ → Prop) (keep : TestsKeep scripts files good)
    (session : Session α σ) (initial : good session.world) :
    ∃ world, good world ∧ (checkGoodSet scripts files session = .ok () { session with world := world } ∨
      ∃ failure, checkGoodSet scripts files session = .error failure { session with world := world }) := by
  obtain ⟨status, world, still, ran⟩ := test_setup_cases scripts files good keep session initial
  rcases assert_status_cases status 0 "When reset_to_good, test setup should succeed." { session with world := world }
    with ready | refused
  · let answer := scripts.testScript files world
    refine ⟨answer.2, keep.test world still, ?_⟩
    have tested : testScript scripts files { session with world := world } = .ok answer.1 { session with world := answer.2 } := rfl
    rcases assert_status_cases answer.1 0 "When reset_to_good, status should be 0." { session with world := answer.2 }
      with passed | refused
    · exact .inl (by simp only [checkGoodSet, run_bind, ran, ready, tested, passed])
    · exact .inr ⟨_, by simp only [checkGoodSet, run_bind, ran, ready, tested, refused]; rfl⟩
  · exact ⟨world, still, .inr ⟨_, by simp only [checkGoodSet, run_bind, ran, refused]; rfl⟩⟩

-- The session once SaveState has run and the iteration is counted.
def Session.counted (session : Session α σ) : Session α σ :=
  { session with
    saves := session.saves ++ [session.bss]
    bss := { session.bss with searchCycles := session.bss.searchCycles + 1 } }

theorem begin_iteration_cases (session : Session α σ) :
    (∃ searcher files, nextTest session.bss = .ok (searcher, files) ∧ beginIteration session =
      .ok files { session.counted with bss := { session.counted.bss with binarySearch := searcher } }) ∨
    ∃ failure searcher, beginIteration session =
      .error failure { session.counted with bss := { session.counted.bss with binarySearch := searcher } } := by
  have body : beginIteration session = getNextItems session.counted := rfl
  have same : nextTest session.counted.bss = nextTest session.bss := rfl
  rw [body]
  cases next : nextTest session.bss with
  | ok found => exact .inl ⟨found.1, found.2, rfl, get_next_items_ok session.counted found.1 found.2 (same.trans next)⟩
  | error failure =>
      obtain ⟨searcher, stopped⟩ := get_next_items_error session.counted failure (same.trans next)
      exact .inr ⟨failure, searcher, stopped⟩

omit [DecidableEq α] in
theorem answer_test_cases (scripts : Scripts α σ) (files : SetFiles α) (good : σ → Prop) (keep : TestsKeep scripts files good)
    (session : Session α σ) (initial : good session.world) :
    ∃ status world, good world ∧
      ((∃ searcher terminated, session.bss.binarySearch.setStatus status = .ok (searcher, terminated) ∧
        answerTest scripts files session = .ok (status, terminated) { session with
          world := world, bss := { session.bss with binarySearch := searcher }
          log := session.log ++ terminatedLine terminated }) ∨
      ∃ failure, answerTest scripts files session = .error failure { session with world := world }) := by
  obtain ⟨status, world, still, ran⟩ := test_status_cases scripts files good keep session initial
  refine ⟨status, world, still, ?_⟩
  cases taken : session.bss.binarySearch.setStatus status with
  | ok result =>
      have recorded := record_answer_ok status { session with world := world } result.1 result.2 taken
      exact .inl ⟨result.1, result.2, rfl, by simp only [answerTest, run_bind, ran, recorded, run_pure]⟩
  | error failure =>
      have refused := record_answer_error status { session with world := world } failure taken
      exact .inr ⟨failure, by simp only [answerTest, run_bind, ran, refused]⟩

-- What DoSearch's loop body does once DoBinarySearch is over.
def Session.left (session : Session α σ) : Session α σ :=
  { session with bss := { session.bss with pruneCycles := session.bss.pruneCycles + 1 } }

theorem leave_cycle_eq (terminated : Bool) (session : Session α σ) :
    leaveCycle terminated session = if terminated then pruneFoundItem session.left
      else .ok false { session.left with log := session.log ++ [.ranOutOfIterations] } := by
  cases terminated <;> rfl

theorem leave_cycle_cases (terminated goesOn : Bool) (session after : Session α σ)
    (left : leaveCycle terminated session = .ok goesOn after) :
    (terminated = false ∧ goesOn = false ∧ after = { session.left with log := session.log ++ [.ranOutOfIterations] }) ∨
    (terminated = true ∧ goesOn = false ∧ ∃ last lines, planPrune session.left.bss = .stops last lines ∧
      after = { session.left with bss := last, log := session.log ++ lines }) ∨
    (terminated = true ∧ goesOn = true ∧ ∃ later, planPrune session.left.bss = .goesOn later ∧
      after = { session.left with bss := later }) := by
  rw [leave_cycle_eq] at left
  cases terminated with
  | false =>
      cases left
      exact .inl ⟨rfl, rfl, rfl⟩
  | true =>
      rw [if_pos rfl, prune_found_spec] at left
      cases plan : planPrune session.left.bss with
      | fails failure => simp [plan] at left
      | stops last lines =>
          simp only [plan] at left
          cases left
          exact .inr (.inl ⟨rfl, rfl, last, lines, rfl, rfl⟩)
      | goesOn later =>
          simp only [plan] at left
          cases left
          exact .inr (.inr ⟨rfl, rfl, later, rfl, rfl⟩)

-- DoSearch is about to add this item to found_items.
structure Adds (bss : BinarySearchState α) (item : α) : Prop where
  inner : bss.binarySearch.current ≠ bss.allItems.length - 1
  listed : bss.allItems[bss.binarySearch.current]? = some item
  fresh : item ∉ bss.foundItems

theorem plan_prune_adds (bss : BinarySearchState α) (item : α) (adds : Adds bss item) :
    planPrune bss = .goesOn (restartOn (recordFound bss item) (rotateItems bss.allItems bss.binarySearch.current item)) ∨
      planPrune bss = .stops (recordFound bss item) [.pruneIsNotSet] := by
  cases prune : bss.prune with
  | true => exact .inl (by simp [planPrune, adds.inner, adds.listed, adds.fresh, prune])
  | false => exact .inr (by simp [planPrune, adds.inner, adds.listed, adds.fresh, prune])

theorem plan_prune_keeps (bss : BinarySearchState α) (none_added : ¬ ∃ item, Adds bss item) :
    (∃ failure, planPrune bss = .fails failure) ∨ ∃ lines, planPrune bss = .stops bss lines := by
  by_cases last : bss.binarySearch.current = bss.allItems.length - 1
  · exact .inr ⟨_, by rw [planPrune, if_pos last]⟩
  · cases listed : bss.allItems[bss.binarySearch.current]? with
    | none => exact .inl ⟨.indexError, by simp [planPrune, last, listed]⟩
    | some item =>
        by_cases known : item ∈ bss.foundItems
        · exact .inr ⟨_, by simp only [planPrune, last, listed, known, if_true, if_false]; rfl⟩
        · exact absurd ⟨item, last, listed, known⟩ none_added

def foundRecord (run : SearchRun α σ) (item : α) : FoundRecord α σ :=
  ⟨run.session.bss.allItems, run.session.bss.binarySearch.current, item, run.tests⟩

theorem newly_found_added (run next : SearchRun α σ) (item : α) (fresh : item ∉ run.session.bss.foundItems)
    (added : next.session.bss.foundItems = [item] ∪ run.session.bss.foundItems) :
    run.newlyFound next = [foundRecord run item] := by
  have kept : run.session.bss.foundItems.filter (· ∉ run.session.bss.foundItems) = [] := by
    simp
  have listed : ([item] ∪ run.session.bss.foundItems : List α) = item :: run.session.bss.foundItems := by
    simp [List.insert_of_not_mem fresh]
  rw [SearchRun.newlyFound, added, listed, List.filter_cons_of_pos (by simpa using fresh), kept]
  rfl

theorem newly_found_none (run next : SearchRun α σ) (same : next.session.bss.foundItems = run.session.bss.foundItems) :
    run.newlyFound next = [] := by
  simp [SearchRun.newlyFound, same]

omit [DecidableEq α] in
theorem rotate_items_nonempty (bss : BinarySearchState α) (item : α) (adds : Adds bss item) :
    0 < (rotateItems bss.allItems bss.binarySearch.current item).length := by
  obtain ⟨within, _⟩ := List.getElem?_eq_some_iff.mp adds.listed
  rw [rotate_items_eq _ _ _ (Nat.le_of_lt within)]
  simp

-- The ways in which a cycle that ended leaves DoSearch's loop body.
theorem cycle_ended_unfound (scripts : Scripts α σ) (run : SearchRun α σ) (terminated : Bool)
    (point : run.point = .cycleEnded terminated) (none_added : terminated = true → ¬ ∃ item, Adds run.session.bss item) :
    ∃ last log, last.ended = true ∧
      run.go scripts = { run with session := { run.session.left with log := log }, point := last } := by
  rw [go_cycle_ended scripts run terminated point]
  cases terminated with
  | false =>
      rw [after_ok run _ _ false _ (leave_cycle_eq false run.session)]
      exact ⟨.returned, run.session.log ++ [.ranOutOfIterations], rfl, by
        simp [SearchRun.endedCycle, newly_found_none, Session.left]⟩
  | true =>
      have left := (leave_cycle_eq true run.session).trans (prune_found_spec run.session.left)
      have nothing : ¬ ∃ item, Adds run.session.left.bss item :=
        fun ⟨item, adds⟩ => none_added rfl ⟨item, adds.inner, adds.listed, adds.fresh⟩
      rcases plan_prune_keeps run.session.left.bss nothing with ⟨failure, plan⟩ | ⟨lines, plan⟩
      · rw [plan] at left
        rw [after_error run _ _ failure _ left]
        exact ⟨.raised failure, _, rfl, rfl⟩
      · rw [plan] at left
        rw [after_ok run _ _ false _ left]
        exact ⟨.returned, run.session.log ++ lines, rfl, by simp [SearchRun.endedCycle, newly_found_none, Session.left]⟩

theorem cycle_ended_found (scripts : Scripts α σ) (run : SearchRun α σ) (item : α) (point : run.point = .cycleEnded true)
    (adds : Adds run.session.bss item) :
    (∃ log, run.go scripts = { run with
      session := { run.session.left with
        log := log
        bss := restartOn (recordFound run.session.left.bss item)
          (rotateItems run.session.bss.allItems run.session.bss.binarySearch.current item) }
      found := run.found ++ [foundRecord run item], tests := [], point := .searching }) ∨
    ∃ log, run.go scripts = { run with
      session := { run.session.left with log := log, bss := recordFound run.session.left.bss item }
      found := run.found ++ [foundRecord run item], point := .returned } := by
  have left := (leave_cycle_eq true run.session).trans (prune_found_spec run.session.left)
  rw [go_cycle_ended scripts run true point]
  rcases plan_prune_adds run.session.left.bss item ⟨adds.inner, adds.listed, adds.fresh⟩ with plan | plan
  · rw [plan] at left
    rw [after_ok run _ _ true _ left, SearchRun.endedCycle, newly_found_added run _ item adds.fresh rfl]
    exact .inl ⟨_, rfl⟩
  · rw [plan] at left
    rw [after_ok run _ _ false _ left, SearchRun.endedCycle, newly_found_added run _ item adds.fresh rfl]
    exact .inr ⟨_, rfl⟩

-- The steps, taken without a crash, end exactly as the programs they come from.
def EndsAs (final : SearchRun α σ) : EStateM.Result SearchFailure (Session α σ) Unit → Prop
  | .ok _ session => final.point = .returned ∧ final.session = session
  | .error failure session => final.point = .raised failure ∧ final.session = session

def Performs (scripts : Scripts α σ) (run : SearchRun α σ) (result : EStateM.Result SearchFailure (Session α σ) Unit) : Prop :=
  ∃ steps final, exec (searchStep scripts) run (List.replicate steps .go) = some final ∧ EndsAs final result

theorem performs_go (scripts : Scripts α σ) (run : SearchRun α σ) (result : EStateM.Result SearchFailure (Session α σ) Unit)
    (active : run.point.ended = false) (rest : Performs scripts (run.go scripts) result) : Performs scripts run result := by
  obtain ⟨steps, final, ran, ended⟩ := rest
  refine ⟨steps + 1, final, ?_, ended⟩
  rw [List.replicate_succ, exec_cons]
  exact ⟨run.go scripts, by simp [searchStep, active], ran⟩

-- One step that runs a program, followed by whatever goes on from its result.
theorem performs_after {β : Type} (scripts : Scripts α σ) (run begun : SearchRun α σ) (program : SearchM α σ β)
    (next : β → SearchRun α σ → SearchRun α σ) (rest : β → SearchM α σ Unit) (active : run.point.ended = false)
    (body : run.go scripts = begun.after program next) (same : begun.session = run.session)
    (later : ∀ value session, program run.session = .ok value session →
      Performs scripts (next value { begun with session := session }) (rest value session)) :
    Performs scripts run ((program >>= rest) run.session) := by
  apply performs_go scripts run _ active
  rw [body, run_bind]
  cases ran : program run.session with
  | ok value session =>
      rw [after_ok begun program next value session (same ▸ ran)]
      exact later value session ran
  | error failure session =>
      rw [after_error begun program next failure session (same ▸ ran)]
      exact ⟨0, _, rfl, rfl, rfl⟩

theorem performs_returned (scripts : Scripts α σ) (run : SearchRun α σ) (returned : run.point = .returned) :
    Performs scripts run (.ok () run.session) := ⟨0, run, rfl, returned, rfl⟩

theorem finish_cycle_eq (scripts : Scripts α σ) (cycles : Nat) (terminated : Bool) (session : Session α σ) :
    finishCycle scripts cycles terminated session =
      (leaveCycle terminated >>= fun goesOn => if goesOn then searchCycles scripts cycles else pure ()) session := by
  cases terminated <;> rfl

theorem continue_search_succ (scripts : Scripts α σ) (rounds cycles : Nat) :
    continueSearch scripts (rounds + 1) cycles = beginIteration >>= fun files =>
      switchToGood scripts files files.goodSet >>= fun _ => switchToBad scripts files files.badSet >>= fun _ =>
        answerTest scripts files >>= fun answer =>
          if answer.2 then finishCycle scripts cycles true else continueSearch scripts rounds cycles := by
  simp only [continueSearch, searchIterations, searchIteration, beginIteration, answerTest, bind_assoc, pure_bind]
  refine bind_congr fun _ => bind_congr fun _ => bind_congr fun files => bind_congr fun _ => bind_congr fun _ =>
    bind_congr fun status => bind_congr fun terminated => ?_
  cases terminated <;> simp

-- The counters of DoSearch and DoBinarySearch.
structure Counts (rounds cycles : Nat) (bss : BinarySearchState α) : Prop where
  rounds : bss.iterations - bss.searchCycles = rounds
  cycles : bss.pruneIterations - bss.pruneCycles = cycles

theorem switch_items_counts (rounds cycles : Nat) (script : List α → σ → Int × σ) (bad : Bool) (items : List α)
    (session after : Session α σ) (counts : Counts rounds cycles session.bss)
    (switched : switchItems script bad items session = .ok () after) : Counts rounds cycles after.bss := by
  rcases switch_items_cases script bad items session with ⟨good, other, world, ran⟩ | ⟨_, _, ran⟩
  · cases switched.symm.trans ran
    exact ⟨counts.rounds, counts.cycles⟩
  · cases switched.symm.trans ran

theorem begin_iteration_counts (rounds cycles : Nat) (files : SetFiles α) (session after : Session α σ)
    (counts : Counts (rounds + 1) cycles session.bss) (begun : beginIteration session = .ok files after) :
    Counts rounds cycles after.bss := by
  rcases begin_iteration_cases session with ⟨searcher, _, _, ran⟩ | ⟨_, _, ran⟩
  · cases begun.symm.trans ran
    have left := counts.rounds
    refine ⟨?_, counts.cycles⟩
    change session.bss.iterations - (session.bss.searchCycles + 1) = rounds
    omega
  · cases begun.symm.trans ran

omit [DecidableEq α] in
theorem answer_test_counts (rounds cycles : Nat) (scripts : Scripts α σ) (files : SetFiles α) (answer : Int × Bool)
    (session after : Session α σ) (counts : Counts rounds cycles session.bss)
    (answered : answerTest scripts files session = .ok answer after) : Counts rounds cycles after.bss := by
  rcases answer_test_cases scripts files _ (tests_keep_true scripts files) session trivial with ⟨_, _, _, ⟨_, _, _, ran⟩ | ⟨_, ran⟩⟩
  · cases answered.symm.trans ran
    exact ⟨counts.rounds, counts.cycles⟩
  · cases answered.symm.trans ran

theorem leave_cycle_goes_on (rounds cycles : Nat) (terminated : Bool) (session after : Session α σ)
    (counts : Counts rounds (cycles + 1) session.bss) (left : leaveCycle terminated session = .ok true after) :
    after.bss.pruneIterations - after.bss.pruneCycles = cycles := by
  rcases leave_cycle_cases _ _ _ _ left with ⟨_, same, _⟩ | ⟨_, same, _⟩ | ⟨_, _, later, plan, rfl⟩
  · cases same
  · cases same
  · obtain ⟨item, _, rfl⟩ := plan_prune_goes_on _ _ plan
    have more := counts.cycles
    change session.bss.pruneIterations - (session.bss.pruneCycles + 1) = cycles
    omega

-- A run that stands at the head of DoSearch's loop with that many prune cycles left.
def PerformsCycles (scripts : Scripts α σ) (cycles : Nat) : Prop :=
  ∀ run : SearchRun α σ, run.point = .searching → run.session.bss.pruneIterations - run.session.bss.pruneCycles = cycles →
    Performs scripts run (searchCycles scripts cycles run.session)

theorem performs_cycle_ended (scripts : Scripts α σ) (rounds cycles : Nat) (searching : PerformsCycles scripts cycles)
    (run : SearchRun α σ) (terminated : Bool) (point : run.point = .cycleEnded terminated)
    (counts : Counts rounds (cycles + 1) run.session.bss) :
    Performs scripts run (finishCycle scripts cycles terminated run.session) := by
  rw [finish_cycle_eq]
  apply performs_after scripts run run _ _ _ (by rw [point]; rfl) (go_cycle_ended scripts run terminated point) rfl
  intro goesOn session left
  cases goesOn with
  | false => exact performs_returned scripts _ rfl
  | true => exact searching _ rfl (leave_cycle_goes_on rounds cycles terminated run.session session counts left)

-- The induction is on the iterations that are left in the cycle.
theorem performs_cycling (scripts : Scripts α σ) (rounds cycles : Nat) (searching : PerformsCycles scripts cycles)
    (run : SearchRun α σ) (point : run.point = .cycling) (counts : Counts rounds (cycles + 1) run.session.bss) :
    Performs scripts run (continueSearch scripts rounds cycles run.session) := by
  induction rounds generalizing run with
  | zero =>
      have none := counts.rounds
      apply performs_go scripts run _ (by rw [point]; rfl)
      rw [go_cycle_over scripts run point (by omega)]
      exact performs_cycle_ended scripts 0 cycles searching (run.moveTo (.cycleEnded false)) false rfl counts
  | succ rounds ih =>
      have left := counts.rounds
      rw [continue_search_succ]
      apply performs_after scripts run _ _ _ _ (by rw [point]; rfl) (go_cycling scripts run point (by omega)) rfl
      intro files begun beginning
      have countsBegun := begin_iteration_counts rounds (cycles + 1) files run.session begun counts beginning
      apply performs_after scripts _ _ _ _ _ rfl (go_switching_to_good scripts _ files rfl) rfl
      intro _ good switchedGood
      have countsGood := switch_items_counts rounds (cycles + 1) _ _ _ begun good countsBegun switchedGood
      apply performs_after scripts _ _ _ _ _ rfl (go_switching_to_bad scripts _ files rfl) rfl
      intro _ bad switchedBad
      have countsBad := switch_items_counts rounds (cycles + 1) _ _ _ good bad countsGood switchedBad
      apply performs_after scripts _ _ _ _ _ rfl (go_testing scripts _ files rfl) rfl
      intro answer after answered
      have countsAfter := answer_test_counts rounds (cycles + 1) scripts files answer bad after countsBad answered
      obtain ⟨status, terminated⟩ := answer
      cases terminated with
      | true => exact performs_cycle_ended scripts rounds cycles searching _ true rfl countsAfter
      | false => exact ih _ rfl countsAfter

theorem performs_cycles (scripts : Scripts α σ) (cycles : Nat) : PerformsCycles scripts cycles := by
  induction cycles with
  | zero =>
      intro run point left
      apply performs_go scripts run _ (by rw [point]; rfl)
      rw [go_search_over scripts run point (by omega)]
      exact performs_returned scripts _ rfl
  | succ cycles ih =>
      intro run point left
      apply performs_go scripts run _ (by rw [point]; rfl)
      by_cases several : run.session.bss.allItems.length > 1
      · rw [search_cycles_begin scripts cycles run.session _ several rfl, go_searching scripts run point ⟨several, by omega⟩]
        refine performs_cycling scripts _ cycles ih _ rfl ⟨rfl, ?_⟩
        exact (begin_cycle_keeps (fun bss => bss.pruneIterations - bss.pruneCycles) (fun _ _ _ => rfl) run.session.bss).trans left
      · have nothing : searchCycles scripts (cycles + 1) run.session = .ok () run.session := by
          simp only [searchCycles, run_bind, run_get_bss, several, if_false, run_pure]
        rw [go_search_over scripts run point (fun both => several both.1), nothing]
        exact performs_returned scripts (run.moveTo .returned) rfl

theorem performs_search (scripts : Scripts α σ) (run : SearchRun α σ) (point : run.point = .searching) :
    Performs scripts run (doSearch scripts run.session) :=
  performs_cycles scripts _ run point rfl

theorem run_eq (scripts : Scripts α σ) (session : Session α σ) :
    BinarySearchTool.run scripts session = if session.bss.verify then
      (switchToGood scripts ⟨session.bss.allItems, []⟩ session.bss.allItems >>= fun _ =>
        checkGoodSet scripts ⟨session.bss.allItems, []⟩ >>= fun _ => getBss >>= fun bss =>
          switchToBad scripts ⟨[], bss.allItems⟩ bss.allItems >>= fun _ =>
            checkBadSet scripts ⟨[], bss.allItems⟩ >>= fun _ => doSearch scripts) session
    else doSearch scripts session := by
  cases verify : session.bss.verify with
  | false => simp [BinarySearchTool.run, doVerify, run_bind, run_get_bss, verify, run_pure]
  | true =>
      have body : BinarySearchTool.run scripts session =
          ((verifyGoodSet scripts >>= fun _ => verifyBadSet scripts) >>= fun _ => doSearch scripts) session := by
        simp only [BinarySearchTool.run, doVerify, run_bind, run_get_bss, verify, if_true]
      rw [body, if_pos rfl]
      simp only [verifyGoodSet, verifyBadSet, checkGoodSet, checkBadSet, bind_assoc]
      rfl

-- DoVerify and DoSearch as one program end where their steps do.
theorem search_steps_perform_run (scripts : Scripts α σ) (start : BinarySearchState α) (world : σ) :
    Performs scripts (beginSearch start world) (BinarySearchTool.run scripts { bss := start, world := world, saves := [], log := [] }) := by
  rw [run_eq]
  split
  · next verify =>
      apply performs_after scripts (beginSearch start world) _ _ _ _ rfl (go_verifying scripts _ rfl verify) rfl
      intro _ good switchedGood
      apply performs_after scripts _ _ _ _ _ rfl (go_reset_to_good scripts _ _ rfl) rfl
      intro _ verified passed
      apply performs_after scripts _ _ _ _ _ rfl (go_good_verified scripts _ rfl) rfl
      intro _ bad switchedBad
      apply performs_after scripts _ _ _ _ _ rfl (go_reset_to_bad scripts _ _ rfl) rfl
      intro _ searching failed
      exact performs_search scripts _ rfl
  · next skip =>
      apply performs_go scripts (beginSearch start world) _ rfl
      rw [go_unverified scripts _ rfl skip]
      exact performs_search scripts ((beginSearch start world).moveTo .searching) rfl

-- The same for a search that is resumed from the last saved state.
theorem search_steps_perform_resume (scripts : Scripts α σ) (run next : SearchRun α σ) (world : σ)
    (resumed : searchStep scripts run (.resume world) = some next) : Performs scripts next (doSearch scripts next.session) := by
  obtain ⟨saved, _, rfl⟩ := resume_taken scripts run next world resumed
  exact performs_search scripts _ rfl

end ToolchainUtils.BinarySearchTool
