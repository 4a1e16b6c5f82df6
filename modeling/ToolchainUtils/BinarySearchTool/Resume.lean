import ToolchainUtils.BinarySearchTool.Environment

set_option autoImplicit false

namespace ToolchainUtils.BinarySearchTool

variable {α : Type} [DecidableEq α]

-- The search without scripts, logs of single rounds or saved files: a plan of what
-- it will report, as a function of the state alone. `failure` is an exception.
structure Ending (α : Type) where
  failure : Option SearchFailure
  bss : BinarySearchState α
  lines : List (LogLine α)
deriving DecidableEq

inductive PruneResult (α : Type) where
  | fails (failure : SearchFailure)
  | stops (bss : BinarySearchState α) (lines : List (LogLine α))
  | goesOn (bss : BinarySearchState α)

def recordFound (bss : BinarySearchState α) (item : α) : BinarySearchState α :=
  { bss with
    foundItems := [item] ∪ bss.foundItems
    knownGood := bss.allItems.take bss.binarySearch.current ∪ bss.knownGood }

def restartOn (bss : BinarySearchState α) (allItems : List α) : BinarySearchState α :=
  { bss with
    allItems := allItems
    binarySearch := { (BinarySearcher.init : BinarySearcher α) with sortedList := allItems, hi := allItems.length - 1 } }

def planPrune (bss : BinarySearchState α) : PruneResult α :=
  if bss.binarySearch.current = bss.allItems.length - 1 then
    .stops bss [.firstBadItemIsLast, .badItemsAre (bss.allItems.drop bss.binarySearch.current)]
  else match bss.allItems[bss.binarySearch.current]? with
    | none => .fails .indexError
    | some item =>
        if item ∈ bss.foundItems then
          .stops bss [.foundItemAlready item, .noMoreBadItems, .badItemsAre bss.foundItems]
        else if bss.prune then .goesOn (restartOn (recordFound bss item) (rotateItems bss.allItems bss.binarySearch.current item))
        else .stops (recordFound bss item) [.pruneIsNotSet]

def planFinish (next : BinarySearchState α → Ending α) (terminated : Bool) (bss : BinarySearchState α) : Ending α :=
  let counted := { bss with pruneCycles := bss.pruneCycles + 1 }
  if terminated then match planPrune counted with
    | .fails failure => ⟨some failure, counted, []⟩
    | .stops last lines => ⟨none, last, lines⟩
    | .goesOn later => next later
  else ⟨none, counted, [.ranOutOfIterations]⟩

def planIterations (answer : SetFiles α → Int) (next : BinarySearchState α → Ending α) : Nat → BinarySearchState α → Ending α
  | 0, bss => planFinish next false bss
  | remaining + 1, bss => match iterate answer bss with
      | .error failure => ⟨some failure, bss, []⟩
      | .ok (after, true) => planFinish next true after
      | .ok (after, false) => planIterations answer next remaining after

def planCycles (answer : SetFiles α → Int) : Nat → BinarySearchState α → Ending α
  | 0, bss => ⟨none, bss, []⟩
  | remaining + 1, bss =>
      if bss.allItems.length > 1 then
        planIterations answer (planCycles answer remaining) (bss.iterations - bss.beginCycle.searchCycles) bss.beginCycle
      else ⟨none, bss, []⟩

-- What one round leaves to be done in DoBinarySearch and DoSearch.
def finishCycle {σ : Type} (scripts : Scripts α σ) (cycles : Nat) (terminated : Bool) : SearchM α σ Unit := do
  let terminated ← endCycle terminated
  modifyBss fun bss => { bss with pruneCycles := bss.pruneCycles + 1 }
  if terminated then
    let goesOn ← pruneFoundItem
    if goesOn then searchCycles scripts cycles

def continueSearch {σ : Type} (scripts : Scripts α σ) (rounds cycles : Nat) : SearchM α σ Unit := do
  let terminated ← searchIterations scripts rounds
  finishCycle scripts cycles terminated

theorem search_cycles_begin {σ : Type} (scripts : Scripts α σ) (cycles : Nat) (session begun : Session α σ)
    (several : session.bss.allItems.length > 1) (cycle : begun = { session with bss := session.bss.beginCycle }) :
    searchCycles scripts (cycles + 1) session =
      continueSearch scripts (begun.bss.iterations - begun.bss.searchCycles) cycles begun := by
  rw [search_cycles_succ scripts cycles session several, run_bind, do_binary_search_eq scripts session begun cycle]
  simp only [continueSearch, finishCycle, run_bind]
  cases searchIterations scripts (begun.bss.iterations - begun.bss.searchCycles) begun with
  | error failure stopped => rfl
  | ok terminated after => rfl

-- LoadState forgets which items are switched, so nothing may depend on it.
def BinarySearchState.forgetCurrent (bss : BinarySearchState α) : BinarySearchState α := bss.withCurrent [] []

theorem next_test_forget (bss : BinarySearchState α) (good bad : List α) :
    nextTest (bss.withCurrent good bad) = nextTest bss := rfl

theorem iterate_forget (answer : SetFiles α → Int) (bss : BinarySearchState α) (good bad : List α) :
    iterate answer (bss.withCurrent good bad) =
      (iterate answer bss).map fun result => (result.1.withCurrent good bad, result.2) := by
  simp only [iterate, next_test_forget]
  cases nextTest bss with
  | error failure => rfl
  | ok next =>
      change (next.1.setStatus (answer next.2) >>= _) = Except.map _ (next.1.setStatus (answer next.2) >>= _)
      cases next.1.setStatus (answer next.2) <;> rfl

theorem iterate_answers_agree (first second : SetFiles α → Int) (bss : BinarySearchState α)
    (agree : ∀ next, nextTest bss = .ok next → first next.2 = second next.2) : iterate first bss = iterate second bss := by
  cases next : nextTest bss with
  | error failure => simp [iterate, next, bind, Except.bind]
  | ok found => simp only [iterate, next, bind, Except.bind, agree found next]

theorem iterate_ok_shape (answer : SetFiles α → Int) (bss after : BinarySearchState α) (terminated : Bool)
    (iterated : iterate answer bss = .ok (after, terminated)) :
    ∃ searcher, after = { bss with searchCycles := bss.searchCycles + 1, binarySearch := searcher } := by
  obtain ⟨next, _, rest⟩ := except_bind_ok _ _ _ iterated
  obtain ⟨taken, _, same⟩ := except_bind_ok _ _ _ rest
  cases same
  exact ⟨taken.1, rfl⟩

theorem next_test_files (bss : BinarySearchState α) (next : BinarySearcher α × SetFiles α) (found : nextTest bss = .ok next) :
    ∃ index, next.2 = ⟨bss.allItems.drop (index + 1) ++ bss.knownGood, bss.allItems.take (index + 1)⟩ := by
  obtain ⟨moved, _, rest⟩ := except_bind_ok _ _ _ found
  obtain ⟨index, _, same⟩ := except_bind_ok _ _ _ rest
  cases same
  exact ⟨index, rfl⟩

-- Every item is either still searched or known to be good.
def Covers (items : List α) (bss : BinarySearchState α) : Prop :=
  ∀ item ∈ items, item ∈ bss.allItems ∨ item ∈ bss.knownGood

-- The answer is a function of which of the items are bad and which are good.
def OnlyItems (items : List α) (answer : Environment α → Int) : Prop :=
  ∀ env other, (∀ item ∈ items, env item = other item) → answer env = answer other

def plannedAnswer (answer : Environment α → Int) (files : SetFiles α) : Int :=
  answer (environmentFor files fun _ => false)

theorem planned_answer_same (items : List α) (answer : Environment α → Int) (only : OnlyItems items answer)
    (bss : BinarySearchState α) (covers : Covers items bss) (env : Environment α) :
    iterate (fun files => answer (environmentFor files env)) bss = iterate (plannedAnswer answer) bss := by
  apply iterate_answers_agree
  intro next found
  obtain ⟨index, files⟩ := next_test_files bss next found
  rw [files]
  apply only
  intro item member
  by_cases bad : item ∈ bss.allItems.take (index + 1)
  · simp [environmentFor, setItems, bad]
  · have good : item ∈ bss.allItems.drop (index + 1) ++ bss.knownGood := by
      rcases covers item member with listed | known
      · rw [← List.take_append_drop (index + 1) bss.allItems] at listed
        exact List.mem_append_left _ ((List.mem_append.mp listed).resolve_left bad)
      · exact List.mem_append_right _ known
    simp [environmentFor, setItems, bad, List.mem_append.mp good]

theorem prune_found_spec {σ : Type} (session : Session α σ) :
    pruneFoundItem session = match planPrune session.bss with
      | .fails failure => .error failure session
      | .stops last lines => .ok false { session with bss := last, log := session.log ++ lines }
      | .goesOn later => .ok true { session with bss := later } := by
  by_cases last : session.bss.binarySearch.current = session.bss.allItems.length - 1
  · simp [prune_found_last session last, planPrune, last]
  · cases listed : session.bss.allItems[session.bss.binarySearch.current]? with
    | none => simp [prune_found_outside session last listed, planPrune, last, listed]
    | some item =>
        by_cases known : item ∈ session.bss.foundItems
        · simp [prune_found_again session item last listed known, planPrune, last, listed, known]
        · cases prune : session.bss.prune with
          | false => simp [prune_found_only session item last listed known prune, planPrune, last, listed, known, prune, recordFound]
          | true =>
              simp [prune_found_new session item last listed known prune, planPrune, last, listed, known, prune, recordFound,
                restartOn]

def PruneResult.forgetCurrent : PruneResult α → PruneResult α
  | .fails failure => .fails failure
  | .stops bss lines => .stops bss.forgetCurrent lines
  | .goesOn bss => .goesOn bss.forgetCurrent

theorem plan_prune_forget (bss : BinarySearchState α) : planPrune bss.forgetCurrent = (planPrune bss).forgetCurrent := by
  have same : bss.forgetCurrent.allItems = bss.allItems ∧ bss.forgetCurrent.binarySearch = bss.binarySearch ∧
      bss.forgetCurrent.foundItems = bss.foundItems ∧ bss.forgetCurrent.prune = bss.prune := ⟨rfl, rfl, rfl, rfl⟩
  simp only [planPrune, same]
  split
  · rfl
  · split
    · rfl
    · split
      · rfl
      · split <;> rfl

theorem plan_prune_lines (bss last : BinarySearchState α) (lines : List (LogLine α))
    (stops : planPrune bss = .stops last lines) : lines.filter (· ≠ .terminated) = lines := by
  have quiet : ∀ line ∈ lines, line ≠ .terminated := by
    unfold planPrune at stops
    split at stops
    · cases stops
      simp
    · split at stops
      · cases stops
      · split at stops
        · cases stops
          simp
        · split at stops
          · cases stops
          · cases stops
            simp
  exact List.filter_eq_self.mpr fun line member => decide_eq_true (quiet line member)

theorem plan_prune_goes_on (bss later : BinarySearchState α) (goes : planPrune bss = .goesOn later) :
    ∃ item, bss.allItems[bss.binarySearch.current]? = some item ∧
      later = restartOn (recordFound bss item) (rotateItems bss.allItems bss.binarySearch.current item) := by
  unfold planPrune at goes
  split at goes
  · cases goes
  · split at goes
    · cases goes
    · next item listed =>
        split at goes
        · cases goes
        · split at goes
          · cases goes
            exact ⟨item, listed, rfl⟩
          · cases goes

theorem covers_restart (items : List α) (bss : BinarySearchState α) (item : α) (covers : Covers items bss)
    (listed : bss.allItems[bss.binarySearch.current]? = some item) :
    Covers items (restartOn (recordFound bss item) (rotateItems bss.allItems bss.binarySearch.current item)) := by
  intro other member
  obtain ⟨within, same⟩ := List.getElem?_eq_some_iff.mp listed
  simp only [restartOn, recordFound, rotate_items_eq _ _ _ (Nat.le_of_lt within), List.mem_append, List.mem_singleton, List.mem_union_iff]
  rcases covers other member with searched | known
  · rw [← List.take_append_drop bss.binarySearch.current bss.allItems, List.drop_eq_getElem_cons within, same] at searched
    rcases List.mem_append.mp searched with before | after
    · exact .inr (.inl before)
    · rcases List.mem_cons.mp after with here | behind
      · exact .inl (.inr here)
      · exact .inl (.inl behind)
  · exact .inr (.inr known)

-- What the user is told; a `Terminated!` line only closes a single cycle.
def answerLines {σ : Type} (session : Session α σ) : List (LogLine α) := session.log.filter (· ≠ .terminated)

theorem answer_lines_append {σ : Type} (session : Session α σ) (lines : List (LogLine α)) (saves : List (BinarySearchState α))
    (bss : BinarySearchState α) (world : σ) :
    answerLines { bss := bss, world := world, saves := saves, log := session.log ++ lines } =
      answerLines session ++ lines.filter (· ≠ .terminated) := List.filter_append _ _

def sessionOf {σ : Type} : EStateM.Result SearchFailure (Session α σ) Unit → Session α σ
  | .ok _ final => final
  | .error _ stopped => stopped

structure Running (items : List α) (session : Session α (Environment α)) : Prop where
  truthful : Truthful session.bss session.world
  started : session.bss.resumed = false
  covers : Covers items session.bss
  quiet : answerLines session = []

def Refines {σ : Type} (ending : Ending α) : EStateM.Result SearchFailure (Session α σ) Unit → Prop
  | .ok _ final =>
      ending.failure = none ∧ final.bss.forgetCurrent = ending.bss.forgetCurrent ∧ answerLines final = ending.lines
  | .error failure stopped =>
      ending.failure = some failure ∧ stopped.bss.allItems = ending.bss.allItems ∧
        stopped.bss.foundItems = ending.bss.foundItems ∧ answerLines stopped = ending.lines

-- A state saved inside a cycle from which exactly `ending` is still planned.
structure Resumable (items : List α) (answer : Environment α → Int) (ending : Ending α) (cycles : Nat)
    (saved : BinarySearchState α) : Prop where
  started : saved.resumed = false
  several : saved.allItems.length > 1
  left : saved.pruneIterations - saved.pruneCycles = cycles + 1
  covers : Covers items saved
  planned : planIterations (plannedAnswer answer) (planCycles (plannedAnswer answer) cycles)
    (saved.iterations - saved.searchCycles) saved.forgetCurrent = ending

structure Follows (items : List α) (answer : Environment α → Int) (before : List (BinarySearchState α)) (ending : Ending α)
    (result : EStateM.Result SearchFailure (Session α (Environment α)) Unit) : Prop where
  refines : Refines ending result
  saves : ∀ saved ∈ (sessionOf result).saves, saved ∈ before ∨ ∃ cycles, Resumable items answer ending cycles saved

theorem finish_unterminated (setup : Option (Environment α → Int)) (test : Environment α → Int) (items : List α)
    (cycles : Nat) (next : BinarySearchState α → Ending α) (session : Session α (Environment α))
    (running : Running items session) :
    Follows items (environmentAnswer setup test) session.saves (planFinish next false session.bss.forgetCurrent)
      (finishCycle (environmentScripts setup test) cycles false session) := by
  have quiet := running.quiet
  have finished : finishCycle (environmentScripts setup test) cycles false session = .ok () { session with
      bss := { session.bss with pruneCycles := session.bss.pruneCycles + 1 }
      log := session.log ++ [.ranOutOfIterations] } := by
    rfl
  rw [finished]
  refine ⟨⟨rfl, rfl, ?_⟩, fun saved member => .inl member⟩
  rw [answer_lines_append, quiet]
  rfl

theorem finish_terminated (setup : Option (Environment α → Int)) (test : Environment α → Int) (items : List α)
    (cycles : Nat) (next : BinarySearchState α → Ending α) (session : Session α (Environment α))
    (running : Running items session) (left : session.bss.pruneIterations - session.bss.pruneCycles = cycles + 1)
    (later : ∀ after : Session α (Environment α), Running items after →
      after.bss.pruneIterations - after.bss.pruneCycles = cycles →
      Follows items (environmentAnswer setup test) after.saves (next after.bss.forgetCurrent)
        (searchCycles (environmentScripts setup test) cycles after)) :
    Follows items (environmentAnswer setup test) session.saves (planFinish next true session.bss.forgetCurrent)
      (finishCycle (environmentScripts setup test) cycles true session) := by
  have quiet := running.quiet
  obtain ⟨counted, same⟩ : ∃ counted, counted = { session.bss with pruneCycles := session.bss.pruneCycles + 1 } := ⟨_, rfl⟩
  have finished : finishCycle (environmentScripts setup test) cycles true session = (do
      let goesOn ← pruneFoundItem
      if goesOn then searchCycles (environmentScripts setup test) cycles) { session with bss := counted } := by
    simp [finishCycle, endCycle, run_bind, run_pure, run_modify_bss, same]
  have planned : planFinish next true session.bss.forgetCurrent = match planPrune counted.forgetCurrent with
      | .fails failure => ⟨some failure, counted.forgetCurrent, []⟩
      | .stops last lines => ⟨none, last, lines⟩
      | .goesOn after => next after := by rw [same]; rfl
  rw [finished, run_bind, prune_found_spec, planned, plan_prune_forget]
  cases pruned : planPrune counted with
  | fails failure =>
      exact ⟨⟨rfl, rfl, rfl, quiet⟩, fun saved member => .inl member⟩
  | stops last lines =>
      refine ⟨⟨rfl, rfl, ?_⟩, fun saved member => .inl member⟩
      have shown := plan_prune_lines counted last lines pruned
      rw [answer_lines_append, shown]
      exact congrArg (· ++ lines) quiet
  | goesOn after =>
      obtain ⟨item, listed, changed⟩ := plan_prune_goes_on counted after pruned
      have covers : Covers items after := by
        rw [changed]
        exact covers_restart items counted item (by rw [same]; exact running.covers) listed
      refine later { session with bss := after } ⟨?_, ?_, covers, quiet⟩ ?_
      · rw [changed, same]
        exact ⟨running.truthful.current⟩
      · rw [changed, same]
        exact running.started
      · rw [changed, same]
        change session.bss.pruneIterations - (session.bss.pruneCycles + 1) = cycles
        omega

-- The inner induction: one round of the loop of DoBinarySearch is one step of the plan.
theorem continue_follows (setup : Option (Environment α → Int)) (test : Environment α → Int) (items : List α)
    (only : OnlyItems items (environmentAnswer setup test)) (cycles rounds : Nat) (session : Session α (Environment α))
    (running : Running items session) (several : session.bss.allItems.length > 1)
    (left : session.bss.pruneIterations - session.bss.pruneCycles = cycles + 1)
    (remaining : session.bss.iterations - session.bss.searchCycles = rounds)
    (later : ∀ after : Session α (Environment α), Running items after →
      after.bss.pruneIterations - after.bss.pruneCycles = cycles →
      Follows items (environmentAnswer setup test) after.saves
        (planCycles (plannedAnswer (environmentAnswer setup test)) cycles after.bss.forgetCurrent)
        (searchCycles (environmentScripts setup test) cycles after)) :
    Follows items (environmentAnswer setup test) session.saves
      (planIterations (plannedAnswer (environmentAnswer setup test))
        (planCycles (plannedAnswer (environmentAnswer setup test)) cycles) rounds session.bss.forgetCurrent)
      (continueSearch (environmentScripts setup test) rounds cycles session) := by
  induction rounds generalizing session with
  | zero =>
      rw [planIterations]
      exact finish_unterminated setup test items cycles _ session running
  | succ rounds ih =>
      obtain ⟨answer, named⟩ : ∃ answer, answer = plannedAnswer (environmentAnswer setup test) := ⟨_, rfl⟩
      obtain ⟨ending, planned⟩ : ∃ ending, ending =
        planIterations answer (planCycles answer cycles) (rounds + 1) session.bss.forgetCurrent := ⟨_, rfl⟩
      have resumable : Resumable items (environmentAnswer setup test) ending cycles session.bss :=
        ⟨running.started, several, left, running.covers, by rw [remaining, ← named, planned]⟩
      rw [← named] at ih later ⊢
      rw [← planned]
      have iterated := planned_answer_same items _ only session.bss running.covers session.world
      rw [← named] at iterated
      have forgotten : iterate answer session.bss.forgetCurrent =
        (iterate answer session.bss).map fun result => (result.1.forgetCurrent, result.2) := iterate_forget answer session.bss [] []
      rw [planIterations, forgotten] at planned
      cases step : iterate answer session.bss with
      | error failure =>
          obtain ⟨stopped, failed, saves, sameItems, sameFound, sameLog⟩ :=
            search_iteration_error setup test session failure running.truthful (iterated.trans step)
          have result : continueSearch (environmentScripts setup test) (rounds + 1) cycles session = .error failure stopped := by
            simp only [continueSearch, searchIterations, run_bind, failed]
          rw [step] at planned
          rw [result, planned]
          refine ⟨⟨rfl, sameItems, sameFound, ?_⟩, ?_⟩
          · rw [answerLines, sameLog]
            exact running.quiet
          · intro saved member
            rw [sessionOf, saves] at member
            rcases List.mem_append.mp member with old | here
            · exact .inl old
            · rw [List.mem_singleton.mp here]
              exact .inr ⟨cycles, planned ▸ resumable⟩
      | ok found =>
          obtain ⟨after, terminated⟩ := found
          obtain ⟨searcher, shape⟩ := iterate_ok_shape answer session.bss after terminated step
          obtain ⟨good, other, env, moved, truthful⟩ :=
            search_iteration_ok setup test session after terminated running.truthful (iterated.trans step)
          obtain ⟨next, nextIs⟩ : ∃ next : Session α (Environment α), next = {
            bss := after.withCurrent good other, world := env, saves := session.saves ++ [session.bss]
            log := session.log ++ terminatedLine terminated } := ⟨_, rfl⟩
          have nextRunning : Running items next := by
            rw [nextIs]
            refine ⟨truthful, ?_, ?_, ?_⟩
            · rw [shape]
              exact running.started
            · rw [shape]
              exact running.covers
            · have quiet := running.quiet
              rw [answer_lines_append, quiet]
              cases terminated <;> simp [terminatedLine]
          have nextLeft : next.bss.pruneIterations - next.bss.pruneCycles = cycles + 1 := by
            rw [nextIs, shape]
            exact left
          have nextForgets : after.forgetCurrent = next.bss.forgetCurrent := by rw [nextIs]; rfl
          rw [step] at planned
          have follows : Follows items (environmentAnswer setup test) next.saves ending
              (continueSearch (environmentScripts setup test) (rounds + 1) cycles session) := by
            rw [← nextIs] at moved
            simp only [Except.map] at planned
            cases terminated with
            | true =>
                have result : continueSearch (environmentScripts setup test) (rounds + 1) cycles session =
                    finishCycle (environmentScripts setup test) cycles true next := by
                  simp only [continueSearch, searchIterations, run_bind, moved, if_true, run_pure]
                rw [result, planned, nextForgets]
                exact finish_terminated setup test items cycles _ next nextRunning nextLeft later
            | false =>
                have result : continueSearch (environmentScripts setup test) (rounds + 1) cycles session =
                    continueSearch (environmentScripts setup test) rounds cycles next := by
                  simp only [continueSearch, searchIterations, run_bind, moved, Bool.false_eq_true, if_false]
                rw [result, planned, nextForgets]
                refine ih next nextRunning ?_ nextLeft ?_
                · rw [nextIs, shape]
                  exact several
                · rw [nextIs, shape]
                  change session.bss.iterations - (session.bss.searchCycles + 1) = rounds
                  omega
          refine ⟨follows.refines, ?_⟩
          intro saved member
          rcases follows.saves saved member with before | inside
          · rw [nextIs] at before
            rcases List.mem_append.mp before with old | here
            · exact .inl old
            · rw [List.mem_singleton.mp here]
              exact .inr ⟨cycles, resumable⟩
          · exact .inr inside

theorem search_cycles_follows (setup : Option (Environment α → Int)) (test : Environment α → Int) (items : List α)
    (only : OnlyItems items (environmentAnswer setup test)) (cycles : Nat) (session : Session α (Environment α))
    (running : Running items session) (left : session.bss.pruneIterations - session.bss.pruneCycles = cycles) :
    Follows items (environmentAnswer setup test) session.saves
      (planCycles (plannedAnswer (environmentAnswer setup test)) cycles session.bss.forgetCurrent)
      (searchCycles (environmentScripts setup test) cycles session) := by
  induction cycles generalizing session with
  | zero => exact ⟨⟨rfl, rfl, running.quiet⟩, fun saved member => .inl member⟩
  | succ cycles ih =>
      by_cases several : session.bss.allItems.length > 1
      · obtain ⟨begun, cycle⟩ : ∃ begun : Session α (Environment α),
          begun = { session with bss := session.bss.beginCycle } := ⟨_, rfl⟩
        have reset : session.bss.beginCycle = { session.bss with searchCycles := 0 } := by
          simp [BinarySearchState.beginCycle, running.started]
        have planned : planCycles (plannedAnswer (environmentAnswer setup test)) (cycles + 1) session.bss.forgetCurrent =
            planIterations (plannedAnswer (environmentAnswer setup test))
              (planCycles (plannedAnswer (environmentAnswer setup test)) cycles)
              (begun.bss.iterations - begun.bss.searchCycles) begun.bss.forgetCurrent := by
          have resetForgotten : session.bss.forgetCurrent.beginCycle = begun.bss.forgetCurrent := by
            rw [cycle, reset]
            simp [BinarySearchState.beginCycle, BinarySearchState.forgetCurrent, BinarySearchState.withCurrent, running.started]
          rw [planCycles, if_pos (show session.bss.forgetCurrent.allItems.length > 1 from several), resetForgotten, cycle, reset]
          rfl
        have begunRunning : Running items begun := by
          rw [cycle, reset]
          exact ⟨⟨running.truthful.current⟩, running.started, running.covers, running.quiet⟩
        rw [search_cycles_begin _ cycles session begun several cycle, planned]
        have follows := continue_follows setup test items only cycles _ begun begunRunning
          (by rw [cycle, reset]; exact several) (by rw [cycle, reset]; exact left) rfl
          (fun after afterRunning afterLeft => ih after afterRunning afterLeft)
        rw [cycle] at follows ⊢
        exact follows
      · have done : planCycles (plannedAnswer (environmentAnswer setup test)) (cycles + 1) session.bss.forgetCurrent =
            ⟨none, session.bss.forgetCurrent, []⟩ := by
          rw [planCycles, if_neg (show ¬ session.bss.forgetCurrent.allItems.length > 1 from several)]
        have result : searchCycles (environmentScripts setup test) (cycles + 1) session = .ok () session := by
          simp only [searchCycles, run_bind, run_get_bss, several, if_false, run_pure]
        rw [done, result]
        exact ⟨⟨rfl, rfl, running.quiet⟩, fun saved member => .inl member⟩

theorem resume_follows (setup : Option (Environment α → Int)) (test : Environment α → Int) (items : List α)
    (only : OnlyItems items (environmentAnswer setup test)) (ending : Ending α) (cycles : Nat) (saved : BinarySearchState α)
    (resumable : Resumable items (environmentAnswer setup test) ending cycles saved) (world : Environment α) :
    Follows items (environmentAnswer setup test) [] ending (resume (environmentScripts setup test) saved world) := by
  obtain ⟨begun, cycle⟩ : ∃ begun : Session α (Environment α),
    begun = { bss := saved.forgetCurrent, world := world, saves := [], log := [] } := ⟨_, rfl⟩
  have begins : begun = { bss := (loadState saved).beginCycle, world := world, saves := [], log := [] } := by
    rw [cycle]
    simp [loadState, BinarySearchState.beginCycle, BinarySearchState.forgetCurrent, BinarySearchState.withCurrent,
      resumable.started]
  have result : resume (environmentScripts setup test) saved world =
      continueSearch (environmentScripts setup test) (saved.iterations - saved.searchCycles) cycles begun := by
    have left : (loadState saved).pruneIterations - (loadState saved).pruneCycles = cycles + 1 := resumable.left
    simp only [resume, doSearch, run_bind, run_get_bss, left]
    refine (search_cycles_begin _ cycles _ begun resumable.several begins).trans ?_
    rw [cycle]
    rfl
  have running : Running items begun := by
    rw [cycle]
    refine ⟨⟨?_⟩, resumable.started, resumable.covers, rfl⟩
    intro bad item member
    cases bad <;> simp [BinarySearchState.current, BinarySearchState.forgetCurrent, BinarySearchState.withCurrent] at member
  rw [result, ← resumable.planned]
  have follows := continue_follows setup test items only cycles _ begun running
    (by rw [cycle]; exact resumable.several) (by rw [cycle]; exact resumable.left) rfl
    (fun after afterRunning afterLeft => search_cycles_follows setup test items only cycles after afterRunning afterLeft)
  rw [cycle] at follows ⊢
  exact follows

-- A state that SaveState stored in a search, or in a search that was itself resumed
-- from such a state, in whatever environment.
inductive SavedDuring {σ : Type} (scripts : Scripts α σ) (start : Session α σ) : BinarySearchState α → Prop where
  | first (saved : BinarySearchState α) (member : saved ∈ (sessionOf (run scripts start)).saves) :
      SavedDuring scripts start saved
  | again (earlier saved : BinarySearchState α) (world : σ) (interrupted : SavedDuring scripts start earlier)
      (member : saved ∈ (sessionOf (resume scripts earlier world)).saves) : SavedDuring scripts start saved

-- The same final state up to what is currently switched (so the same found_items,
-- all_items and cycle counts) and the same lines of the answer, or the same exception.
def SameOutcome {σ : Type} : EStateM.Result SearchFailure (Session α σ) Unit → EStateM.Result SearchFailure (Session α σ) Unit → Prop
  | .ok _ first, .ok _ second =>
      first.bss.forgetCurrent = second.bss.forgetCurrent ∧ answerLines first = answerLines second
  | .error failure first, .error other second =>
      failure = other ∧ first.bss.allItems = second.bss.allItems ∧ first.bss.foundItems = second.bss.foundItems ∧
        answerLines first = answerLines second
  | _, _ => False

theorem refines_same {σ : Type} (ending : Ending α) (first second : EStateM.Result SearchFailure (Session α σ) Unit)
    (one : Refines ending first) (two : Refines ending second) : SameOutcome first second := by
  cases first with
  | ok _ final =>
      obtain ⟨success, state, lines⟩ := one
      cases second with
      | ok _ other => exact ⟨state.trans two.2.1.symm, lines.trans two.2.2.symm⟩
      | error failure stopped => simp [two.1] at success
  | error failure stopped =>
      obtain ⟨failed, items, found, lines⟩ := one
      cases second with
      | ok _ other => simp [two.1] at failed
      | error other last =>
          obtain ⟨alsoFailed, otherItems, otherFound, otherLines⟩ := two
          exact ⟨Option.some.inj (failed.symm.trans alsoFailed), items.trans otherItems.symm, found.trans otherFound.symm,
            lines.trans otherLines.symm⟩

theorem saved_during_resumable (setup : Option (Environment α → Int)) (test : Environment α → Int) (items : List α)
    (only : OnlyItems items (environmentAnswer setup test)) (ending : Ending α) (start : Session α (Environment α))
    (follows : Follows items (environmentAnswer setup test) [] ending (run (environmentScripts setup test) start))
    (saved : BinarySearchState α) (stored : SavedDuring (environmentScripts setup test) start saved) :
    ∃ cycles, Resumable items (environmentAnswer setup test) ending cycles saved := by
  induction stored with
  | first saved member => exact (follows.saves saved member).resolve_left List.not_mem_nil
  | again earlier saved world interrupted member ih =>
      obtain ⟨cycles, resumable⟩ := ih
      have again := resume_follows setup test items only ending cycles earlier resumable world
      exact (again.saves saved member).resolve_left List.not_mem_nil

omit [DecidableEq α] in
theorem new_state_items (options : Options) (items : List α) (start : BinarySearchState α)
    (created : newState options items = .ok start) : items.length > 0 := by
  obtain ⟨searcher, accepted, _⟩ := except_bind_ok _ _ _ created
  by_contra empty
  simp [BinarySearcher.setSortedList, empty] at accepted

theorem resumed_search_same_outcome (setup : Option (Environment α → Int)) (test : Environment α → Int) (options : Options)
    (items : List α) (start saved : BinarySearchState α) (world later : Environment α)
    (only : OnlyItems items (environmentAnswer setup test)) (created : newState options items = .ok start)
    (stored : SavedDuring (environmentScripts setup test) { bss := start, world := world, saves := [], log := [] } saved) :
    SameOutcome (run (environmentScripts setup test) { bss := start, world := world, saves := [], log := [] })
      (resume (environmentScripts setup test) saved later) := by
  obtain ⟨same, created', fresh⟩ := new_state_ok options items (new_state_items options items start created)
  obtain rfl : start = same := Except.ok.inj (created.symm.trans created')
  obtain ⟨begun, beginning⟩ : ∃ begun : Session α (Environment α),
    begun = { bss := start, world := world, saves := [], log := [] } := ⟨_, rfl⟩
  rw [← beginning] at stored ⊢
  have truthful : Truthful begun.bss begun.world := by
    rw [beginning, fresh]
    exact ⟨by intro bad; cases bad <;> simp [BinarySearchState.current]⟩
  rcases do_verify_cases setup test begun truthful with ⟨good, other, env, verified, truth⟩ | ⟨failure, stopped, failed, saves⟩
  · obtain ⟨searching, searchingIs⟩ : ∃ searching : Session α (Environment α),
      searching = { begun with bss := begun.bss.withCurrent good other, world := env } := ⟨_, rfl⟩
    have result : run (environmentScripts setup test) begun =
        searchCycles (environmentScripts setup test) (searching.bss.pruneIterations - searching.bss.pruneCycles) searching := by
      rw [run, run_bind, verified, ← searchingIs]
      rfl
    have running : Running items searching := by
      rw [searchingIs, beginning, fresh]
      rw [beginning, fresh] at truth
      exact ⟨truth, rfl, fun item member => .inl member, rfl⟩
    have follows := search_cycles_follows setup test items only _ searching running rfl
    rw [← result] at follows
    have noSaves : searching.saves = [] := by rw [searchingIs, beginning]
    rw [noSaves] at follows
    obtain ⟨cycles, resumable⟩ := saved_during_resumable setup test items only _ begun follows saved stored
    exact refines_same _ _ _ follows.refines (resume_follows setup test items only _ cycles saved resumable later).refines
  · have result : run (environmentScripts setup test) begun = .error failure stopped := by
      rw [run, run_bind, failed]
    have nothing : False := by
      induction stored with
      | first saved member =>
          rw [result, sessionOf, saves, beginning] at member
          exact List.not_mem_nil member
      | again earlier saved world interrupted member ih => exact ih
    exact nothing.elim

def firstItemBad (env : Environment Nat) : Int := if env 0 then 1 else 0

theorem resumed_search_of_two_items : ∃ start saved, newState ⟨true, true, 3, 4, true⟩ [0, 1] = .ok start ∧
    SavedDuring (environmentScripts none firstItemBad) { bss := start, world := fun _ => false, saves := [], log := [] } saved ∧
    SameOutcome (run (environmentScripts none firstItemBad) { bss := start, world := fun _ => false, saves := [], log := [] })
      (resume (environmentScripts none firstItemBad) saved fun _ => true) := by
  obtain ⟨start, created, fresh⟩ := new_state_ok ⟨true, true, 3, 4, true⟩ [0, 1] (by decide)
  have stored : ∃ saved, saved ∈ (sessionOf (run (environmentScripts none firstItemBad)
      { bss := start, world := fun _ => false, saves := [], log := [] })).saves := by
    apply List.exists_mem_of_ne_nil
    rw [fresh]
    decide +kernel
  obtain ⟨saved, member⟩ := stored
  refine ⟨start, saved, created, .first saved member, ?_⟩
  refine resumed_search_same_outcome none firstItemBad ⟨true, true, 3, 4, true⟩ [0, 1] start saved _ _ ?_ created (.first saved member)
  intro env other agree
  simp [environmentAnswer, firstItemBad, agree 0 (by decide)]

end ToolchainUtils.BinarySearchTool
