import ToolchainUtils.BinarySearchTool.SearchLoop
import ToolchainUtils.BinarySearchTool.SearchSteps

set_option autoImplicit false

namespace ToolchainUtils.BinarySearchTool

open Transition BinarySearcher

variable {α σ : Type}

-- A test of this cycle whose bad items are the prefix that ends at this index.
structure TestedPrefix (allItems : List α) (index : Nat) (answer : Int) (test : TestRecord α σ) : Prop where
  border : test.border = index
  answered : test.status = answer
  pfx : test.files.badSet <+: allItems
  last : test.files.badSet.getLast? = allItems[index]?

structure Established (record : FoundRecord α σ) : Prop where
  bad : record.index = record.allItems.length - 1 ∨ ∃ test ∈ record.tests, TestedPrefix record.allItems record.index 1 test
  goodBelow : 0 < record.index → ∃ test ∈ record.tests, TestedPrefix record.allItems (record.index - 1) 0 test

-- How the tests of a cycle and the searcher's interval hang together.
structure Answered (allItems : List α) (searcher : BinarySearcher α) (tests : List (TestRecord α σ)) : Prop where
  prefixes : ∀ test ∈ tests, test.files.badSet <+: allItems ∧ test.files.badSet.getLast? = allItems[test.border]?
  settled : ∀ test ∈ tests, (test.status = 0 ∧ test.border < searcher.lo) ∨ (test.status = 1 ∧ searcher.hi ≤ test.border) ∨
    (test.status = 125 ∧ test.border ∈ searcher.skippedIndices)
  low : searcher.lo = 0 ∨ ∃ test ∈ tests, test.status = 0 ∧ test.border + 1 = searcher.lo
  high : searcher.hi = allItems.length - 1 ∨ ∃ test ∈ tests, test.status = 1 ∧ test.border = searcher.hi

structure InCycle (allItems : List α) (searcher : BinarySearcher α) (tests : List (TestRecord α σ)) : Prop where
  bisecting : searcher.Bisecting allItems
  answered : Answered allItems searcher tests

-- GetNext placed the searcher for a test with these sets.
structure Placed (allItems : List α) (searcher : BinarySearcher α) (tests : List (TestRecord α σ)) (files : SetFiles α) : Prop where
  cycle : InCycle allItems searcher tests
  untested : searcher.Untested searcher.current
  pfx : files.badSet <+: allItems
  last : files.badSet.getLast? = allItems[searcher.current]?

-- The two exits of SetStatus: lo equals hi, or everything that is left was skipped.
def Closed (searcher : BinarySearcher α) : Prop :=
  (searcher.lo = searcher.hi ∧ searcher.current = searcher.lo) ∨
    (searcher.lo ≤ searcher.current ∧ searcher.current < searcher.hi ∧ searcher.current ∈ searcher.skippedIndices)

def AtSearchPoint (allItems : List α) (searcher : BinarySearcher α) (tests : List (TestRecord α σ)) : SearchPoint α → Prop
  | .cycling => InCycle allItems searcher tests ∧ searcher.Undecided
  | .switchingToGood files => Placed allItems searcher tests files
  | .switchingToBad files => Placed allItems searcher tests files
  | .testing files => Placed allItems searcher tests files
  | .cycleEnded true => InCycle allItems searcher tests ∧ Closed searcher
  | .cycleEnded false => True
  | .returned => True
  | .raised _ => True
  | _ => InCycle allItems searcher tests ∧ (allItems.length > 1 → searcher.Undecided)

structure FoundKept (run : SearchRun α σ) : Prop where
  point : AtSearchPoint run.session.bss.allItems run.session.bss.binarySearch run.tests run.point
  saved : ∀ saved, run.session.saves.getLast? = some saved →
    InCycle saved.allItems saved.binarySearch run.savedTests ∧ saved.binarySearch.Undecided
  found : ∀ record ∈ run.found, Established record

theorem answered_record (allItems : List α) (searcher : BinarySearcher α) (tests : List (TestRecord α σ)) (files : SetFiles α)
    (world : σ) (status : Int) (answered : Answered allItems searcher tests) (untested : searcher.Untested searcher.current)
    (isPrefix : files.badSet <+: allItems) (last : files.badSet.getLast? = allItems[searcher.current]?)
    (allowed : status = 0 ∨ status = 1 ∨ status = 125) :
    Answered allItems (searcher.recordStatus status) (tests ++ [⟨searcher.current, files, world, status⟩]) := by
  have low := untested.low
  have high := untested.high
  have prefixes : ∀ test ∈ tests ++ [(⟨searcher.current, files, world, status⟩ : TestRecord α σ)],
      test.files.badSet <+: allItems ∧ test.files.badSet.getLast? = allItems[test.border]? := by
    intro test member
    rcases List.mem_append.mp member with old | new
    · exact answered.prefixes test old
    · exact List.mem_singleton.mp new ▸ ⟨isPrefix, last⟩
  have settled : ∀ test ∈ tests ++ [(⟨searcher.current, files, world, status⟩ : TestRecord α σ)],
      (test.status = status ∧ test.border = searcher.current) ∨ (test.status = 0 ∧ test.border < searcher.lo) ∨
        (test.status = 1 ∧ searcher.hi ≤ test.border) ∨ (test.status = 125 ∧ test.border ∈ searcher.skippedIndices) := by
    intro test member
    rcases List.mem_append.mp member with old | new
    · exact .inr (answered.settled test old)
    · exact .inl (List.mem_singleton.mp new ▸ ⟨rfl, rfl⟩)
  have before : ∀ good : TestRecord α σ → Prop, (∃ test ∈ tests, good test) →
      ∃ test ∈ tests ++ [(⟨searcher.current, files, world, status⟩ : TestRecord α σ)], good test :=
    fun good ⟨test, member, holds⟩ => ⟨test, List.mem_append_left _ member, holds⟩
  have newest : (⟨searcher.current, files, world, status⟩ : TestRecord α σ) ∈ tests ++ [⟨searcher.current, files, world, status⟩] := by
    simp
  rcases allowed with rfl | rfl | rfl
  · rw [record_good]
    refine ⟨prefixes, ?_, .inr ⟨_, newest, rfl, rfl⟩, ?_⟩
    · intro test member
      rcases settled test member with here | under | past | skipped
      · exact .inl ⟨here.1, by simp only; omega⟩
      · exact .inl ⟨under.1, by simp only; omega⟩
      · exact .inr (.inl past)
      · exact .inr (.inr skipped)
    · exact answered.high.imp_right (before _)
  · rw [record_bad]
    refine ⟨prefixes, ?_, ?_, .inr ⟨_, newest, rfl, rfl⟩⟩
    · intro test member
      rcases settled test member with here | under | past | skipped
      · exact .inr (.inl ⟨here.1, by simp only; omega⟩)
      · exact .inl under
      · exact .inr (.inl ⟨past.1, by simp only; omega⟩)
      · exact .inr (.inr skipped)
    · exact answered.low.imp_right (before _)
  · rw [record_skipped]
    refine ⟨prefixes, ?_, ?_, ?_⟩
    · intro test member
      rcases settled test member with here | under | past | skipped
      · exact .inr (.inr ⟨here.1, List.mem_append_right _ (List.mem_singleton.mpr here.2)⟩)
      · exact .inl under
      · exact .inr (.inl past)
      · exact .inr (.inr ⟨skipped.1, List.mem_append_left _ skipped.2⟩)
    · exact answered.low.imp_right (before _)
    · exact answered.high.imp_right (before _)

theorem closed_record (searcher : BinarySearcher α) (status : Int) (untested : searcher.Untested searcher.current)
    (allowed : status = 0 ∨ status = 1 ∨ status = 125) (ordered : (searcher.recordStatus status).lo ≤ (searcher.recordStatus status).hi)
    (past : ¬ (searcher.recordStatus status).Undecided) : Closed (searcher.recordStatus status) := by
  have left : ∀ index, (searcher.recordStatus status).lo ≤ index → index < (searcher.recordStatus status).hi →
      index ∈ (searcher.recordStatus status).skippedIndices := by
    intro index low high
    by_contra unskipped
    exact past ⟨index, low, high, unskipped⟩
  rcases allowed with rfl | rfl | rfl
  · rw [record_good] at ordered left ⊢
    by_cases met : searcher.current + 1 = searcher.hi
    · exact .inl ⟨met, by simp only; omega⟩
    · simp only at ordered
      exact .inr ⟨by simp only; omega, by simp only; omega, left _ (by simp only; omega) (by simp only; omega)⟩
  · rw [record_bad] at ordered left ⊢
    by_cases met : searcher.lo = searcher.current
    · exact .inl ⟨met, by simp only; omega⟩
    · simp only at ordered
      exact .inr ⟨by simp only; omega, by simp only; omega, left _ (by simp only; omega) (by simp only; omega)⟩
  · rw [record_skipped]
    exact .inr ⟨untested.low, untested.high, by simp⟩

theorem set_status_allowed (searcher after : BinarySearcher α) (status : Int) (terminated : Bool)
    (taken : searcher.setStatus status = .ok (after, terminated)) : status = 0 ∨ status = 1 ∨ status = 125 := by
  by_contra refused
  cases revised : searcher.revision with
  | error failure => simp [setStatus, revised, bind, Except.bind] at taken
  | ok item => simp [setStatus, revised, refused, bind, Except.bind, throw, throwThe, MonadExceptOf.throw] at taken

-- The test of an index that GetNext placed keeps the cycle, or ends it.
theorem placed_answered (allItems : List α) (searcher : BinarySearcher α) (tests : List (TestRecord α σ)) (files : SetFiles α)
    (world : σ) (status : Int) (placed : Placed allItems searcher tests files) (after : BinarySearcher α) (terminated : Bool)
    (taken : searcher.setStatus status = .ok (after, terminated)) :
    AtSearchPoint allItems after (tests ++ [⟨searcher.current, files, world, status⟩])
      (if terminated then .cycleEnded true else .cycling) := by
  have allowed := set_status_allowed _ _ _ _ taken
  obtain ⟨done, result, past⟩ := set_status_untested allItems searcher placed.cycle.bisecting placed.untested status allowed
  obtain ⟨rfl, rfl⟩ := Prod.mk.inj (Except.ok.inj (taken.symm.trans result))
  have recorded := (record_status_bisecting allItems searcher placed.cycle.bisecting placed.untested status allowed).1
  have cycle : InCycle allItems (searcher.recordStatus status) (tests ++ [⟨searcher.current, files, world, status⟩]) :=
    ⟨recorded, answered_record allItems searcher tests files world status placed.cycle.answered placed.untested
      placed.pfx placed.last allowed⟩
  cases terminated with
  | true => exact ⟨cycle, closed_record searcher status placed.untested allowed recorded.ordered (past.mp rfl)⟩
  | false => exact ⟨cycle, by simpa using past⟩

theorem fresh_in_cycle (allItems : List α) (nonempty : 0 < allItems.length) :
    InCycle allItems { (BinarySearcher.init : BinarySearcher α) with sortedList := allItems, hi := allItems.length - 1 }
      ([] : List (TestRecord α σ)) :=
  ⟨fresh_bisecting allItems nonempty, by simp, by simp, .inl rfl, .inl rfl⟩

variable [DecidableEq α]

omit [DecidableEq α] in
-- The exit on which an item is added decides whether the tests bear it out.
theorem found_established_iff (run : SearchRun α σ) (item : α) (adds : Adds run.session.bss item)
    (cycle : InCycle run.session.bss.allItems run.session.bss.binarySearch run.tests) (closed : Closed run.session.bss.binarySearch) :
    Established (foundRecord run item) ↔ run.session.bss.binarySearch.lo = run.session.bss.binarySearch.hi := by
  have answered := cycle.answered
  constructor
  · intro established
    by_contra apart
    rcases closed with met | ⟨_, high, _⟩
    · exact apart met.1
    · rcases established.bad with last | ⟨test, member, tested⟩
      · exact adds.inner last
      · have border : test.border = run.session.bss.binarySearch.current := tested.border
        have status := tested.answered
        rcases answered.settled test member with under | past | skipped <;> omega
  · intro met
    have current : run.session.bss.binarySearch.current = run.session.bss.binarySearch.lo := by
      rcases closed with both | ⟨low, high, _⟩
      · exact both.2
      · omega
    constructor
    · rcases answered.high with last | ⟨test, member, status, border⟩
      · exact .inl (by simp only [foundRecord]; omega)
      · have here : test.border = run.session.bss.binarySearch.current := by omega
        obtain ⟨isPrefix, ended⟩ := answered.prefixes test member
        rw [here] at ended
        exact .inr ⟨test, member, here, status, isPrefix, ended⟩
    · intro positive
      change 0 < run.session.bss.binarySearch.current at positive
      rcases answered.low with first | ⟨test, member, status, border⟩
      · omega
      · have before : test.border = run.session.bss.binarySearch.current - 1 := by omega
        obtain ⟨isPrefix, ended⟩ := answered.prefixes test member
        rw [before] at ended
        exact ⟨test, member, before, status, isPrefix, ended⟩

-- An item is only added when the interval of the cycle is closed, not when what is
-- left of it was skipped.
def AddsDecided (run : SearchRun α σ) : SearchAction σ → Prop
  | .go => run.point = .cycleEnded true → (∃ item, Adds run.session.bss item) →
      run.session.bss.binarySearch.lo = run.session.bss.binarySearch.hi
  | .resume _ => True

omit [DecidableEq α] in
-- A step that saves nothing and finds nothing only has to keep what holds at its point.
theorem found_kept_quiet (run next : SearchRun α σ) (kept : FoundKept run)
    (point : AtSearchPoint next.session.bss.allItems next.session.bss.binarySearch next.tests next.point)
    (saves : next.session.saves = run.session.saves) (savedTests : next.savedTests = run.savedTests)
    (found : next.found = run.found) : FoundKept next := by
  refine ⟨point, ?_, found ▸ kept.found⟩
  rw [saves, savedTests]
  exact kept.saved

theorem found_kept_switch (run : SearchRun α σ) (script : List α → σ → Int × σ) (bad : Bool) (items : List α)
    (point : SearchPoint α) (kept : FoundKept run)
    (still : AtSearchPoint run.session.bss.allItems run.session.bss.binarySearch run.tests point) :
    FoundKept (run.after (switchItems script bad items) fun _ next => next.moveTo point) := by
  rcases switch_items_cases script bad items run.session with ⟨good, other, world, ran⟩ | ⟨failure, world, ran⟩
  · rw [after_ok run _ _ () _ ran]
    exact found_kept_quiet run _ kept still rfl rfl rfl
  · rw [after_error run _ _ failure _ ran]
    exact found_kept_quiet run _ kept trivial rfl rfl rfl

theorem item_index_listed (allItems : List α) (item : α) (index : Nat) (found : itemIndex allItems item = .ok index) :
    allItems[index]? = some item := by
  cases position : allItems.idxOf? item with
  | none => simp [itemIndex, position] at found
  | some first =>
      obtain rfl : first = index := by simpa [itemIndex, position] using found
      obtain ⟨within, same, _⟩ := List.findIdx?_eq_some_iff_getElem.mp position
      exact List.getElem?_eq_some_iff.mpr ⟨within, beq_iff_eq.mp same⟩

omit [DecidableEq α] in
theorem take_last (allItems : List α) (index : Nat) (item : α) (listed : allItems[index]? = some item) :
    (allItems.take (index + 1)).getLast? = some item := by
  rw [List.take_add_one, listed]
  simp

-- all_items.index may name an earlier place of the item, but never another item.
theorem next_test_placed (bss : BinarySearchState α) (tests : List (TestRecord α σ)) (searcher : BinarySearcher α)
    (files : SetFiles α) (cycle : InCycle bss.allItems bss.binarySearch tests) (undecided : bss.binarySearch.Undecided)
    (next : nextTest bss = .ok (searcher, files)) : Placed bss.allItems searcher tests files := by
  obtain ⟨moved, placed, rest⟩ := except_bind_ok _ _ _ next
  obtain ⟨position, indexed, same⟩ := except_bind_ok _ _ _ rest
  cases same
  obtain ⟨index, item, result, untested, listed⟩ := get_next_untested bss.allItems bss.binarySearch cycle.bisecting undecided
  obtain rfl := Except.ok.inj (placed.symm.trans result)
  have bisecting := cycle.bisecting
  have answered := cycle.answered
  refine ⟨⟨?_, ?_⟩, ?_, List.take_prefix _ _, ?_⟩
  · exact ⟨bisecting.listed, bisecting.ordered, bisecting.bounded, bisecting.distinct, bisecting.inner, bisecting.settled⟩
  · exact ⟨answered.prefixes, answered.settled, answered.low, answered.high⟩
  · exact ⟨untested.low, untested.high, untested.unskipped, untested.fresh⟩
  · rw [take_last bss.allItems position item (item_index_listed bss.allItems item position indexed)]
    exact listed.symm

theorem found_kept_begin (run : SearchRun α σ) (kept : FoundKept run)
    (cycle : InCycle run.session.bss.allItems run.session.bss.binarySearch run.tests) (undecided : run.session.bss.binarySearch.Undecided) :
    FoundKept (({ run with savedTests := run.tests } : SearchRun α σ).after beginIteration
      fun files next => next.moveTo (.switchingToGood files)) := by
  have saved : ∀ saved, (run.session.saves ++ [run.session.bss]).getLast? = some saved →
      InCycle saved.allItems saved.binarySearch run.tests ∧ saved.binarySearch.Undecided := by
    intro saved last
    rw [List.getLast?_concat] at last
    exact Option.some.inj last ▸ ⟨cycle, undecided⟩
  rcases begin_iteration_cases run.session with ⟨searcher, files, next, ran⟩ | ⟨failure, searcher, ran⟩
  · rw [after_ok ({ run with savedTests := run.tests } : SearchRun α σ) _ _ files _ ran]
    exact ⟨next_test_placed run.session.bss run.tests searcher files cycle undecided next, saved, kept.found⟩
  · rw [after_error ({ run with savedTests := run.tests } : SearchRun α σ) _ _ failure _ ran]
    exact ⟨trivial, saved, kept.found⟩

omit [DecidableEq α] in
theorem found_kept_answer (scripts : Scripts α σ) (run : SearchRun α σ) (files : SetFiles α) (kept : FoundKept run)
    (placed : Placed run.session.bss.allItems run.session.bss.binarySearch run.tests files) :
    FoundKept (run.after (answerTest scripts files) fun answer next =>
      (run.recordTest next files answer.1).moveTo (if answer.2 then .cycleEnded true else .cycling)) := by
  rcases answer_test_cases scripts files _ (tests_keep_true scripts files) run.session trivial with
    ⟨status, world, _, ⟨searcher, terminated, taken, ran⟩ | ⟨failure, ran⟩⟩
  · rw [after_ok run _ _ (status, terminated) _ ran]
    exact found_kept_quiet run _ kept (placed_answered _ _ _ files run.session.world status placed searcher terminated taken) rfl rfl rfl
  · rw [after_error run _ _ failure _ ran]
    exact found_kept_quiet run _ kept trivial rfl rfl rfl

theorem found_kept_leave (scripts : Scripts α σ) (run : SearchRun α σ) (terminated : Bool)
    (point : run.point = .cycleEnded terminated) (kept : FoundKept run) (decided : AddsDecided run .go) :
    FoundKept (run.go scripts) := by
  by_cases adding : terminated = true ∧ ∃ item, Adds run.session.bss item
  · obtain ⟨rfl, item, adds⟩ := adding
    have here := kept.point
    rw [point] at here
    have established := (found_established_iff run item adds here.1 here.2).mpr (decided point ⟨item, adds⟩)
    have found : ∀ record ∈ run.found ++ [foundRecord run item], Established record := by
      intro record member
      rcases List.mem_append.mp member with old | new
      · exact kept.found record old
      · exact List.mem_singleton.mp new ▸ established
    rcases cycle_ended_found scripts run item point adds with ⟨log, next⟩ | ⟨log, next⟩
    · rw [next]
      have nonempty := rotate_items_nonempty run.session.bss item adds
      exact ⟨⟨fresh_in_cycle _ nonempty, fresh_undecided _⟩, kept.saved, found⟩
    · rw [next]
      exact ⟨trivial, kept.saved, found⟩
  · obtain ⟨last, log, ended, next⟩ := cycle_ended_unfound scripts run terminated point
      fun isTerminated added => adding ⟨isTerminated, added⟩
    rw [next]
    refine found_kept_quiet run _ kept ?_ rfl rfl rfl
    cases last <;> simp_all [SearchPoint.ended, AtSearchPoint]

theorem found_kept_go (scripts : Scripts α σ) (run : SearchRun α σ) (kept : FoundKept run) (decided : AddsDecided run .go) :
    FoundKept (run.go scripts) := by
  have here := kept.point
  cases point : run.point with
  | verifying =>
      rw [point] at here
      by_cases verify : run.session.bss.verify = true
      · rw [go_verifying scripts run point verify]
        exact found_kept_switch run _ _ _ _ kept here
      · rw [go_unverified scripts run point verify]
        exact found_kept_quiet run _ kept here rfl rfl rfl
  | resetToGood files =>
      rw [point] at here
      rw [go_reset_to_good scripts run files point]
      obtain ⟨world, _, ran | ⟨failure, ran⟩⟩ :=
        check_good_set_cases scripts files _ (tests_keep_true scripts files) run.session trivial
      · rw [after_ok run _ _ () _ ran]
        exact found_kept_quiet run _ kept here rfl rfl rfl
      · rw [after_error run _ _ failure _ ran]
        exact found_kept_quiet run _ kept trivial rfl rfl rfl
  | goodVerified =>
      rw [point] at here
      rw [go_good_verified scripts run point]
      exact found_kept_switch run _ _ _ _ kept here
  | resetToBad files =>
      rw [point] at here
      rw [go_reset_to_bad scripts run files point]
      obtain ⟨world, _, ran | ⟨failure, ran⟩⟩ :=
        check_bad_set_cases scripts files _ (tests_keep_true scripts files) run.session trivial
      · rw [after_ok run _ _ () _ ran]
        exact found_kept_quiet run _ kept here rfl rfl rfl
      · rw [after_error run _ _ failure _ ran]
        exact found_kept_quiet run _ kept trivial rfl rfl rfl
  | searching =>
      rw [point] at here
      by_cases more : run.session.bss.allItems.length > 1 ∧ run.session.bss.pruneCycles < run.session.bss.pruneIterations
      · rw [go_searching scripts run point more]
        have items := begin_cycle_keeps BinarySearchState.allItems (fun _ _ _ => rfl) run.session.bss
        have search := begin_cycle_keeps BinarySearchState.binarySearch (fun _ _ _ => rfl) run.session.bss
        refine found_kept_quiet run _ kept ?_ rfl rfl rfl
        change AtSearchPoint run.session.bss.beginCycle.allItems run.session.bss.beginCycle.binarySearch run.tests .cycling
        rw [items, search]
        exact ⟨here.1, here.2 more.1⟩
      · rw [go_search_over scripts run point more]
        exact found_kept_quiet run _ kept trivial rfl rfl rfl
  | cycling =>
      rw [point] at here
      by_cases more : run.session.bss.searchCycles < run.session.bss.iterations
      · rw [go_cycling scripts run point more]
        exact found_kept_begin run kept here.1 here.2
      · rw [go_cycle_over scripts run point more]
        exact found_kept_quiet run _ kept trivial rfl rfl rfl
  | switchingToGood files =>
      rw [point] at here
      rw [go_switching_to_good scripts run files point]
      exact found_kept_switch run _ _ _ _ kept here
  | switchingToBad files =>
      rw [point] at here
      rw [go_switching_to_bad scripts run files point]
      exact found_kept_switch run _ _ _ _ kept here
  | testing files =>
      rw [point] at here
      rw [go_testing scripts run files point]
      exact found_kept_answer scripts run files kept here
  | cycleEnded terminated => exact found_kept_leave scripts run terminated point kept decided
  | returned =>
      have stays : run.go scripts = run := by simp only [SearchRun.go, point]
      exact stays.symm ▸ kept
  | raised failure =>
      have stays : run.go scripts = run := by simp only [SearchRun.go, point]
      exact stays.symm ▸ kept

theorem found_kept_step (scripts : Scripts α σ) (run : SearchRun α σ) (action : SearchAction σ) (next : SearchRun α σ)
    (kept : FoundKept run) (decided : AddsDecided run action) (taken : searchStep scripts run action = some next) :
    FoundKept next := by
  cases action with
  | go =>
      obtain ⟨_, rfl⟩ := go_taken scripts run next taken
      exact found_kept_go scripts run kept decided
  | resume world =>
      obtain ⟨saved, last, rfl⟩ := resume_taken scripts run next world taken
      obtain ⟨cycle, undecided⟩ := kept.saved saved last
      exact ⟨⟨cycle, fun _ => undecided⟩, kept.saved, kept.found⟩

theorem adds_decided_of_good (scripts : Scripts α σ) (run : SearchRun α σ) (action : SearchAction σ) (next : SearchRun α σ)
    (kept : FoundKept run) (taken : searchStep scripts run action = some next)
    (good : ∀ record ∈ next.found, Established record) : AddsDecided run action := by
  cases action with
  | resume world => trivial
  | go =>
      rintro point ⟨item, adds⟩
      obtain ⟨_, rfl⟩ := go_taken scripts run next taken
      have here := kept.point
      rw [point] at here
      apply (found_established_iff run item adds here.1 here.2).mp
      apply good
      rcases cycle_ended_found scripts run item point adds with ⟨log, next⟩ | ⟨log, next⟩
      · rw [next]
        exact List.mem_append_right _ List.mem_cons_self
      · rw [next]
        exact List.mem_append_right _ List.mem_cons_self

theorem found_items_established_iff (scripts : Scripts α σ) (options : Options) (items : List α) (start : BinarySearchState α)
    (world : σ) (actions : List (SearchAction σ)) (final : SearchRun α σ) (created : newState options items = .ok start)
    (ran : exec (searchStep scripts) (beginSearch start world) actions = some final) :
    Throughout (searchStep scripts) (fun run => ∀ record ∈ run.found, Established record) (beginSearch start world) actions ↔
      Along (searchStep scripts) AddsDecided (beginSearch start world) actions := by
  have nonempty := new_state_items options items start created
  obtain ⟨same, created', fresh⟩ := new_state_ok options items nonempty
  obtain rfl : start = same := Except.ok.inj (created.symm.trans created')
  have initial : FoundKept (beginSearch start world) := by
    rw [fresh]
    exact ⟨⟨fresh_in_cycle items nonempty, fresh_undecided items⟩, by simp [beginSearch], by simp [beginSearch]⟩
  exact throughout_iff_along (searchStep scripts) AddsDecided FoundKept _ (found_kept_step scripts) (fun run kept => kept.found)
    (adds_decided_of_good scripts) actions (beginSearch start world) final initial ran

-- Scripts that always succeed and tests that return the world's answers in turn.
def answeringScripts : Scripts α (List Int) where
  switchToGood _ _ answers := (0, answers)
  switchToBad _ _ answers := (0, answers)
  testSetupScript := none
  testScript _ answers := (answers.headD 0, answers.tail)

theorem found_item_of_two_established : ∃ start final, newState ⟨true, false, 5, 5, false⟩ [0, 1] = .ok start ∧
    exec (searchStep answeringScripts) (beginSearch start [1]) (List.replicate 7 .go) = some final ∧
    (Throughout (searchStep answeringScripts) (fun run => ∀ record ∈ run.found, Established record) (beginSearch start [1])
      (List.replicate 7 .go) ↔ Along (searchStep answeringScripts) AddsDecided (beginSearch start [1]) (List.replicate 7 .go)) :=
  ⟨_, _, rfl, rfl, found_items_established_iff answeringScripts ⟨true, false, 5, 5, false⟩ [0, 1] _ [1] (List.replicate 7 .go) _ rfl rfl⟩

-- Three items, every test is skipped: the first one is reported all the same.
theorem skipped_item_is_found : ∃ start final, newState ⟨true, false, 5, 5, false⟩ [0, 1, 2] = .ok start ∧
    exec (searchStep answeringScripts) (beginSearch start [125, 125]) (List.replicate 11 .go) = some final ∧
    final.session.bss.foundItems = [0] ∧
    ∃ record ∈ final.found, record.item = 0 ∧ (∀ test ∈ record.tests, test.status = 125) ∧ ¬ Established record := by
  let record : FoundRecord Nat (List Int) :=
    ⟨[0, 1, 2], 0, 0, [⟨1, ⟨[2], [0, 1]⟩, [125, 125], 125⟩, ⟨0, ⟨[1, 2], [0]⟩, [125], 125⟩]⟩
  have skipped : ∀ test ∈ record.tests, test.status = 125 := by decide
  refine ⟨_, _, rfl, rfl, rfl, record, List.mem_cons_self, rfl, skipped, ?_⟩
  intro established
  rcases established.bad with last | ⟨test, member, tested⟩
  · exact absurd last (by decide)
  · exact absurd (tested.answered.symm.trans (skipped test member)) (by decide)

end ToolchainUtils.BinarySearchTool
