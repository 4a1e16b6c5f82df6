import ToolchainUtils.BinarySearchTool.State

set_option autoImplicit false

namespace ToolchainUtils.BinarySearchTool

variable {α : Type} [DecidableEq α]

-- Which items are currently switched to bad.
abbrev Environment (α : Type) := α → Bool

def setItems (items : List α) (bad : Bool) (env : Environment α) : Environment α :=
  fun item => if item ∈ items then bad else env item

-- Switch scripts that always succeed, and tests that only look at the environment.
def environmentScripts (setup : Option (Environment α → Int)) (test : Environment α → Int) :
    Scripts α (Environment α) where
  switchToGood _ items env := (0, setItems items false env)
  switchToBad _ items env := (0, setItems items true env)
  testSetupScript := setup.map fun answer _ env => (answer env, env)
  testScript _ env := (test env, env)

def environmentAnswer (setup : Option (Environment α → Int)) (test : Environment α → Int) (env : Environment α) : Int :=
  match setup with
  | none => test env
  | some answer => if answer env = 0 then test env else answer env

-- The environment that switching all of `files` leaves, whatever was there before.
def environmentFor (files : SetFiles α) (env : Environment α) : Environment α :=
  setItems files.badSet true (setItems files.goodSet false env)

-- One iteration without the switching: GetNextItems names the two sets, `answer`
-- stands for the scripts, SetStatus takes the answer in.
def nextTest (bss : BinarySearchState α) : Except SearchFailure (BinarySearcher α × SetFiles α) := do
  let next ← bss.binarySearch.getNext
  let index ← itemIndex bss.allItems next.2
  return (next.1, ⟨bss.allItems.drop (index + 1) ++ bss.knownGood, bss.allItems.take (index + 1)⟩)

def iterate (answer : SetFiles α → Int) (bss : BinarySearchState α) : Except SearchFailure (BinarySearchState α × Bool) := do
  let next ← nextTest bss
  let taken ← next.1.setStatus (answer next.2)
  return ({ bss with searchCycles := bss.searchCycles + 1, binarySearch := taken.1 }, taken.2)

structure Truthful (bss : BinarySearchState α) (env : Environment α) : Prop where
  current : ∀ bad, ∀ item ∈ bss.current bad, env item = bad

theorem set_items_filtered (items known : List α) (bad : Bool) (env : Environment α)
    (already : ∀ item ∈ known, env item = bad) :
    setItems (items.filter (· ∉ known)) bad env = setItems items bad env := by
  funext item
  by_cases listed : item ∈ items
  · by_cases seen : item ∈ known
    · simp [setItems, listed, seen, already item seen]
    · simp [setItems, listed, seen]
  · simp [setItems, listed]

theorem set_no_items (bad : Bool) (env : Environment α) : setItems [] bad env = env := by
  funext item
  simp [setItems]

theorem record_switch_same (bss : BinarySearchState α) (items : List α) (bad : Bool) (item : α) :
    item ∈ (bss.recordSwitch items bad).current bad ↔ item ∈ items ∨ item ∈ bss.current bad := by
  cases bad <;> exact List.mem_union_iff

theorem record_switch_other (bss : BinarySearchState α) (items : List α) (bad : Bool) (item : α) :
    item ∈ (bss.recordSwitch items bad).current (!bad) ↔ item ∈ bss.current (!bad) ∧ item ∉ items := by
  cases bad <;> simp [BinarySearchState.recordSwitch, BinarySearchState.withCurrent, BinarySearchState.current]

theorem truthful_after_switch (bss : BinarySearchState α) (env : Environment α) (items : List α) (bad : Bool)
    (truthful : Truthful bss env) : Truthful (bss.recordSwitch items bad) (setItems items bad env) := by
  constructor
  intro side item member
  by_cases same : side = bad
  · subst side
    rcases (record_switch_same bss items bad item).mp member with fresh | old
    · simp [setItems, fresh]
    · simp [setItems, truthful.current bad item old]
  · have opposite : side = !bad := by cases side <;> cases bad <;> simp_all
    subst side
    obtain ⟨old, unlisted⟩ := (record_switch_other bss items bad item).mp member
    simp [setItems, unlisted, truthful.current (!bad) item old]

theorem record_switch_current (bss : BinarySearchState α) (items : List α) (bad : Bool) :
    ∃ good other, bss.recordSwitch items bad = bss.withCurrent good other := by
  cases bad <;> exact ⟨_, _, rfl⟩

theorem switch_items_eq {σ : Type} (script : List α → σ → Int × σ) (bad : Bool) (items passed : List α) (session : Session α σ)
    (filtered : passed = if session.bss.incremental then items.filter (· ∉ session.bss.current bad) else items) :
    switchItems script bad items session = if passed = [] then .ok () session
      else if (script passed session.world).1 = 0 then .ok () { session with
        bss := session.bss.recordSwitch passed bad, world := (script passed session.world).2 }
      else .error (.switchAssertion (script passed session.world).1) { session with world := (script passed session.world).2 } := by
  have body : switchItems script bad items session = (if passed = [] then pure () else do
      runSwitchScript script passed
      modifyBss fun bss => bss.recordSwitch passed bad) session := by
    rw [filtered]
    rfl
  rw [body]
  by_cases none : passed = []
  · rw [if_pos none, if_pos none]
    rfl
  · rw [if_neg none, if_neg none]
    by_cases success : (script passed session.world).1 = 0 <;>
      simp [run_bind, runSwitchScript, runScript, success, run_pure, run_throw, run_modify_bss]

-- Whatever part of the list is really passed to the script, afterwards the whole
-- list is switched and the two current sets still tell the truth. The environment
-- may be a part of the scripts' world that `view` reads and `put` replaces.
theorem switch_items_spec {σ : Type} (view : σ → Environment α) (put : Environment α → σ → σ)
    (unchanged : ∀ world, put (view world) world = world) (script : List α → σ → Int × σ) (bad : Bool)
    (items : List α) (session : Session α σ) (truthful : Truthful session.bss (view session.world))
    (switches : ∀ passed world, script passed world = (0, put (setItems passed bad (view world)) world)) :
    ∃ good other, switchItems script bad items session = .ok () { session with
        bss := session.bss.withCurrent good other, world := put (setItems items bad (view session.world)) session.world } ∧
      Truthful (session.bss.withCurrent good other) (setItems items bad (view session.world)) := by
  obtain ⟨passed, filtered⟩ : ∃ passed, passed =
    if session.bss.incremental then items.filter (· ∉ session.bss.current bad) else items := ⟨_, rfl⟩
  have same : setItems passed bad (view session.world) = setItems items bad (view session.world) := by
    rw [filtered]
    split
    · exact set_items_filtered items _ bad (view session.world) (truthful.current bad)
    · rfl
  rw [switch_items_eq script bad items passed session filtered, switches, ← same]
  by_cases none : passed = []
  · rw [if_pos none, none, set_no_items, unchanged]
    exact ⟨session.bss.currentlyGoodItems, session.bss.currentlyBadItems, rfl, ⟨truthful.current⟩⟩
  · obtain ⟨good, other, recorded⟩ := record_switch_current session.bss passed bad
    rw [if_neg none, if_pos rfl, recorded]
    exact ⟨good, other, rfl, recorded ▸ truthful_after_switch session.bss (view session.world) passed bad truthful⟩

theorem switch_environment_spec (script : List α → Environment α → Int × Environment α) (bad : Bool)
    (items : List α) (session : Session α (Environment α)) (truthful : Truthful session.bss session.world)
    (switches : ∀ passed env, script passed env = (0, setItems passed bad env)) :
    ∃ good other, switchItems script bad items session = .ok () { session with
        bss := session.bss.withCurrent good other, world := setItems items bad session.world } ∧
      Truthful (session.bss.withCurrent good other) (setItems items bad session.world) :=
  switch_items_spec (fun env => env) (fun env _ => env) (fun _ => rfl) script bad items session truthful switches

omit [DecidableEq α] in
theorem except_bind_ok {β γ : Type} (first : Except SearchFailure β) (next : β → Except SearchFailure γ) (result : γ)
    (run : (first >>= next) = .ok result) : ∃ value, first = .ok value ∧ next value = .ok result := by
  cases first with
  | error failure => cases run
  | ok value => exact ⟨value, rfl, run⟩

theorem get_next_items_ok {σ : Type} (session : Session α σ) (searcher : BinarySearcher α) (files : SetFiles α)
    (next : nextTest session.bss = .ok (searcher, files)) :
    getNextItems session = .ok files { session with bss := { session.bss with binarySearch := searcher } } := by
  obtain ⟨found, moved, rest⟩ := except_bind_ok _ _ _ next
  obtain ⟨index, position, same⟩ := except_bind_ok _ _ _ rest
  cases same
  simp only [getNextItems, run_bind, run_get_bss, moved, run_check_ok, run_modify_bss, position, run_pure]

theorem get_next_items_error {σ : Type} (session : Session α σ) (failure : SearchFailure)
    (next : nextTest session.bss = .error failure) :
    ∃ searcher, getNextItems session = .error failure { session with bss := { session.bss with binarySearch := searcher } } := by
  cases moved : session.bss.binarySearch.getNext with
  | error other =>
      have same : other = failure := by simpa [nextTest, moved, bind, Except.bind] using next
      refine ⟨session.bss.binarySearch, ?_⟩
      simp only [getNextItems, run_bind, run_get_bss, moved, run_check_error, same]
  | ok found =>
      cases position : itemIndex session.bss.allItems found.2 with
      | error other =>
          have same : other = failure := by simpa [nextTest, moved, position, bind, Except.bind] using next
          refine ⟨found.1, ?_⟩
          simp only [getNextItems, run_bind, run_get_bss, moved, run_check_ok, run_modify_bss, position, run_check_error, same]
      | ok index => simp [nextTest, moved, position, bind, Except.bind, pure, Except.pure] at next

def environmentSetup (setup : Option (Environment α → Int)) (env : Environment α) : Int :=
  match setup with
  | none => 0
  | some answer => answer env

theorem test_setup_spec (setup : Option (Environment α → Int)) (test : Environment α → Int) (files : SetFiles α)
    (session : Session α (Environment α)) :
    testSetupScript (environmentScripts setup test) files session = .ok (environmentSetup setup session.world) session := by
  cases setup <;> rfl

theorem test_status_spec (setup : Option (Environment α → Int)) (test : Environment α → Int) (files : SetFiles α)
    (session : Session α (Environment α)) :
    testStatus (environmentScripts setup test) files session = .ok (environmentAnswer setup test session.world) session := by
  cases setup with
  | none =>
      simp only [testStatus, testSetupScript, environmentScripts, environmentAnswer, run_bind, run_pure, testScript,
        runScript, Option.map_none, if_true]
  | some prepare =>
      by_cases ready : prepare session.world = 0 <;>
        simp only [testStatus, testSetupScript, environmentScripts, environmentAnswer, run_bind, run_pure, testScript,
          runScript, Option.map_some, ready, if_true, if_false]

-- All that is left of SwitchToGood and SwitchToBad: the environment holds exactly
-- the wanted sets, and the current sets changed to something truthful.
theorem switch_files_spec (setup : Option (Environment α → Int)) (test : Environment α → Int) (files : SetFiles α)
    (session : Session α (Environment α)) (truthful : Truthful session.bss session.world) :
    ∃ middle good other,
      switchToGood (environmentScripts setup test) files files.goodSet session = .ok () middle ∧
      switchToBad (environmentScripts setup test) files files.badSet middle = .ok () { session with
        bss := session.bss.withCurrent good other, world := environmentFor files session.world } ∧
      Truthful (session.bss.withCurrent good other) (environmentFor files session.world) := by
  obtain ⟨good, other, switched, truthfulGood⟩ := switch_environment_spec
    ((environmentScripts setup test).switchToGood files) false files.goodSet session truthful (fun _ _ => rfl)
  obtain ⟨lastGood, lastOther, switchedBad, truthfulBad⟩ := switch_environment_spec
    ((environmentScripts setup test).switchToBad files) true files.badSet { session with
      bss := session.bss.withCurrent good other, world := setItems files.goodSet false session.world }
    truthfulGood (fun _ _ => rfl)
  exact ⟨_, lastGood, lastOther, switched, switchedBad, truthfulBad⟩

def terminatedLine (terminated : Bool) : List (LogLine α) := if terminated then [.terminated] else []

omit [DecidableEq α] in
theorem record_answer_ok {σ : Type} (status : Int) (session : Session α σ) (searcher : BinarySearcher α) (terminated : Bool)
    (taken : session.bss.binarySearch.setStatus status = .ok (searcher, terminated)) :
    recordAnswer status session = .ok terminated { session with
      bss := { session.bss with binarySearch := searcher }, log := session.log ++ terminatedLine terminated } := by
  simp only [recordAnswer, run_bind, run_get_bss, taken, run_check_ok, run_modify_bss]
  cases terminated <;>
    simp [run_log_output, run_pure, run_bind, terminatedLine]

omit [DecidableEq α] in
theorem record_answer_error {σ : Type} (status : Int) (session : Session α σ) (failure : SearchFailure)
    (refused : session.bss.binarySearch.setStatus status = .error failure) :
    recordAnswer status session = .error failure session := by
  simp only [recordAnswer, run_bind, run_get_bss, refused, run_check_error]

theorem search_iteration_ok (setup : Option (Environment α → Int)) (test : Environment α → Int)
    (session : Session α (Environment α)) (after : BinarySearchState α) (terminated : Bool)
    (truthful : Truthful session.bss session.world)
    (iterated : iterate (fun files => environmentAnswer setup test (environmentFor files session.world)) session.bss =
      .ok (after, terminated)) :
    ∃ good other env, searchIteration (environmentScripts setup test) session = .ok terminated {
        bss := after.withCurrent good other, world := env, saves := session.saves ++ [session.bss]
        log := session.log ++ terminatedLine terminated } ∧
      Truthful (after.withCurrent good other) env := by
  obtain ⟨⟨searcher, files⟩, next, rest⟩ := except_bind_ok _ _ _ iterated
  obtain ⟨⟨answered, done⟩, taken, same⟩ := except_bind_ok _ _ _ rest
  cases same
  let begun : Session α (Environment α) := { session with
    saves := session.saves ++ [session.bss], bss := { session.bss with searchCycles := session.bss.searchCycles + 1 } }
  obtain ⟨middle, good, other, toGood, toBad, still⟩ := switch_files_spec setup test files
    { begun with bss := { begun.bss with binarySearch := searcher } } ⟨truthful.current⟩
  refine ⟨good, other, environmentFor files session.world, ?_, ⟨still.current⟩⟩
  simp only [searchIteration, run_bind, run_save_state, run_modify_bss]
  rw [get_next_items_ok begun searcher files next]
  simp only [toGood, toBad, test_status_spec]
  exact record_answer_ok _ _ _ _ taken

theorem search_iteration_error (setup : Option (Environment α → Int)) (test : Environment α → Int)
    (session : Session α (Environment α)) (failure : SearchFailure) (truthful : Truthful session.bss session.world)
    (iterated : iterate (fun files => environmentAnswer setup test (environmentFor files session.world)) session.bss =
      .error failure) :
    ∃ stopped, searchIteration (environmentScripts setup test) session = .error failure stopped ∧
      stopped.saves = session.saves ++ [session.bss] ∧ stopped.bss.allItems = session.bss.allItems ∧
      stopped.bss.foundItems = session.bss.foundItems ∧ stopped.log = session.log := by
  let begun : Session α (Environment α) := { session with
    saves := session.saves ++ [session.bss], bss := { session.bss with searchCycles := session.bss.searchCycles + 1 } }
  cases next : nextTest session.bss with
  | error other =>
      have same : other = failure := by simpa [iterate, next, bind, Except.bind] using iterated
      obtain ⟨searcher, stopped⟩ := get_next_items_error begun other next
      refine ⟨{ begun with bss := { begun.bss with binarySearch := searcher } }, ?_, rfl, rfl, rfl, rfl⟩
      simp only [searchIteration, run_bind, run_save_state, run_modify_bss]
      rw [stopped, same]
  | ok found =>
      obtain ⟨searcher, files⟩ := found
      obtain ⟨middle, good, other, toGood, toBad, still⟩ := switch_files_spec setup test files
        { begun with bss := { begun.bss with binarySearch := searcher } } ⟨truthful.current⟩
      have refused : searcher.setStatus (environmentAnswer setup test (environmentFor files session.world)) = .error failure := by
        cases taken : searcher.setStatus (environmentAnswer setup test (environmentFor files session.world)) with
        | error other => simpa [iterate, next, taken, bind, Except.bind] using iterated
        | ok answer => simp [iterate, next, taken, bind, Except.bind, pure, Except.pure] at iterated
      refine ⟨{ begun with
        bss := ({ begun.bss with binarySearch := searcher }).withCurrent good other
        world := environmentFor files session.world }, ?_, rfl, rfl, rfl, rfl⟩
      simp only [searchIteration, run_bind, run_save_state, run_modify_bss]
      rw [get_next_items_ok begun searcher files next]
      simp only [toGood, toBad, test_status_spec]
      exact record_answer_error _ _ _ refused

def resetSession (session : Session α (Environment α)) (bad : Bool) (good other : List α) : Session α (Environment α) :=
  { session with bss := session.bss.withCurrent good other, world := setItems session.bss.allItems bad session.world }

theorem verify_good_spec (setup : Option (Environment α → Int)) (test : Environment α → Int)
    (session : Session α (Environment α)) (truthful : Truthful session.bss session.world) :
    ∃ good other reset, reset = resetSession session false good other ∧ Truthful reset.bss reset.world ∧
      verifyGoodSet (environmentScripts setup test) session = (do
        assertStatus (environmentSetup setup reset.world) 0 "When reset_to_good, test setup should succeed."
        assertStatus (test reset.world) 0 "When reset_to_good, status should be 0.") reset := by
  obtain ⟨good, other, switched, truth⟩ := switch_environment_spec
    ((environmentScripts setup test).switchToGood ⟨session.bss.allItems, []⟩) false session.bss.allItems session truthful
    (fun _ _ => rfl)
  refine ⟨good, other, _, rfl, truth, ?_⟩
  simp only [verifyGoodSet, run_bind, run_get_bss, switchToGood, switched, test_setup_spec, resetSession]
  by_cases ready : environmentSetup setup (setItems session.bss.allItems false session.world) = 0
  · simp only [assertStatus, ready, if_true, run_pure]
    rfl
  · simp only [assertStatus, ready, if_false, run_throw]

theorem verify_bad_spec (setup : Option (Environment α → Int)) (test : Environment α → Int)
    (session : Session α (Environment α)) (truthful : Truthful session.bss session.world) :
    ∃ good other reset, reset = resetSession session true good other ∧ Truthful reset.bss reset.world ∧
      verifyBadSet (environmentScripts setup test) session =
        assertStatus (environmentAnswer setup test reset.world) 1 "When reset_to_bad, status should be 1." reset := by
  obtain ⟨good, other, switched, truth⟩ := switch_environment_spec
    ((environmentScripts setup test).switchToBad ⟨[], session.bss.allItems⟩) true session.bss.allItems session truthful
    (fun _ _ => rfl)
  refine ⟨good, other, _, rfl, truth, ?_⟩
  simp only [verifyBadSet, run_bind, run_get_bss, switchToBad, switched, test_status_spec, resetSession]

omit [DecidableEq α] in
theorem assert_status_cases {σ : Type} (status expected : Int) (message : String) (session : Session α σ) :
    assertStatus status expected message session = .ok () session ∨
      assertStatus status expected message session = .error (.verifyAssertion message) session := by
  by_cases same : status = expected
  · exact .inl (by rw [assertStatus, if_pos same]; rfl)
  · exact .inr (by rw [assertStatus, if_neg same]; rfl)

-- DoVerify saves nothing and reports nothing; when it returns, the current sets
-- are truthful for the environment it leaves.
theorem do_verify_cases (setup : Option (Environment α → Int)) (test : Environment α → Int)
    (session : Session α (Environment α)) (truthful : Truthful session.bss session.world) :
    (∃ good other env, doVerify (environmentScripts setup test) session =
        .ok () { session with bss := session.bss.withCurrent good other, world := env } ∧
      Truthful (session.bss.withCurrent good other) env) ∨
    ∃ failure stopped, doVerify (environmentScripts setup test) session = .error failure stopped ∧
      stopped.saves = session.saves := by
  by_cases verify : session.bss.verify = true
  · simp only [doVerify, run_bind, run_get_bss, verify, if_true]
    obtain ⟨good, other, reset, same, truthGood, goodSet⟩ := verify_good_spec setup test session truthful
    rw [goodSet, run_bind]
    rcases assert_status_cases (environmentSetup setup reset.world) 0
      "When reset_to_good, test setup should succeed." reset with ready | refused
    · rw [ready]
      rcases assert_status_cases (test reset.world) 0 "When reset_to_good, status should be 0." reset with passed | refused
      · simp only [passed]
        obtain ⟨lastGood, lastOther, last, sameLast, truthBad, badSet⟩ := verify_bad_spec setup test reset truthGood
        rw [badSet]
        rw [same] at sameLast
        rcases assert_status_cases (environmentAnswer setup test last.world) 1 "When reset_to_bad, status should be 1." last
          with failed | refused
        · refine .inl ⟨lastGood, lastOther, last.world, failed.trans (by rw [sameLast]; rfl), ?_⟩
          rw [sameLast] at truthBad ⊢
          exact ⟨truthBad.current⟩
        · exact .inr ⟨_, _, refused, by rw [sameLast]; rfl⟩
      · simp only [refused]
        exact .inr ⟨_, _, rfl, by rw [same]; rfl⟩
    · rw [refused]
      exact .inr ⟨_, _, rfl, by rw [same]; rfl⟩
  · simp only [doVerify, run_bind, run_get_bss, verify]
    exact .inl ⟨session.bss.currentlyGoodItems, session.bss.currentlyBadItems, session.world, rfl, ⟨truthful.current⟩⟩

end ToolchainUtils.BinarySearchTool
