import ToolchainUtils.BinarySearchTool.SearchSteps

set_option autoImplicit false

namespace ToolchainUtils.BinarySearchTool

open Transition

variable {α ω : Type} [DecidableEq α]

-- What the scripts act on: the switched items, and anything else that the test
-- scripts may read and change.
structure SwitchedWorld (α ω : Type) where
  env : Environment α
  rest : ω

-- Switch scripts that always succeed. The test scripts are arbitrary, but leave the
-- switched items alone.
def switchingScripts (setup : Option (SetFiles α → Environment α → ω → Int × ω)) (test : SetFiles α → Environment α → ω → Int × ω) :
    Scripts α (SwitchedWorld α ω) where
  switchToGood _ items world := (0, { world with env := setItems items false world.env })
  switchToBad _ items world := (0, { world with env := setItems items true world.env })
  testSetupScript := setup.map fun prepare files world =>
    ((prepare files world.env world.rest).1, { world with rest := (prepare files world.env world.rest).2 })
  testScript files world := ((test files world.env world.rest).1, { world with rest := (test files world.env world.rest).2 })

-- bad_items and good_items of the iteration, from when they are chosen.
def SearchPoint.files : SearchPoint α → Option (SetFiles α)
  | .resetToGood files => some files
  | .resetToBad files => some files
  | .switchingToGood files => some files
  | .switchingToBad files => some files
  | .testing files => some files
  | _ => none

-- The sets of a test that comes next.
def SearchPoint.tested : SearchPoint α → Option (SetFiles α)
  | .resetToGood files => some files
  | .resetToBad files => some files
  | .testing files => some files
  | _ => none

structure SwitchedRight (items : List α) (run : SearchRun α (SwitchedWorld α ω)) : Prop where
  split : ∀ files, run.point.files = some files → files.badSet.Disjoint files.goodSet ∧ (files.badSet ++ files.goodSet).Perm items
  tested : ∀ files, run.point.tested = some files → ∀ item ∈ items,
    (run.session.world.env item = true ↔ item ∈ files.badSet) ∧ (run.session.world.env item = false ↔ item ∈ files.goodSet)
  disjoint : run.session.bss.currentlyGoodItems.Disjoint run.session.bss.currentlyBadItems
  truthful : Truthful run.session.bss run.session.world.env

-- The sets of an iteration, and how much of them is already switched.
def Divides (items : List α) (files : SetFiles α) : Prop := (files.badSet ++ files.goodSet).Perm items

def SwitchedTo (env : Environment α) (items : List α) (bad : Bool) : Prop := ∀ item ∈ items, env item = bad

def Together (items allItems knownGood : List α) : Prop := (allItems ++ knownGood).Perm items

def AtSwitchPoint (items allItems knownGood : List α) (env : Environment α) : SearchPoint α → Prop
  | .verifying => Together items allItems knownGood ∧ knownGood = []
  | .resetToGood files => Divides items files ∧ SwitchedTo env files.goodSet false ∧ SwitchedTo env files.badSet true ∧
      Together items allItems knownGood ∧ knownGood = []
  | .goodVerified => Together items allItems knownGood ∧ knownGood = []
  | .resetToBad files => Divides items files ∧ SwitchedTo env files.goodSet false ∧ SwitchedTo env files.badSet true ∧
      Together items allItems knownGood
  | .searching => Together items allItems knownGood
  | .cycling => Together items allItems knownGood
  | .switchingToGood files => Divides items files ∧ Together items allItems knownGood
  | .switchingToBad files => Divides items files ∧ SwitchedTo env files.goodSet false ∧ Together items allItems knownGood
  | .testing files => Divides items files ∧ SwitchedTo env files.goodSet false ∧ SwitchedTo env files.badSet true ∧
      Together items allItems knownGood
  | .cycleEnded _ => Together items allItems knownGood
  | .returned => True
  | .raised _ => True

structure SwitchKept (items : List α) (run : SearchRun α (SwitchedWorld α ω)) : Prop where
  truthful : Truthful run.session.bss run.session.world.env
  point : AtSwitchPoint items run.session.bss.allItems run.session.bss.knownGood run.session.world.env run.point
  saved : ∀ saved, run.session.saves.getLast? = some saved → Together items saved.allItems saved.knownGood

omit [DecidableEq α] in
theorem truthful_disjoint (bss : BinarySearchState α) (env : Environment α) (truthful : Truthful bss env) :
    bss.currentlyGoodItems.Disjoint bss.currentlyBadItems := by
  intro item good bad
  have isGood := truthful.current false item good
  have isBad := truthful.current true item bad
  exact absurd (isGood.symm.trans isBad) (by decide)

omit [DecidableEq α] in
theorem divides_disjoint (items : List α) (distinct : items.Nodup) (files : SetFiles α) (divides : Divides items files) :
    files.badSet.Disjoint files.goodSet :=
  List.disjoint_of_nodup_append (divides.nodup_iff.mpr distinct)

omit [DecidableEq α] in
theorem divides_switched (items : List α) (distinct : items.Nodup) (files : SetFiles α) (env : Environment α)
    (divides : Divides items files) (good : SwitchedTo env files.goodSet false) (bad : SwitchedTo env files.badSet true)
    (item : α) (member : item ∈ items) :
    (env item = true ↔ item ∈ files.badSet) ∧ (env item = false ↔ item ∈ files.goodSet) := by
  rcases List.mem_append.mp (divides.mem_iff.mpr member) with isBad | isGood
  · have elsewhere : item ∉ files.goodSet := divides_disjoint items distinct files divides isBad
    simp [bad item isBad, isBad, elsewhere]
  · have elsewhere : item ∉ files.badSet := fun isBad => divides_disjoint items distinct files divides isBad isGood
    simp [good item isGood, isGood, elsewhere]

omit [DecidableEq α] in
theorem switch_kept_right (items : List α) (distinct : items.Nodup) (run : SearchRun α (SwitchedWorld α ω))
    (kept : SwitchKept items run) : SwitchedRight items run := by
  have here := kept.point
  refine ⟨?_, ?_, truthful_disjoint _ _ kept.truthful, kept.truthful⟩
  · intro files chosen
    have divides : Divides items files := by
      cases point : run.point <;> rw [point] at here chosen <;> cases chosen <;> exact here.1
    exact ⟨divides_disjoint items distinct files divides, divides⟩
  · intro files chosen
    have switched : Divides items files ∧ SwitchedTo run.session.world.env files.goodSet false ∧
        SwitchedTo run.session.world.env files.badSet true := by
      cases point : run.point <;> rw [point] at here chosen <;> cases chosen <;> exact ⟨here.1, here.2.1, here.2.2.1⟩
    exact divides_switched items distinct files _ switched.1 switched.2.1 switched.2.2

theorem switched_same (env : Environment α) (items : List α) (bad : Bool) : SwitchedTo (setItems items bad env) items bad := by
  intro item member
  simp [setItems, member]

theorem switched_other (env : Environment α) (items others : List α) (bad other : Bool) (disjoint : others.Disjoint items)
    (before : SwitchedTo env others other) : SwitchedTo (setItems items bad env) others other := by
  intro item member
  have elsewhere : item ∉ items := disjoint member
  simp [setItems, elsewhere, before item member]

theorem tests_keep_env (setup : Option (SetFiles α → Environment α → ω → Int × ω)) (test : SetFiles α → Environment α → ω → Int × ω)
    (files : SetFiles α) (env : Environment α) : TestsKeep (switchingScripts setup test) files fun world => world.env = env := by
  constructor
  · intro script isSetup world same
    obtain ⟨prepare, _, rfl⟩ := Option.map_eq_some_iff.mp isSetup
    exact same
  · intro world same
    exact same

omit [DecidableEq α] in
-- A step that saves nothing keeps what holds at its point.
theorem switch_kept_quiet (items : List α) (run next : SearchRun α (SwitchedWorld α ω)) (kept : SwitchKept items run)
    (truthful : Truthful next.session.bss next.session.world.env)
    (point : AtSwitchPoint items next.session.bss.allItems next.session.bss.knownGood next.session.world.env next.point)
    (saves : next.session.saves = run.session.saves) : SwitchKept items next := by
  refine ⟨truthful, point, ?_⟩
  rw [saves]
  exact kept.saved

theorem switch_kept_switch (items : List α) (run : SearchRun α (SwitchedWorld α ω)) (kept : SwitchKept items run)
    (script : List α → SwitchedWorld α ω → Int × SwitchedWorld α ω) (bad : Bool) (list : List α) (point : SearchPoint α)
    (switches : ∀ passed world, script passed world = (0, { world with env := setItems passed bad world.env }))
    (still : AtSwitchPoint items run.session.bss.allItems run.session.bss.knownGood (setItems list bad run.session.world.env) point) :
    SwitchKept items (run.after (switchItems script bad list) fun _ next => next.moveTo point) := by
  obtain ⟨good, other, ran, truthful⟩ := switch_items_spec SwitchedWorld.env (fun env world => { world with env := env })
    (fun _ => rfl) script bad list run.session kept.truthful switches
  rw [after_ok run _ _ () _ ran]
  exact switch_kept_quiet items run _ kept truthful still rfl

theorem switch_kept_answer (setup : Option (SetFiles α → Environment α → ω → Int × ω)) (test : SetFiles α → Environment α → ω → Int × ω)
    (items : List α) (run : SearchRun α (SwitchedWorld α ω)) (files : SetFiles α) (kept : SwitchKept items run)
    (together : Together items run.session.bss.allItems run.session.bss.knownGood) :
    SwitchKept items (run.after (answerTest (switchingScripts setup test) files) fun answer next =>
      (run.recordTest next files answer.1).moveTo (if answer.2 then .cycleEnded true else .cycling)) := by
  have truthful := kept.truthful
  rcases answer_test_cases (switchingScripts setup test) files _ (tests_keep_env setup test files run.session.world.env)
    run.session rfl with ⟨status, world, same, ⟨searcher, terminated, taken, ran⟩ | ⟨failure, ran⟩⟩
  · rw [after_ok run _ _ (status, terminated) _ ran]
    refine switch_kept_quiet items run _ kept ⟨?_⟩ ?_ rfl
    · exact same ▸ truthful.current
    · cases terminated <;> exact together
  · rw [after_error run _ _ failure _ ran]
    exact switch_kept_quiet items run _ kept ⟨same ▸ truthful.current⟩ trivial rfl

theorem union_fresh (first second : List α) (distinct : first.Nodup) (fresh : first.Disjoint second) :
    first ∪ second = first ++ second := by
  induction first with
  | nil => rfl
  | cons item rest ih =>
      have parts := List.nodup_cons.mp distinct
      have rest_fresh : rest.Disjoint second := fun other member => fresh (List.mem_cons_of_mem _ member)
      have unlisted : item ∉ rest ++ second := by
        intro member
        rcases List.mem_append.mp member with inRest | inSecond
        · exact parts.1 inRest
        · exact fresh List.mem_cons_self inSecond
      rw [List.cons_union, ih parts.2 rest_fresh, List.insert_of_not_mem unlisted]
      rfl

-- The found item moves to the end, what stood before it becomes known good.
theorem together_restart (items : List α) (distinct : items.Nodup) (bss : BinarySearchState α) (item : α)
    (listed : bss.allItems[bss.binarySearch.current]? = some item) (together : Together items bss.allItems bss.knownGood) :
    Together items (rotateItems bss.allItems bss.binarySearch.current item)
      (bss.allItems.take bss.binarySearch.current ∪ bss.knownGood) := by
  obtain ⟨within, same⟩ := List.getElem?_eq_some_iff.mp listed
  have parts := List.nodup_append.mp (together.nodup_iff.mpr distinct)
  have below : (bss.allItems.take bss.binarySearch.current).Nodup := parts.1.sublist (List.take_sublist _ _)
  have fresh : (bss.allItems.take bss.binarySearch.current).Disjoint bss.knownGood :=
    fun other member known => parts.2.2 other (List.mem_of_mem_take member) other known rfl
  have whole : bss.allItems =
      bss.allItems.take bss.binarySearch.current ++ item :: bss.allItems.drop (bss.binarySearch.current + 1) := by
    rw [← same, List.getElem_cons_drop, List.take_append_drop]
  rw [Together, rotate_items_eq _ _ _ (Nat.le_of_lt within), union_fresh _ _ below fresh]
  refine List.Perm.trans ?_ together
  rw [← List.append_assoc]
  apply List.Perm.append_right
  conv => rhs; rw [whole]
  exact List.perm_append_comm.trans (List.Perm.append_left _ (@List.perm_append_comm _ _ [item]))

theorem switch_kept_leave (scripts : Scripts α (SwitchedWorld α ω)) (items : List α) (distinct : items.Nodup)
    (run : SearchRun α (SwitchedWorld α ω)) (terminated : Bool) (point : run.point = .cycleEnded terminated)
    (kept : SwitchKept items run) : SwitchKept items (run.go scripts) := by
  have here := kept.point
  rw [point] at here
  by_cases adding : terminated = true ∧ ∃ item, Adds run.session.bss item
  · obtain ⟨rfl, item, adds⟩ := adding
    rcases cycle_ended_found scripts run item point adds with ⟨log, next⟩ | ⟨log, next⟩
    · rw [next]
      exact ⟨⟨kept.truthful.current⟩, together_restart items distinct run.session.bss item adds.listed here, kept.saved⟩
    · rw [next]
      exact ⟨⟨kept.truthful.current⟩, trivial, kept.saved⟩
  · obtain ⟨last, log, ended, next⟩ := cycle_ended_unfound scripts run terminated point
      fun isTerminated added => adding ⟨isTerminated, added⟩
    rw [next]
    refine ⟨⟨kept.truthful.current⟩, ?_, kept.saved⟩
    cases last <;> simp_all [SearchPoint.ended, AtSwitchPoint]

theorem switch_kept_begin (items : List α) (run : SearchRun α (SwitchedWorld α ω)) (kept : SwitchKept items run)
    (together : Together items run.session.bss.allItems run.session.bss.knownGood) :
    SwitchKept items (({ run with savedTests := run.tests } : SearchRun α (SwitchedWorld α ω)).after beginIteration
      fun files next => next.moveTo (.switchingToGood files)) := by
  have saved : ∀ saved, (run.session.saves ++ [run.session.bss]).getLast? = some saved →
      Together items saved.allItems saved.knownGood := by
    intro saved last
    rw [List.getLast?_concat] at last
    exact Option.some.inj last ▸ together
  rcases begin_iteration_cases run.session with ⟨searcher, files, next, ran⟩ | ⟨failure, searcher, ran⟩
  · rw [after_ok ({ run with savedTests := run.tests } : SearchRun α (SwitchedWorld α ω)) _ _ files _ ran]
    obtain ⟨index, chosen⟩ := next_test_files run.session.bss (searcher, files) next
    have divides : Divides items files := by
      change files = _ at chosen
      rw [chosen, Divides, ← List.append_assoc, List.take_append_drop]
      exact together
    exact ⟨⟨kept.truthful.current⟩, ⟨divides, together⟩, saved⟩
  · rw [after_error ({ run with savedTests := run.tests } : SearchRun α (SwitchedWorld α ω)) _ _ failure _ ran]
    exact ⟨⟨kept.truthful.current⟩, trivial, saved⟩

theorem switch_kept_go (setup : Option (SetFiles α → Environment α → ω → Int × ω)) (test : SetFiles α → Environment α → ω → Int × ω)
    (items : List α) (distinct : items.Nodup) (run : SearchRun α (SwitchedWorld α ω)) (kept : SwitchKept items run) :
    SwitchKept items (run.go (switchingScripts setup test)) := by
  have here := kept.point
  have truthful := kept.truthful
  cases point : run.point with
  | verifying =>
      rw [point] at here
      by_cases verify : run.session.bss.verify = true
      · rw [go_verifying _ run point verify]
        have divides : Divides items ⟨run.session.bss.allItems, []⟩ := by
          have together := here.1
          rw [Together, here.2, List.append_nil] at together
          exact together
        exact switch_kept_switch items run kept _ false _ _ (fun _ _ => rfl)
          ⟨divides, switched_same _ _ _, fun item member => absurd member List.not_mem_nil, here⟩
      · rw [go_unverified _ run point verify]
        exact switch_kept_quiet items run _ kept truthful here.1 rfl
  | resetToGood files =>
      rw [point] at here
      rw [go_reset_to_good _ run files point]
      obtain ⟨world, same, ran | ⟨failure, ran⟩⟩ := check_good_set_cases (switchingScripts setup test) files _
        (tests_keep_env setup test files run.session.world.env) run.session rfl
      · rw [after_ok run _ _ () _ ran]
        exact switch_kept_quiet items run _ kept ⟨same ▸ truthful.current⟩ here.2.2.2 rfl
      · rw [after_error run _ _ failure _ ran]
        exact switch_kept_quiet items run _ kept ⟨same ▸ truthful.current⟩ trivial rfl
  | goodVerified =>
      rw [point] at here
      rw [go_good_verified _ run point]
      have divides : Divides items ⟨[], run.session.bss.allItems⟩ := by
        have together := here.1
        rw [Together, here.2] at together
        exact together
      exact switch_kept_switch items run kept _ true _ _ (fun _ _ => rfl)
        ⟨divides, fun item member => absurd member List.not_mem_nil, switched_same _ _ _, here.1⟩
  | resetToBad files =>
      rw [point] at here
      rw [go_reset_to_bad _ run files point]
      obtain ⟨world, same, ran | ⟨failure, ran⟩⟩ := check_bad_set_cases (switchingScripts setup test) files _
        (tests_keep_env setup test files run.session.world.env) run.session rfl
      · rw [after_ok run _ _ () _ ran]
        exact switch_kept_quiet items run _ kept ⟨same ▸ truthful.current⟩ here.2.2.2 rfl
      · rw [after_error run _ _ failure _ ran]
        exact switch_kept_quiet items run _ kept ⟨same ▸ truthful.current⟩ trivial rfl
  | searching =>
      rw [point] at here
      by_cases more : run.session.bss.allItems.length > 1 ∧ run.session.bss.pruneCycles < run.session.bss.pruneIterations
      · rw [go_searching _ run point more]
        have all := begin_cycle_keeps BinarySearchState.allItems (fun _ _ _ => rfl) run.session.bss
        have good := begin_cycle_keeps BinarySearchState.knownGood (fun _ _ _ => rfl) run.session.bss
        have current := begin_cycle_keeps BinarySearchState.current (fun _ _ _ => rfl) run.session.bss
        refine switch_kept_quiet items run _ kept ⟨?_⟩ ?_ rfl
        · change ∀ bad, ∀ item ∈ run.session.bss.beginCycle.current bad, run.session.world.env item = bad
          rw [current]
          exact truthful.current
        · change Together items run.session.bss.beginCycle.allItems run.session.bss.beginCycle.knownGood
          rw [all, good]
          exact here
      · rw [go_search_over _ run point more]
        exact switch_kept_quiet items run _ kept truthful trivial rfl
  | cycling =>
      rw [point] at here
      by_cases more : run.session.bss.searchCycles < run.session.bss.iterations
      · rw [go_cycling _ run point more]
        exact switch_kept_begin items run kept here
      · rw [go_cycle_over _ run point more]
        exact switch_kept_quiet items run _ kept truthful here rfl
  | switchingToGood files =>
      rw [point] at here
      rw [go_switching_to_good _ run files point]
      exact switch_kept_switch items run kept _ false _ _ (fun _ _ => rfl) ⟨here.1, switched_same _ _ _, here.2⟩
  | switchingToBad files =>
      rw [point] at here
      rw [go_switching_to_bad _ run files point]
      have disjoint := divides_disjoint items distinct files here.1
      exact switch_kept_switch items run kept _ true _ _ (fun _ _ => rfl)
        ⟨here.1, switched_other _ _ _ _ _ (fun _ good bad => disjoint bad good) here.2.1, switched_same _ _ _, here.2.2⟩
  | testing files =>
      rw [point] at here
      rw [go_testing _ run files point]
      exact switch_kept_answer setup test items run files kept here.2.2.2
  | cycleEnded terminated => exact switch_kept_leave _ items distinct run terminated point kept
  | returned =>
      have stays : run.go (switchingScripts setup test) = run := by simp only [SearchRun.go, point]
      exact stays.symm ▸ kept
  | raised failure =>
      have stays : run.go (switchingScripts setup test) = run := by simp only [SearchRun.go, point]
      exact stays.symm ▸ kept

theorem switch_kept_step (setup : Option (SetFiles α → Environment α → ω → Int × ω))
    (test : SetFiles α → Environment α → ω → Int × ω) (items : List α) (distinct : items.Nodup)
    (run : SearchRun α (SwitchedWorld α ω)) (action : SearchAction (SwitchedWorld α ω)) (next : SearchRun α (SwitchedWorld α ω))
    (kept : SwitchKept items run) (taken : searchStep (switchingScripts setup test) run action = some next) :
    SwitchKept items next := by
  cases action with
  | go =>
      obtain ⟨_, rfl⟩ := go_taken _ run next taken
      exact switch_kept_go setup test items distinct run kept
  | resume world =>
      obtain ⟨saved, last, rfl⟩ := resume_taken _ run next world taken
      exact ⟨⟨by intro bad; cases bad <;> simp [BinarySearchState.current, loadState]⟩, kept.saved saved last, kept.saved⟩

-- What incremental does not decide: a state without the option and the current sets.
def BinarySearchState.plain (bss : BinarySearchState α) : BinarySearchState α :=
  { bss with incremental := false, currentlyGoodItems := [], currentlyBadItems := [] }

def Session.plain {σ : Type} (session : Session α σ) : Session α σ :=
  { session with bss := session.bss.plain, saves := session.saves.map BinarySearchState.plain }

def SearchRun.plain {σ : Type} (run : SearchRun α σ) : SearchRun α σ := { run with session := run.session.plain }

def plainResult {σ β : Type} : EStateM.Result SearchFailure (Session α σ) β → EStateM.Result SearchFailure (Session α σ) β
  | .ok value session => .ok value session.plain
  | .error failure session => .error failure session.plain

-- A program that neither reads nor changes what incremental is about.
def Plain {σ β : Type} (program : SearchM α σ β) : Prop :=
  ∀ session : Session α σ, plainResult (program session.plain) = plainResult (program session)

section Plain

variable {σ β γ : Type}

omit [DecidableEq α] in
theorem saves_plain (saves : List (BinarySearchState α)) :
    (saves.map BinarySearchState.plain).map BinarySearchState.plain = saves.map BinarySearchState.plain := by
  rw [List.map_map]
  rfl

omit [DecidableEq α] in
theorem plain_plain (session : Session α σ) : session.plain.plain = session.plain := by
  simp only [Session.plain, saves_plain]
  rfl

omit [DecidableEq α] in
theorem plain_bind (first : SearchM α σ β) (next : β → SearchM α σ γ) (plain : Plain first) (later : ∀ value, Plain (next value)) :
    Plain (first >>= next) := by
  intro session
  have same := plain session
  rw [run_bind, run_bind]
  cases ran : first session with
  | ok value after =>
      cases ranPlain : first session.plain with
      | error failure stopped => simp [ran, ranPlain, plainResult] at same
      | ok other afterPlain =>
          simp only [ran, ranPlain, plainResult, EStateM.Result.ok.injEq] at same
          obtain ⟨rfl, worlds⟩ := same
          change plainResult (next other afterPlain) = plainResult (next other after)
          rw [← later other afterPlain, worlds, later other after]
  | error failure stopped =>
      cases ranPlain : first session.plain with
      | error other stoppedPlain =>
          simp only [ran, ranPlain, plainResult, EStateM.Result.error.injEq] at same
          obtain ⟨rfl, worlds⟩ := same
          change EStateM.Result.error other stoppedPlain.plain = EStateM.Result.error other stopped.plain
          rw [worlds]
      | ok value after => simp [ran, ranPlain, plainResult] at same

omit [DecidableEq α] in
theorem plain_get (next : BinarySearchState α → SearchM α σ β) (reads : ∀ bss, next bss.plain = next bss)
    (later : ∀ bss, Plain (next bss)) : Plain (getBss >>= next) := by
  intro session
  change plainResult (next session.bss.plain session.plain) = plainResult (next session.bss session)
  rw [reads]
  exact later session.bss session

omit [DecidableEq α] in
theorem plain_modify (change : BinarySearchState α → BinarySearchState α) (commutes : ∀ bss, (change bss.plain).plain = (change bss).plain) :
    Plain (modifyBss change : SearchM α σ Unit) := by
  intro session
  simp only [run_modify_bss, plainResult, Session.plain, commutes, saves_plain]

omit [DecidableEq α] in
theorem plain_script (script : σ → Int × σ) : Plain (runScript script : SearchM α σ Int) := by
  intro session
  simp [runScript, plainResult, Session.plain, BinarySearchState.plain]

omit [DecidableEq α] in
theorem plain_throw (failure : SearchFailure) : Plain (throw failure : SearchM α σ β) := by
  intro session
  simp [run_throw, plainResult, plain_plain]

omit [DecidableEq α] in
theorem plain_pure (value : β) : Plain (pure value : SearchM α σ β) := by
  intro session
  simp [run_pure, plainResult, plain_plain]

omit [DecidableEq α] in
theorem plain_check (result : Except SearchFailure β) : Plain (check result : SearchM α σ β) := by
  cases result with
  | ok value => exact plain_pure value
  | error failure => exact plain_throw failure

omit [DecidableEq α] in
theorem plain_log (line : LogLine α) : Plain (logOutput line : SearchM α σ Unit) := by
  intro session
  simp [run_log_output, plainResult, Session.plain, BinarySearchState.plain]

omit [DecidableEq α] in
theorem plain_save : Plain (saveState : SearchM α σ Unit) := by
  intro session
  simp [run_save_state, plainResult, Session.plain, BinarySearchState.plain]

omit [DecidableEq α] in
theorem plain_test_status (scripts : Scripts α σ) (files : SetFiles α) :
    Plain (testSetupScript scripts files) ∧ Plain (testStatus scripts files) := by
  have setup : Plain (testSetupScript scripts files) := by
    unfold testSetupScript
    cases scripts.testSetupScript with
    | none => exact plain_pure 0
    | some script => exact plain_script (script files)
  refine ⟨setup, plain_bind _ _ setup fun status => ?_⟩
  by_cases ready : status = 0
  · rw [if_pos ready]
    exact plain_script (scripts.testScript files)
  · rw [if_neg ready]
    exact plain_pure status

omit [DecidableEq α] in
theorem plain_assert (status expected : Int) (message : String) : Plain (assertStatus status expected message : SearchM α σ Unit) := by
  by_cases same : status = expected
  · rw [assertStatus, if_pos same]
    exact plain_pure ()
  · rw [assertStatus, if_neg same]
    exact plain_throw _

omit [DecidableEq α] in
theorem plain_check_good_set (scripts : Scripts α σ) (files : SetFiles α) : Plain (checkGoodSet scripts files) :=
  plain_bind _ _ (plain_test_status scripts files).1 fun _ => plain_bind _ _ (plain_assert _ _ _) fun _ =>
    plain_bind _ _ (plain_script (scripts.testScript files)) fun _ => plain_assert _ _ _

omit [DecidableEq α] in
theorem plain_check_bad_set (scripts : Scripts α σ) (files : SetFiles α) : Plain (checkBadSet scripts files) :=
  plain_bind _ _ (plain_test_status scripts files).2 fun _ => plain_assert _ _ _

theorem plain_begin_iteration : Plain (beginIteration : SearchM α σ (SetFiles α)) :=
  plain_bind _ _ plain_save fun _ => plain_bind _ _ (plain_modify _ fun _ => rfl) fun _ =>
    plain_get _ (fun _ => rfl) fun _ => plain_bind _ _ (plain_check _) fun _ =>
      plain_bind _ _ (plain_modify _ fun _ => rfl) fun _ => plain_bind _ _ (plain_check _) fun _ => plain_pure _

omit [DecidableEq α] in
theorem plain_answer_test (scripts : Scripts α σ) (files : SetFiles α) : Plain (answerTest scripts files) := by
  refine plain_bind _ _ (plain_test_status scripts files).2 fun status => plain_bind _ _ ?_ fun terminated => plain_pure _
  refine plain_get _ (fun _ => rfl) fun bss => plain_bind _ _ (plain_check _) fun answer =>
    plain_bind _ _ (plain_modify _ fun _ => rfl) fun _ => ?_
  cases answer.2 with
  | true => exact plain_bind _ _ (plain_log _) fun _ => plain_pure _
  | false => exact plain_pure _

theorem plain_prune : Plain (pruneFoundItem : SearchM α σ Bool) := by
  refine plain_get _ (fun _ => rfl) fun bss => ?_
  dsimp only
  split
  · exact plain_bind _ _ (plain_log _) fun _ => plain_bind _ _ (plain_log _) fun _ => plain_pure _
  · split
    · exact plain_throw _
    · split
      · exact plain_bind _ _ (plain_log _) fun _ => plain_bind _ _ (plain_log _) fun _ =>
          plain_bind _ _ (plain_log _) fun _ => plain_pure _
      · refine plain_bind _ _ (plain_modify _ fun _ => rfl) fun _ => ?_
        split
        · exact plain_bind _ _ (plain_log _) fun _ => plain_pure _
        · exact plain_bind _ _ (plain_bind _ _ (plain_check _) fun _ => plain_modify _ fun _ => rfl) fun _ => plain_pure _

theorem plain_leave_cycle (terminated : Bool) : Plain (leaveCycle terminated : SearchM α σ Bool) := by
  have ending : Plain (endCycle terminated : SearchM α σ Bool) := by
    cases terminated with
    | true => exact plain_pure true
    | false => exact plain_bind _ _ (plain_log _) fun _ => plain_pure false
  have pruning : ∀ ended : Bool, Plain (if ended then pruneFoundItem else pure false : SearchM α σ Bool) := by
    intro ended
    cases ended with
    | true => exact plain_prune
    | false => exact plain_pure false
  exact plain_bind _ _ ending fun ended => plain_bind _ _ (plain_modify _ fun _ => rfl) fun _ => pruning ended

omit [DecidableEq α] in
theorem plain_with (run other : SearchRun α σ) (session last : Session α σ) (same : run.plain = other.plain)
    (sessions : session.plain = last.plain) :
    SearchRun.plain { run with session := session } = SearchRun.plain { other with session := last } := by
  simp only [SearchRun.plain, SearchRun.mk.injEq] at same ⊢
  exact ⟨sessions, same.2⟩

omit [DecidableEq α] in
-- One step of two runs that differ only in what incremental decides.
theorem plain_after (run other : SearchRun α σ) (program : SearchM α σ β) (next after : β → SearchRun α σ → SearchRun α σ)
    (same : run.plain = other.plain) (results : plainResult (program run.session) = plainResult (program other.session))
    (agree : ∀ value first second, first.plain = second.plain → (next value first).plain = (after value second).plain) :
    (run.after program next).plain = (other.after program after).plain := by
  cases ran : program run.session with
  | ok value session =>
      cases ranOther : program other.session with
      | error failure stopped => simp [ran, ranOther, plainResult] at results
      | ok value' session' =>
          simp only [ran, ranOther, plainResult, EStateM.Result.ok.injEq] at results
          obtain ⟨rfl, sessions⟩ := results
          rw [after_ok run program next value session ran, after_ok other program after value session' ranOther]
          exact agree value _ _ (plain_with run other session session' same sessions)
  | error failure session =>
      cases ranOther : program other.session with
      | ok value stopped => simp [ran, ranOther, plainResult] at results
      | error failure' session' =>
          simp only [ran, ranOther, plainResult, EStateM.Result.error.injEq] at results
          obtain ⟨rfl, sessions⟩ := results
          rw [after_error run program next failure session ran, after_error other program after failure session' ranOther]
          have moved := plain_with run other session session' same sessions
          simp only [SearchRun.plain, SearchRun.mk.injEq] at moved ⊢
          exact ⟨moved.1, trivial, moved.2.2⟩

omit [DecidableEq α] in
theorem plain_move (first second : SearchRun α σ) (point : SearchPoint α) (same : first.plain = second.plain) :
    (first.moveTo point).plain = (second.moveTo point).plain := by
  simp only [SearchRun.plain, SearchRun.moveTo, SearchRun.mk.injEq] at same ⊢
  exact ⟨same.1, trivial, same.2.2⟩

omit [DecidableEq α] in
theorem plain_results (program : SearchM α σ β) (plain : Plain program) (session last : Session α σ)
    (sessions : session.plain = last.plain) : plainResult (program session) = plainResult (program last) := by
  rw [← plain session, sessions, plain last]

end Plain

theorem plain_switch (script : List α → SwitchedWorld α ω → Int × SwitchedWorld α ω) (bad : Bool) (list : List α)
    (session last : Session α (SwitchedWorld α ω)) (sessions : session.plain = last.plain)
    (truthful : Truthful session.bss session.world.env) (alsoTruthful : Truthful last.bss last.world.env)
    (switches : ∀ passed world, script passed world = (0, { world with env := setItems passed bad world.env })) :
    plainResult (switchItems script bad list session) = plainResult (switchItems script bad list last) := by
  obtain ⟨good, other, ran, _⟩ := switch_items_spec SwitchedWorld.env (fun env world => { world with env := env })
    (fun _ => rfl) script bad list session truthful switches
  obtain ⟨lastGood, lastOther, ranLast, _⟩ := switch_items_spec SwitchedWorld.env (fun env world => { world with env := env })
    (fun _ => rfl) script bad list last alsoTruthful switches
  rw [ran, ranLast]
  simp only [Session.plain, Session.mk.injEq] at sessions
  obtain ⟨bss, worlds, saves, log⟩ := sessions
  have states : (session.bss.withCurrent good other).plain = (last.bss.withCurrent lastGood lastOther).plain := bss
  simp only [plainResult, Session.plain, states, worlds, saves, log]

theorem plain_ended_cycle {σ : Type} (run other : SearchRun α σ) (same : run.plain = other.plain) (goesOn : Bool)
    (first second : SearchRun α σ) (results : first.plain = second.plain) :
    (run.endedCycle goesOn first).plain = (other.endedCycle goesOn second).plain := by
  simp only [SearchRun.plain, SearchRun.mk.injEq, Session.plain, Session.mk.injEq] at same results
  have found := congrArg BinarySearchState.foundItems same.1.1
  have items := congrArg BinarySearchState.allItems same.1.1
  have current := congrArg (fun bss => bss.binarySearch.current) same.1.1
  have foundAfter := congrArg BinarySearchState.foundItems results.1.1
  have newly : run.newlyFound first = other.newlyFound second := by
    change first.session.bss.foundItems = second.session.bss.foundItems at foundAfter
    change run.session.bss.foundItems = other.session.bss.foundItems at found
    change run.session.bss.allItems = other.session.bss.allItems at items
    change run.session.bss.binarySearch.current = other.session.bss.binarySearch.current at current
    simp only [SearchRun.newlyFound, foundAfter, found, items, current, same.2.2.1]
  simp only [SearchRun.plain, SearchRun.endedCycle, newly, same.2.2, results.2.2, Session.plain, results.1]

omit [DecidableEq α] in
theorem plain_field {δ : Type} (field : BinarySearchState α → δ) (ignores : ∀ bss : BinarySearchState α, field bss.plain = field bss)
    (first second : BinarySearchState α) (same : first.plain = second.plain) : field first = field second := by
  rw [← ignores first, same, ignores second]

-- Two runs of the same search, one of them perhaps incremental.
theorem plain_go (setup : Option (SetFiles α → Environment α → ω → Int × ω)) (test : SetFiles α → Environment α → ω → Int × ω)
    (run other : SearchRun α (SwitchedWorld α ω)) (same : run.plain = other.plain)
    (truthful : Truthful run.session.bss run.session.world.env) (alsoTruthful : Truthful other.session.bss other.session.world.env) :
    (run.go (switchingScripts setup test)).plain = (other.go (switchingScripts setup test)).plain := by
  have fields := same
  simp only [SearchRun.plain, SearchRun.mk.injEq] at fields
  obtain ⟨sessions, points, tests, saved, found⟩ := fields
  have parts := sessions
  simp only [Session.plain, Session.mk.injEq] at parts
  obtain ⟨bss, worlds, _, _⟩ := parts
  have items : run.session.bss.allItems = other.session.bss.allItems :=
    plain_field BinarySearchState.allItems (fun _ => rfl) _ _ bss
  have switched : ∀ (script : List α → SwitchedWorld α ω → Int × SwitchedWorld α ω) (bad : Bool) (list : List α) (point : SearchPoint α),
      (∀ passed world, script passed world = (0, { world with env := setItems passed bad world.env })) →
      (run.after (switchItems script bad list) fun _ next => next.moveTo point).plain =
        (other.after (switchItems script bad list) fun _ next => next.moveTo point).plain :=
    fun script bad list point switches => plain_after run other _ _ _ same
      (plain_switch script bad list _ _ sessions truthful alsoTruthful switches) fun _ _ _ => plain_move _ _ point
  cases point : run.point with
  | verifying =>
      have pointOther := points.symm.trans point
      have verifies : run.session.bss.verify = other.session.bss.verify :=
        plain_field BinarySearchState.verify (fun _ => rfl) _ _ bss
      by_cases verify : run.session.bss.verify = true
      · rw [go_verifying _ run point verify, go_verifying _ other pointOther (verifies ▸ verify), items]
        exact switched _ false _ _ fun _ _ => rfl
      · rw [go_unverified _ run point verify, go_unverified _ other pointOther (verifies ▸ verify)]
        exact plain_move run other _ same
  | resetToGood files =>
      rw [go_reset_to_good _ run files point, go_reset_to_good _ other files (points.symm.trans point)]
      exact plain_after run other _ _ _ same (plain_results _ (plain_check_good_set _ files) _ _ sessions)
        fun _ _ _ => plain_move _ _ _
  | goodVerified =>
      rw [go_good_verified _ run point, go_good_verified _ other (points.symm.trans point), items]
      exact switched _ true _ _ fun _ _ => rfl
  | resetToBad files =>
      rw [go_reset_to_bad _ run files point, go_reset_to_bad _ other files (points.symm.trans point)]
      exact plain_after run other _ _ _ same (plain_results _ (plain_check_bad_set _ files) _ _ sessions)
        fun _ _ _ => plain_move _ _ _
  | searching =>
      have pointOther := points.symm.trans point
      have cycles : run.session.bss.pruneCycles = other.session.bss.pruneCycles ∧
          run.session.bss.pruneIterations = other.session.bss.pruneIterations :=
        ⟨plain_field BinarySearchState.pruneCycles (fun _ => rfl) _ _ bss,
          plain_field BinarySearchState.pruneIterations (fun _ => rfl) _ _ bss⟩
      by_cases more : run.session.bss.allItems.length > 1 ∧ run.session.bss.pruneCycles < run.session.bss.pruneIterations
      · have moreOther := more
        rw [items, cycles.1, cycles.2] at moreOther
        rw [go_searching _ run point more, go_searching _ other pointOther moreOther]
        have begins : Plain (modifyBss BinarySearchState.beginCycle : SearchM α (SwitchedWorld α ω) Unit) := by
          apply plain_modify
          intro state
          cases resumed : state.resumed <;> simp [BinarySearchState.beginCycle, BinarySearchState.plain, resumed]
        exact plain_after run other _ _ _ same (plain_results _ begins _ _ sessions) fun _ _ _ => plain_move _ _ _
      · have overOther := more
        rw [items, cycles.1, cycles.2] at overOther
        rw [go_search_over _ run point more, go_search_over _ other pointOther overOther]
        exact plain_move run other _ same
  | cycling =>
      have pointOther := points.symm.trans point
      have cycles : run.session.bss.searchCycles = other.session.bss.searchCycles ∧
          run.session.bss.iterations = other.session.bss.iterations :=
        ⟨plain_field BinarySearchState.searchCycles (fun _ => rfl) _ _ bss,
          plain_field BinarySearchState.iterations (fun _ => rfl) _ _ bss⟩
      by_cases more : run.session.bss.searchCycles < run.session.bss.iterations
      · have moreOther := more
        rw [cycles.1, cycles.2] at moreOther
        rw [go_cycling _ run point more, go_cycling _ other pointOther moreOther]
        have begun : SearchRun.plain { run with savedTests := run.tests } = SearchRun.plain { other with savedTests := other.tests } := by
          simp only [SearchRun.plain, sessions, points, tests, found]
        exact plain_after _ _ _ _ _ begun (plain_results _ plain_begin_iteration _ _ sessions) fun _ _ _ => plain_move _ _ _
      · have overOther := more
        rw [cycles.1, cycles.2] at overOther
        rw [go_cycle_over _ run point more, go_cycle_over _ other pointOther overOther]
        exact plain_move run other _ same
  | switchingToGood files =>
      rw [go_switching_to_good _ run files point, go_switching_to_good _ other files (points.symm.trans point)]
      exact switched _ false _ _ fun _ _ => rfl
  | switchingToBad files =>
      rw [go_switching_to_bad _ run files point, go_switching_to_bad _ other files (points.symm.trans point)]
      exact switched _ true _ _ fun _ _ => rfl
  | testing files =>
      rw [go_testing _ run files point, go_testing _ other files (points.symm.trans point)]
      have current : run.session.bss.binarySearch.current = other.session.bss.binarySearch.current :=
        plain_field (fun state => state.binarySearch.current) (fun _ => rfl) _ _ bss
      refine plain_after run other _ _ _ same (plain_results _ (plain_answer_test _ files) _ _ sessions)
        fun answer first second results => ?_
      apply plain_move
      simp only [SearchRun.plain, SearchRun.mk.injEq] at results
      simp only [SearchRun.plain, SearchRun.recordTest, results, tests, current, worlds]
  | cycleEnded terminated =>
      rw [go_cycle_ended _ run terminated point, go_cycle_ended _ other terminated (points.symm.trans point)]
      exact plain_after run other _ _ _ same (plain_results _ (plain_leave_cycle terminated) _ _ sessions)
        (plain_ended_cycle run other same)
  | returned => simpa only [SearchRun.go, point, points.symm.trans point] using same
  | raised failure => simpa only [SearchRun.go, point, points.symm.trans point] using same

theorem plain_step (setup : Option (SetFiles α → Environment α → ω → Int × ω)) (test : SetFiles α → Environment α → ω → Int × ω)
    (run other : SearchRun α (SwitchedWorld α ω)) (action : SearchAction (SwitchedWorld α ω)) (same : run.plain = other.plain)
    (truthful : Truthful run.session.bss run.session.world.env) (alsoTruthful : Truthful other.session.bss other.session.world.env) :
    (searchStep (switchingScripts setup test) run action).map SearchRun.plain =
      (searchStep (switchingScripts setup test) other action).map SearchRun.plain := by
  have fields := same
  simp only [SearchRun.plain, SearchRun.mk.injEq] at fields
  obtain ⟨sessions, points, tests, saved, found⟩ := fields
  cases action with
  | go =>
      simp only [searchStep, points]
      split
      · rfl
      · exact congrArg some (plain_go setup test run other same truthful alsoTruthful)
  | resume world =>
      simp only [Session.plain, Session.mk.injEq] at sessions
      obtain ⟨_, _, saves, log⟩ := sessions
      simp only [searchStep, points]
      split
      · rfl
      · have last : run.session.saves.getLast?.map BinarySearchState.plain = other.session.saves.getLast?.map BinarySearchState.plain := by
          rw [← List.getLast?_map, ← List.getLast?_map, saves]
        cases here : run.session.saves.getLast? with
        | none =>
            have none_saved : other.session.saves.getLast? = none := by simpa [here] using last.symm
            rw [none_saved]
            rfl
        | some state =>
            obtain ⟨otherState, there, states⟩ : ∃ otherState, other.session.saves.getLast? = some otherState ∧
                otherState.plain = state.plain := by simpa [here] using last.symm
            rw [there]
            have loaded : (loadState state).plain = (loadState otherState).plain :=
              congrArg (fun bss => { bss with resumed := true }) states.symm
            simp only [Option.map_some, SearchRun.plain, Session.plain, loaded, saves, log, saved, found]

-- What the scripts and the user see of a run.
def SearchRun.observed {σ : Type} (run : SearchRun α σ) : SearchPoint α × σ × List (TestRecord α σ) :=
  (run.point, run.session.world, run.tests)

theorem plain_exec (setup : Option (SetFiles α → Environment α → ω → Int × ω)) (test : SetFiles α → Environment α → ω → Int × ω)
    (items : List α) (distinct : items.Nodup) (actions : List (SearchAction (SwitchedWorld α ω)))
    (run other : SearchRun α (SwitchedWorld α ω)) (same : run.plain = other.plain) (kept : SwitchKept items run)
    (otherKept : SwitchKept items other) :
    (exec (searchStep (switchingScripts setup test)) run actions).map SearchRun.observed =
      (exec (searchStep (switchingScripts setup test)) other actions).map SearchRun.observed := by
  induction actions generalizing run other with
  | nil =>
      simp only [SearchRun.plain, SearchRun.mk.injEq, Session.plain, Session.mk.injEq] at same
      simp only [exec, Option.map_some, SearchRun.observed, same]
  | cons action rest ih =>
      have step := plain_step setup test run other action same kept.truthful otherKept.truthful
      cases taken : searchStep (switchingScripts setup test) run action with
      | none =>
          have stuck : searchStep (switchingScripts setup test) other action = none := by simpa [taken] using step.symm
          simp only [exec, taken, stuck, Option.bind_none]
      | some next =>
          obtain ⟨otherNext, takenOther, agree⟩ : ∃ otherNext, searchStep (switchingScripts setup test) other action = some otherNext ∧
              otherNext.plain = next.plain := by simpa [taken] using step.symm
          simp only [exec, taken, takenOther, Option.bind_some]
          exact ih next otherNext agree.symm (switch_kept_step setup test items distinct run action next kept taken)
            (switch_kept_step setup test items distinct other action otherNext otherKept takenOther)

omit [DecidableEq α] in
theorem switch_kept_begin_search (items : List α) (start : BinarySearchState α) (world : SwitchedWorld α ω)
    (listed : start.allItems = items) (unknown : start.knownGood = []) (unswitched : ∀ bad, start.current bad = []) :
    SwitchKept items (beginSearch start world) := by
  refine ⟨⟨fun bad item member => ?_⟩, ⟨?_, unknown⟩, by simp [beginSearch]⟩
  · rw [beginSearch, unswitched bad] at member
    exact absurd member List.not_mem_nil
  · change Together items start.allItems start.knownGood
    rw [Together, listed, unknown, List.append_nil]

def BinarySearchState.withIncremental (bss : BinarySearchState α) (incremental : Bool) : BinarySearchState α :=
  { bss with incremental := incremental }

theorem incremental_switching_right (setup : Option (SetFiles α → Environment α → ω → Int × ω))
    (test : SetFiles α → Environment α → ω → Int × ω) (options : Options) (items : List α) (distinct : items.Nodup)
    (start : BinarySearchState α) (created : newState options items = .ok start) (world : SwitchedWorld α ω)
    (actions : List (SearchAction (SwitchedWorld α ω))) :
    Throughout (searchStep (switchingScripts setup test)) (SwitchedRight items) (beginSearch start world) actions ∧
      (exec (searchStep (switchingScripts setup test)) (beginSearch (start.withIncremental true) world) actions).map SearchRun.observed =
        (exec (searchStep (switchingScripts setup test)) (beginSearch (start.withIncremental false) world) actions).map
          SearchRun.observed := by
  obtain ⟨same, created', fresh⟩ := new_state_ok options items (new_state_items options items start created)
  obtain rfl : start = same := Except.ok.inj (created.symm.trans created')
  have kept : ∀ incremental, SwitchKept items (beginSearch (start.withIncremental incremental) world) := by
    intro incremental
    rw [fresh]
    exact switch_kept_begin_search items _ world rfl rfl (by intro bad; cases bad <;> rfl)
  constructor
  · apply throughout_mono _ (SwitchKept items) _ (switch_kept_right items distinct)
    apply throughout_invariant _ _ (switch_kept_step setup test items distinct)
    exact kept start.incremental
  · exact plain_exec setup test items distinct actions _ _ rfl (kept true) (kept false)

theorem incremental_switching_of_two : ∃ start, newState ⟨true, true, 3, 4, true⟩ [0, 1] = .ok start ∧
    Throughout (searchStep (switchingScripts none fun files _ answers => (if files.badSet = [] then 0 else 1, answers + 1)))
      (SwitchedRight [0, 1]) (beginSearch start ⟨fun _ => false, 0⟩) (List.replicate 20 .go) ∧
    (exec (searchStep (switchingScripts none fun files _ answers => (if files.badSet = [] then 0 else 1, answers + 1)))
        (beginSearch (start.withIncremental true) ⟨fun _ => false, 0⟩) (List.replicate 20 .go)).map SearchRun.observed =
      (exec (searchStep (switchingScripts none fun files _ answers => (if files.badSet = [] then 0 else 1, answers + 1)))
        (beginSearch (start.withIncremental false) ⟨fun _ => false, 0⟩) (List.replicate 20 .go)).map SearchRun.observed := by
  obtain ⟨start, created, _⟩ := new_state_ok ⟨true, true, 3, 4, true⟩ [0, 1] (by decide)
  exact ⟨start, created, incremental_switching_right none (fun files _ (answers : Nat) => (if files.badSet = [] then 0 else 1, answers + 1))
    ⟨true, true, 3, 4, true⟩ [0, 1] (by decide) start created ⟨fun _ => false, 0⟩ (List.replicate 20 .go)⟩

end ToolchainUtils.BinarySearchTool
