import ToolchainUtils.BinarySearchTool.Prune
import ToolchainUtils.BinarySearchTool.SearchSimulation
import ToolchainUtils.BinarySearchTool.PackageTrees

set_option autoImplicit false

namespace ToolchainUtils.BinarySearchTool

variable {Content ω : Type}

theorem copy_package_copies (source : PackageFiles Content) (hasDirectory : PyString.Text → Bool) (name : PyString.Text)
    (work : PackageFiles Content) (copies : copyable source hasDirectory name = true) :
    copyPackage source hasDirectory name work = (0, Function.update work name (source name)) := by
  obtain ⟨present, directory⟩ := (Bool.and_eq_true _ _).mp copies
  obtain ⟨content, same⟩ := Option.isSome_iff_exists.mp present
  rw [copyPackage, same]
  exact if_pos directory

theorem copy_package_fails (source : PackageFiles Content) (hasDirectory : PyString.Text → Bool) (name : PyString.Text)
    (work : PackageFiles Content) (fails : ¬ copyable source hasDirectory name = true) :
    copyPackage source hasDirectory name work = (1, work) := by
  rw [copyable, Bool.and_eq_true, not_and] at fails
  cases present : source name with
  | none => rw [copyPackage, present]
  | some content =>
      rw [copyPackage, present]
      exact if_neg (fails (by rw [present]; rfl))

-- A copy that fails is never forgotten, and what is listed comes from the source.
theorem copy_packages_status (source : PackageFiles Content) (hasDirectory : PyString.Text → Bool) (names : List PyString.Text)
    (status : Int) (work : PackageFiles Content) :
    (copyPackages source hasDirectory status work names).1 = if names.all (copyable source hasDirectory) then status else 2 := by
  induction names generalizing status work with
  | nil => rfl
  | cons name rest ih =>
      by_cases copies : copyable source hasDirectory name = true
      · rw [copyPackages, copy_package_copies _ _ _ _ copies, ih, List.all_cons, copies, Bool.true_and]
        rfl
      · rw [copyPackages, copy_package_fails _ _ _ _ copies, ih, List.all_cons, Bool.not_eq_true _ |>.mp copies, Bool.false_and]
        simp

theorem copy_packages_work (source : PackageFiles Content) (hasDirectory : PyString.Text → Bool) (names : List PyString.Text)
    (status : Int) (work : PackageFiles Content) (all : ∀ name ∈ names, copyable source hasDirectory name = true) :
    (copyPackages source hasDirectory status work names).2 = fun name => if name ∈ names then source name else work name := by
  induction names generalizing status work with
  | nil => rfl
  | cons name rest ih =>
      obtain ⟨here, later⟩ := List.forall_mem_cons.mp all
      rw [copyPackages, copy_package_copies _ _ _ _ here, ih _ _ later]
      funext other
      by_cases behind : other ∈ rest
      · simp [behind]
      · by_cases same : other = name
        · simp [same]
        · simp [behind, same]

theorem names_copyable (trees : PackageTrees Content) (bad : Bool) (items : List trees.Package) :
    (trees.names items).all (copyable (trees.side bad) trees.hasDirectory) = items.all (trees.copies bad) := by
  rw [PackageTrees.names, List.all_map]
  rfl

theorem package_name_injective (trees : PackageTrees Content) (first second : trees.Package) (same : first.1.text = second.1.text) :
    first = second := by
  obtain ⟨⟨text, filled, named⟩, listed⟩ := first
  obtain ⟨⟨other, otherFilled, otherNamed⟩, otherListed⟩ := second
  cases same
  rfl

theorem name_member (trees : PackageTrees Content) (items : List trees.Package) (item : trees.Package) :
    item.1.text ∈ trees.names items ↔ item ∈ items := by
  rw [PackageTrees.names, List.mem_map]
  constructor
  · rintro ⟨other, member, same⟩
    exact package_name_injective trees other item same ▸ member
  · exact fun member => ⟨item, member, rfl⟩

theorem switch_package_script_eq (trees : PackageTrees Content) (bad : Bool) (items : List trees.Package)
    (world : PackageWorld Content ω) :
    switchPackageScript trees bad items world =
      ((copyPackages (trees.side bad) trees.hasDirectory 0 world.work (trees.names items)).1,
        { world with work := (copyPackages (trees.side bad) trees.hasDirectory 0 world.work (trees.names items)).2 }) := by
  have read : readPackages (listFile (trees.names items)) = trees.names items := by
    have names : trees.names items = (items.map Subtype.val).map PackageName.text := by
      rw [PackageTrees.names, List.map_map]
      rfl
    rw [names, read_packages_list]
  simp only [switchPackageScript, switchPackages, read]

-- The known items come from the tree that env names, all other files are as they were.
structure Shows (trees : PackageTrees Content) (start : PackageFiles Content) (known : trees.Package → Prop)
    (world : PackageWorld Content ω) (sides : SwitchedWorld trees.Package ω) : Prop where
  rest : world.rest = sides.rest
  known : ∀ item, known item → world.work item.1.text = trees.side (sides.env item) item.1.text
  others : ∀ name, (∀ item : trees.Package, item.1.text ≠ name) → world.work name = start name

theorem shows_switched (trees : PackageTrees Content) (start : PackageFiles Content) (bad : Bool) :
    SwitchAlike (Shows (ω := ω) trees start) (switchPackageScript trees bad) (switchSides trees bad) := by
  intro list known world sides shows
  rw [switch_package_script_eq]
  have status := copy_packages_status (trees.side bad) trees.hasDirectory (trees.names list) 0 world.work
  rw [names_copyable] at status
  by_cases all : list.all (trees.copies bad) = true
  · rw [switchSides, if_pos all]
    refine ⟨by rw [status, if_pos all], fun _ => ⟨shows.rest, ?_, ?_⟩⟩
    all_goals
      have copied := copy_packages_work (trees.side bad) trees.hasDirectory (trees.names list) 0 world.work
        (by rw [← List.all_eq_true, names_copyable]; exact all)
    · intro item member
      change (copyPackages _ _ _ _ _).2 item.1.text = trees.side (setItems list bad sides.env item) item.1.text
      rw [copied]
      dsimp only
      by_cases listed : item ∈ list
      · rw [if_pos ((name_member trees list item).mpr listed), setItems, if_pos listed]
      · rw [if_neg fun member => listed ((name_member trees list item).mp member), setItems, if_neg listed]
        exact shows.known item (member.resolve_left listed)
    · intro name foreign
      change (copyPackages _ _ _ _ _).2 name = start name
      rw [copied]
      dsimp only
      rw [if_neg ?_, shows.others name foreign]
      intro member
      obtain ⟨item, _, same⟩ := List.mem_map.mp member
      exact foreign item same
  · rw [switchSides, if_neg all]
    refine ⟨by rw [status, if_neg all], fun succeeded => ?_⟩
    rw [status, if_neg all] at succeeded
    exact absurd succeeded (by decide)

theorem shows_image (trees : PackageTrees Content) (start : PackageFiles Content) (known : trees.Package → Prop)
    (world : PackageWorld Content ω) (sides : SwitchedWorld trees.Package ω) (shows : Shows trees start known world sides)
    (all : ∀ item ∈ trees.packages, known item) : world.work = trees.image start sides.env := by
  funext name
  rw [PackageTrees.image]
  cases found : trees.packages.find? fun item => item.1.text == name with
  | some item =>
      have same : item.1.text = name := by simpa using List.find?_some found
      rw [← same]
      exact shows.known item (all item (List.mem_of_find?_eq_some found))
  | none =>
      refine shows.others name fun item same => ?_
      have listed : item ∈ trees.packages := List.mem_attach _ _
      exact absurd (beq_iff_eq.mpr same) (List.find?_eq_none.mp found item listed)

theorem shows_tested (trees : PackageTrees Content) (start : PackageFiles Content) (test : PackageFiles Content → ω → Int × ω) :
    TestAlike trees.packages (Shows trees start) (testPackageScript test) (testSides trees start test) := by
  intro known world sides all shows
  have image := shows_image trees start known world sides shows all
  rw [testPackageScript, testSides, image, shows.rest]
  exact ⟨rfl, rfl, fun item member => image ▸ shows.known item member, fun name foreign => image ▸ shows.others name foreign⟩

theorem package_scripts_alike (trees : PackageTrees Content) (start : PackageFiles Content)
    (setup test : PackageFiles Content → ω → Int × ω) :
    ScriptsAlike trees.packages (Shows trees start) (packageScripts trees setup test) (sideScripts trees start setup test) where
  fewer _ _ _ _ subset shows := ⟨shows.rest, fun item member => shows.known item (subset item member), shows.others⟩
  switchToGood _ := shows_switched trees start false
  switchToBad _ := shows_switched trees start true
  testSetupScript := .some fun _ => shows_tested trees start setup
  testScript _ := shows_tested trees start test

theorem new_search_listed {α : Type} (options : Options) (items : List α) (begun : BinarySearchState α)
    (created : newState options items = .ok begun) : Listed items begun ∧ ∀ item, ¬ begun.Switched item := by
  obtain ⟨same, created', fresh⟩ := new_state_ok options items (new_state_items options items begun created)
  obtain rfl : begun = same := Except.ok.inj (created.symm.trans created')
  rw [fresh]
  refine ⟨⟨rfl, fun item member => member⟩, ?_⟩
  rintro item ⟨bad, member⟩
  cases bad <;> exact absurd member List.not_mem_nil

theorem package_run_alike (trees : PackageTrees Content) (setup test : PackageFiles Content → ω → Int × ω) (options : Options)
    (begun : BinarySearchState trees.Package) (created : newState options trees.packages = .ok begun) (world : PackageWorld Content ω)
    (env : Environment trees.Package) :
    EndsAlike (Covers trees.packages)
      (fun _ => Seen (Covers trees.packages) (Shows trees world.work) fun _ => False)
      (run (packageScripts trees setup test) ⟨begun, world, [], []⟩)
      (run (sideScripts trees world.work setup test) ⟨begun, ⟨env, world.rest⟩, [], []⟩) := by
  obtain ⟨listed, unswitched⟩ := new_search_listed options trees.packages begun created
  exact simulates_run (package_scripts_alike trees world.work setup test) _ _
    ⟨rfl, ⟨rfl, fun _ none => absurd none List.not_mem_nil⟩, rfl,
      listed, ⟨rfl, fun item known => absurd known (unswitched item), fun _ _ => rfl⟩, fun _ none => none.elim⟩

-- The scripts with real trees do what the search with sides does, whatever the work tree holds at
-- the start and whatever becomes of it before a search is resumed.
theorem package_search_refines_sides (trees : PackageTrees Content) (setup test : PackageFiles Content → ω → Int × ω)
    (options : Options) (begun : BinarySearchState trees.Package) (created : newState options trees.packages = .ok begun)
    (world : PackageWorld Content ω) (env : Environment trees.Package) :
    PyString.split (getInitialItems trees) = (trees.packages.map fun item => item.1.text) ∧
    EndsAlike (Covers trees.packages)
      (fun _ => Seen (Covers trees.packages) (Shows trees world.work) fun _ => False)
      (run (packageScripts trees setup test) ⟨begun, world, [], []⟩)
      (run (sideScripts trees world.work setup test) ⟨begun, ⟨env, world.rest⟩, [], []⟩) ∧
    ∀ saved, SavedDuring (packageScripts trees setup test) ⟨begun, world, [], []⟩ saved → ∀ later : PackageWorld Content ω,
      EndsAlike (Covers trees.packages)
        (fun _ => Seen (Covers trees.packages) (Shows trees later.work) fun _ => False)
        (resume (packageScripts trees setup test) saved later)
        (resume (sideScripts trees later.work setup test) saved ⟨env, later.rest⟩) := by
  obtain ⟨listed, _⟩ := new_search_listed options trees.packages begun created
  refine ⟨initial_items_split trees, package_run_alike trees setup test options begun created world env, fun saved during later => ?_⟩
  have covers := saved_during_covers (packageScripts trees setup test) ⟨begun, world, [], []⟩ listed rfl saved during
  exact resumes_alike (package_scripts_alike trees later.work setup test) saved later ⟨env, later.rest⟩ covers
    ⟨rfl, fun _ none => none.elim, fun _ _ => rfl⟩

-- The image can always be built and tried, and it is bad exactly when one of the culprits in it
-- comes from the bad tree.
structure Culprits (trees : PackageTrees Content) (start : PackageFiles Content) (setup test : PackageFiles Content → ω → Int × ω)
    (bad : Finset trees.Package) : Prop where
  nonempty : bad.Nonempty
  builds : ∀ env rest, (setup (trees.image start env) rest).1 = 0
  test : ∀ env rest, (test (trees.image start env) rest).1 = badSetTest bad env

theorem switch_sides_alike (trees : PackageTrees Content) (bad : Bool) (copies : ∀ item, trees.copies bad item = true)
    (script : List trees.Package → Environment trees.Package → Int × Environment trees.Package)
    (switches : ∀ list env, script list env = (0, setItems list bad env)) :
    SwitchAlike (fun _ sides env => sides.env = env) (switchSides (ω := ω) trees bad) script := by
  intro list known sides env same
  have all : list.all (trees.copies bad) = true := List.all_eq_true.mpr fun item _ => copies item
  rw [switchSides, if_pos all, switches, ← same]
  exact ⟨rfl, fun _ => rfl⟩

theorem side_scripts_alike (trees : PackageTrees Content) (start : PackageFiles Content)
    (setup test : PackageFiles Content → ω → Int × ω) (bad : Finset trees.Package) (culprits : Culprits trees start setup test bad)
    (copies : ∀ side item, trees.copies side item = true) :
    ScriptsAlike trees.packages (fun _ sides env => sides.env = env) (sideScripts trees start setup test)
      (badSetScripts true bad) where
  fewer _ _ _ _ _ same := same
  switchToGood _ := switch_sides_alike trees false (copies false) _ fun _ _ => rfl
  switchToBad _ := switch_sides_alike trees true (copies true) _ fun _ _ => rfl
  testSetupScript := .some fun _ _ sides _ _ same => ⟨culprits.builds sides.env sides.rest, same⟩
  testScript _ _ sides env _ same := ⟨by rw [← same]; exact culprits.test sides.env sides.rest, same⟩

theorem bad_set_run_finds {α : Type} [DecidableEq α] (options : Options) (items : List α) (bad : Finset α) (world : Environment α)
    (begun : BinarySearchState α) (created : newState options items = .ok begun) (several : 2 ≤ items.length) (distinct : items.Nodup)
    (subset : ∀ item ∈ bad, item ∈ items) (nonempty : bad.Nonempty) (prune : options.prune = true)
    (enough : Nat.clog 2 items.length ≤ options.iterations) (rounds : bad.card < options.pruneIterations) :
    ∃ final report, run (badSetScripts true bad) ⟨begun, world, [], []⟩ = .ok () final ∧
      reportedItems final = bad ∧ final.log.getLast? = some (.badItemsAre report) ∧ report.toFinset = bad := by
  obtain ⟨start, created', settings⟩ := new_state_ok options items (by omega)
  obtain rfl : begun = start := Except.ok.inj (created.symm.trans created')
  have unswitched : Truthful begun world := by
    rw [settings]
    exact ⟨by intro side; cases side <;> simp [BinarySearchState.current]⟩
  have listed : begun.allItems = items := by rw [settings]
  obtain ⟨good, other, env, verified, truthful⟩ := do_verify_passes true bad nonempty ⟨begun, world, [], []⟩ unswitched
    (by rw [listed]; exact subset)
  have pruning : Pruning items bad (begun.withCurrent good other) items [] := by
    rw [settings]
    exact ⟨(List.append_nil items).symm, distinct, several, Nat.le_refl _, by simp [BinarySearchState.withCurrent], by simp, subset,
      rfl,
      prune, rfl, enough⟩
  obtain ⟨final, report, searched, found, shown, same⟩ := search_cycles_find true items bad nonempty options.pruneIterations items []
    ⟨begun.withCurrent good other, env, [], []⟩ truthful pruning rounds (by simp)
  refine ⟨final, report, ?_, found, shown, same⟩
  rw [run, run_bind, verified, ← searched, settings]
  rfl

-- A first switch passes the whole list.
theorem first_switch_passes {α : Type} [DecidableEq α] (bss : BinarySearchState α) (bad : Bool) (list : List α)
    (unswitched : bss.current bad = []) : list = if bss.incremental then list.filter (· ∉ bss.current bad) else list := by
  rw [unswitched]
  split
  · rw [List.filter_eq_self.mpr]
    simp
  · rfl

theorem switch_sides_fails (trees : PackageTrees Content) (bad : Bool) (list : List trees.Package) (nonempty : list ≠ [])
    (fails : ¬ list.all (trees.copies bad) = true) (session : Session trees.Package (SwitchedWorld trees.Package ω))
    (unswitched : session.bss.current bad = []) :
    switchItems (switchSides trees bad) bad list session = .error (.switchAssertion 2) session := by
  rw [switch_items_eq _ bad list list session (first_switch_passes session.bss bad list unswitched), if_neg nonempty, switchSides,
    if_neg fails]
  rfl

theorem switch_sides_succeeds (trees : PackageTrees Content) (bad : Bool) (list : List trees.Package) (nonempty : list ≠ [])
    (copies : list.all (trees.copies bad) = true) (session : Session trees.Package (SwitchedWorld trees.Package ω))
    (unswitched : session.bss.current bad = []) :
    switchItems (switchSides trees bad) bad list session = .ok () { session with
      bss := session.bss.recordSwitch list bad
      world := { session.world with env := setItems list bad session.world.env } } := by
  rw [switch_items_eq _ bad list list session (first_switch_passes session.bss bad list unswitched), if_neg nonempty, switchSides,
    if_pos copies]
  rfl

theorem sides_stop_in_verify (trees : PackageTrees Content) (start : PackageFiles Content)
    (setup test : PackageFiles Content → ω → Int × ω) (bad : Finset trees.Package) (culprits : Culprits trees start setup test bad)
    (options : Options) (begun : BinarySearchState trees.Package) (created : newState options trees.packages = .ok begun)
    (verify : options.verify = true) (env : Environment trees.Package) (rest : ω)
    (fails : ¬ ∀ side item, trees.copies side item = true) :
    ∃ stopped, run (sideScripts trees start setup test) ⟨begun, ⟨env, rest⟩, [], []⟩ = .error (.switchAssertion 2) stopped := by
  have positive := new_state_items options trees.packages begun created
  have nonempty : trees.packages ≠ [] := List.ne_nil_of_length_pos positive
  obtain ⟨begun', created', settings⟩ := new_state_ok options trees.packages positive
  obtain rfl : begun = begun' := Except.ok.inj (created.symm.trans created')
  have items : begun.allItems = trees.packages := by rw [settings]
  have verified : begun.verify = true := by rw [settings, verify]
  have good : begun.current false = [] := by rw [settings]; rfl
  by_cases goodCopies : trees.packages.all (trees.copies false) = true
  · -- The good set passes, and so the bad copies fail.
    have badFails : ¬ trees.packages.all (trees.copies true) = true := by
      intro badCopies
      refine fails fun side item => ?_
      have listed : item ∈ trees.packages := List.mem_attach _ _
      cases side with
      | false => exact List.all_eq_true.mp goodCopies item listed
      | true => exact List.all_eq_true.mp badCopies item listed
    have bad' : (begun.recordSwitch trees.packages false).current true = [] := by
      rw [settings]
      rfl
    have passes : badSetTest bad (setItems trees.packages false env) = 0 :=
      (bad_set_test_all trees.packages bad env (fun item _ => List.mem_attach _ _) culprits.nonempty).1
    simp only [run, doVerify, verifyGoodSet, verifyBadSet, switchToGood, switchToBad, sideScripts, run_bind, run_get_bss, verified,
      if_true, items]
    rw [switch_sides_succeeds trees false trees.packages nonempty goodCopies _ good]
    simp only [testSetupScript, testScript, runScript, testSides, culprits.builds, culprits.test, passes, assertStatus, if_true,
      run_pure]
    rw [switch_sides_fails trees true _ ?_ ?_ _ bad']
    · exact ⟨_, rfl⟩
    · exact fun empty => nonempty (items.symm.trans empty)
    · exact fun all => badFails (items ▸ all)
  · simp only [run, doVerify, verifyGoodSet, switchToGood, sideScripts, run_bind, run_get_bss, verified, if_true, items]
    rw [switch_sides_fails trees false trees.packages nonempty goodCopies _ good]
    exact ⟨_, rfl⟩

-- With two trees that hold all packages, the bisection finds the culprits; with verify it stops
-- before the search when a package cannot be copied from one of them.
theorem package_search_finds_culprits (trees : PackageTrees Content) (setup test : PackageFiles Content → ω → Int × ω)
    (options : Options) (world : PackageWorld Content ω) (bad : Finset trees.Package)
    (culprits : Culprits trees world.work setup test bad) (several : 2 ≤ trees.found.length) (prune : options.prune = true)
    (enough : Nat.clog 2 trees.found.length ≤ options.iterations) (rounds : bad.card < options.pruneIterations) :
    ∃ begun, newState options trees.packages = .ok begun ∧
      ((∀ side item, trees.copies side item = true) →
        ∃ final report, run (packageScripts trees setup test) ⟨begun, world, [], []⟩ = .ok () final ∧ reportedItems final = bad ∧
          final.log.getLast? = some (.badItemsAre report) ∧ report.toFinset = bad ∧
          ∀ name, (∀ item : trees.Package, item.1.text ≠ name) → final.world.work name = world.work name) ∧
      (options.verify = true → (¬ ∀ side item, trees.copies side item = true) →
        ∃ stopped, run (packageScripts trees setup test) ⟨begun, world, [], []⟩ = .error (.switchAssertion 2) stopped) := by
  have length : trees.packages.length = trees.found.length := List.length_attach
  obtain ⟨begun, created, _⟩ := new_state_ok options trees.packages (by omega)
  have alike := package_run_alike trees setup test options begun created world fun _ => false
  refine ⟨begun, created, fun copies => ?_, fun verify fails => ?_⟩
  · obtain ⟨listed, unswitched⟩ := new_search_listed options trees.packages begun created
    have sides := simulates_run (side_scripts_alike trees world.work setup test bad culprits copies)
      ⟨begun, ⟨fun _ => false, world.rest⟩, [], []⟩ ⟨begun, fun _ => false, [], []⟩
      ⟨rfl, ⟨rfl, fun _ none => absurd none List.not_mem_nil⟩, rfl, listed, rfl, fun _ none => none.elim⟩
    obtain ⟨last, report, searched, found, shown, same⟩ := bad_set_run_finds options trees.packages bad (fun _ => false) begun created
      (by omega) trees.distinct.attach (fun item _ => List.mem_attach _ _) culprits.nonempty prune
        (by rw [length]; exact enough) rounds
    rw [searched] at sides
    revert alike sides
    generalize run (packageScripts trees setup test) ⟨begun, world, [], []⟩ = ended
    generalize run (sideScripts trees world.work setup test) ⟨begun, ⟨fun _ => false, world.rest⟩, [], []⟩ = middle
    rintro (⟨_, final, _, trusted⟩ | _) sides
    · cases sides with
      | ok _ _ _ agrees =>
          have bss := trusted.bss.trans agrees.bss
          have log := trusted.log.trans agrees.log
          refine ⟨final, report, rfl, ?_, log ▸ shown, same, trusted.worlds.shown.others⟩
          rw [← found, reportedItems, reportedItems, bss, log]
    · cases sides
  · obtain ⟨stopped, ran⟩ := sides_stop_in_verify trees world.work setup test bad culprits options begun created verify
      (fun _ => false) world.rest fails
    rw [ran] at alike
    revert alike
    generalize run (packageScripts trees setup test) ⟨begun, world, [], []⟩ = ended
    rintro (_ | ⟨_, first, _, _⟩)
    exact ⟨first, rfl⟩

theorem image_item (trees : PackageTrees Content) (start : PackageFiles Content) (env : Environment trees.Package)
    (item : trees.Package) :
    trees.image start env item.1.text = trees.side (env item) item.1.text := by
  rw [PackageTrees.image]
  cases found : trees.packages.find? fun other => other.1.text == item.1.text with
  | some other =>
      have same : other.1.text = item.1.text := by simpa using List.find?_some found
      rw [package_name_injective trees other item same]
  | none =>
      have listed : item ∈ trees.packages := List.mem_attach _ _
      exact absurd (beq_self_eq_true item.1.text) (List.find?_eq_none.mp found item listed)

-- Two packages whose files say from which tree they are.
def editorName : PackageName := ⟨"./app-editors/vim-7.4.tbz2".toList, by decide, by decide⟩

def compilerName : PackageName := ⟨"./sys-devel/gcc-4.9.tbz2".toList, by decide, by decide⟩

def twoPackageTrees : PackageTrees Bool where
  good name := if name = editorName.text ∨ name = compilerName.text then some false else none
  bad name := if name = editorName.text ∨ name = compilerName.text then some true else none
  hasDirectory _ := true
  found := [editorName, compilerName]
  distinct := by decide

def badCompiler : twoPackageTrees.Package := ⟨compilerName, by decide⟩

def tryImage (work : PackageFiles Bool) (rest : Unit) : Int × Unit := (if work compilerName.text = some true then 1 else 0, rest)

theorem two_package_copies (side : Bool) (item : twoPackageTrees.Package) : twoPackageTrees.copies side item = true := by
  have listed : item.1 = editorName ∨ item.1 = compilerName := by simpa [twoPackageTrees] using item.2
  cases side <;> rcases listed with same | same <;>
    simp [PackageTrees.copies, copyable, PackageTrees.side, twoPackageTrees, same]

theorem compiler_is_culprit (start : PackageFiles Bool) :
    Culprits twoPackageTrees start (fun _ rest => (0, rest)) tryImage {badCompiler} := by
  refine ⟨⟨badCompiler, by simp⟩, fun _ _ => rfl, fun env rest => ?_⟩
  have compiler := image_item twoPackageTrees start env badCompiler
  have text : badCompiler.1.text = compilerName.text := rfl
  rw [text] at compiler
  have verdict : badSetTest {badCompiler} env = if env badCompiler = true then 1 else 0 :=
    if_congr ⟨fun ⟨_, member, isBad⟩ => Finset.mem_singleton.mp member ▸ isBad,
      fun isBad => ⟨badCompiler, Finset.mem_singleton_self _, isBad⟩⟩ rfl rfl
  rw [verdict, tryImage, compiler]
  cases env badCompiler <;> rfl

theorem bad_compiler_found : ∃ begun final report, newState ⟨true, true, 50, 100, true⟩ twoPackageTrees.packages = .ok begun ∧
    run (packageScripts twoPackageTrees (fun _ rest => (0, rest)) tryImage) ⟨begun, ⟨fun _ => none, ()⟩, [], []⟩ = .ok () final ∧
    reportedItems final = {badCompiler} ∧ final.log.getLast? = some (.badItemsAre report) ∧ report.toFinset = {badCompiler} ∧
    ∀ name, (∀ item : twoPackageTrees.Package, item.1.text ≠ name) → final.world.work name = none := by
  obtain ⟨begun, created, finds, _⟩ := package_search_finds_culprits twoPackageTrees (fun _ rest => (0, rest)) tryImage
    ⟨true, true, 50, 100, true⟩ ⟨fun _ => none, ()⟩ {badCompiler} (compiler_is_culprit _) (by decide) rfl
    (Nat.clog_le_of_le_pow (by decide)) (by decide)
  obtain ⟨final, report, found⟩ := finds two_package_copies
  exact ⟨begun, final, report, created, found⟩

theorem package_search_of_two : ∃ begun, newState ⟨true, true, 50, 100, true⟩ twoPackageTrees.packages = .ok begun ∧
    EndsAlike (Covers twoPackageTrees.packages)
      (fun _ => Seen (Covers twoPackageTrees.packages) (Shows twoPackageTrees fun _ => none) fun _ => False)
      (run (packageScripts twoPackageTrees (fun _ rest => (0, rest)) tryImage) ⟨begun, ⟨fun _ => none, ()⟩, [], []⟩)
      (run (sideScripts twoPackageTrees (fun _ => none) (fun _ rest => (0, rest)) tryImage) ⟨begun, ⟨fun _ => true, ()⟩, [], []⟩) := by
  obtain ⟨begun, created, _⟩ := new_state_ok ⟨true, true, 50, 100, true⟩ twoPackageTrees.packages (by decide)
  exact ⟨begun, created, (package_search_refines_sides twoPackageTrees (fun _ rest => (0, rest)) tryImage
    ⟨true, true, 50, 100, true⟩ begun
    created ⟨fun _ => none, ()⟩ fun _ => true).2.1⟩

end ToolchainUtils.BinarySearchTool
