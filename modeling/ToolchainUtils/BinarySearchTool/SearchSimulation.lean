import ToolchainUtils.BinarySearchTool.Resume

set_option autoImplicit false

-- Two searches for the same items whose scripts act on worlds of different kinds.
namespace ToolchainUtils.BinarySearchTool

variable {α σ τ β γ : Type}

-- The states, what was saved and what was logged are the same, and the worlds are related.
-- `stored` holds of all that was saved.
structure SameSearch (stored : BinarySearchState α → Prop) (related : BinarySearchState α → σ → τ → Prop) (first : Session α σ)
    (second : Session α τ) : Prop where
  bss : first.bss = second.bss
  saves : first.saves = second.saves ∧ ∀ saved ∈ first.saves, stored saved
  log : first.log = second.log
  worlds : related first.bss first.world second.world

inductive EndsAlike (stored : BinarySearchState α → Prop) (after : β → BinarySearchState α → σ → τ → Prop) :
    EStateM.Result SearchFailure (Session α σ) β → EStateM.Result SearchFailure (Session α τ) β → Prop
  | ok (value : β) (first : Session α σ) (second : Session α τ) (same : SameSearch stored (after value) first second) :
      EndsAlike stored after (.ok value first) (.ok value second)
  | error (failure : SearchFailure) (first : Session α σ) (second : Session α τ)
      (same : SameSearch stored (fun _ _ _ => True) first second) : EndsAlike stored after (.error failure first)
        (.error failure second)

def Simulates (stored : BinarySearchState α → Prop) (before : BinarySearchState α → σ → τ → Prop) (first : SearchM α σ β)
    (second : SearchM α τ β)
    (after : β → BinarySearchState α → σ → τ → Prop) : Prop :=
  ∀ session other, SameSearch stored before session other → EndsAlike stored after (first session) (second other)

section Rules

variable {stored : BinarySearchState α → Prop} {before : BinarySearchState α → σ → τ → Prop}
  {after : β → BinarySearchState α → σ → τ → Prop}

theorem simulates_bind {Q : β → BinarySearchState α → σ → τ → Prop} {finish : γ → BinarySearchState α → σ → τ → Prop}
    {first : SearchM α σ β} {second : SearchM α τ β} {next : β → SearchM α σ γ} {later : β → SearchM α τ γ}
    (starts : Simulates stored before first second Q) (continues : ∀ value, Simulates stored (Q value) (next value)
      (later value) finish) :
    Simulates stored before (first >>= next) (second >>= later) finish := by
  intro session other same
  rw [run_bind, run_bind]
  have ran := starts session other same
  revert ran
  generalize first session = ended
  generalize second other = otherEnded
  rintro (⟨value, middle, otherMiddle, alike⟩ | ⟨failure, middle, otherMiddle, alike⟩)
  · exact continues value middle otherMiddle alike
  · exact .error failure middle otherMiddle alike

theorem simulates_weaken {earlier Q : BinarySearchState α → σ → τ → Prop} {late : β → BinarySearchState α → σ → τ → Prop}
    {first : SearchM α σ β} {second : SearchM α τ β} (simulates : Simulates stored Q first second after)
    (starts : ∀ bss world other, earlier bss world other → Q bss world other)
    (ends : ∀ value bss world other, after value bss world other → late value bss world other) :
    Simulates stored earlier first second late := by
  intro session other same
  have ran := simulates session other ⟨same.bss, same.saves, same.log, starts _ _ _ same.worlds⟩
  revert ran
  generalize first session = ended
  generalize second other = otherEnded
  rintro (⟨value, middle, otherMiddle, alike⟩ | ⟨failure, middle, otherMiddle, alike⟩)
  · exact .ok value middle otherMiddle ⟨alike.bss, alike.saves, alike.log, ends _ _ _ _ alike.worlds⟩
  · exact .error failure middle otherMiddle alike

theorem simulates_pure (value : β) (holds : ∀ bss world other, before bss world other → after value bss world other) :
    Simulates stored before (pure value : SearchM α σ β) (pure value) after :=
  fun session other same => .ok value session other ⟨same.bss, same.saves, same.log, holds _ _ _ same.worlds⟩

theorem simulates_throw (failure : SearchFailure) : Simulates stored before (throw failure : SearchM α σ β) (throw failure) after :=
  fun session other same => .error failure session other ⟨same.bss, same.saves, same.log, trivial⟩

theorem simulates_get :
    Simulates stored before (getBss : SearchM α σ _) getBss fun value bss world other => value = bss ∧ before bss world other := by
  intro session other same
  rw [run_get_bss, run_get_bss, ← same.bss]
  exact .ok session.bss session other ⟨same.bss, same.saves, same.log, rfl, same.worlds⟩

-- What is known of the state that both searches have is known of what they read.
theorem simulates_state {next : BinarySearchState α → SearchM α σ β} {later : BinarySearchState α → SearchM α τ β}
    (fact : BinarySearchState α → Prop) (known : ∀ bss world other, before bss world other → fact bss)
    (continues : ∀ bss, fact bss →
      Simulates stored (fun now world other => now = bss ∧ before now world other) (next bss) (later bss) after) :
    Simulates stored before (getBss >>= next) (getBss >>= later) after := by
  intro session other same
  rw [run_bind, run_bind, run_get_bss, run_get_bss, ← same.bss]
  exact continues session.bss (known _ _ _ same.worlds) session other ⟨same.bss, same.saves, same.log, rfl, same.worlds⟩

theorem simulates_modify {Q : BinarySearchState α → σ → τ → Prop} (change : BinarySearchState α → BinarySearchState α)
    (holds : ∀ bss world other, before bss world other → Q (change bss) world other) :
    Simulates stored before (modifyBss change : SearchM α σ _) (modifyBss change) fun _ => Q :=
  fun _ _ same => .ok () _ _
    ⟨congrArg change same.bss, same.saves, same.log, holds _ _ _ same.worlds⟩

theorem simulates_check (result : Except SearchFailure β) :
    Simulates stored before (check result : SearchM α σ β) (check result) fun value bss world other =>
      result = .ok value ∧ before bss world other := by
  intro session other same
  cases result with
  | ok value => exact .ok value session other ⟨same.bss, same.saves, same.log, rfl, same.worlds⟩
  | error failure => exact .error failure session other ⟨same.bss, same.saves, same.log, trivial⟩

theorem simulates_log (line : LogLine α) :
    Simulates stored before (logOutput line : SearchM α σ _) (logOutput line) fun _ => before :=
  fun _ _ same => .ok () _ _
    ⟨same.bss, same.saves, congrArg (· ++ [line]) same.log, same.worlds⟩

theorem simulates_save (keeps : ∀ bss world other, before bss world other → stored bss) :
    Simulates stored before (saveState : SearchM α σ _) saveState fun _ => before := by
  intro session other same
  refine .ok () _ _ ⟨same.bss, ⟨?_, ?_⟩, same.log, same.worlds⟩
  · change session.saves ++ [session.bss] = other.saves ++ [other.bss]
    rw [same.saves.1, same.bss]
  · intro saved member
    rcases List.mem_append.mp member with old | new
    · exact same.saves.2 saved old
    · exact List.mem_singleton.mp new ▸ keeps _ _ _ same.worlds

-- Scripts that return the same status.
theorem simulates_script {Q : Int → BinarySearchState α → σ → τ → Prop} (script : σ → Int × σ) (other : τ → Int × τ)
    (agrees : ∀ bss world world', before bss world world' →
      (script world).1 = (other world').1 ∧ Q (script world).1 bss (script world).2 (other world').2) :
    Simulates stored before (runScript script) (runScript other) Q := by
  intro session session' same
  obtain ⟨status, worlds⟩ := agrees _ _ _ same.worlds
  have ran : runScript other session' = .ok (script session.world).1 { session' with world := (other session'.world).2 } := by
    rw [status]
    rfl
  rw [ran]
  exact .ok _ _ _ ⟨same.bss, same.saves, same.log, worlds⟩

theorem simulates_if (condition : Prop) [Decidable condition] {first second : SearchM α σ β} {first' second' : SearchM α τ β}
    (holds : condition → Simulates stored before first first' after)
      (fails : ¬ condition → Simulates stored before second second' after) :
    Simulates stored before (if condition then first else second) (if condition then first' else second') after := by
  by_cases decided : condition
  · rw [if_pos decided, if_pos decided]
    exact holds decided
  · rw [if_neg decided, if_neg decided]
    exact fails decided

end Rules

-- The items that the two current sets speak of.
def BinarySearchState.Switched (bss : BinarySearchState α) (item : α) : Prop := ∃ bad, item ∈ bss.current bad

-- `related known` says that the two worlds agree on the known items.
def SwitchAlike (related : (α → Prop) → σ → τ → Prop) (script : List α → σ → Int × σ) (other : List α → τ → Int × τ) : Prop :=
  ∀ list known world world', related known world world' → (script list world).1 = (other list world').1 ∧
    ((script list world).1 = 0 → related (fun item => item ∈ list ∨ known item) (script list world).2 (other list world').2)

-- A test may look at every item.
def TestAlike (items : List α) (related : (α → Prop) → σ → τ → Prop) (script : σ → Int × σ) (other : τ → Int × τ) : Prop :=
  ∀ known world world', (∀ item ∈ items, known item) → related known world world' →
    (script world).1 = (other world').1 ∧ related known (script world).2 (other world').2

structure ScriptsAlike (items : List α) (related : (α → Prop) → σ → τ → Prop) (scripts : Scripts α σ) (others : Scripts α τ) :
    Prop where
  fewer : ∀ known fewer world world', (∀ item, fewer item → known item) → related known world world' → related fewer world world'
  switchToGood : ∀ files, SwitchAlike related (scripts.switchToGood files) (others.switchToGood files)
  switchToBad : ∀ files, SwitchAlike related (scripts.switchToBad files) (others.switchToBad files)
  testSetupScript : Option.Rel (fun first second => ∀ files, TestAlike items related (first files) (second files))
    scripts.testSetupScript others.testSetupScript
  testScript : ∀ files, TestAlike items related (scripts.testScript files) (others.testScript files)

-- The worlds agree on what has been switched; `covered` is some part of that, and `holds`
-- what else is known of the state.
structure Seen (holds : BinarySearchState α → Prop) (related : (α → Prop) → σ → τ → Prop) (covered : α → Prop)
    (bss : BinarySearchState α) (world : σ) (other : τ) : Prop where
  holds : holds bss
  shown : related bss.Switched world other
  covered : ∀ item, covered item → bss.Switched item

variable [DecidableEq α] {items : List α} {stored holds : BinarySearchState α → Prop} {related : (α → Prop) → σ → τ → Prop}

theorem record_switch_switched (bss : BinarySearchState α) (list : List α) (bad : Bool) (item : α) :
    (bss.recordSwitch list bad).Switched item ↔ item ∈ list ∨ bss.Switched item := by
  constructor
  · rintro ⟨side, member⟩
    by_cases same : side = bad
    · subst same
      exact ((record_switch_same bss list side item).mp member).imp id fun known => ⟨side, known⟩
    · have opposite : side = !bad := by cases side <;> cases bad <;> simp_all
      subst opposite
      exact .inr ⟨!bad, ((record_switch_other bss list bad item).mp member).1⟩
  · intro member
    by_cases listed : item ∈ list
    · exact ⟨bad, (record_switch_same bss list bad item).mpr (.inl listed)⟩
    · obtain ⟨side, known⟩ := member.resolve_left listed
      by_cases same : side = bad
      · exact ⟨bad, (record_switch_same bss list bad item).mpr (.inr (same ▸ known))⟩
      · have opposite : side = !bad := by cases side <;> cases bad <;> simp_all
        exact ⟨!bad, (record_switch_other bss list bad item).mpr ⟨opposite ▸ known, listed⟩⟩

theorem simulates_switch (fewer : ∀ known fewer world world', (∀ item, fewer item → known item) → related known world world' →
      related fewer world world') (kept : ∀ bss list bad, holds bss → holds (bss.recordSwitch list bad))
    (script : List α → σ → Int × σ) (other : List α → τ → Int × τ) (alike : SwitchAlike related script other) (bad : Bool)
      (list : List α) (covered : α → Prop) :
    Simulates stored (Seen holds related covered) (switchItems script bad list) (switchItems other bad list)
      fun _ => Seen holds related fun item => item ∈ list ∨ covered item := by
  refine simulates_bind simulates_get fun bss => ?_
  obtain ⟨passed, filtered⟩ : ∃ passed, passed = if bss.incremental then list.filter (· ∉ bss.current bad) else list := ⟨_, rfl⟩
  have skipped : ∀ item ∈ list, item ∈ passed ∨ bss.Switched item := by
    intro item member
    rw [filtered]
    split
    · by_cases known : item ∈ bss.current bad
      · exact .inr ⟨bad, known⟩
      · exact .inl (List.mem_filter.mpr ⟨member, by simpa using known⟩)
    · exact .inl member
  dsimp only
  rw [← filtered]
  refine simulates_if (passed = []) (fun none => simulates_pure () ?_) fun _ => ?_
  · rintro now world world' ⟨rfl, seen⟩
    refine ⟨seen.holds, seen.shown, fun item member => member.elim (fun listed => ?_) (seen.covered item)⟩
    exact (skipped item listed).resolve_left (by rw [none]; exact List.not_mem_nil)
  · refine simulates_bind (Q := fun _ now world world' => now = bss ∧ holds bss ∧
      related (fun item => item ∈ passed ∨ bss.Switched item) world world' ∧ ∀ item, covered item → bss.Switched item) ?_ fun _ => ?_
    · refine simulates_bind (Q := fun status now world world' => (now = bss ∧ holds bss ∧
        ∀ item, covered item → bss.Switched item) ∧
        (status = 0 → related (fun item => item ∈ passed ∨ bss.Switched item) world world')) ?_ fun status => ?_
      · apply simulates_script
        rintro now world world' ⟨rfl, seen⟩
        obtain ⟨status, worlds⟩ := alike passed _ _ _ seen.shown
        exact ⟨status, ⟨rfl, seen.holds, seen.covered⟩, worlds⟩
      · refine simulates_if (status ≠ 0) (fun _ => simulates_throw _) fun zero => simulates_pure () ?_
        rintro now world world' ⟨⟨same, whole, covers⟩, worlds⟩
        exact ⟨same, whole, worlds (not_not.mp zero), covers⟩
    · apply simulates_modify
      rintro now world world' ⟨rfl, whole, worlds, covers⟩
      refine ⟨kept _ _ _ whole, fewer _ _ _ _ (fun item => (record_switch_switched _ _ _ _).mp) worlds, ?_⟩
      intro item member
      rw [record_switch_switched]
      exact member.elim (skipped item) fun known => .inr (covers item known)

section Programs

variable {scripts : Scripts α σ} {others : Scripts α τ} {covered : α → Prop}

omit [DecidableEq α] in
theorem simulates_test (script : σ → Int × σ) (other : τ → Int × τ) (alike : TestAlike items related script other)
    (all : ∀ item ∈ items, covered item) :
    Simulates stored (Seen holds related covered) (runScript script) (runScript other) fun _ => Seen holds related covered := by
  apply simulates_script
  intro bss world world' seen
  obtain ⟨status, worlds⟩ := alike _ world world' (fun item member => seen.covered item (all item member)) seen.shown
  exact ⟨status, seen.holds, worlds, seen.covered⟩

omit [DecidableEq α] in
theorem simulates_test_setup (alike : ScriptsAlike items related scripts others) (files : SetFiles α)
    (all : ∀ item ∈ items, covered item) :
    Simulates stored (Seen holds related covered) (testSetupScript scripts files) (testSetupScript others files)
      fun _ => Seen holds related covered := by
  have both := alike.testSetupScript
  unfold testSetupScript
  revert both
  generalize scripts.testSetupScript = setup
  generalize others.testSetupScript = other
  rintro (same | _)
  · exact simulates_test _ _ (same files) all
  · exact simulates_pure 0 fun _ _ _ seen => seen

omit [DecidableEq α] in
theorem simulates_test_status (alike : ScriptsAlike items related scripts others) (files : SetFiles α)
    (all : ∀ item ∈ items, covered item) :
    Simulates stored (Seen holds related covered) (testStatus scripts files) (testStatus others files)
      fun _ => Seen holds related covered := by
  refine simulates_bind (simulates_test_setup alike files all) fun status => ?_
  exact simulates_if (status = 0) (fun _ => simulates_test _ _ (alike.testScript files) all)
    fun _ => simulates_pure status fun _ _ _ seen => seen

omit [DecidableEq α] in
theorem simulates_assert (status expected : Int) (message : String) :
    Simulates stored (Seen holds related covered) (assertStatus status expected message : SearchM α σ Unit)
      (assertStatus status expected message) fun _ => Seen holds related covered :=
  simulates_if _ (fun _ => simulates_pure () fun _ _ _ seen => seen) fun _ => simulates_throw _

theorem simulates_switch_to_good (alike : ScriptsAlike items related scripts others)
    (kept : ∀ bss list bad, holds bss → holds (bss.recordSwitch list bad)) (files : SetFiles α) (list : List α) :
    Simulates stored (Seen holds related covered) (switchToGood scripts files list) (switchToGood others files list)
      fun _ => Seen holds related fun item => item ∈ list ∨ covered item :=
  simulates_switch alike.fewer kept _ _ (alike.switchToGood files) false list covered

theorem simulates_switch_to_bad (alike : ScriptsAlike items related scripts others)
    (kept : ∀ bss list bad, holds bss → holds (bss.recordSwitch list bad)) (files : SetFiles α) (list : List α) :
    Simulates stored (Seen holds related covered) (switchToBad scripts files list) (switchToBad others files list)
      fun _ => Seen holds related fun item => item ∈ list ∨ covered item :=
  simulates_switch alike.fewer kept _ _ (alike.switchToBad files) true list covered

-- Every item is searched from the start.
def Listed (items : List α) (bss : BinarySearchState α) : Prop := bss.knownGood = [] ∧ ∀ item ∈ items, item ∈ bss.allItems

omit [DecidableEq α] in
theorem listed_covers (bss : BinarySearchState α) (listed : Listed items bss) : Covers items bss :=
  fun item member => .inl (listed.2 item member)

theorem listed_switch (bss : BinarySearchState α) (list : List α) (bad : Bool) (listed : Listed items bss) :
    Listed items (bss.recordSwitch list bad) := by
  cases bad <;> exact listed

theorem covers_switch (bss : BinarySearchState α) (list : List α) (bad : Bool) (covers : Covers items bss) :
    Covers items (bss.recordSwitch list bad) := by
  cases bad <;> exact covers

omit [DecidableEq α] in
theorem seen_fewer {fewer : α → Prop} (subset : ∀ item, fewer item → covered item) (bss : BinarySearchState α) (world : σ) (other : τ)
    (seen : Seen holds related covered bss world other) : Seen holds related fewer bss world other :=
  ⟨seen.holds, seen.shown, fun item member => seen.covered item (subset item member)⟩

theorem simulates_verify_good (alike : ScriptsAlike items related scripts others) :
    Simulates stored (Seen (Listed items) related fun _ => False) (verifyGoodSet scripts) (verifyGoodSet others)
      fun _ => Seen (Listed items) related fun _ => False := by
  refine simulates_state (Listed items) (fun _ _ _ seen => seen.holds) fun bss listed => ?_
  have all : ∀ item ∈ items, item ∈ bss.allItems ∨ False := fun item member => .inl (listed.2 item member)
  refine simulates_weaken (Q := Seen (Listed items) related fun _ => False) ?_ (fun _ _ _ known => known.2) fun _ _ _ _ seen =>
    seen
  refine simulates_bind (simulates_switch_to_good alike listed_switch _ _) fun _ => ?_
  refine simulates_bind (simulates_test_setup alike _ all) fun status => ?_
  refine simulates_bind (simulates_assert status _ _) fun _ => ?_
  refine simulates_bind (simulates_test _ _ (alike.testScript _) all) fun status => ?_
  exact simulates_weaken (simulates_assert status _ _) (fun _ _ _ seen => seen) fun _ => seen_fewer fun _ none => none.elim

theorem simulates_verify_bad (alike : ScriptsAlike items related scripts others) :
    Simulates stored (Seen (Listed items) related fun _ => False) (verifyBadSet scripts) (verifyBadSet others)
      fun _ => Seen (Listed items) related fun _ => False := by
  refine simulates_state (Listed items) (fun _ _ _ seen => seen.holds) fun bss listed => ?_
  have all : ∀ item ∈ items, item ∈ bss.allItems ∨ False := fun item member => .inl (listed.2 item member)
  refine simulates_weaken (Q := Seen (Listed items) related fun _ => False) ?_ (fun _ _ _ known => known.2) fun _ _ _ _ seen =>
    seen
  refine simulates_bind (simulates_switch_to_bad alike listed_switch _ _) fun _ => ?_
  refine simulates_bind (simulates_test_status alike _ all) fun status => ?_
  exact simulates_weaken (simulates_assert status _ _) (fun _ _ _ seen => seen) fun _ => seen_fewer fun _ none => none.elim

theorem simulates_do_verify (alike : ScriptsAlike items related scripts others) :
    Simulates stored (Seen (Listed items) related fun _ => False) (doVerify scripts) (doVerify others)
      fun _ => Seen (Listed items) related fun _ => False := by
  refine simulates_state (fun _ => True) (fun _ _ _ _ => trivial) fun bss _ => ?_
  refine simulates_weaken (Q := Seen (Listed items) related fun _ => False) ?_ (fun _ _ _ known => known.2) fun _ _ _ _ seen =>
    seen
  exact simulates_if (bss.verify = true)
    (fun _ => simulates_bind (simulates_verify_good alike) fun _ => simulates_verify_bad alike)
    fun _ => simulates_pure () fun _ _ _ seen => seen

-- The two sets of an iteration hold all items.
theorem simulates_get_next_items :
    Simulates stored (Seen (Covers items) related fun _ => False : BinarySearchState α → σ → τ → Prop) getNextItems getNextItems
      fun files bss world other => Seen (Covers items) related (fun _ => False) bss world other ∧
        ∀ item ∈ items, item ∈ files.goodSet ∨ item ∈ files.badSet := by
  refine simulates_state (Covers items) (fun _ _ _ seen => seen.holds) fun bss covers => ?_
  refine simulates_weaken (Q := Seen (Covers items) related fun _ => False) ?_ (fun _ _ _ known => known.2) fun _ _ _ _ seen =>
    seen
  refine simulates_bind (simulates_check bss.binarySearch.getNext) fun next => ?_
  refine simulates_bind (Q := fun _ => Seen (Covers items) related fun _ => False) ?_ fun _ => ?_
  · apply simulates_modify
    rintro now world other ⟨_, seen⟩
    exact ⟨seen.holds, seen.shown, seen.covered⟩
  · refine simulates_bind (simulates_check (itemIndex bss.allItems next.2)) fun index => simulates_pure _ ?_
    rintro now world other ⟨_, seen⟩
    refine ⟨seen, fun item member => ?_⟩
    rw [List.mem_append]
    rcases covers item member with searched | known
    · rw [← List.take_append_drop (index + 1) bss.allItems, List.mem_append] at searched
      exact searched.elim .inr fun behind => .inl (.inl behind)
    · exact .inl (.inr known)

omit [DecidableEq α] in
theorem simulates_record_answer (status : Int) :
    Simulates stored (Seen (Covers items) related covered : BinarySearchState α → σ → τ → Prop) (recordAnswer status)
      (recordAnswer status)
      fun _ => Seen (Covers items) related fun _ => False := by
  refine simulates_bind simulates_get fun bss => ?_
  refine simulates_bind (simulates_check (bss.binarySearch.setStatus status)) fun answer => ?_
  refine simulates_bind (Q := fun _ => Seen (Covers items) related fun _ => False) ?_ fun _ => ?_
  · apply simulates_modify
    rintro now world other ⟨_, _, seen⟩
    exact ⟨seen.holds, seen.shown, fun _ none => none.elim⟩
  · exact simulates_if (answer.2 = true)
      (fun _ => simulates_bind (simulates_log _) fun _ => simulates_pure _ fun _ _ _ seen => seen)
      fun _ => simulates_pure _ fun _ _ _ seen => seen

theorem simulates_search_iteration (alike : ScriptsAlike items related scripts others) :
    Simulates (Covers items) (Seen (Covers items) related fun _ => False) (searchIteration scripts) (searchIteration others)
      fun _ => Seen (Covers items) related fun _ => False := by
  refine simulates_bind (simulates_save fun _ _ _ seen => seen.holds) fun _ => ?_
  refine simulates_bind (Q := fun _ => Seen (Covers items) related fun _ => False) ?_ fun _ => ?_
  · exact simulates_modify _ fun _ _ _ seen => ⟨seen.holds, seen.shown, seen.covered⟩
  · refine simulates_bind simulates_get_next_items fun files => ?_
    by_cases all : ∀ item ∈ items, item ∈ files.goodSet ∨ item ∈ files.badSet
    · refine simulates_weaken (Q := Seen (Covers items) related fun _ => False) ?_
        (fun _ _ _ known => known.1) fun _ _ _ _ seen => seen
      refine simulates_bind (simulates_switch_to_good alike covers_switch files files.goodSet) fun _ => ?_
      refine simulates_bind (simulates_switch_to_bad alike covers_switch files files.badSet) fun _ => ?_
      refine simulates_bind (simulates_test_status alike files ?_) fun status => simulates_record_answer status
      exact fun item member => (all item member).elim (fun good => .inr (.inl good)) .inl
    · exact fun session other same => absurd same.worlds.2 all

theorem simulates_search_iterations (alike : ScriptsAlike items related scripts others) (remaining : Nat) :
    Simulates (Covers items) (Seen (Covers items) related fun _ => False) (searchIterations scripts remaining)
      (searchIterations others remaining)
      fun _ => Seen (Covers items) related fun _ => False := by
  induction remaining with
  | zero => exact simulates_pure false fun _ _ _ seen => seen
  | succ remaining ih =>
      refine simulates_bind (simulates_search_iteration alike) fun terminated => ?_
      exact simulates_if (terminated = true) (fun _ => simulates_pure true fun _ _ _ seen => seen) fun _ => ih

omit [DecidableEq α] in
theorem begin_cycle_seen (bss : BinarySearchState α) (world : σ) (other : τ)
    (seen : Seen (Covers items) related covered bss world other) :
    Seen (Covers items) related covered bss.beginCycle world other := by
  rw [BinarySearchState.beginCycle]
  split <;> exact ⟨seen.holds, seen.shown, seen.covered⟩

theorem simulates_do_binary_search (alike : ScriptsAlike items related scripts others) :
    Simulates (Covers items) (Seen (Covers items) related fun _ => False) (doBinarySearch scripts) (doBinarySearch others)
      fun _ => Seen (Covers items) related fun _ => False := by
  refine simulates_bind (simulates_modify _ begin_cycle_seen) fun _ => ?_
  refine simulates_bind simulates_get fun bss => ?_
  refine simulates_weaken (Q := Seen (Covers items) related fun _ => False) ?_ (fun _ _ _ known => known.2) fun _ _ _ _ seen =>
    seen
  refine simulates_bind (simulates_search_iterations alike _) fun terminated => ?_
  exact simulates_if (¬ terminated = true)
    (fun _ => simulates_bind (simulates_log _) fun _ => simulates_pure _ fun _ _ _ seen => seen)
    fun _ => simulates_pure _ fun _ _ _ seen => seen

theorem plan_prune_stops (bss last : BinarySearchState α) (lines : List (LogLine α)) (stops : planPrune bss = .stops last lines) :
    last = bss ∨ ∃ item, last = recordFound bss item := by
  unfold planPrune at stops
  split at stops
  · cases stops
    exact .inl rfl
  · split at stops
    · cases stops
    · next item _ =>
        split at stops
        · cases stops
          exact .inl rfl
        · split at stops
          · cases stops
          · cases stops
            exact .inr ⟨item, rfl⟩

-- Covers is kept by what is found, and the current sets are left alone.
theorem found_seen (bss : BinarySearchState α) (item : α) (world : σ) (other : τ)
    (seen : Seen (Covers items) related covered bss world other) :
    Seen (Covers items) related covered (recordFound bss item) world other := by
  refine ⟨fun wanted member => ?_, seen.shown, seen.covered⟩
  exact (seen.holds wanted member).imp id fun known => List.mem_union_iff.mpr (.inr known)

theorem simulates_prune_found :
    Simulates (Covers items) (Seen (Covers items) related covered : BinarySearchState α → σ → τ → Prop) pruneFoundItem pruneFoundItem
      fun _ => Seen (Covers items) related covered := by
  intro session other same
  rw [prune_found_spec, prune_found_spec, ← same.bss]
  cases plan : planPrune session.bss with
  | fails failure => exact .error failure session other ⟨same.bss, same.saves, same.log, trivial⟩
  | stops last lines =>
      refine .ok false _ _ ⟨rfl, same.saves, congrArg (· ++ lines) same.log, ?_⟩
      rcases plan_prune_stops session.bss last lines plan with rfl | ⟨item, rfl⟩
      · exact same.worlds
      · exact found_seen _ item _ _ same.worlds
  | goesOn later =>
      obtain ⟨item, listed, rfl⟩ := plan_prune_goes_on session.bss later plan
      exact .ok true _ _ ⟨rfl, same.saves, same.log,
        covers_restart items session.bss item same.worlds.holds listed, same.worlds.shown, same.worlds.covered⟩

theorem simulates_search_cycles (alike : ScriptsAlike items related scripts others) (remaining : Nat) :
    Simulates (Covers items) (Seen (Covers items) related fun _ => False) (searchCycles scripts remaining)
      (searchCycles others remaining)
      fun _ => Seen (Covers items) related fun _ => False := by
  induction remaining with
  | zero => exact simulates_pure () fun _ _ _ seen => seen
  | succ remaining ih =>
      refine simulates_bind simulates_get fun bss => ?_
      refine simulates_weaken (Q := Seen (Covers items) related fun _ => False) ?_
        (fun _ _ _ known => known.2) fun _ _ _ _ seen => seen
      refine simulates_if (bss.allItems.length > 1) (fun _ => ?_) fun _ => simulates_pure () fun _ _ _ seen => seen
      refine simulates_bind (simulates_do_binary_search alike) fun terminated => ?_
      refine simulates_bind (Q := fun _ => Seen (Covers items) related fun _ => False) ?_ fun _ => ?_
      · exact simulates_modify _ fun _ _ _ seen => ⟨seen.holds, seen.shown, seen.covered⟩
      · refine simulates_if (terminated = true) (fun _ => ?_) fun _ => simulates_pure () fun _ _ _ seen => seen
        refine simulates_bind simulates_prune_found fun goesOn => ?_
        exact simulates_if (goesOn = true) (fun _ => ih) fun _ => simulates_pure () fun _ _ _ seen => seen

theorem simulates_do_search (alike : ScriptsAlike items related scripts others) :
    Simulates (Covers items) (Seen (Covers items) related fun _ => False) (doSearch scripts) (doSearch others)
      fun _ => Seen (Covers items) related fun _ => False := by
  refine simulates_bind simulates_get fun bss => ?_
  exact simulates_weaken (simulates_search_cycles alike _) (fun _ _ _ known => known.2) fun _ _ _ _ seen => seen

-- A new search from worlds of which nothing is known yet.
theorem simulates_run (alike : ScriptsAlike items related scripts others) :
    Simulates (Covers items) (Seen (Listed items) related fun _ => False) (run scripts) (run others)
      fun _ => Seen (Covers items) related fun _ => False := by
  refine simulates_bind (simulates_do_verify alike) fun _ => ?_
  refine simulates_weaken (simulates_do_search alike) ?_ fun _ _ _ _ seen => seen
  exact fun bss world other seen => ⟨listed_covers bss seen.holds, seen.shown, seen.covered⟩

-- A search that resumes forgets what was switched, so that the worlds may have changed.
theorem resumes_alike (alike : ScriptsAlike items related scripts others) (saved : BinarySearchState α) (world : σ) (other : τ)
    (covers : Covers items saved) (unknown : related (fun _ => False) world other) :
    EndsAlike (Covers items) (fun _ => Seen (Covers items) related fun _ => False) (resume scripts saved world)
      (resume others saved other) := by
  refine simulates_do_search alike _ _ ⟨rfl, ⟨rfl, fun _ none => absurd none List.not_mem_nil⟩, rfl, covers, ?_, fun _ none =>
    none.elim⟩
  refine alike.fewer _ _ _ _ ?_ unknown
  rintro item ⟨bad, member⟩
  cases bad <;> exact absurd member List.not_mem_nil

omit [DecidableEq α] in
theorem scripts_alike_self (items : List α) (scripts : Scripts α σ) : ScriptsAlike items
    (fun _ world other => world = other) scripts scripts where
  fewer _ _ _ _ _ same := same
  switchToGood _ _ _ _ _ same := by rw [same]; exact ⟨rfl, fun _ => rfl⟩
  switchToBad _ _ _ _ _ same := by rw [same]; exact ⟨rfl, fun _ => rfl⟩
  testSetupScript := by
    cases scripts.testSetupScript with
    | none => exact .none
    | some setup => exact .some fun _ _ _ _ _ same => by rw [same]; exact ⟨rfl, rfl⟩
  testScript _ _ _ _ _ same := by rw [same]; exact ⟨rfl, rfl⟩

-- Whatever the scripts do, what is saved in runs that are interrupted and resumed covers the items.
theorem saved_during_covers (scripts : Scripts α σ) (start : Session α σ) (listed : Listed items start.bss) (fresh : start.saves = [])
    (saved : BinarySearchState α) (during : SavedDuring scripts start saved) : Covers items saved := by
  have alike := scripts_alike_self items scripts
  have stored : ∀ first second : EStateM.Result SearchFailure (Session α σ) Unit,
      EndsAlike (Covers items) (fun _ => Seen (Covers items) (fun _ world other => world = other) fun _ => False) first second →
      ∀ state ∈ (sessionOf first).saves, Covers items state := by
    rintro _ _ (⟨_, _, _, same⟩ | ⟨_, _, _, same⟩)
    · exact same.saves.2
    · exact same.saves.2
  induction during with
  | first saved member =>
      refine stored _ _ (simulates_run alike start start ⟨rfl, ⟨rfl, ?_⟩, rfl, listed, rfl, fun _ none => none.elim⟩) saved member
      rw [fresh]
      exact fun _ none => absurd none List.not_mem_nil
  | again earlier saved world _ member ih => exact stored _ _ (resumes_alike alike earlier world world ih rfl) saved member

end Programs

end ToolchainUtils.BinarySearchTool
