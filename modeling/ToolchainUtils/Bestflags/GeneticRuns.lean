import ToolchainUtils.Bestflags.AlgorithmRuns
import ToolchainUtils.Bestflags.FlagUniverse
import ToolchainUtils.Bestflags.GeneticAlgorithm

set_option autoImplicit false

namespace ToolchainUtils.Bestflags

open PyString Randomised Transition

section Children

variable (bounds : Bounds) (specs : List Text) (known : ∀ spec ∈ specs, spec ∈ bounds.specs)
  (ordered : ∀ spec ∈ specs, ∀ start last, search spec = some (start, last) → start < last)
  (odds : Int) (nonnegative : 0 ≤ odds)

include known ordered nonnegative

theorem mutate_spec_admitted (flagSet : FlagSet) (held : bounds.Holds flagSet) (spec : Text) (member : spec ∈ specs) :
    Always (mutateSpec flagSet (some odds) spec) fun items => ∀ item ∈ items, bounds.Admits item.1 item.2 := by
  have isKnown := known spec member
  have single : ∀ value, bounds.Admits spec value →
      ∀ item ∈ [(spec, value)], bounds.Admits item.1 item.2 := fun value admitted item inside =>
    List.mem_singleton.mp inside ▸ admitted
  rw [mutateSpec]
  apply always_bind _ _ _ _ (always_randint 0 odds nonnegative)
  intro skipped _
  by_cases skips : skipped ≠ 0
  · rw [if_pos skips]
    exact always_pure [] _ nofun
  · rw [if_neg skips]
    cases present : flagSet.get? spec with
    | none =>
        dsimp only
        cases range : search spec with
        | none =>
            apply always_bind _ _ _ _ (always_boolean_flag spec range)
            intro value same
            exact always_pure _ _ (single value (same ▸ zero_admitted bounds spec isKnown range))
        | some range' =>
            obtain ⟨start, last⟩ := range'
            have filled := ordered spec member start last range
            have ceiling := bounds.ceiling spec isKnown start last range
            apply always_bind _ _ _ _ (always_numeric_flag spec start last range filled)
            intro value within
            exact always_pure _ _ (single value (start_admitted bounds spec isKnown value start last range within.1 (by omega)))
    | some value =>
        have admitted := held spec value present
        cases range : search spec with
        | none => exact always_pure [] _ nofun
        | some range' =>
            obtain ⟨start, last⟩ := range'
            have startNonnegative := search_nonnegative spec start last range
            have above := admitted.2.2.2 start last range
            have below := admitted.2.2.1
            have ceiling := bounds.ceiling spec isKnown start last range
            dsimp only
            refine always_bind _ _ _ _ (always_choice Raised.valueError _ (by simp)) ?_
            intro chosen among
            have near : start - 1 ≤ chosen ∧ chosen ≤ bounds.high := by
              by_cases room : value + 1 < last
              · rw [if_pos room] at among
                simp only [List.mem_append, List.mem_singleton] at among
                omega
              · rw [if_neg room] at among
                simp only [List.append_nil, List.mem_append, List.mem_singleton] at among
                omega
            by_cases stays : chosen ≠ start - 1
            · rw [if_pos stays]
              apply always_bind _ _ _ _ (always_flag spec chosen (by omega))
              intro kept same
              exact always_pure _ _ (single kept (start_admitted bounds spec isKnown kept start last range
                (by omega) (by omega)))
            · rw [if_neg stays]
              exact always_pure [] _ nofun

theorem random_mutate_held (flagSet : FlagSet) (held : bounds.Holds flagSet) :
    Always (randomMutate specs flagSet (some odds)) bounds.Holds := by
  apply always_bind _ _ _ _ (always_each_all _ (fun items => ∀ item ∈ items, bounds.Admits item.1 item.2) specs
    fun spec member => mutate_spec_admitted bounds specs known ordered odds nonnegative flagSet held spec member)
  intro items admitted
  apply always_pure
  apply holds_of_items
  intro item member
  obtain ⟨list, listed, inside⟩ := List.mem_flatten.mp member
  exact admitted list listed item inside

omit known ordered nonnegative in
theorem keep_some_sub (items : List (Text × Int)) :
    Always (keepSome items) fun kept => ∀ item ∈ kept, item ∈ items := by
  apply always_bind _ _ _ _ (always_each_all _ (fun kept => ∀ item ∈ kept, item ∈ items) items ?_)
  · intro kept inside
    apply always_pure
    intro item member
    obtain ⟨list, listed, among⟩ := List.mem_flatten.mp member
    exact inside list listed item among
  · intro item member
    apply always_bind _ _ _ _ (always_randint 0 1 (by omega))
    intro heads _
    apply always_pure
    intro other inside
    split at inside
    next => exact List.mem_singleton.mp inside ▸ member
    next => exact absurd inside nofun

theorem reproduce_with_held (fatherFlags motherFlags : FlagSet) (fatherHeld : bounds.Holds fatherFlags)
    (motherHeld : bounds.Holds motherFlags) :
    Always (reproduceWith fatherFlags motherFlags specs (some odds)) bounds.Holds := by
  apply always_bind _ _ _ _ (keep_some_sub _)
  intro own fromFather
  apply always_bind _ _ _ _ (keep_some_sub _)
  intro others fromMother
  apply always_bind _ _ (fun crossed => ∀ item ∈ crossed, bounds.Admits item.1 item.2)
  · apply always_each_all
    intro common member
    obtain ⟨item, isFather, both⟩ := List.mem_filterMap.mp member
    obtain ⟨value, isMother, same⟩ := Option.map_eq_some_iff.mp both
    apply always_bind _ _ (fun value => value = common.2.1 ∨ value = common.2.2)
    · apply always_bind _ _ _ _ (always_randint 0 1 (by omega))
      intro heads _
      apply always_pure
      split
      next => exact .inl rfl
      next => exact .inr rfl
    · intro chosen either
      apply always_pure
      subst same
      cases either with
      | inl father => exact father ▸ holds_entries bounds fatherFlags fatherHeld item isFather
      | inr mother => exact mother ▸ motherHeld item.1 value isMother
  · intro crossed fromBoth
    have held : bounds.Holds (.ofItems (own ++ others ++ crossed)) := by
      apply holds_of_items
      intro item member
      rw [List.mem_append, List.mem_append] at member
      rcases member with (mine | yours) | ours
      · exact holds_entries bounds fatherFlags fatherHeld item (List.mem_of_mem_filter (fromFather item mine))
      · exact holds_entries bounds motherFlags motherHeld item (List.mem_of_mem_filter (fromMother item yours))
      · exact fromBoth item ours
    exact random_mutate_held bounds specs known ordered odds nonnegative _ held

end Children

namespace GAGeneration

variable {ρ : Type} [LinearOrder ρ]

-- The meta data with which Next cannot raise, and can make a generation if it makes
-- one at all.
structure Usable (metaData : MetaData) : Prop where
  target : 1 ≤ metaData.numChromosomes ∨ metaData.numTrials = 0
  rate : ∃ odds, metaData.mutationOdds = some odds ∧ 0 ≤ odds
  ordered : ∀ spec ∈ metaData.specs, ∀ start last, search spec = some (start, last) → start < last

structure Grown (bounds : Bounds) (cache : Finset FlagSet) (childPool : List FlagSet) : Prop where
  distinct : childPool.Nodup
  fresh : ∀ flags ∈ childPool, flags ∉ cache
  held : ∀ flags ∈ childPool, bounds.Holds flags

theorem grown_cons (bounds : Bounds) (cache : Finset FlagSet) (childPool : List FlagSet) (child : FlagSet)
    (grown : Grown bounds cache childPool) (isNew : child ∉ childPool ∧ child ∉ cache) (held : bounds.Holds child) :
    Grown bounds cache (child :: childPool) := by
  refine ⟨List.nodup_cons.mpr ⟨isNew.1, grown.distinct⟩, ?_, ?_⟩
  · intro flags member
    cases List.mem_cons.mp member with
    | inl here => exact here ▸ isNew.2
    | inr there => exact grown.fresh flags there
  · intro flags member
    cases List.mem_cons.mp member with
    | inl here => exact here ▸ held
    | inr there => exact grown.held flags there

omit [LinearOrder ρ] in
theorem mutate_loop_over (metaData : MetaData) (cache : Finset FlagSet) (retained : List (Task FlagSet ρ)) (fuel : Nat)
    (childPool : List FlagSet) (numTrials : Nat)
    (isOver : ¬ (childPool.length < metaData.numChromosomes ∧ numTrials < metaData.numTrials)) :
    mutateLoop metaData cache retained fuel childPool numTrials = pure (childPool, numTrials) := by
  cases fuel with
  | zero => rw [mutateLoop, if_neg isOver]
  | succ fuel => rw [mutateLoop, if_neg isOver]

section Pools

variable (metaData : MetaData) (usable : Usable metaData) (bounds : Bounds)
  (known : ∀ spec ∈ metaData.specs, spec ∈ bounds.specs) (retained : List (Task FlagSet ρ))
  (retainedHeld : ∀ task ∈ retained, bounds.Holds task.flags) (cache : Finset FlagSet)

include usable known retainedHeld

omit [LinearOrder ρ] in
theorem mutated_held (task : Task FlagSet ρ) (member : task ∈ retained) :
    Always (randomMutate metaData.specs task.flags metaData.mutationOdds) bounds.Holds := by
  obtain ⟨odds, given, nonnegative⟩ := usable.rate
  rw [given]
  exact random_mutate_held bounds metaData.specs known usable.ordered odds nonnegative task.flags
    (retainedHeld task member)

omit [LinearOrder ρ] in
theorem crossed_held (father mother : Task FlagSet ρ) (isFather : father ∈ retained) (isMother : mother ∈ retained) :
    Always (reproduceWith mother.flags father.flags metaData.specs metaData.mutationOdds) bounds.Holds := by
  obtain ⟨odds, given, nonnegative⟩ := usable.rate
  rw [given]
  exact reproduce_with_held bounds metaData.specs known usable.ordered odds nonnegative mother.flags father.flags
    (retainedHeld mother isMother) (retainedHeld father isFather)

omit [LinearOrder ρ] in
theorem try_child_grows (father : Task FlagSet ρ) (isFather : father ∈ retained) (trials : Nat)
    (childPool : List FlagSet) (grown : Grown bounds cache childPool) :
    Always (tryChild metaData retained cache father trials childPool) fun result =>
      Grown bounds cache result ∧ result.length ≤ childPool.length + 1 := by
  induction trials with
  | zero => exact always_pure _ _ ⟨grown, by omega⟩
  | succ trials ih =>
      rw [tryChild]
      apply always_bind _ _ _ _ (always_choice _ retained (List.ne_nil_of_mem isFather))
      intro mother isMother
      apply always_bind _ _ _ _ (crossed_held metaData usable bounds known retained retainedHeld father mother isFather isMother)
      intro child held
      by_cases isNew : child ∉ childPool ∧ child ∉ cache
      · rw [if_pos isNew]
        exact always_pure _ _ ⟨grown_cons bounds cache childPool child grown isNew held, by simp⟩
      · rw [if_neg isNew]
        exact ih

omit [LinearOrder ρ] in
theorem cross_all_grows (fathers : List (Task FlagSet ρ)) (among : ∀ father ∈ fathers, father ∈ retained)
    (childPool : List FlagSet) (grown : Grown bounds cache childPool) :
    Always (crossAll metaData retained cache fathers childPool) fun result =>
      Grown bounds cache result ∧ result.length ≤ childPool.length + fathers.length := by
  induction fathers generalizing childPool with
  | nil => exact always_pure _ _ ⟨grown, by simp⟩
  | cons father rest ih =>
      apply always_bind _ _ _ _ (try_child_grows metaData usable bounds known retained retainedHeld cache father
        (among father List.mem_cons_self) metaData.numTrials childPool grown)
      intro more spec
      apply always_imp _ _ _ (ih (fun other member => among other (List.mem_cons_of_mem _ member)) more spec.1)
      intro result final
      refine ⟨final.1, ?_⟩
      have here := spec.2
      have later := final.2
      rw [List.length_cons]
      omega

omit [LinearOrder ρ] in
-- Every task of the pass adds a child or a trial, unless the pool is full before.
theorem mutate_pass_grows (kept : List (Task FlagSet ρ)) (among : ∀ task ∈ kept, task ∈ retained)
    (childPool : List FlagSet) (numTrials : Nat) (grown : Grown bounds cache childPool)
    (room : childPool.length < metaData.numChromosomes) :
    Always (mutatePass metaData cache kept childPool numTrials) fun result =>
      Grown bounds cache result.1 ∧ result.1.length ≤ metaData.numChromosomes ∧
        (kept ≠ [] → childPool.length + numTrials < result.1.length + result.2) ∧
        childPool.length + numTrials ≤ result.1.length + result.2 := by
  induction kept generalizing childPool numTrials with
  | nil => exact always_pure _ _ ⟨grown, Nat.le_of_lt room, fun filled => absurd rfl filled, Nat.le_refl _⟩
  | cons task rest ih =>
      have later : ∀ other ∈ rest, other ∈ retained := fun other member => among other (List.mem_cons_of_mem _ member)
      rw [mutatePass]
      apply always_bind _ _ _ _ (mutated_held metaData usable bounds known retained retainedHeld task
        (among task List.mem_cons_self))
      intro child held
      by_cases isNew : child ∉ childPool ∧ child ∉ cache
      · have added := grown_cons bounds cache childPool child grown isNew held
        rw [if_pos isNew]
        by_cases full : metaData.numChromosomes ≤ (child :: childPool).length
        · rw [if_pos full]
          refine always_pure _ _ ⟨added, ?_, ?_, ?_⟩
          · rw [List.length_cons]
            omega
          · intro _
            dsimp only
            rw [List.length_cons]
            omega
          · dsimp only
            rw [List.length_cons]
            omega
        · rw [if_neg full]
          apply always_imp _ _ _ (ih later (child :: childPool) numTrials added (by omega))
          intro result spec
          obtain ⟨final, short, -, progress⟩ := spec
          rw [List.length_cons] at progress
          exact ⟨final, short, fun _ => by omega, by omega⟩
      · rw [if_neg isNew]
        apply always_imp _ _ _ (ih later childPool (numTrials + 1) grown room)
        intro result spec
        obtain ⟨final, short, -, progress⟩ := spec
        exact ⟨final, short, fun _ => by omega, by omega⟩

omit [LinearOrder ρ] in
theorem mutate_loop_grows (filled : retained ≠ []) (fuel : Nat) (childPool : List FlagSet) (numTrials : Nat)
    (grown : Grown bounds cache childPool) (short : childPool.length ≤ metaData.numChromosomes)
    (enough : metaData.numChromosomes + metaData.numTrials ≤ fuel + childPool.length + numTrials) :
    Always (mutateLoop metaData cache retained fuel childPool numTrials) fun result =>
      Grown bounds cache result.1 ∧ result.1.length ≤ metaData.numChromosomes ∧
        (result.2 < metaData.numTrials → result.1.length = metaData.numChromosomes) := by
  induction fuel generalizing childPool numTrials with
  | zero =>
      rw [mutate_loop_over _ _ _ _ _ _ (by omega)]
      exact always_pure _ _ ⟨grown, short, fun fewer => by dsimp only at fewer ⊢; omega⟩
  | succ fuel ih =>
      by_cases goesOn : childPool.length < metaData.numChromosomes ∧ numTrials < metaData.numTrials
      · rw [mutateLoop, if_pos goesOn]
        apply always_bind _ _ _ _ (mutate_pass_grows metaData usable bounds known retained retainedHeld cache retained
          (fun _ member => member) childPool numTrials grown goesOn.1)
        intro result spec
        obtain ⟨more, fits, progress, -⟩ := spec
        have moved := progress filled
        exact ih result.1 result.2 more fits (by omega)
      · rw [mutate_loop_over _ _ _ _ _ _ goesOn]
        exact always_pure _ _ ⟨grown, short, fun fewer => by dsimp only at fewer ⊢; omega⟩

end Pools

structure Fits (bounds : Bounds) (generation : Generation FlagSet ρ (GAGeneration ρ)) (cache : Finset FlagSet) :
    Prop where
  filled : generation.exeSet.tasks ≠ []
  inside : ∀ flags ∈ generation.keys, bounds.Holds flags
  parents : ∀ parent ∈ generation.own.parents, parent.result.isSome ∧ bounds.Holds parent.flags

theorem sorted_mem (tasks : List (Task FlagSet ρ)) (task : Task FlagSet ρ) : task ∈ sortedByResult tasks ↔ task ∈ tasks :=
  (List.mergeSort_perm tasks _).mem_iff

theorem sorted_head (tasks : List (Task FlagSet ρ)) (filled : tasks ≠ []) :
    ∃ best ∈ tasks, (sortedByResult tasks).head? = some best := by
  cases listed : sortedByResult tasks with
  | nil =>
      obtain ⟨task, member⟩ := List.exists_mem_of_ne_nil tasks filled
      have inside := (sorted_mem tasks task).mpr member
      rw [listed] at inside
      exact absurd inside nofun
  | cons best rest => exact ⟨best, (sorted_mem tasks best).mp (listed ▸ List.mem_cons_self), rfl⟩

theorem is_improved_evaluated (metaData : MetaData) (bounds : Bounds)
    (generation : Generation FlagSet ρ (GAGeneration ρ)) (cache : Finset FlagSet) (fits : Fits bounds generation cache)
    (evaluated : ∀ task ∈ generation.exeSet.tasks, task.result.isSome) :
    ∃ improved own, isImproved metaData generation = .ok (improved, own) ∧ own.parents = generation.own.parents := by
  rw [isImproved]
  by_cases first : generation.own.parents = []
  · rw [if_pos first]
    exact ⟨true, generation.own, rfl, rfl⟩
  · obtain ⟨bestParent, isParent, parentHead⟩ := sorted_head generation.own.parents first
    obtain ⟨bestCurrent, isCurrent, currentHead⟩ := sorted_head generation.exeSet.tasks fits.filled
    obtain ⟨improved, same⟩ := compared bestCurrent bestParent (evaluated bestCurrent isCurrent)
      (fits.parents bestParent isParent).1
    rw [if_neg first, parentHead, currentHead]
    simp only [same, bind, Except.bind]
    cases improved with
    | true => exact ⟨true, _, rfl, rfl⟩
    | false =>
        by_cases stuck : metaData.stopThreshold ≤ generation.own.totalStucks
        · rw [if_neg (by simp), if_pos stuck]
          exact ⟨false, _, rfl, rfl⟩
        · rw [if_neg (by simp), if_neg stuck]
          exact ⟨true, _, rfl, rfl⟩

theorem next_continues (metaData : MetaData) (usable : Usable metaData) (bounds : Bounds)
    (known : ∀ spec ∈ metaData.specs, spec ∈ bounds.specs) (generation : Generation FlagSet ρ (GAGeneration ρ))
    (cache : Finset FlagSet) (fits : Fits bounds generation cache)
    (evaluated : ∀ task ∈ generation.exeSet.tasks, task.result.isSome) :
    Always (next metaData generation cache) (Continues (Fits bounds) cache) := by
  have members : ∀ task ∈ (sortedByResult (generation.exeSet.tasks ++ generation.own.parents)).take metaData.numChromosomes,
      task.result.isSome ∧ bounds.Holds task.flags := by
    intro task member
    cases List.mem_append.mp ((sorted_mem _ task).mp (List.mem_of_mem_take member)) with
    | inl current => exact ⟨evaluated task current, fits.inside task.flags (List.mem_map_of_mem current)⟩
    | inr parent => exact fits.parents task parent
  rw [next]
  generalize retainedIs : (sortedByResult (generation.exeSet.tasks ++ generation.own.parents)).take
    metaData.numChromosomes = retained
  rw [retainedIs] at members
  have few : retained.length ≤ metaData.numChromosomes := retainedIs ▸ List.length_take_le _ _
  have held : ∀ task ∈ retained, bounds.Holds task.flags := fun task member => (members task member).2
  apply always_bind _ _ _ _ (cross_all_grows metaData usable bounds known retained held cache retained
    (fun _ member => member) [] ⟨List.nodup_nil, nofun, nofun⟩)
  intro crossed spec
  obtain ⟨grown, short⟩ := spec
  rw [List.length_nil, Nat.zero_add] at short
  by_cases noTrials : metaData.numTrials = 0
  · rw [mutate_loop_over _ _ _ _ _ _ (by omega)]
    apply always_bind _ _ _ _ (always_pure _ (fun result => result = (crossed, 0)) rfl)
    intro result same
    subst same
    rw [noTrials]
    exact always_pure _ _ (.inl rfl)
  · have target := usable.target.resolve_right noTrials
    have filled : retained ≠ [] := by
      obtain ⟨task, member⟩ := List.exists_mem_of_ne_nil _ fits.filled
      rw [← retainedIs]
      apply List.ne_nil_of_length_pos
      have sorted : 0 < (sortedByResult (generation.exeSet.tasks ++ generation.own.parents)).length :=
        List.length_pos_of_mem ((sorted_mem _ task).mpr (List.mem_append_left _ member))
      rw [List.length_take]
      omega
    apply always_bind _ _ _ _ (mutate_loop_grows metaData usable bounds known retained held cache filled
      (metaData.numChromosomes + metaData.numTrials) crossed 0 grown (by omega) (by omega))
    intro result spec
    obtain ⟨final, -, full⟩ := spec
    dsimp only
    by_cases exhausted : metaData.numTrials ≤ result.2
    · rw [if_pos exhausted]
      exact always_pure _ _ (.inl rfl)
    · have complete := full (by omega)
      rw [if_neg exhausted, if_neg (by omega)]
      apply always_bind _ _ _ _ (set_of_unrun result.1)
      intro tasks spec
      apply always_bind _ _ _ _ (set_of_keys retained)
      intro parents kept
      apply always_pure
      right
      have some_child : result.1 ≠ [] := by
        apply List.ne_nil_of_length_pos
        omega
      refine ⟨_, rfl, spec.1 some_child, ?_, spec.1 some_child, ?_, ?_⟩
      · exact fun flags inside => final.fresh flags ((spec.2 flags).mp inside)
      · exact fun flags inside => final.held flags ((spec.2 flags).mp inside)
      · exact fun parent member => members parent (kept.1 parent member)

theorem contract (metaData : MetaData) (usable : Usable metaData) (bounds : Bounds)
    (known : ∀ spec ∈ metaData.specs, spec ∈ bounds.specs) :
    Contract (algorithm (ρ := ρ) metaData) {flags | bounds.Holds flags} (Fits bounds) fun _ _ => True where
  updated := by
    intro generation after cache task fits taken
    obtain ⟨held, sameKeys, -, sameOwn⟩ := update_task_some generation after task taken
    refine ⟨?_, sameKeys ▸ fits.inside, sameOwn ▸ fits.parents⟩
    intro empty
    have none_left : after.keys = [] := after.exeSet.keys_eq_nil.mpr empty
    rw [← sameKeys, none_left] at held
    exact absurd held nofun
  inside := fun generation cache fits => fits.inside
  answers := by
    intro generation cache fits evaluated _
    obtain ⟨improved, own, answer, sameParents⟩ := is_improved_evaluated metaData bounds generation cache fits evaluated
    refine ⟨improved, own, answer, fun _ => ?_⟩
    exact next_continues metaData usable bounds known { generation with own } cache
      ⟨fits.filled, fits.inside, sameParents ▸ fits.parents⟩ evaluated

end GAGeneration

end ToolchainUtils.Bestflags
