import ToolchainUtils.Bestflags.ExhaustedNeighbourhoods
import ToolchainUtils.FreshDraws

set_option autoImplicit false

namespace ToolchainUtils.Bestflags

open FreshDraws PyString Randomised

-- Flag accepts every spec, and the mutation rate is not negative.
structure Drawable (specs : List Text) (mutationOdds : Option Int) : Prop where
  ordered : ∀ spec ∈ specs, ∀ start last, search spec = some (start, last) → start < last
  nonnegative : ∀ odds ∈ mutationOdds, 0 ≤ odds

section Draws

variable {specs : List Text} {mutationOdds : Option Int} (drawable : Drawable specs mutationOdds)

theorem flag_returns (spec : Text) (ordered : ∀ start last, search spec = some (start, last) → start < last) (value : Int) :
    Always (flag spec value) fun _ => True := by
  by_cases drawn : value = -1
  · rw [drawn]
    cases range : search spec with
    | none => exact always_imp _ _ _ (always_boolean_flag spec range) fun _ _ => trivial
    | some ends => exact always_imp _ _ _ (always_numeric_flag spec ends.1 ends.2 range (ordered _ _ range)) fun _ _ => trivial
  · exact always_imp _ _ _ (always_flag spec value drawn) fun _ _ => trivial

include drawable

theorem mutate_spec_returns (flagSet : FlagSet) (rate : mutationOdds ≠ none) (spec : Text) (member : spec ∈ specs) :
    Always (mutateSpec flagSet mutationOdds spec) fun _ => True := by
  obtain ⟨odds, given⟩ := Option.ne_none_iff_exists'.mp rate
  rw [given, mutateSpec]
  apply always_bind _ _ _ _ (always_randint 0 odds (drawable.nonnegative odds given))
  intro skipped _
  split
  · exact always_pure _ _ trivial
  · cases flagSet.get? spec with
    | none =>
        apply always_bind _ _ _ _ (flag_returns spec (drawable.ordered spec member) (-1))
        exact fun value _ => always_pure _ _ trivial
    | some value =>
        cases search spec with
        | none => exact always_pure _ _ trivial
        | some ends =>
            refine always_bind _ _ _ _ (always_choice Raised.valueError _ (by simp)) fun chosen _ => ?_
            split
            · apply always_bind _ _ _ _ (flag_returns spec (drawable.ordered spec member) chosen)
              exact fun kept _ => always_pure _ _ trivial
            · exact always_pure _ _ trivial

theorem random_mutate_returns (flagSet : FlagSet) (rate : mutationOdds ≠ none ∨ specs = []) :
    Always (randomMutate specs flagSet mutationOdds) fun _ => True := by
  refine always_bind _ _ (fun _ => True) _ ?_ fun items _ => always_pure _ _ trivial
  refine always_imp _ _ _ (always_each_all _ (fun _ => True) specs fun spec member => ?_) fun _ _ => trivial
  cases rate with
  | inl given => exact mutate_spec_returns drawable flagSet given spec member
  | inr none => exact absurd member (none ▸ List.not_mem_nil)

theorem reproduce_returns (fatherFlags motherFlags : FlagSet) :
    Always (reproduceWith fatherFlags motherFlags specs mutationOdds) fun _ => True := by
  have keeps : ∀ items, Always (keepSome items) fun _ => True := fun items =>
    always_imp _ _ _ (keep_some_sub items) fun _ _ => trivial
  apply always_bind _ _ _ _ (keeps _)
  intro own _
  apply always_bind _ _ _ _ (keeps _)
  intro others _
  refine always_bind _ _ (fun _ => True) _ ?_ fun crossed _ => ?_
  · refine always_imp _ _ _ (always_each_all _ (fun _ => True) _ fun common _ => ?_) fun _ _ => trivial
    refine always_bind _ _ (fun _ => True) _ ?_ fun value _ => always_pure _ _ trivial
    exact always_bind _ _ _ _ (always_randint 0 1 (by omega)) fun heads _ => always_pure _ _ trivial
  · split
    next given => exact random_mutate_returns drawable _ (.inl (Option.isSome_iff_ne_none.mp given))
    next => exact always_pure _ _ trivial

end Draws

namespace GAGeneration

variable {ρ : Type} [LinearOrder ρ] (metaData : MetaData)

-- RandomMutate of a task that is kept.
def mutant (task : Task FlagSet ρ) : Drawn FlagSet := randomMutate metaData.specs task.flags metaData.mutationOdds

def retained (generation : Generation FlagSet ρ (GAGeneration ρ)) : List (Task FlagSet ρ) :=
  (sortedByResult (generation.exeSet.tasks ++ generation.own.parents)).take metaData.numChromosomes

-- The two loops that look for children.
def searchChildren (retainedTasks : List (Task FlagSet ρ)) (cache : Finset FlagSet) : Drawn (List FlagSet × Nat) := do
  let crossed ← crossAll metaData retainedTasks cache retainedTasks []
  mutateLoop metaData cache retainedTasks (metaData.numChromosomes + metaData.numTrials) crossed 0

section Crossing

variable {metaData} (drawable : Drawable metaData.specs metaData.mutationOdds) (retained : List (Task FlagSet ρ))
  (filled : retained ≠ []) (cache : Finset FlagSet)

include drawable filled

omit [LinearOrder ρ] in
theorem try_child_fresh (father : Task FlagSet ρ) (trials : Nat) (childPool : List FlagSet) (fresh : Fresh cache childPool) :
    Always (tryChild metaData retained cache father trials childPool) fun result =>
      Fresh cache result ∧ result.length ≤ childPool.length + 1 := by
  induction trials with
  | zero => exact always_pure _ _ ⟨fresh, by omega⟩
  | succ trials ih =>
      apply always_bind _ _ _ _ (always_choice _ retained filled)
      intro mother _
      apply always_bind _ _ _ _ (reproduce_returns drawable mother.flags father.flags)
      intro child _
      by_cases isNew : child ∉ childPool ∧ child ∉ cache
      · rw [if_pos isNew]
        exact always_pure _ _ ⟨fresh_cons childPool child fresh isNew, Nat.le_refl _⟩
      · rw [if_neg isNew]
        exact ih

omit [LinearOrder ρ] in
theorem cross_all_fresh (fathers : List (Task FlagSet ρ)) (childPool : List FlagSet) (fresh : Fresh cache childPool) :
    Always (crossAll metaData retained cache fathers childPool) fun result =>
      Fresh cache result ∧ result.length ≤ childPool.length + fathers.length := by
  induction fathers generalizing childPool with
  | nil => exact always_pure _ _ ⟨fresh, Nat.le_refl _⟩
  | cons father rest ih =>
      apply always_bind _ _ _ _ (try_child_fresh drawable retained filled cache father metaData.numTrials childPool fresh)
      intro more spec
      apply always_imp _ _ _ (ih more spec.1)
      intro result final
      have here := spec.2
      have later := final.2
      exact ⟨final.1, by rw [List.length_cons]; omega⟩

end Crossing

-- The children that so many whole passes and a part of one more draw.
def Draws (retained : List (Task FlagSet ρ)) (source : Source) (passes : Nat) (part : List (Task FlagSet ρ))
    (early late : List FlagSet) (rest : Source) : Prop :=
  ∃ middle, each (mutant metaData) (List.replicate passes retained).flatten source = .ok (early, middle) ∧
    each (mutant metaData) part middle = .ok (late, rest)

-- A mutation fills the pool in a pass that is begun with trials left and in which they
-- run out.
def LateFill (retained : List (Task FlagSet ρ)) (cache : Finset FlagSet) (crossed : List FlagSet) (source : Source) : Prop :=
  ∃ passes part early late rest, part <+: retained ∧ Draws metaData retained source passes part early late rest ∧
    Completes cache metaData.numChromosomes crossed (early ++ late) ∧ rejected cache crossed early < metaData.numTrials ∧
      metaData.numTrials ≤ rejected cache crossed (early ++ late)

section Mutating

variable {metaData} (cache : Finset FlagSet)

omit [LinearOrder ρ] in
-- A pass takes the children of all the tasks, or of the first ones, up to the child
-- that fills the pool.
theorem mutate_pass_ran (kept : List (Task FlagSet ρ)) (returns : ∀ task ∈ kept, Always (mutant metaData task) fun _ => True)
    (childPool : List FlagSet) (numTrials : Nat) (source : Source) (room : childPool.length < metaData.numChromosomes) :
    ∃ part children rest, part <+: kept ∧ each (mutant metaData) part source = .ok (children, rest) ∧
      mutatePass metaData cache kept childPool numTrials source =
        .ok ((pooled cache childPool children, numTrials + rejected cache childPool children), rest) ∧
      (part = kept ∧ (pooled cache childPool children).length < metaData.numChromosomes ∨
        Completes cache metaData.numChromosomes childPool children) := by
  induction kept generalizing childPool numTrials source with
  | nil => exact ⟨[], [], source, List.prefix_rfl, rfl, rfl, .inl ⟨rfl, room⟩⟩
  | cons task others ih =>
      obtain ⟨here, later⟩ := List.forall_mem_cons.mp returns
      obtain ⟨child, middle, drawn, -⟩ := here source
      have single : pooled cache childPool [child] =
          if child ∉ childPool ∧ child ∉ cache then child :: childPool else childPool := rfl
      by_cases full : (child ∉ childPool ∧ child ∉ cache) ∧ metaData.numChromosomes ≤ (child :: childPool).length
      · obtain ⟨isNew, enough⟩ := full
        have exact : metaData.numChromosomes = childPool.length + 1 := by
          rw [List.length_cons] at enough
          omega
        refine ⟨[task], [child], middle, (List.prefix_cons_inj task).mpr List.nil_prefix, ?_, ?_, .inr ?_⟩
        · exact (bind_ran _ _ source middle _).mpr ⟨child, middle, drawn, rfl⟩
        · refine (bind_ran _ _ source middle _).mpr ⟨child, middle, drawn, ?_⟩
          rw [if_pos isNew, if_pos enough, single, if_pos isNew, rejected, if_pos isNew]
          rfl
        · rw [exact]
          exact completes_single childPool child isNew
      · have below : (pooled cache childPool [child]).length < metaData.numChromosomes := by
          rw [single]
          split
          next isNew => exact not_le.mp fun enough => full ⟨isNew, enough⟩
          next => exact room
        obtain ⟨part, children, rest, starts, ran, passed, ends⟩ := ih later (pooled cache childPool [child])
          (numTrials + rejected cache childPool [child]) middle below
        have first : ∀ tail, pooled cache childPool (child :: tail) = pooled cache (pooled cache childPool [child]) tail :=
          pooled_append childPool [child]
        have counted : rejected cache childPool (child :: children) =
            rejected cache childPool [child] + rejected cache (pooled cache childPool [child]) children :=
          rejected_append childPool [child] children
        refine ⟨task :: part, child :: children, rest, (List.prefix_cons_inj task).mpr starts, ?_, ?_, ?_⟩
        · exact (bind_ran _ _ source rest _).mpr ⟨child, middle, drawn, (bind_ran _ _ middle rest _).mpr
            ⟨children, rest, ran, rfl⟩⟩
        · refine (bind_ran _ _ source rest _).mpr ⟨child, middle, drawn, ?_⟩
          rw [first, counted, ← Nat.add_assoc, ← passed]
          by_cases isNew : child ∉ childPool ∧ child ∉ cache
          · rw [if_pos isNew, if_neg fun enough => full ⟨isNew, enough⟩, single, if_pos isNew, rejected, if_pos isNew]
            rfl
          · rw [if_neg isNew, single, if_neg isNew, rejected, if_neg isNew]
            rfl
        · cases ends with
          | inl whole =>
              obtain ⟨rfl, room⟩ := whole
              exact .inl ⟨rfl, by rw [first]; exact room⟩
          | inr fills => exact .inr (completes_append _ childPool [child] children below fills)

omit [LinearOrder ρ] in
theorem draws_first (retained part : List (Task FlagSet ρ)) (source rest : Source) (late : List FlagSet)
    (ran : each (mutant metaData) part source = .ok (late, rest)) : Draws metaData retained source 0 part [] late rest :=
  ⟨source, rfl, ran⟩

omit [LinearOrder ρ] in
theorem draws_succ (retained part : List (Task FlagSet ρ)) (source middle rest : Source) (passes : Nat)
    (children early late : List FlagSet) (ran : each (mutant metaData) retained source = .ok (children, middle))
    (draws : Draws metaData retained middle passes part early late rest) :
    Draws metaData retained source (passes + 1) part (children ++ early) late rest := by
  obtain ⟨between, begins, ends⟩ := draws
  refine ⟨between, ?_, ends⟩
  rw [List.replicate_succ, List.flatten_cons]
  exact (each_append_ran _ _ _ _ _ _).mpr ⟨children, middle, early, ran, begins, rfl⟩

omit [LinearOrder ρ] in
-- The loop ends in the pass that fills the pool, or after the pass that uses up the
-- trials.
theorem mutate_loop_ran (retained : List (Task FlagSet ρ)) (filled : retained ≠ [])
    (returns : ∀ task ∈ retained, Always (mutant metaData task) fun _ => True) (fuel : Nat) (childPool : List FlagSet)
    (numTrials : Nat) (source : Source) (room : childPool.length < metaData.numChromosomes) (left : numTrials < metaData.numTrials)
    (enough : metaData.numChromosomes + metaData.numTrials ≤ fuel + childPool.length + numTrials) :
    ∃ passes part early late rest, part <+: retained ∧ Draws metaData retained source passes part early late rest ∧
      mutateLoop metaData cache retained fuel childPool numTrials source =
        .ok ((pooled cache childPool (early ++ late), numTrials + rejected cache childPool (early ++ late)), rest) ∧
      (Completes cache metaData.numChromosomes childPool (early ++ late) ∧
          numTrials + rejected cache childPool early < metaData.numTrials ∨
        late = [] ∧ (pooled cache childPool early).length < metaData.numChromosomes ∧
          metaData.numTrials ≤ numTrials + rejected cache childPool early) := by
  induction fuel generalizing childPool numTrials source with
  | zero => omega
  | succ fuel ih =>
      obtain ⟨part, children, rest, starts, ran, passed, ends⟩ :=
        mutate_pass_ran cache retained returns childPool numTrials source room
      have goesOn : mutateLoop metaData cache retained (fuel + 1) childPool numTrials source =
          mutateLoop metaData cache retained fuel (pooled cache childPool children)
            (numTrials + rejected cache childPool children) rest := by
        rw [mutateLoop, if_pos ⟨room, left⟩]
        change (mutatePass metaData cache retained childPool numTrials source >>= _) = _
        rw [passed]
        rfl
      rw [goesOn]
      rcases ends with ⟨rfl, short⟩ | fills
      · by_cases used : metaData.numTrials ≤ numTrials + rejected cache childPool children
        · refine ⟨1, [], children, [], rest, List.nil_prefix, ⟨rest, ?_, rfl⟩, ?_, .inr ⟨rfl, short, used⟩⟩
          · rw [List.replicate_one, List.flatten_singleton]
            exact ran
          · rw [mutate_loop_over _ _ _ _ _ _ (by omega), List.append_nil]
            rfl
        · have counted : (pooled cache childPool children).length + rejected cache childPool children =
              childPool.length + children.length := drawn_counted childPool children
          have length := each_ran_length _ _ _ _ _ ran
          have some_task := List.length_pos_iff.mpr filled
          obtain ⟨passes, last, early, late, final, isPart, draws, looped, ended⟩ := ih (pooled cache childPool children)
            (numTrials + rejected cache childPool children) rest short (not_le.mp used) (by omega)
          have split : ∀ more, pooled cache childPool (children ++ more) = pooled cache (pooled cache childPool children) more :=
            pooled_append childPool children
          have counts : ∀ more, rejected cache childPool (children ++ more) =
              rejected cache childPool children + rejected cache (pooled cache childPool children) more :=
            rejected_append childPool children
          refine ⟨passes + 1, last, children ++ early, late, final, isPart, draws_succ _ _ _ _ _ _ _ _ _ ran draws, ?_, ?_⟩
          · rw [looped, List.append_assoc, split, counts, Nat.add_assoc]
          · rw [List.append_assoc, split, counts, ← Nat.add_assoc]
            exact ended.imp_left fun fills => ⟨completes_append _ childPool children _ short fills.1, fills.2⟩
      · refine ⟨0, part, [], children, rest, starts, draws_first _ _ _ _ _ ran, ?_, .inl ⟨fills, left⟩⟩
        rw [List.nil_append, mutate_loop_over _ _ _ _ _ _ (by rw [fills.full]; omega)]
        rfl

omit [LinearOrder ρ] in
theorem earlier_passes (retained part : List (Task FlagSet ρ)) (starts : part <+: retained) (passes more : Nat)
    (fewer : passes < more) : (List.replicate passes retained).flatten ++ part <+: (List.replicate more retained).flatten := by
  obtain ⟨extra, rfl⟩ := Nat.exists_eq_add_of_lt fewer
  rw [Nat.add_assoc, List.replicate_add, List.flatten_append, List.replicate_succ, List.flatten_cons]
  exact (List.prefix_append_right_inj _).mpr (starts.trans (List.prefix_append _ _))

omit [LinearOrder ρ] in
theorem draws_all (retained part : List (Task FlagSet ρ)) (source rest : Source) (passes : Nat) (early late : List FlagSet)
    (draws : Draws metaData retained source passes part early late rest) :
    each (mutant metaData) ((List.replicate passes retained).flatten ++ part) source = .ok (early ++ late, rest) := by
  obtain ⟨middle, begins, ends⟩ := draws
  exact (each_append_ran _ _ _ _ _ _).mpr ⟨early, middle, late, begins, ends, rfl⟩

omit [LinearOrder ρ] in
-- What is drawn in whole passes starts with what is drawn in fewer passes and a part.
theorem draws_within (retained part other : List (Task FlagSet ρ)) (starts : part <+: retained) (source rest final : Source)
    (passes more : Nat) (early late before after : List FlagSet) (fewer : passes < more)
    (draws : Draws metaData retained source passes part early late rest)
    (again : Draws metaData retained source more other before after final) : early ++ late <+: before := by
  obtain ⟨middle, begins, -⟩ := again
  exact each_prefix_ran _ _ _ (earlier_passes retained part starts passes more fewer) _ _ _ _ _
    (draws_all _ _ _ _ _ _ _ draws) begins

omit [LinearOrder ρ] in
theorem draws_comparable (retained part other : List (Task FlagSet ρ)) (starts : part <+: retained) (starts' : other <+: retained)
    (source rest final : Source) (passes more : Nat) (early late before after : List FlagSet)
    (draws : Draws metaData retained source passes part early late rest)
    (again : Draws metaData retained source more other before after final) :
    early ++ late <+: before ++ after ∨ before ++ after <+: early ++ late := by
  have comparable := List.prefix_or_prefix_of_prefix
    (earlier_passes retained part starts passes (passes + more + 1) (by omega))
    (earlier_passes retained other starts' more (passes + more + 1) (by omega))
  have first := draws_all _ _ _ _ _ _ _ draws
  have second := draws_all _ _ _ _ _ _ _ again
  exact comparable.imp (fun within => each_prefix_ran _ _ _ within _ _ _ _ _ first second)
    (fun within => each_prefix_ran _ _ _ within _ _ _ _ _ second first)

omit [LinearOrder ρ] in
theorem full_is_not_late (retained : List (Task FlagSet ρ)) (crossed : List FlagSet) (source : Source)
    (full : crossed.length = metaData.numChromosomes) (trials : 1 ≤ metaData.numTrials) :
    ¬ LateFill metaData retained cache crossed source := by
  rintro ⟨passes, part, early, late, rest, -, -, fills, -, used⟩
  by_cases none : early ++ late = []
  · rw [none, rejected] at used
    omega
  · have room := fills.before [] List.nil_prefix (Ne.symm none)
    rw [pooled] at room
    omega

omit [LinearOrder ρ] in
-- Either the pool is full in the end, or the trials are used up.
theorem mutate_loop_outcome (retained : List (Task FlagSet ρ)) (filled : retained ≠ [])
    (returns : ∀ task ∈ retained, Always (mutant metaData task) fun _ => True) (trials : 1 ≤ metaData.numTrials)
    (crossed : List FlagSet) (source : Source) (room : crossed.length < metaData.numChromosomes) :
    ∃ childPool numTrials rest, mutateLoop metaData cache retained (metaData.numChromosomes + metaData.numTrials) crossed 0 source =
        .ok ((childPool, numTrials), rest) ∧ (Fresh cache crossed → Fresh cache childPool) ∧
      (childPool.length = metaData.numChromosomes ∧
          (metaData.numTrials ≤ numTrials ↔ LateFill metaData retained cache crossed source) ∨
        childPool.length < metaData.numChromosomes ∧ metaData.numTrials ≤ numTrials ∧
          ¬ LateFill metaData retained cache crossed source) := by
  obtain ⟨passes, part, early, late, rest, starts, draws, looped, ended⟩ := mutate_loop_ran cache retained filled returns
    (metaData.numChromosomes + metaData.numTrials) crossed 0 source room trials (by omega)
  refine ⟨_, _, rest, looped, pooled_fresh crossed (early ++ late), ?_⟩
  rw [Nat.zero_add]
  rw [Nat.zero_add] at ended
  rcases ended with ⟨fills, inTime⟩ | ⟨rfl, short, used⟩
  · refine .inl ⟨fills.full, fun isLate => ⟨passes, part, early, late, rest, starts, draws, fills, inTime, isLate⟩, ?_⟩
    rintro ⟨more, other, before, after, final, starts', again, fills', -, used⟩
    have same := completes_unique _ crossed _ _ fills fills'
      (draws_comparable retained part other starts starts' source rest final passes more early late before after draws again)
    rw [same]
    exact used
  · rw [List.append_nil]
    refine .inr ⟨short, used, ?_⟩
    rintro ⟨more, other, before, after, final, starts', again, fills, inTime, -⟩
    cases Nat.lt_or_ge more passes with
    | inl fewer =>
        have within := draws_within retained other part starts' source final rest more passes before after early [] fewer again draws
        have most : (pooled cache crossed (before ++ after)).length ≤ (pooled cache crossed early).length :=
          pooled_of_part crossed _ _ within
        rw [fills.full] at most
        omega
    | inr atLeast =>
        obtain ⟨middle, begins, -⟩ := draws
        obtain ⟨between, begins', -⟩ := again
        have shorter : (List.replicate passes retained).flatten <+: (List.replicate more retained).flatten := by
          obtain ⟨extra, rfl⟩ := Nat.exists_eq_add_of_le atLeast
          rw [List.replicate_add, List.flatten_append]
          exact List.prefix_append _ _
        have fewer : rejected cache crossed early ≤ rejected cache crossed before :=
          rejected_of_part crossed _ _ (each_prefix_ran _ _ _ shorter _ _ _ _ _ begins begins')
        omega

end Mutating

-- The tasks are kept by their results: a list of the best of them, as a set.
structure BestOf (count : Nat) (tasks parents : List (Task FlagSet ρ)) : Prop where
  kept : ∃ kept left, (kept ++ left).Perm tasks ∧ kept.length = min count tasks.length ∧
    (∀ one ∈ kept, ∀ other ∈ left, testResult one ≤ testResult other) ∧ (∀ parent ∈ parents, parent ∈ kept) ∧
      (∀ task ∈ kept, ∃ parent ∈ parents, parent.flags = task.flags) ∧
        ((tasks.map (·.flags)).Nodup → parents.Perm kept)
  best : ∃ parent ∈ parents, ∀ task ∈ tasks, testResult parent ≤ testResult task

-- One generation with a full set of new tasks, or none because too few were found.
def StepRight (generation : Generation FlagSet ρ (GAGeneration ρ)) (cache : Finset FlagSet) (source : Source) : Prop :=
  ∃ new rest, next metaData generation cache source = .ok (new, rest) ∧
    ((∃ made, new = [made] ∧ made.exeSet.tasks.length = metaData.numChromosomes ∧ (∀ flags ∈ made.exeSet.keys, flags ∉ cache) ∧
        BestOf metaData.numChromosomes (generation.exeSet.tasks ++ generation.own.parents) made.own.parents) ∨
      new = [] ∧ ∃ found trials after, searchChildren metaData (retained metaData generation) cache source =
        .ok ((found, trials), after) ∧ Fresh cache found ∧ found.length < metaData.numChromosomes)

-- What Next does with the children that were found.
def settle (generation : Generation FlagSet ρ (GAGeneration ρ)) (found : List FlagSet × Nat) :
    Drawn (List (NewGeneration FlagSet ρ (GAGeneration ρ))) :=
  if metaData.numTrials ≤ found.2 then
    pure []
  else if found.1.length ≠ metaData.numChromosomes then
    throw .assertionError
  else do
    let tasks ← setOf (found.1.map fun flags => ⟨flags, none⟩)
    let parents ← setOf (retained metaData generation)
    pure [⟨tasks, ⟨parents.tasks, generation.own.totalStucks⟩⟩]

section Stepping

variable {metaData} (generation : Generation FlagSet ρ (GAGeneration ρ)) (cache : Finset FlagSet)

theorem next_search : next metaData generation cache =
    searchChildren metaData (retained metaData generation) cache >>= settle metaData generation := by
  rw [next, searchChildren, bind_assoc]
  rfl

theorem sorted_pairwise (tasks : List (Task FlagSet ρ)) :
    (sortedByResult tasks).Pairwise fun left right => testResult left ≤ testResult right := by
  refine (List.pairwise_mergeSort (fun first second third => ?_) (fun first second => ?_) tasks).imp of_decide_eq_true
  · simpa using le_trans
  · simpa using le_total (testResult first) (testResult second)

theorem sorted_perm (tasks : List (Task FlagSet ρ)) : (sortedByResult tasks).Perm tasks := List.mergeSort_perm tasks _

theorem best_of_retained (target : 1 ≤ metaData.numChromosomes) (filled : generation.exeSet.tasks ≠ [])
    (parents : List (Task FlagSet ρ)) (perm : parents.Perm (firstOfEqual (retained metaData generation))) :
    BestOf metaData.numChromosomes (generation.exeSet.tasks ++ generation.own.parents) parents := by
  generalize whole : generation.exeSet.tasks ++ generation.own.parents = tasks
  have sorted : (retained metaData generation ++ (sortedByResult tasks).drop metaData.numChromosomes).Perm tasks := by
    rw [retained, whole, List.take_append_drop]
    exact sorted_perm tasks
  have length : (retained metaData generation).length = min metaData.numChromosomes tasks.length := by
    rw [retained, whole, List.length_take, (sorted_perm tasks).length_eq]
  have below : ∀ one ∈ retained metaData generation, ∀ other ∈ (sortedByResult tasks).drop metaData.numChromosomes,
      testResult one ≤ testResult other := by
    have ordered := sorted_pairwise tasks
    rw [← List.take_append_drop metaData.numChromosomes (sortedByResult tasks)] at ordered
    rw [retained, whole]
    exact (List.pairwise_append.mp ordered).2.2
  refine ⟨⟨_, _, sorted, length, below, fun parent member => first_of_equal_sub _ parent (perm.mem_iff.mp member),
    fun task member => ?_, fun distinct => ?_⟩, ?_⟩
  · obtain ⟨kept, present, same⟩ := first_of_equal_keys _ task member
    exact ⟨kept, perm.mem_iff.mpr present, same⟩
  · have all : firstOfEqual (retained metaData generation) = retained metaData generation := by
      apply first_of_equal_all
      exact ((sorted.map (·.flags)).nodup_iff.mpr distinct).sublist ((List.sublist_append_left _ _).map _)
    rwa [all] at perm
  · have some_task : tasks ≠ [] := whole ▸ List.append_ne_nil_of_left_ne_nil filled _
    obtain ⟨first, rest, listed⟩ := List.exists_cons_of_ne_nil fun none : sortedByResult tasks = [] =>
      some_task (List.perm_nil.mp (none ▸ (sorted_perm tasks).symm))
    have isKept : first ∈ firstOfEqual (retained metaData generation) := by
      obtain ⟨count, more⟩ := Nat.exists_eq_add_of_le target
      rw [retained, whole, listed, more, Nat.add_comm, List.take_succ_cons]
      exact List.mem_cons_self
    refine ⟨first, perm.mem_iff.mpr isKept, fun task member => ?_⟩
    have ordered := sorted_pairwise tasks
    rw [listed] at ordered
    cases List.mem_cons.mp (listed ▸ (sorted_mem tasks task).mpr member) with
    | inl same => exact same ▸ le_refl _
    | inr later => exact (List.pairwise_cons.mp ordered).1 task later

-- With trials left a full pool becomes a generation.
theorem settle_full (target : 1 ≤ metaData.numChromosomes) (filled : generation.exeSet.tasks ≠ []) (found : List FlagSet)
    (trials : Nat) (fresh : Fresh cache found) (full : found.length = metaData.numChromosomes) (left : trials < metaData.numTrials) :
    Always (settle metaData generation (found, trials)) fun new => ∃ made, new = [made] ∧
      made.exeSet.tasks.length = metaData.numChromosomes ∧ (∀ flags ∈ made.exeSet.keys, flags ∉ cache) ∧
        BestOf metaData.numChromosomes (generation.exeSet.tasks ++ generation.own.parents) made.own.parents := by
  rw [settle, if_neg (not_le.mpr left), if_neg (not_not.mpr full)]
  have keys : (found.map fun flags => (⟨flags, none⟩ : Task FlagSet ρ)).map (·.flags) = found := by
    rw [List.map_map]
    exact List.map_id found
  apply always_bind _ _ _ _ (set_of_spec _)
  intro tasks spec
  rw [first_of_equal_all _ (keys.symm ▸ fresh.distinct)] at spec
  apply always_bind _ _ _ _ (set_of_spec _)
  intro parents perm
  refine always_pure _ _ ⟨_, rfl, ?_, fun flags inside => ?_, best_of_retained generation target filled parents.tasks perm⟩
  · rw [spec.length_eq, List.length_map, full]
  · refine fresh.outside flags ?_
    rw [← keys]
    exact (spec.map (·.flags)).mem_iff.mp inside

section Crossed

variable (source drawn : Source) (crossed : List FlagSet)
  (ran : crossAll metaData (retained metaData generation) cache (retained metaData generation) [] source = .ok (crossed, drawn))

include ran

theorem search_after : searchChildren metaData (retained metaData generation) cache source =
    mutateLoop metaData cache (retained metaData generation) (metaData.numChromosomes + metaData.numTrials) crossed 0 drawn := by
  change (crossAll metaData (retained metaData generation) cache (retained metaData generation) [] source >>= _) = _
  rw [ran]
  rfl

variable (found : List FlagSet) (trials : Nat) (after : Source)
  (searched : mutateLoop metaData cache (retained metaData generation) (metaData.numChromosomes + metaData.numTrials) crossed 0 drawn =
    .ok ((found, trials), after))

include searched

theorem next_after : next metaData generation cache source = settle metaData generation (found, trials) after := by
  rw [next_search]
  change (searchChildren metaData (retained metaData generation) cache source >>= _) = _
  rw [search_after generation cache source drawn crossed ran, searched]
  rfl

theorem full_right (target : 1 ≤ metaData.numChromosomes) (filled : generation.exeSet.tasks ≠ []) (fresh : Fresh cache found)
    (full : found.length = metaData.numChromosomes) (left : trials < metaData.numTrials) :
    StepRight metaData generation cache source := by
  obtain ⟨new, rest, settled, right⟩ := settle_full generation cache target filled found trials fresh full left after
  exact ⟨new, rest, (next_after generation cache source drawn crossed ran found trials after searched).trans settled, .inl right⟩

theorem gives_up (used : metaData.numTrials ≤ trials) : next metaData generation cache source = .ok ([], after) := by
  rw [next_after generation cache source drawn crossed ran found trials after searched, settle, if_pos used]
  rfl

theorem short_right (fresh : Fresh cache found) (short : found.length < metaData.numChromosomes)
    (used : metaData.numTrials ≤ trials) : StepRight metaData generation cache source :=
  ⟨[], after, gives_up generation cache source drawn crossed ran found trials after searched used,
    .inr ⟨rfl, found, trials, after, (search_after generation cache source drawn crossed ran).trans searched, fresh, short⟩⟩

theorem late_wrong (full : found.length = metaData.numChromosomes) (used : metaData.numTrials ≤ trials) :
    ¬ StepRight metaData generation cache source := by
  rintro ⟨new, rest, answered, right⟩
  rw [gives_up generation cache source drawn crossed ran found trials after searched used] at answered
  obtain ⟨rfl, -⟩ := Prod.mk.inj (Except.ok.inj answered)
  rcases right with ⟨made, single, -⟩ | ⟨-, others, more, final, again, -, short⟩
  · exact List.cons_ne_nil _ _ single.symm
  · rw [search_after generation cache source drawn crossed ran, searched] at again
    obtain ⟨same, -⟩ := Prod.mk.inj (Prod.mk.inj (Except.ok.inj again)).1
    rw [← same, full] at short
    exact Nat.lt_irrefl _ short

end Crossed

omit [LinearOrder ρ] in
-- Without a rate the first mutation of a spec divides by zero.
theorem mutate_loop_raises (kept : List (Task FlagSet ρ)) (filled : kept ≠ []) (rate : metaData.mutationOdds = none)
    (specs : metaData.specs ≠ []) (crossed : List FlagSet) (drawn : Source) (room : crossed.length < metaData.numChromosomes)
    (trials : 1 ≤ metaData.numTrials) (fuel : Nat) :
    mutateLoop metaData cache kept (fuel + 1) crossed 0 drawn = .error .zeroDivisionError := by
  obtain ⟨task, rest, rfl⟩ := List.exists_cons_of_ne_nil filled
  obtain ⟨spec, others, listed⟩ := List.exists_cons_of_ne_nil specs
  rw [mutateLoop, if_pos ⟨room, trials⟩, mutatePass, randomMutate, rate, listed]
  rfl

theorem step_right_iff (drawable : Drawable metaData.specs metaData.mutationOdds) (target : 1 ≤ metaData.numChromosomes)
    (trials : 1 ≤ metaData.numTrials) (filled : generation.exeSet.tasks ≠ []) (source : Source) :
    ∃ crossed drawn, crossAll metaData (retained metaData generation) cache (retained metaData generation) [] source =
        .ok (crossed, drawn) ∧
      (StepRight metaData generation cache source ↔
        (crossed.length = metaData.numChromosomes ∨ metaData.mutationOdds ≠ none ∨ metaData.specs = []) ∧
          ¬ LateFill metaData (retained metaData generation) cache crossed drawn) := by
  have some_kept : retained metaData generation ≠ [] := by
    apply List.ne_nil_of_length_pos
    have some_task := List.length_pos_iff.mpr filled
    rw [retained, List.length_take, (sorted_perm _).length_eq, List.length_append]
    omega
  have few : (retained metaData generation).length ≤ metaData.numChromosomes := List.length_take_le _ _
  obtain ⟨crossed, drawn, ran, fresh, short⟩ := cross_all_fresh drawable (retained metaData generation) some_kept cache
    (retained metaData generation) [] fresh_nil source
  rw [List.length_nil, Nat.zero_add] at short
  refine ⟨crossed, drawn, ran, ?_⟩
  by_cases full : crossed.length = metaData.numChromosomes
  · refine iff_of_true ?_ ⟨.inl full, full_is_not_late cache _ crossed drawn full trials⟩
    refine full_right generation cache source drawn crossed ran crossed 0 drawn ?_ target filled fresh full trials
    rw [mutate_loop_over _ _ _ _ _ _ (by omega)]
    rfl
  · have room : crossed.length < metaData.numChromosomes := by omega
    by_cases rate : metaData.mutationOdds ≠ none ∨ metaData.specs = []
    · obtain ⟨found, used, after, searched, stays, outcome⟩ := mutate_loop_outcome cache (retained metaData generation) some_kept
        (fun task _ => random_mutate_returns drawable task.flags rate) trials crossed drawn room
      rcases outcome with ⟨complete, late⟩ | ⟨few, spent, notLate⟩
      · by_cases isLate : metaData.numTrials ≤ used
        · exact iff_of_false (late_wrong generation cache source drawn crossed ran found used after searched complete isLate)
            fun right => right.2 (late.mp isLate)
        · exact iff_of_true (full_right generation cache source drawn crossed ran found used after searched target filled
            (stays fresh) complete (not_le.mp isLate)) ⟨.inr rate, fun isLater => isLate (late.mpr isLater)⟩
      · exact iff_of_true (short_right generation cache source drawn crossed ran found used after searched (stays fresh) few spent)
          ⟨.inr rate, notLate⟩
    · refine iff_of_false ?_ fun right => right.1.elim full rate
      rintro ⟨new, rest, answered, -⟩
      obtain ⟨noRate, some_spec⟩ := not_or.mp rate
      obtain ⟨fuel, enough⟩ := Nat.exists_eq_add_of_le target
      rw [next_search] at answered
      obtain ⟨found, after, searched, -⟩ := (bind_ran _ _ source rest new).mp answered
      rw [search_after generation cache source drawn crossed ran, enough, Nat.add_comm 1 fuel, Nat.add_right_comm,
        mutate_loop_raises cache _ some_kept (not_not.mp noRate) some_spec crossed drawn room trials] at searched
      cases searched

end Stepping

def unrolling (odds : Option Int) : MetaData where
  stopThreshold := 1
  numChromosomes := 1
  numTrials := 1
  specs := ["-funroll-loops".toList]
  mutationOdds := odds

-- The only task has no flags, and the crossover with itself gives it again.
def plainGeneration : Generation FlagSet Nat (GAGeneration Nat) where
  exeSet := ⟨[⟨noFlags, some 1⟩], List.nodup_singleton _⟩
  own := ⟨[], 0⟩
  pending := 0

theorem unrolling_drawable (odds : Option Int) (nonnegative : ∀ n ∈ odds, 0 ≤ n) :
    Drawable (unrolling odds).specs (unrolling odds).mutationOdds := by
  refine ⟨fun spec member start last found => ?_, nonnegative⟩
  rw [List.mem_singleton.mp member] at found
  exact absurd found.symm (Option.some_ne_none _)

theorem plain_retained (odds : Option Int) : retained (unrolling odds) plainGeneration = [⟨noFlags, some 1⟩] := by
  rw [retained, sortedByResult]
  exact congrArg (List.take 1) (List.mergeSort_singleton _)

-- Without mutation the step divides by zero.
theorem disabled_mutation_raises :
    (Drawable (unrolling none).specs (unrolling none).mutationOdds ∧ plainGeneration.exeSet.tasks ≠ []) ∧
      ¬ StepRight (unrolling none) plainGeneration {noFlags} fun _ => 0 := by
  refine ⟨⟨unrolling_drawable none fun n none => absurd none.symm (Option.some_ne_none n), List.cons_ne_nil _ _⟩, ?_⟩
  rintro ⟨new, rest, answered, -⟩
  rw [next_search, plain_retained] at answered
  obtain ⟨found, after, searched, -⟩ := (bind_ran _ _ _ rest new).mp answered
  cases searched

theorem mutating_step_right_iff :
    ∃ crossed drawn, crossAll (unrolling (some 2)) (retained (unrolling (some 2)) plainGeneration) {noFlags}
        (retained (unrolling (some 2)) plainGeneration) [] (fun _ => 0) = .ok (crossed, drawn) ∧
      (StepRight (unrolling (some 2)) plainGeneration {noFlags} (fun _ => 0) ↔
        (crossed.length = 1 ∨ (some 2 : Option Int) ≠ none ∨ ["-funroll-loops".toList] = []) ∧
          ¬ LateFill (unrolling (some 2)) (retained (unrolling (some 2)) plainGeneration) {noFlags} crossed drawn) :=
  step_right_iff plainGeneration {noFlags} (unrolling_drawable (some 2) fun n two => Option.some.inj two ▸ by decide)
    (Nat.le_refl 1) (Nat.le_refl 1) (List.cons_ne_nil _ _) fun _ => 0

end GAGeneration

end ToolchainUtils.Bestflags
