import Mathlib.Algebra.BigOperators.Group.List.Basic
import ToolchainUtils.Bestflags.AlgorithmRuns
import ToolchainUtils.Bestflags.FlagUniverse
import ToolchainUtils.Bestflags.IterativeElimination

set_option autoImplicit false

namespace ToolchainUtils.Bestflags.IterativeElimination

open PyString Randomised Transition

-- How often a flag can be decreased until it is turned off.
def weight (spec : Text) (value : Int) : Int :=
  match search spec with
  | none => 1
  | some (start, _) => value - start + 1

def rank (flags : FlagSet) : Int := (flags.entries.map fun item => weight item.1 item.2).sum

-- What decreaseFlag returns for legal flags, which draws nothing.
def decreased (flags : FlagSet) (spec : Text) : FlagSet :=
  match flags.get? spec, search spec with
  | none, _ => flags
  | some _, none => flags.erase spec
  | some value, some (start, _) => if value = start then flags.erase spec else flags.insert spec (value - 1)

theorem rank_erase (flags : FlagSet) (spec : Text) (value : Int) (found : flags.get? spec = some value) :
    rank (flags.erase spec) = rank flags - weight spec value := by
  have split := ((SortedDict.erase_perm flags spec value found).map fun item => weight item.1 item.2).sum_eq
  rw [List.map_cons, List.sum_cons] at split
  change rank flags = weight spec value + rank (flags.erase spec) at split
  omega

theorem rank_insert (flags : FlagSet) (spec : Text) (value : Int) :
    rank (flags.insert spec value) = weight spec value + rank (flags.erase spec) := by
  have split := ((SortedDict.insert_perm flags spec value).map fun item => weight item.1 item.2).sum_eq
  rw [List.map_cons, List.sum_cons] at split
  exact split

-- Every decrease is one step down, so nothing decreased was run before.
theorem rank_decreased (flags : FlagSet) (spec : Text) (value : Int) (found : flags.get? spec = some value) :
    rank (decreased flags spec) = rank flags - 1 := by
  rw [decreased, found]
  have erased := rank_erase flags spec value found
  cases range : search spec with
  | none =>
      have one : weight spec value = 1 := by rw [weight, range]
      dsimp only
      omega
  | some range' =>
      obtain ⟨start, last⟩ := range'
      have height : ∀ value, weight spec value = value - start + 1 := fun value => by rw [weight, range]
      have heightHere := height value
      dsimp only
      by_cases lowest : value = start
      · rw [if_pos lowest]
        omega
      · have heightBelow := height (value - 1)
        rw [if_neg lowest, rank_insert]
        omega

theorem decrease_flag_legal (flags : FlagSet) (legal : Legal flags) (spec : Text) (held : spec ∈ flags.keys) :
    Always (decreaseFlag flags spec) fun found => found = decreased flags spec := by
  obtain ⟨value, present⟩ := (SortedDict.mem_keys flags spec).mp held
  rw [decreaseFlag, decreased, present]
  cases range : search spec with
  | none => exact always_pure _ _ rfl
  | some range' =>
      obtain ⟨start, last⟩ := range'
      have nonnegative := search_nonnegative spec start last range
      have above := legal spec value present start last range
      dsimp only
      by_cases lowest : value = start
      · rw [if_pos lowest, if_pos lowest]
        exact always_pure _ _ rfl
      · rw [if_neg lowest, if_neg lowest]
        apply always_bind _ _ _ _ (always_flag spec (value - 1) (by omega))
        intro less same
        exact always_pure _ _ (same ▸ rfl)

theorem decreased_held (bounds : Bounds) (flags : FlagSet) (held : bounds.Holds flags) (spec : Text) :
    bounds.Holds (decreased flags spec) := by
  rw [decreased]
  cases present : flags.get? spec with
  | none => exact held
  | some value =>
      have admitted := held spec value present
      cases range : search spec with
      | none => exact holds_erase bounds flags spec held
      | some range' =>
          obtain ⟨start, last⟩ := range'
          have above := admitted.2.2.2 start last range
          have below := admitted.2.2.1
          dsimp only
          by_cases lowest : value = start
          · rw [if_pos lowest]
            exact holds_erase bounds flags spec held
          · rw [if_neg lowest]
            exact holds_insert bounds flags spec _ held
              (start_admitted bounds spec admitted.1 (value - 1) start last range (by omega) (by omega))

section Comparisons

variable {ρ : Type} [LT ρ] [DecidableLT ρ]

theorem any_improved_evaluated (parentTask : Task FlagSet ρ) (known : parentTask.result.isSome)
    (tasks : List (Task FlagSet ρ)) (evaluated : ∀ task ∈ tasks, task.result.isSome) :
    ∃ improved, anyImproved parentTask tasks = .ok improved ∧
      (improved = true → ∃ task ∈ tasks, task.isImproved parentTask = .ok true) := by
  induction tasks with
  | nil => exact ⟨false, rfl, nofun⟩
  | cons task rest ih =>
      obtain ⟨improved, ran, found⟩ := ih fun other member => evaluated other (List.mem_cons_of_mem _ member)
      obtain ⟨better, same⟩ := compared task parentTask (evaluated task List.mem_cons_self) known
      cases better with
      | true =>
          exact ⟨true, by simp [anyImproved, same, bind, Except.bind, pure, Except.pure],
            fun _ => ⟨task, List.mem_cons_self, same⟩⟩
      | false =>
          refine ⟨improved, by simp [anyImproved, same, ran, bind, Except.bind], ?_⟩
          intro improves
          obtain ⟨other, member, isBetter⟩ := found improves
          exact ⟨other, List.mem_cons_of_mem _ member, isBetter⟩

theorem find_worst_evaluated (tasks : List (Task FlagSet ρ)) (worst : Task FlagSet ρ) (known : worst.result.isSome)
    (evaluated : ∀ task ∈ tasks, task.result.isSome) :
    ∃ found, findWorst worst tasks = .ok found ∧ found ∈ worst :: tasks ∧
      ((∃ task ∈ tasks, task.isImproved worst = .ok true) → found ∈ tasks) := by
  induction tasks generalizing worst with
  | nil => exact ⟨worst, rfl, List.mem_cons_self, fun improved => absurd improved (by simp)⟩
  | cons task rest ih =>
      have here := evaluated task List.mem_cons_self
      have later : ∀ other ∈ rest, other.result.isSome := fun other member =>
        evaluated other (List.mem_cons_of_mem _ member)
      obtain ⟨better, same⟩ := compared task worst here known
      cases better with
      | true =>
          obtain ⟨found, ran, member, -⟩ := ih task here later
          refine ⟨found, ?_, List.mem_cons_of_mem _ member, fun _ => member⟩
          simp [findWorst, same, ran, bind, Except.bind]
      | false =>
          obtain ⟨found, ran, member, improves⟩ := ih worst known later
          refine ⟨found, by simp [findWorst, same, ran, bind, Except.bind], ?_, ?_⟩
          · cases List.mem_cons.mp member with
            | inl isWorst => exact isWorst ▸ List.mem_cons_self
            | inr among => exact List.mem_cons_of_mem _ (List.mem_cons_of_mem _ among)
          · rintro ⟨other, present, isBetter⟩
            cases List.mem_cons.mp present with
            | inl isTask => exact absurd (isTask ▸ isBetter) (by simp [same])
            | inr among => exact List.mem_cons_of_mem _ (improves ⟨other, among, isBetter⟩)

omit [LT ρ] [DecidableLT ρ] in
theorem mem_others (parentTask task : Task FlagSet ρ) (tasks : List (Task FlagSet ρ)) :
    task ∈ others parentTask tasks ↔ task ∈ tasks ∧ task.flags ≠ parentTask.flags := by
  simp [others]

-- The parent is one step above the tasks of its generation, and nothing below them
-- was run.
structure Fits (bounds : Bounds) (generation : Generation FlagSet ρ (IterativeElimination ρ))
    (cache : Finset FlagSet) : Prop where
  parentHeld : bounds.Holds generation.own.parentTask.flags
  below : ∀ flags ∈ generation.keys, flags ≠ generation.own.parentTask.flags →
    rank flags = rank generation.own.parentTask.flags - 1
  inside : ∀ flags ∈ generation.keys, bounds.Holds flags
  base : if generation.own.isFirst then generation.own.parentTask.flags ∈ generation.keys
    else generation.own.parentTask.result.isSome
  cached : ∀ flags ∈ cache, rank generation.own.parentTask.flags - 1 ≤ rank flags

omit [LT ρ] [DecidableLT ρ] in
-- The base and decreases of it fit at the start of a run.
theorem first_fits (bounds : Bounds) (exeSet : TaskSet FlagSet ρ) (parentTask : Task FlagSet ρ)
    (held : bounds.Holds parentTask.flags) (base : parentTask.flags ∈ exeSet.keys)
    (decreases : ∀ flags ∈ exeSet.keys, flags ≠ parentTask.flags →
      ∃ spec ∈ parentTask.flags.keys, flags = decreased parentTask.flags spec) :
    Fits bounds (first exeSet parentTask).init exeSet.keys.toFinset := by
  have below : ∀ flags ∈ exeSet.keys, flags ≠ parentTask.flags → rank flags = rank parentTask.flags - 1 := by
    intro flags member different
    obtain ⟨spec, isSpec, rfl⟩ := decreases flags member different
    obtain ⟨value, found⟩ := (SortedDict.mem_keys parentTask.flags spec).mp isSpec
    exact rank_decreased parentTask.flags spec value found
  refine ⟨held, below, ?_, base, ?_⟩
  · intro flags member
    by_cases same : flags = parentTask.flags
    · exact same ▸ held
    · obtain ⟨spec, -, rfl⟩ := decreases flags member same
      exact decreased_held bounds parentTask.flags held spec
  · intro flags member
    change rank parentTask.flags - 1 ≤ _
    by_cases same : flags = parentTask.flags
    · rw [same]
      omega
    · rw [below flags (List.mem_toFinset.mp member) same]

-- The parent that `IsImproved` compares with: in a first generation the task of the
-- pool with the parent's flags.
theorem is_improved_parent (generation : Generation FlagSet ρ (IterativeElimination ρ))
    (base : generation.own.isFirst = true → generation.own.parentTask.flags ∈ generation.keys) :
    ∃ parentTask, parentTask.flags = generation.own.parentTask.flags ∧
      (if generation.own.isFirst then parentTask ∈ generation.exeSet.tasks else parentTask = generation.own.parentTask) ∧
      isImproved generation = (anyImproved parentTask (others parentTask generation.exeSet.tasks)).map fun improved =>
        (improved, { generation.own with parentTask }) := by
  cases isFirst : generation.own.isFirst with
  | true =>
      obtain ⟨held, member, same⟩ := List.mem_map.mp (base isFirst)
      cases search : generation.exeSet.tasks.find? fun task => task.flags = generation.own.parentTask.flags with
      | none =>
          have missing := List.find?_eq_none.mp search held member
          exact absurd (decide_eq_true same) missing
      | some parentTask =>
          have equal : parentTask.flags = generation.own.parentTask.flags := by simpa using List.find?_some search
          refine ⟨parentTask, equal, List.mem_of_find?_eq_some search, ?_⟩
          simp only [isImproved, isFirst, search, if_true, bind, Except.bind, pure, Except.pure]
          cases anyImproved parentTask (others parentTask generation.exeSet.tasks) <;> rfl
  | false =>
      refine ⟨generation.own.parentTask, rfl, rfl, ?_⟩
      simp only [isImproved, isFirst, bind, Except.bind, pure, Except.pure, Bool.false_eq_true, if_false]
      cases anyImproved generation.own.parentTask (others generation.own.parentTask generation.exeSet.tasks) with
      | error raised => rfl
      | ok improved =>
          rw [← isFirst]
          rfl

theorem is_improved_evaluated (bounds : Bounds) (generation : Generation FlagSet ρ (IterativeElimination ρ))
    (cache : Finset FlagSet) (fits : Fits bounds generation cache)
    (evaluated : ∀ task ∈ generation.exeSet.tasks, task.result.isSome) :
    ∃ improved own, isImproved generation = .ok (improved, own) ∧
      own.parentTask.flags = generation.own.parentTask.flags ∧ own.parentTask.result.isSome ∧
      (improved = true → ∃ task ∈ others own.parentTask generation.exeSet.tasks,
        task.isImproved own.parentTask = .ok true) := by
  have base := fits.base
  obtain ⟨parentTask, equal, origin, answer⟩ := is_improved_parent generation fun isFirst => by rwa [if_pos isFirst] at base
  have known : parentTask.result.isSome := by
    cases isFirst : generation.own.isFirst with
    | true =>
        rw [if_pos isFirst] at origin
        exact evaluated parentTask origin
    | false =>
        rw [isFirst, if_neg Bool.false_ne_true] at origin base
        exact origin ▸ base
  obtain ⟨improved, ran, better⟩ := any_improved_evaluated parentTask known (others parentTask generation.exeSet.tasks)
    fun task member => evaluated task ((mem_others parentTask task _).mp member).1
  refine ⟨improved, { generation.own with parentTask }, ?_, equal, known, better⟩
  rw [answer, ran]
  rfl

-- What `Next` answers for the worst task: nothing when it has no flags, and else all
-- its decreases, none of which was run.
def NextOf (worst : Task FlagSet ρ) (cache : Finset FlagSet) (new : List (NewGeneration FlagSet ρ (IterativeElimination ρ))) : Prop :=
  (worst.flags.keys = [] ∧ new = []) ∨
    worst.flags.keys ≠ [] ∧ ∃ set : TaskSet FlagSet ρ, new = [⟨set, ⟨worst, false⟩⟩] ∧ set.tasks ≠ [] ∧
      (∀ task ∈ set.tasks, task.result = none) ∧
      (∀ flags, flags ∈ set.keys ↔ ∃ spec ∈ worst.flags.keys, flags = decreased worst.flags spec) ∧
      ∀ flags ∈ set.keys, flags ∉ cache

omit [LT ρ] [DecidableLT ρ] in
theorem below_uncached (flags : FlagSet) (cache : Finset FlagSet) (least : ∀ cached ∈ cache, rank flags ≤ rank cached)
    (spec : Text) (held : spec ∈ flags.keys) : decreased flags spec ∉ cache := by
  intro cached
  obtain ⟨value, has⟩ := (SortedDict.mem_keys flags spec).mp held
  have below := rank_decreased flags spec value has
  have above := least _ cached
  omega

theorem next_made (generation : Generation FlagSet ρ (IterativeElimination ρ)) (cache : Finset FlagSet)
    (own : IterativeElimination ρ) (worst : Task FlagSet ρ) (legal : Legal worst.flags)
    (ran : findWorst own.parentTask (others own.parentTask generation.exeSet.tasks) = .ok worst)
    (different : worst.flags ≠ own.parentTask.flags) (least : ∀ cached ∈ cache, rank worst.flags ≤ rank cached) :
    Always (next { generation with own } cache) (NextOf worst cache) := by
  have lifted : Always (StateT.lift (findWorst own.parentTask (others own.parentTask generation.exeSet.tasks)) :
      Drawn (Task FlagSet ρ)) fun found => found = worst := by
    intro source
    exact ⟨worst, source, by rw [ran]; rfl, rfl⟩
  apply always_bind _ _ _ _ lifted
  intro found same
  subst same
  rw [if_neg different]
  by_cases empty : found.flags.keys = []
  · rw [if_pos empty]
    exact always_pure _ _ (.inl ⟨empty, rfl⟩)
  · rw [if_neg empty]
    apply always_bind _ _ _ _ (always_each_eq _ (decreased found.flags) found.flags.keys fun spec isSpec =>
      decrease_flag_legal found.flags legal spec isSpec)
    intro results same
    have uncached : ∀ flags ∈ results, flags ∉ cache := by
      intro flags present
      rw [same] at present
      obtain ⟨spec, isSpec, rfl⟩ := List.mem_map.mp present
      exact below_uncached found.flags cache least spec isSpec
    have fresh : (results.filter fun flags => flags ∉ cache) = results :=
      List.filter_eq_self.mpr fun flags present => decide_eq_true (uncached flags present)
    rw [fresh]
    apply always_bind _ _ _ _ (set_of_new results)
    intro set spec
    apply always_pure
    refine .inr ⟨empty, set, rfl, ?_, spec.1, ?_, fun flags inside => uncached flags ((spec.2.2 flags).mp inside)⟩
    · apply spec.2.1
      rw [same]
      exact fun none_left => empty (List.map_eq_nil_iff.mp none_left)
    · intro flags
      rw [spec.2.2 flags, same, List.mem_map]
      exact exists_congr fun spec => and_congr_right fun _ => eq_comm

-- The next generation is one step below the worst task, where nothing was run.
theorem next_continues (bounds : Bounds) (generation : Generation FlagSet ρ (IterativeElimination ρ))
    (cache : Finset FlagSet) (fits : Fits bounds generation cache) (own : IterativeElimination ρ)
    (sameParent : own.parentTask.flags = generation.own.parentTask.flags) (known : own.parentTask.result.isSome)
    (evaluated : ∀ task ∈ generation.exeSet.tasks, task.result.isSome)
    (better : ∃ task ∈ others own.parentTask generation.exeSet.tasks, task.isImproved own.parentTask = .ok true) :
    Always (next { generation with own } cache) (Continues (Fits bounds) cache) := by
  obtain ⟨worst, ran, -, improves⟩ := find_worst_evaluated (others own.parentTask generation.exeSet.tasks)
    own.parentTask known fun task member => evaluated task ((mem_others own.parentTask task _).mp member).1
  obtain ⟨member, different⟩ := (mem_others own.parentTask worst _).mp (improves better)
  have isKey : worst.flags ∈ generation.keys := List.mem_map_of_mem member
  have held := fits.inside worst.flags isKey
  have worstRank := fits.below worst.flags isKey (sameParent ▸ different)
  have least : ∀ cached ∈ cache, rank worst.flags ≤ rank cached := fun cached inside => worstRank ▸ fits.cached cached inside
  apply always_imp _ _ _ (next_made generation cache own worst (holds_legal bounds worst.flags held) ran different least)
  intro new made
  cases made with
  | inl isOver => exact .inl isOver.2
  | inr goesOn =>
      obtain ⟨-, set, same, filled, -, keys, uncached⟩ := goesOn
      have ranked : ∀ flags ∈ set.keys, rank flags = rank worst.flags - 1 := by
        intro flags inside
        obtain ⟨spec, isSpec, rfl⟩ := (keys flags).mp inside
        obtain ⟨value, has⟩ := (SortedDict.mem_keys worst.flags spec).mp isSpec
        exact rank_decreased worst.flags spec value has
      refine .inr ⟨_, same, filled, uncached, held, fun flags inside _ => ranked flags inside, ?_, evaluated worst member, ?_⟩
      · intro flags inside
        obtain ⟨spec, -, rfl⟩ := (keys flags).mp inside
        exact decreased_held bounds worst.flags held spec
      · intro flags inside
        change rank worst.flags - 1 ≤ rank flags
        cases Finset.mem_union.mp inside with
        | inl old =>
            have above := least flags old
            omega
        | inr new => exact (ranked flags (List.mem_toFinset.mp new)).ge

theorem contract (bounds : Bounds) :
    Contract (algorithm (ρ := ρ)) {flags | bounds.Holds flags} (Fits bounds) fun _ _ => True where
  updated := by
    intro generation after cache task fits taken
    obtain ⟨-, sameKeys, -, sameOwn⟩ := update_task_some generation after task taken
    exact ⟨sameOwn ▸ fits.parentHeld, sameOwn ▸ sameKeys ▸ fits.below, sameKeys ▸ fits.inside,
      sameOwn ▸ sameKeys ▸ fits.base, sameOwn ▸ fits.cached⟩
  inside := fun generation cache fits => fits.inside
  answers := by
    intro generation cache fits evaluated _
    obtain ⟨improved, own, answer, sameParent, known, better⟩ := is_improved_evaluated bounds generation cache fits evaluated
    refine ⟨improved, own, answer, ?_⟩
    intro improves
    exact next_continues bounds generation cache fits own sameParent known evaluated (better improves)

end Comparisons

end ToolchainUtils.Bestflags.IterativeElimination
