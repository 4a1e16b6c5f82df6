import ToolchainUtils.Bestflags.EliminationChain
import ToolchainUtils.Bestflags.HillClimbing

set_option autoImplicit false

namespace ToolchainUtils.Bestflags

open Randomised Transition

-- The generations that a run makes, each with the numbers that `Next` drew from.
def Algorithm.rounds {κ ρ σ : Type} [DecidableEq κ] (algorithm : Algorithm κ ρ σ) :
    SteeringState κ ρ σ → List (Returned κ ρ) → List (Source × NewGeneration κ ρ σ)
  | _, [] => []
  | state, returned :: rest =>
      match algorithm.answer state returned, algorithm.step state returned with
      | .ok answered, some next => (answered.2.map fun new => (returned.source, new)) ++ algorithm.rounds next rest
      | _, _ => []

namespace HillClimbingBestBranch

open PyString
open IterativeElimination (Costed costed_improved)

variable {ρ : Type} [LinearOrder ρ] (cost : FlagSet → ρ)

theorem find_best_costed (tasks : List (Task FlagSet ρ)) (best : Task FlagSet ρ) (known : Costed cost best)
    (costed : ∀ task ∈ tasks, Costed cost task) :
    ∃ found, findBest (some best) tasks = .ok (some found) ∧ found ∈ best :: tasks ∧
      ∀ task ∈ best :: tasks, cost found.flags ≤ cost task.flags := by
  induction tasks generalizing best with
  | nil => exact ⟨best, rfl, List.mem_cons_self, fun task member => by rw [List.mem_singleton.mp member]⟩
  | cons task rest ih =>
      obtain ⟨here, later⟩ := List.forall_mem_cons.mp costed
      have compared := costed_improved cost task best here known
      by_cases better : cost task.flags < cost best.flags
      · obtain ⟨found, ran, member, least⟩ := ih task here later
        refine ⟨found, ?_, List.mem_cons_of_mem _ member, List.forall_mem_cons.mpr ⟨?_, least⟩⟩
        · rw [findBest, compared, decide_eq_true better]
          exact ran
        · exact (least task List.mem_cons_self).trans better.le
      · obtain ⟨found, ran, member, least⟩ := ih best known later
        obtain ⟨belowBest, belowRest⟩ := List.forall_mem_cons.mp least
        refine ⟨found, ?_, ?_, ?_⟩
        · rw [findBest, compared, decide_eq_false better]
          exact ran
        · cases List.mem_cons.mp member with
          | inl isBest => exact isBest ▸ List.mem_cons_self
          | inr among => exact List.mem_cons_of_mem _ (List.mem_cons_of_mem _ among)
        · exact List.forall_mem_cons.mpr
            ⟨belowBest, List.forall_mem_cons.mpr ⟨belowBest.trans (not_lt.mp better), belowRest⟩⟩

def ParentCosted (own : HillClimbingBestBranch ρ) : Prop :=
  own.parents = [] ∨ ∃ parent, own.parents = [parent] ∧ Costed cost parent

theorem is_improved_costed (generation : Generation FlagSet ρ (HillClimbingBestBranch ρ)) (filled : generation.exeSet.tasks ≠ [])
    (costed : ∀ task ∈ generation.exeSet.tasks, Costed cost task) (parents : ParentCosted cost generation.own) :
    ∃ best ∈ generation.exeSet.tasks, (∀ task ∈ generation.exeSet.tasks, cost best.flags ≤ cost task.flags) ∧
      isImproved generation = .ok (generation.own.parents.all fun parent => decide (cost best.flags < cost parent.flags),
        { generation.own with nextTask := some best }) := by
  obtain ⟨task, rest, listed⟩ := List.exists_cons_of_ne_nil filled
  rw [listed] at costed
  obtain ⟨here, later⟩ := List.forall_mem_cons.mp costed
  obtain ⟨best, found, member, least⟩ := find_best_costed cost rest task here later
  have starts : findBest none generation.exeSet.tasks = .ok (some best) := by
    rw [listed]
    exact found
  refine ⟨best, listed ▸ member, listed ▸ least, ?_⟩
  cases parents with
  | inl noParents => simp [isImproved, starts, noParents, bind, Except.bind, pure, Except.pure]
  | inr oneParent =>
      obtain ⟨parent, only, known⟩ := oneParent
      simp [isImproved, starts, only, costed_improved cost best parent (costed best member) known, bind, Except.bind, pure,
        Except.pure]

-- The neighbours of the flags that ClimbNext makes over all specs, with these numbers.
def Neighbours (specs : List Text) (source : Source) (flags : FlagSet) (found : List (List FlagSet)) : Prop :=
  ∃ rest, each (climbNext flags) specs source = .ok (found, rest)

omit [LinearOrder ρ] in
theorem next_ran (exeSet : TaskSet FlagSet ρ) (pending : Int) (parents : List (Task FlagSet ρ)) (specs : List Text)
    (best : Task FlagSet ρ) (cache : Finset FlagSet) (source rest : Source)
    (new : List (NewGeneration FlagSet ρ (HillClimbingBestBranch ρ)))
    (ran : next ⟨exeSet, ⟨parents, specs, some best⟩, pending⟩ cache source = .ok (new, rest)) :
    ∃ found set, Neighbours specs source best.flags found ∧ new = [⟨set, ⟨[best], specs, none⟩⟩] ∧
      (∀ task ∈ set.tasks, task.result = none) ∧
        ∀ flags, flags ∈ set.keys ↔ flags ∈ found.flatten ∧ flags ∉ cache := by
  rw [next] at ran
  obtain ⟨found, middle, climbed, ran⟩ := (bind_ran _ _ source rest new).mp ran
  obtain ⟨set, last, made, ran⟩ := (bind_ran _ _ middle rest new).mp ran
  obtain ⟨unrun, -, keys⟩ := whenever_of_always _ _ (set_of_new _) middle set last made
  obtain ⟨same, -⟩ := Prod.mk.inj (Except.ok.inj ran)
  refine ⟨found, set, ⟨middle, climbed⟩, same.symm, unrun, fun flags => ?_⟩
  rw [keys flags, List.mem_filter, decide_eq_true_iff]

-- A parent, with the numbers that its neighbours were made with.
abbrev Step (ρ : Type) := Source × Task FlagSet ρ

-- None of the neighbours of the parent costs less, be they in the cache or not.
def LocalOptimum (specs : List Text) (step : Step ρ) : Prop :=
  ∃ found, Neighbours specs step.1 step.2.flags found ∧ ∀ flags ∈ found.flatten, cost step.2.flags ≤ cost flags

-- The only waiting generation, whose parent is that of the last step. What was run
-- before the generation is no better than the parent, and all neighbours were run or
-- are in the generation.
structure Climbing (specs : List Text) (last : Option (Step ρ)) (state : SteeringState FlagSet ρ (HillClimbingBestBranch ρ))
    (generation : Generation FlagSet ρ (HillClimbingBestBranch ρ)) : Prop where
  alone : state.waiting = [generation]
  unreturned : ∀ task ∈ generation.exeSet.tasks, task.result = none → task.flags ∈ state.inFlight
  explores : generation.own.specs = specs
  parents : generation.own.parents = last.toList.map (·.2)
  known : ∀ step ∈ last, Costed cost step.2
  costs : ∀ task ∈ generation.exeSet.tasks, task.result = none ∨ Costed cost task
  cached : ∀ flags ∈ state.cache, flags ∈ generation.keys ∨ ∃ step ∈ last, cost step.2.flags ≤ cost flags
  covered : ∀ step ∈ last, ∃ found, Neighbours specs step.1 step.2.flags found ∧ ∀ flags ∈ found.flatten, flags ∈ state.cache

structure ClimbsOn (specs : List Text) (last : Option (Step ρ)) (state : SteeringState FlagSet ρ (HillClimbingBestBranch ρ)) :
    Prop where
  sound : state.status = .running → state.Sound
  climbing : state.status = .running → ∃ generation, Climbing cost specs last state generation

section Steps

variable {cost} {specs : List Text} {last : Option (Step ρ)} {state after : SteeringState FlagSet ρ (HillClimbingBestBranch ρ)}
  {returned : Returned FlagSet ρ}

theorem climbing_updated (generation updated : Generation FlagSet ρ (HillClimbingBestBranch ρ))
    (climbing : Climbing cost specs last state generation) (costed : Costed cost returned.task)
    (taken : generation.updateTask returned.task = some updated) :
    updated.own = generation.own ∧ updated.keys = generation.keys ∧ updated.exeSet.tasks ≠ [] ∧
      ∀ task ∈ updated.exeSet.tasks, task.result = none ∨ Costed cost task := by
  obtain ⟨held, sameKeys, -, sameOwn⟩ := update_task_some generation updated returned.task taken
  refine ⟨sameOwn, sameKeys, fun empty => ?_, fun task member => ?_⟩
  · rw [← sameKeys, Generation.keys, updated.exeSet.keys_eq_nil.mpr empty] at held
    exact List.not_mem_nil held
  · rw [update_task_tasks generation updated returned.task taken] at member
    cases replaced_tasks generation.exeSet returned.task task member with
    | inl same => exact .inr (same ▸ costed)
    | inr old => exact climbing.costs task old.1

-- The best of a completed generation is compared with the parent of the last step.
theorem climbing_answer (generation updated : Generation FlagSet ρ (HillClimbingBestBranch ρ))
    (climbing : Climbing cost specs last state generation) (costed : Costed cost returned.task)
    (updates : generation.updateTask returned.task = some updated) (completed : state.completes returned.task = some updated)
    (evaluated : ∀ task ∈ updated.exeSet.tasks, task.result.isSome) :
    ∃ best, Costed cost best ∧ (∀ flags ∈ generation.keys, cost best.flags ≤ cost flags) ∧
      isImproved updated = .ok (last.toList.all fun step => decide (cost best.flags < cost step.2.flags),
        { generation.own with nextTask := some best }) ∧
      algorithm.answer state returned =
        if (last.toList.all fun step => decide (cost best.flags < cost step.2.flags)) = true then
          (next ⟨updated.exeSet, { generation.own with nextTask := some best }, updated.pending⟩ state.cache returned.source).map
            fun new => (true, new.1)
        else .ok (false, []) := by
  obtain ⟨sameOwn, sameKeys, filled, costs⟩ := climbing_updated generation updated climbing costed updates
  have allCosted : ∀ task ∈ updated.exeSet.tasks, Costed cost task := fun task member =>
    (costs task member).resolve_left (Option.isSome_iff_ne_none.mp (evaluated task member))
  have parents : ParentCosted cost updated.own := by
    rw [ParentCosted, sameOwn, climbing.parents]
    cases last with
    | none => exact .inl rfl
    | some step => exact .inr ⟨step.2, rfl, climbing.known step rfl⟩
  obtain ⟨best, member, least, improved⟩ := is_improved_costed cost updated filled allCosted parents
  rw [sameOwn, climbing.parents, List.all_map] at improved
  refine ⟨best, allCosted best member, fun flags inside => ?_, improved, ?_⟩
  · rw [← sameKeys] at inside
    obtain ⟨task, present, same⟩ := List.mem_map.mp inside
    exact same ▸ least task present
  · exact answer_completed algorithm state returned updated completed _ _ improved

-- The neighbours of a task that is better than all that was run before.
theorem climbing_sent (generation : Generation FlagSet ρ (HillClimbingBestBranch ρ))
    (climbing : Climbing cost specs last state generation) (settled : SteeringState FlagSet ρ (HillClimbingBestBranch ρ))
    (noneWaits : settled.waiting = []) (cache : settled.cache = state.cache) (best : Task FlagSet ρ) (known : Costed cost best)
    (least : ∀ flags ∈ generation.keys, cost best.flags ≤ cost flags)
    (cheaper : ∀ step ∈ last, cost best.flags < cost step.2.flags) (set : TaskSet FlagSet ρ) (found : List (List FlagSet))
    (source : Source) (neighbours : Neighbours specs source best.flags found) (unrun : ∀ task ∈ set.tasks, task.result = none)
    (keys : ∀ flags, flags ∈ set.keys ↔ flags ∈ found.flatten ∧ flags ∉ state.cache) :
    Climbing cost specs (some (source, best)) (settled.send ⟨set, ⟨[best], generation.own.specs, none⟩⟩)
      (NewGeneration.init ⟨set, ⟨[best], generation.own.specs, none⟩⟩) := by
  refine ⟨?_, ?_, climbing.explores, rfl, ?_, ?_, ?_, ?_⟩
  · rw [SteeringState.send, noneWaits, List.nil_append]
  · exact fun task member _ => List.mem_append_right _ (List.mem_map_of_mem member)
  · exact fun step isLast => Option.some.inj isLast ▸ known
  · exact fun task member => .inl (unrun task member)
  · intro flags inside
    rw [SteeringState.send, cache] at inside
    cases Finset.mem_union.mp inside with
    | inr added => exact .inl (List.mem_toFinset.mp added)
    | inl old =>
        refine .inr ⟨_, rfl, ?_⟩
        cases climbing.cached flags old with
        | inl among => exact least flags among
        | inr before =>
            obtain ⟨step, isLast, lower⟩ := before
            exact (cheaper step isLast).le.trans lower
  · intro step isLast
    obtain rfl := Option.some.inj isLast
    refine ⟨found, neighbours, fun flags inside => ?_⟩
    rw [SteeringState.send, cache]
    by_cases cached : flags ∈ state.cache
    · exact Finset.mem_union_left _ cached
    · exact Finset.mem_union_right _ (List.mem_toFinset.mpr ((keys flags).mpr ⟨inside, cached⟩))

-- A step without a new generation, or the new generation of the best task.
theorem climbing_step (on : ClimbsOn cost specs last state) (costed : Costed cost returned.task)
    (taken : algorithm.step state returned = some after) :
    (∃ improved, algorithm.answer state returned = .ok (improved, []) ∧ ClimbsOn cost specs last after) ∨
      (∃ new parent, algorithm.answer state returned = .ok (true, [new]) ∧ new.own.parents = [parent] ∧
        (∀ step ∈ last, cost parent.flags < cost step.2.flags) ∧ ClimbsOn cost specs (some (returned.source, parent)) after) ∨
      (∃ raised, algorithm.answer state returned = .error raised) ∧ after.status ≠ .running := by
  obtain ⟨running, -⟩ := algorithm_step_enabled algorithm state after returned taken
  have isSome : returned.task.result.isSome := by
    rw [costed]
    rfl
  have sound := on.sound running
  have books : Books state.waiting state.cache state.inFlight := by
    cases sound with
    | running _ _ books _ _ => exact books
    | finished status _ _ _ _ => exact absurd (running.symm.trans status) nofun
  obtain ⟨generation, climbing⟩ := on.climbing running
  obtain ⟨updated, updates, left, result⟩ :=
    single_cases algorithm state after returned generation climbing.alone books climbing.unreturned isSome taken
  obtain ⟨sameOwn, sameKeys, -, costs⟩ := climbing_updated generation updated climbing costed updates
  cases result with
  | waits still answer =>
      rw [algorithm_step_ok algorithm state returned _ _ answer] at taken
      refine .inl ⟨false, answer, fun _ => ?_, fun _ => ⟨updated, rfl, left, ?_, ?_, climbing.known, costs, ?_, climbing.covered⟩⟩
      · exact step_sound state ⟨returned.task, false, []⟩ _ sound (fun _ _ _ none => absurd none List.not_mem_nil)
          (fun _ _ => List.Pairwise.nil) taken
      · exact sameOwn ▸ climbing.explores
      · exact sameOwn ▸ climbing.parents
      · exact sameKeys ▸ climbing.cached
  | raises completed evaluated raised answer => exact .inr (.inr ⟨⟨raised, answer⟩, fun running => by cases running⟩)
  | completes completed evaluated improved fresh answer =>
      obtain ⟨best, known, least, -, answered⟩ := climbing_answer generation updated climbing costed updates completed evaluated
      rw [answer] at answered
      split at answered
      next better =>
        have cheaper : ∀ step ∈ last, cost best.flags < cost step.2.flags := fun step isLast =>
          of_decide_eq_true (List.all_eq_true.mp better step (Option.mem_toList.mpr isLast))
        obtain ⟨⟨new, rest⟩, ran, same⟩ : ∃ pair, next ⟨updated.exeSet, { generation.own with nextTask := some best },
            updated.pending⟩ state.cache returned.source = .ok pair ∧ (improved, fresh) = (true, pair.1) := by
          cases made : next ⟨updated.exeSet, { generation.own with nextTask := some best }, updated.pending⟩ state.cache
              returned.source with
          | ok pair =>
              rw [made] at answered
              exact ⟨pair, rfl, Except.ok.inj answered⟩
          | error raised =>
              rw [made] at answered
              cases answered
        obtain ⟨rfl, rfl⟩ := Prod.mk.inj same
        obtain ⟨found, set, neighbours, rfl, unrun, keys⟩ := next_ran _ _ _ _ best state.cache returned.source rest fresh ran
        rw [climbing.explores] at neighbours
        refine .inr (.inl ⟨_, best, answer, rfl, cheaper, ?_⟩)
        by_cases empty : set.tasks = []
        · have stops : (({ state with
              waiting := []
              inFlight := state.inFlight.erase returned.task.flags } : SteeringState FlagSet ρ (HillClimbingBestBranch ρ)).submit
                (if true then [⟨set, ⟨[best], generation.own.specs, none⟩⟩] else [])).status ≠ .running := by
            rw [if_pos rfl, SteeringState.submit, if_pos empty]
            exact fun running => by cases running
          exact ⟨fun goesOn => absurd goesOn stops, fun goesOn => absurd goesOn stops⟩
        · have uncached : ∀ flags ∈ set.keys, flags ∉ state.cache := fun flags inside => ((keys flags).mp inside).2
          rw [algorithm_step_ok algorithm state returned _ _ answer] at taken
          have soundAfter := step_sound state ⟨returned.task, true, _⟩ _ sound
            (fun _ _ new member => List.mem_singleton.mp member ▸ ⟨empty, uncached⟩)
            (fun _ _ => List.pairwise_singleton _ _) taken
          rw [if_pos rfl, submit_single _ _ empty] at soundAfter ⊢
          exact ⟨fun _ => soundAfter, fun _ => ⟨_, climbing_sent generation climbing
            { state with
              waiting := []
              inFlight := state.inFlight.erase returned.task.flags }
            rfl rfl best known least cheaper set found returned.source neighbours unrun keys⟩⟩
      next worse =>
        obtain ⟨rfl, rfl⟩ := Prod.mk.inj (Except.ok.inj answered)
        have stops : (({ state with
            waiting := []
            inFlight := state.inFlight.erase returned.task.flags } : SteeringState FlagSet ρ (HillClimbingBestBranch ρ)).submit
              (if false then [] else [])).status ≠ .running := by
          rw [ite_self, submit_nothing _ rfl]
          exact fun running => by cases running
        exact .inl ⟨false, answer, fun goesOn => absurd goesOn stops, fun goesOn => absurd goesOn stops⟩

-- A generation that is not improved has a parent, and nothing near it is better.
theorem climbing_optimum (on : ClimbsOn cost specs last state) (costed : Costed cost returned.task)
    (taken : algorithm.step state returned = some after) (updated : Generation FlagSet ρ (HillClimbingBestBranch ρ))
    (completed : state.completes returned.task = some updated) (own : HillClimbingBestBranch ρ)
    (worse : isImproved updated = .ok (false, own)) :
    ∃ step, last = some step ∧ updated.own.parents = [step.2] ∧ LocalOptimum cost specs step := by
  obtain ⟨running, -⟩ := algorithm_step_enabled algorithm state after returned taken
  have isSome : returned.task.result.isSome := by
    rw [costed]
    rfl
  have books : Books state.waiting state.cache state.inFlight := by
    cases on.sound running with
    | running _ _ books _ _ => exact books
    | finished status _ _ _ _ => exact absurd (running.symm.trans status) nofun
  obtain ⟨generation, climbing⟩ := on.climbing running
  obtain ⟨updates, done⟩ := single_completes state generation updated returned.task climbing.alone completed
  obtain ⟨other, otherUpdates, -, result⟩ :=
    single_cases algorithm state after returned generation climbing.alone books climbing.unreturned isSome taken
  obtain rfl := Option.some.inj (updates.symm.trans otherUpdates)
  have evaluated : ∀ task ∈ updated.exeSet.tasks, task.result.isSome := by
    cases result with
    | waits still answer => exact absurd (done.symm.trans still) Bool.true_eq_false.mp
    | completes completed evaluated improved fresh answer => exact evaluated
    | raises completed evaluated raised answer => exact evaluated
  obtain ⟨best, known, least, improved, -⟩ := climbing_answer generation updated climbing costed updates completed evaluated
  obtain ⟨sameOwn, -, -, -⟩ := climbing_updated generation updated climbing costed updates
  have notBetter := (Prod.mk.inj (Except.ok.inj (improved.symm.trans worse))).1
  obtain ⟨step, isLast, equal⟩ := List.all_eq_false.mp notBetter
  have lower : cost step.2.flags ≤ cost best.flags := not_lt.mp fun less => equal (decide_eq_true less)
  obtain ⟨found, neighbours, covered⟩ := climbing.covered step (Option.mem_toList.mp isLast)
  obtain rfl := Option.mem_toList.mp isLast
  refine ⟨step, rfl, ?_, found, neighbours, fun flags inside => ?_⟩
  · rw [sameOwn, climbing.parents]
    rfl
  · cases climbing.cached flags (covered flags inside) with
    | inl among => exact lower.trans (least flags among)
    | inr before =>
        obtain ⟨same, isSame, above⟩ := before
        obtain rfl := Option.some.inj isSame
        exact above

end Steps

-- The parents of the generations, in order.
def steps (rounds : List (Source × NewGeneration FlagSet ρ (HillClimbingBestBranch ρ))) : List (Step ρ) :=
  rounds.flatMap fun round => round.2.own.parents.map fun parent => (round.1, parent)

structure Climbs (specs : List Text) (path : List (Step ρ)) (state : SteeringState FlagSet ρ (HillClimbingBestBranch ρ)) :
    Prop where
  chain : path.IsChain fun parent next => cost next.2.flags < cost parent.2.flags
  optimum : ∀ result after generation own, Costed cost result.task → algorithm.step state result = some after →
    state.completes result.task = some generation → isImproved generation = .ok (false, own) →
      ∃ step, path.getLast? = some step ∧ generation.own.parents = [step.2] ∧ LocalOptimum cost specs step

theorem climbing_run (specs : List Text) (last : Option (Step ρ)) (state finish : SteeringState FlagSet ρ (HillClimbingBestBranch ρ))
    (returned : List (Returned FlagSet ρ)) (on : ClimbsOn cost specs last state)
    (costed : ∀ result ∈ returned, Costed cost result.task) (run : exec algorithm.step state returned = some finish) :
    Climbs cost specs (last.toList ++ steps (algorithm.rounds state returned)) finish ∧
      ∀ round ∈ algorithm.rounds state returned, ∃ parent, round.2.own.parents = [parent] := by
  induction returned generalizing last state with
  | nil =>
      have same : state = finish := by simpa [exec] using run
      rw [Algorithm.rounds, steps, List.flatMap_nil, List.append_nil, ← same]
      refine ⟨⟨?_, ?_⟩, List.forall_mem_nil _⟩
      · cases last with
        | none => exact List.isChain_nil
        | some step => exact List.isChain_singleton step
      · intro result after generation own known taken completed worse
        obtain ⟨step, isLast, parents, optimum⟩ := climbing_optimum on known taken generation completed own worse
        exact ⟨step, by rw [isLast]; rfl, parents, optimum⟩
  | cons result others ih =>
      obtain ⟨next, taken, remaining⟩ := (exec_cons algorithm.step state finish result others).mp run
      obtain ⟨here, later⟩ := List.forall_mem_cons.mp costed
      rcases climbing_step on here taken with stays | goesOn | ⟨⟨raised, answer⟩, stopped⟩
      · obtain ⟨improved, answer, still⟩ := stays
        rw [Algorithm.rounds, answer, taken]
        exact ih last next still later remaining
      · obtain ⟨new, parent, answer, parents, cheaper, climbsOn⟩ := goesOn
        obtain ⟨climbs, single⟩ := ih (some (result.source, parent)) next climbsOn later remaining
        rw [Algorithm.rounds, answer, taken]
        have path : steps ((result.source, new) :: algorithm.rounds next others) =
            (result.source, parent) :: steps (algorithm.rounds next others) := by
          rw [steps, List.flatMap_cons, parents]
          rfl
        refine ⟨?_, List.forall_mem_cons.mpr ⟨⟨parent, parents⟩, single⟩⟩
        change Climbs cost specs (last.toList ++ steps ((result.source, new) :: algorithm.rounds next others)) finish
        rw [path]
        refine ⟨?_, fun action after generation own known taken completed worse => ?_⟩
        · cases last with
          | none => exact climbs.chain
          | some step => exact List.isChain_cons_cons.mpr ⟨cheaper step rfl, climbs.chain⟩
        · obtain ⟨step, isLast, optimum⟩ := climbs.optimum action after generation own known taken completed worse
          have tail : ((result.source, parent) :: steps (algorithm.rounds next others)).getLast? = some step := isLast
          refine ⟨step, ?_, optimum⟩
          rw [List.getLast?_append, tail]
          rfl
      · have noStep : ∀ action later, algorithm.step next action ≠ some later := fun action later moves =>
          stopped (algorithm_step_enabled algorithm next later action moves).1
        have isOver : others = [] := by
          cases others with
          | nil => rfl
          | cons action more =>
              obtain ⟨later, moves, -⟩ := (exec_cons algorithm.step next finish action more).mp remaining
              exact absurd moves (noStep action later)
        subst isOver
        obtain rfl : next = finish := by simpa [exec] using remaining
        rw [Algorithm.rounds, answer]
        refine ⟨⟨?_, fun action later _ _ _ moves => absurd moves (noStep action later)⟩, List.forall_mem_nil _⟩
        rw [steps, List.flatMap_nil, List.append_nil]
        cases last with
        | none => exact List.isChain_nil
        | some step => exact List.isChain_singleton step

theorem climbing_start (specs : List Text) (order : List FlagSet) (distinct : order.Nodup) :
    ClimbsOn cost specs none (.start ∅ [first (.unrun order distinct) [] specs]) := by
  have keys : (TaskSet.unrun order distinct : TaskSet FlagSet ρ).keys = order := TaskSet.unrun_keys order distinct
  by_cases empty : order = []
  · subst empty
    have stopped : (SteeringState.start ∅ [first (.unrun [] distinct) [] specs] :
        SteeringState FlagSet ρ (HillClimbingBestBranch ρ)).status ≠ .running := fun running => by cases running
    exact ⟨fun running => absurd running stopped, fun running => absurd running stopped⟩
  · have filled : (TaskSet.unrun order distinct : TaskSet FlagSet ρ).tasks ≠ [] := fun none_sent =>
      empty (keys ▸ (TaskSet.keys_eq_nil _).mpr none_sent)
    refine ⟨fun _ => start_sound ∅ _ ⟨?_, ?_, List.pairwise_singleton _ _⟩, fun _ => ⟨(first (.unrun order distinct) [] specs).init, ?_⟩⟩
    · exact fun only member => List.mem_singleton.mp member ▸ filled
    · exact fun _ _ flags _ => Finset.notMem_empty flags
    · rw [start_single _ filled]
      refine ⟨rfl, fun task member _ => List.mem_map_of_mem member, rfl, rfl, fun _ isLast => absurd isLast.symm (Option.some_ne_none _),
        ?_, ?_, fun _ isLast => absurd isLast.symm (Option.some_ne_none _)⟩
      · intro task member
        obtain ⟨flags, -, rfl⟩ := List.mem_map.mp member
        exact .inl rfl
      · exact fun flags member => .inl (List.mem_toFinset.mp member)

-- A run from one generation without parents and an empty cache.
theorem hill_climbing_stops_at_optimum (specs : List Text) (order : List FlagSet) (distinct : order.Nodup)
    (returned : List (Returned FlagSet ρ)) (state : SteeringState FlagSet ρ (HillClimbingBestBranch ρ))
    (costed : ∀ result ∈ returned, Costed cost result.task)
    (run : exec algorithm.step (.start ∅ [first (.unrun order distinct) [] specs]) returned = some state) :
    Climbs cost specs (steps (algorithm.rounds (.start ∅ [first (.unrun order distinct) [] specs]) returned)) state ∧
      ∀ round ∈ algorithm.rounds (.start ∅ [first (.unrun order distinct) [] specs]) returned,
        ∃ parent, round.2.own.parents = [parent] :=
  climbing_run cost specs none _ state returned (climbing_start cost specs order distinct) costed run

-- Turning on the only flag costs more, so that the run stops at no flags.
theorem no_flags_is_optimum :
    ∃ state, exec algorithm.step (.start ∅ [first (.unrun [noFlags] (by decide)) [] ["-funroll-loops".toList]])
        [⟨⟨noFlags, some 0⟩, fun _ => 0⟩] = some state ∧
      Climbs (fun flags => flags.entries.length) ["-funroll-loops".toList]
        (steps (algorithm.rounds (.start ∅ [first (.unrun [noFlags] (by decide)) [] ["-funroll-loops".toList]])
          [⟨⟨noFlags, some 0⟩, fun _ => 0⟩])) state := by
  refine ⟨_, rfl, (hill_climbing_stops_at_optimum (fun flags => flags.entries.length) ["-funroll-loops".toList] [noFlags]
    (by decide) _ _ (fun result member => ?_) rfl).1⟩
  rw [List.mem_singleton.mp member]
  exact rfl

end HillClimbingBestBranch

end ToolchainUtils.Bestflags
