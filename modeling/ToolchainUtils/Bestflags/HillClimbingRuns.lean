import ToolchainUtils.Bestflags.AlgorithmRuns
import ToolchainUtils.Bestflags.FlagUniverse
import ToolchainUtils.Bestflags.HillClimbing

set_option autoImplicit false

namespace ToolchainUtils.Bestflags.HillClimbingBestBranch

open PyString Randomised Transition

variable {ρ : Type} [LT ρ] [DecidableLT ρ]

structure Fits (bounds : Bounds) (generation : Generation FlagSet ρ (HillClimbingBestBranch ρ))
    (cache : Finset FlagSet) : Prop where
  specs : ∀ spec ∈ generation.own.specs, spec ∈ bounds.specs
  parents : generation.own.parents = [] ∨ ∃ parent, generation.own.parents = [parent] ∧ parent.result.isSome
  inside : ∀ flags ∈ generation.keys, bounds.Holds flags

-- The task whose neighbours are the next generation, if there is an improvement.
def climbedTask (generation : Generation FlagSet ρ (HillClimbingBestBranch ρ)) : Option (Task FlagSet ρ) :=
  match isImproved generation with
  | .ok (true, own) => own.nextTask
  | _ => none

-- That task has a neighbour that was never run.
def FreshNeighbour (generation : Generation FlagSet ρ (HillClimbingBestBranch ρ)) (cache : Finset FlagSet) : Prop :=
  ∀ best ∈ climbedTask generation, ∃ spec ∈ generation.own.specs, ∃ neighbour ∈ neighbours best.flags spec,
    neighbour ∉ cache

instance (generation : Generation FlagSet ρ (HillClimbingBestBranch ρ)) (cache : Finset FlagSet) :
    Decidable (FreshNeighbour generation cache) := by
  unfold FreshNeighbour
  infer_instance

theorem find_best_some (tasks : List (Task FlagSet ρ)) (best : Task FlagSet ρ) (known : best.result.isSome)
    (evaluated : ∀ task ∈ tasks, task.result.isSome) :
    ∃ found, findBest (some best) tasks = .ok (some found) ∧ found.result.isSome ∧ found ∈ best :: tasks := by
  induction tasks generalizing best with
  | nil => exact ⟨best, rfl, known, List.mem_cons_self⟩
  | cons task rest ih =>
      have here := evaluated task List.mem_cons_self
      obtain ⟨improved, same⟩ := compared task best here known
      have chosenKnown : (if improved then task else best).result.isSome := by
        cases improved with
        | false => exact known
        | true => exact here
      obtain ⟨found, ran, foundKnown, member⟩ := ih (if improved then task else best) chosenKnown
        fun other present => evaluated other (List.mem_cons_of_mem _ present)
      refine ⟨found, ?_, foundKnown, ?_⟩
      · simp only [findBest, same, bind, Except.bind]
        exact ran
      · cases improved with
        | false =>
            cases List.mem_cons.mp member with
            | inl here => exact here ▸ List.mem_cons_self
            | inr later => exact List.mem_cons_of_mem _ (List.mem_cons_of_mem _ later)
        | true => exact List.mem_cons_of_mem _ member

-- Once every task has its result, IsImproved answers, and it has set _next_task to a
-- task of the generation when it answers that there is an improvement.
theorem is_improved_evaluated (bounds : Bounds) (generation : Generation FlagSet ρ (HillClimbingBestBranch ρ))
    (cache : Finset FlagSet) (fits : Fits bounds generation cache)
    (evaluated : ∀ task ∈ generation.exeSet.tasks, task.result.isSome) :
    ∃ improved own, isImproved generation = .ok (improved, own) ∧ own.specs = generation.own.specs ∧
      (improved = true → ∃ best ∈ generation.exeSet.tasks, own.nextTask = some best ∧ best.result.isSome) := by
  cases listed : generation.exeSet.tasks with
  | nil => exact ⟨false, generation.own, by simp [isImproved, listed, findBest, bind, Except.bind, pure, Except.pure], rfl, nofun⟩
  | cons task rest =>
      have known : ∀ other ∈ task :: rest, other.result.isSome := fun other member => evaluated other (listed ▸ member)
      obtain ⟨best, found, bestKnown, member⟩ := find_best_some rest task (known task List.mem_cons_self)
        fun other present => known other (List.mem_cons_of_mem _ present)
      have starts : findBest none (task :: rest) = .ok (some best) := found
      cases fits.parents with
      | inl noParents =>
          refine ⟨true, { generation.own with nextTask := some best }, ?_, rfl, fun _ => ⟨best, member, rfl, bestKnown⟩⟩
          simp [isImproved, listed, starts, noParents, bind, Except.bind, pure, Except.pure]
      | inr oneParent =>
          obtain ⟨parent, only, parentKnown⟩ := oneParent
          obtain ⟨improved, same⟩ := compared best parent bestKnown parentKnown
          refine ⟨improved, { generation.own with nextTask := some best }, ?_, rfl,
            fun _ => ⟨best, member, rfl, bestKnown⟩⟩
          simp [isImproved, listed, starts, only, same, bind, Except.bind, pure, Except.pure]

theorem contract (bounds : Bounds) : Contract (algorithm (ρ := ρ)) {flags | bounds.Holds flags} (Fits bounds) FreshNeighbour where
  updated := by
    intro generation after cache task fits taken
    obtain ⟨-, sameKeys, -, sameOwn⟩ := update_task_some generation after task taken
    exact ⟨sameOwn ▸ fits.specs, sameOwn ▸ fits.parents, sameKeys ▸ fits.inside⟩
  inside := fun generation cache fits => fits.inside
  answers := by
    intro generation cache fits evaluated fresh
    obtain ⟨improved, own, answer, sameSpecs, chosen⟩ := is_improved_evaluated bounds generation cache fits evaluated
    refine ⟨improved, own, answer, ?_⟩
    intro improves
    obtain ⟨best, member, isNext, bestKnown⟩ := chosen improves
    have climbed : climbedTask generation = some best := by
      rw [climbedTask, answer, improves]
      exact isNext
    obtain ⟨spec, explored, neighbour, adjacent, unseen⟩ := fresh best climbed
    have held : bounds.Holds best.flags := fits.inside best.flags (List.mem_map_of_mem member)
    have legal := holds_legal bounds best.flags held
    have explores : algorithm.next { generation with own } cache = (do
        let found ← each (climbNext best.flags) own.specs
        let childrenTasks ← setOf ((found.flatten.filter fun flags => flags ∉ cache).map fun flags => ⟨flags, none⟩)
        pure [⟨childrenTasks, ⟨[best], own.specs, none⟩⟩]) := by
      simp [algorithm, next, isNext]
    rw [explores]
    apply always_bind _ _ _ _ (always_each_eq _ (neighbours best.flags) own.specs fun spec _ =>
      climb_next_legal best.flags legal spec)
    intro found same
    apply always_bind _ _ _ _ (set_of_unrun _)
    intro children spec
    apply always_pure
    right
    refine ⟨_, rfl, ?_, ?_, ?_⟩
    · apply spec.1
      apply List.ne_nil_of_mem
      apply List.mem_filter.mpr
      exact ⟨same ▸ List.mem_flatten.mpr ⟨neighbours best.flags _, List.mem_map_of_mem (sameSpecs ▸ explored), adjacent⟩,
        decide_eq_true unseen⟩
    · intro flags inside
      exact of_decide_eq_true (List.mem_filter.mp ((spec.2 flags).mp inside)).2
    · refine ⟨sameSpecs ▸ fits.specs, .inr ⟨best, rfl, bestKnown⟩, ?_⟩
      intro flags inside
      have present := (List.mem_filter.mp ((spec.2 flags).mp inside)).1
      rw [same] at present
      obtain ⟨list, listed, among⟩ := List.mem_flatten.mp present
      obtain ⟨other, isSpec, rfl⟩ := List.mem_map.mp listed
      exact neighbours_held bounds best.flags other held (fits.specs other (sameSpecs ▸ isSpec)) flags among

end ToolchainUtils.Bestflags.HillClimbingBestBranch
