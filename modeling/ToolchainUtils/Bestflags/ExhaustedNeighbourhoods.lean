import ToolchainUtils.Bestflags.EliminationRuns
import ToolchainUtils.Bestflags.GeneticRuns
import ToolchainUtils.Bestflags.HillClimbingRuns

set_option autoImplicit false

namespace ToolchainUtils.Bestflags

open PyString Randomised Transition

variable {ρ σ : Type} [LinearOrder ρ]

-- A run of Steering from one generation with an empty cache, in which every task
-- that comes back has its cost.
structure SteeringRun (algorithm : Algorithm FlagSet ρ σ) (first : NewGeneration FlagSet ρ σ)
    (ok : Generation FlagSet ρ σ → Finset FlagSet → Prop) (returned : List (Returned FlagSet ρ))
    (state : SteeringState FlagSet ρ σ) : Prop where
  evaluated : ∀ result ∈ returned, result.task.result.isSome
  allowed : Along algorithm.step (Completing ok) (.start ∅ [first]) returned
  run : exec algorithm.step (.start ∅ [first]) returned = some state

-- No assertion has failed and nothing was raised, a loop that still runs waits for a
-- result, one that has ended put its POISONPILL, and there are only so many results.
structure EndsByItself (bound : Nat) (returned : List (Returned FlagSet ρ)) (state : SteeringState FlagSet ρ σ) :
    Prop where
  accounted : state.Accounted
  ended : state.inFlight = [] → state.status = .finished
  bounded : returned.length ≤ bound

theorem hill_climbing_ends (specs : List Text) (exeSet : TaskSet FlagSet ρ) (parents : List (Task FlagSet ρ))
    (filled : exeSet.tasks ≠ []) (legal : ∀ flags ∈ exeSet.keys, Legal flags)
    (parent : parents = [] ∨ ∃ parent, parents = [parent] ∧ parent.result.isSome) :
    ∃ bound, ∀ returned state, SteeringRun HillClimbingBestBranch.algorithm
      (HillClimbingBestBranch.first exeSet parents specs)
      HillClimbingBestBranch.FreshNeighbour returned state → EndsByItself bound returned state := by
  obtain ⟨bounds, known, held⟩ := bounds_exist specs exeSet.keys legal
  refine ⟨{flags | bounds.Holds flags}.ncard, fun returned state steering => ?_⟩
  have fits : HillClimbingBestBranch.Fits bounds
      (HillClimbingBestBranch.first exeSet parents specs).init exeSet.keys.toFinset := ⟨known, parent, held⟩
  obtain ⟨accounted, ended, bounded⟩ := contract_run _ _ (bounds_finite bounds) _ _ (HillClimbingBestBranch.contract bounds)
    (HillClimbingBestBranch.first exeSet parents specs) filled fits returned state steering.evaluated steering.allowed
    steering.run
  exact ⟨accounted, ended, bounded⟩

theorem elimination_ends (exeSet : TaskSet FlagSet ρ) (parentTask : Task FlagSet ρ) (legal : Legal parentTask.flags)
    (base : parentTask.flags ∈ exeSet.keys)
    (decreases : ∀ flags ∈ exeSet.keys, flags ≠ parentTask.flags →
      ∃ spec ∈ parentTask.flags.keys, flags = IterativeElimination.decreased parentTask.flags spec) :
    ∃ bound, ∀ returned state, SteeringRun IterativeElimination.algorithm
      (IterativeElimination.first exeSet parentTask)
      (fun _ _ => True) returned state → EndsByItself bound returned state := by
  obtain ⟨bounds, -, held⟩ := bounds_exist [] [parentTask.flags] fun flags member =>
    List.mem_singleton.mp member ▸ legal
  have fits := IterativeElimination.first_fits bounds exeSet parentTask (held parentTask.flags List.mem_cons_self) base decreases
  refine ⟨{flags | bounds.Holds flags}.ncard, fun returned state steering => ?_⟩
  obtain ⟨accounted, ended, bounded⟩ := contract_run _ _ (bounds_finite bounds) _ _ (IterativeElimination.contract bounds)
    (IterativeElimination.first exeSet parentTask)
    (fun empty => absurd base (by rw [exeSet.keys_eq_nil.mpr empty]; exact nofun)) fits returned state steering.evaluated
    steering.allowed steering.run
  exact ⟨accounted, ended, bounded⟩

theorem genetic_ends (metaData : MetaData) (usable : GAGeneration.Usable metaData) (tasks : TaskSet FlagSet ρ)
    (parents : List (Task FlagSet ρ)) (totalStucks : Int) (filled : tasks.tasks ≠ [])
    (legal : ∀ flags ∈ tasks.keys, Legal flags) (evaluated : ∀ parent ∈ parents, parent.result.isSome ∧ Legal parent.flags) :
    ∃ bound, ∀ returned state, SteeringRun (GAGeneration.algorithm metaData)
      (GAGeneration.first tasks parents totalStucks)
      (fun _ _ => True) returned state → EndsByItself bound returned state := by
  obtain ⟨bounds, known, held⟩ := bounds_exist metaData.specs (tasks.keys ++ parents.map (·.flags)) fun flags member =>
    (List.mem_append.mp member).elim (legal flags) fun isParent => by
      obtain ⟨parent, present, rfl⟩ := List.mem_map.mp isParent
      exact (evaluated parent present).2
  have fits : GAGeneration.Fits bounds (GAGeneration.first tasks parents totalStucks).init tasks.keys.toFinset := by
    refine ⟨filled, fun flags member => held flags (List.mem_append_left _ member), ?_⟩
    intro parent member
    exact ⟨(evaluated parent member).1, held parent.flags (List.mem_append_right _ (List.mem_map_of_mem member))⟩
  refine ⟨{flags | bounds.Holds flags}.ncard, fun returned state steering => ?_⟩
  obtain ⟨accounted, ended, bounded⟩ := contract_run _ _ (bounds_finite bounds) _ _
    (GAGeneration.contract metaData usable bounds known) (GAGeneration.first tasks parents totalStucks) filled fits returned
    state steering.evaluated steering.allowed steering.run
  exact ⟨accounted, ended, bounded⟩

-- Each of the three algorithms, with what it needs of where it starts: the first
-- task or tasks are legal, IterativeElimination starts with the base and decreases of
-- it, and the meta data of the genetic algorithm are usable. Only hill climbing also
-- needs a condition on the states it goes through.
theorem optimisation_ends :
    (∀ (specs : List Text) (exeSet : TaskSet FlagSet ρ) (parents : List (Task FlagSet ρ)), exeSet.tasks ≠ [] →
      (∀ flags ∈ exeSet.keys, Legal flags) → (parents = [] ∨ ∃ parent, parents = [parent] ∧ parent.result.isSome) →
        ∃ bound, ∀ returned state, SteeringRun HillClimbingBestBranch.algorithm
          (HillClimbingBestBranch.first exeSet parents specs) HillClimbingBestBranch.FreshNeighbour returned state →
            EndsByItself bound returned state) ∧
    (∀ (exeSet : TaskSet FlagSet ρ) (parentTask : Task FlagSet ρ), Legal parentTask.flags →
      parentTask.flags ∈ exeSet.keys → (∀ flags ∈ exeSet.keys, flags ≠ parentTask.flags →
        ∃ spec ∈ parentTask.flags.keys, flags = IterativeElimination.decreased parentTask.flags spec) →
        ∃ bound, ∀ returned state, SteeringRun IterativeElimination.algorithm
          (IterativeElimination.first exeSet parentTask) (fun _ _ => True) returned state →
            EndsByItself bound returned state) ∧
    ∀ (metaData : MetaData) (tasks : TaskSet FlagSet ρ) (parents : List (Task FlagSet ρ)) (totalStucks : Int),
      GAGeneration.Usable metaData → tasks.tasks ≠ [] → (∀ flags ∈ tasks.keys, Legal flags) →
        (∀ parent ∈ parents, parent.result.isSome ∧ Legal parent.flags) →
        ∃ bound, ∀ returned state, SteeringRun (GAGeneration.algorithm metaData)
          (GAGeneration.first tasks parents totalStucks) (fun _ _ => True) returned state →
            EndsByItself bound returned state := by
  refine ⟨?_, ?_, ?_⟩
  · exact hill_climbing_ends
  · exact elimination_ends
  · exact fun metaData tasks parents totalStucks usable => genetic_ends metaData usable tasks parents totalStucks

def noFlags : FlagSet := .empty

def alignJumps : FlagSet := noFlags.insert "-falign-jumps".toList 0

def single (flags : FlagSet) : TaskSet FlagSet Nat := .unrun [flags] (List.nodup_singleton flags)

-- The first task turns out better than its two neighbours.
theorem climb_stops_at_start :
    ∃ (state : SteeringState FlagSet Nat (HillClimbingBestBranch Nat)) (bound : Nat), EndsByItself bound
      [⟨⟨noFlags, some 5⟩, fun _ => 0⟩, ⟨⟨alignJumps, some 6⟩, fun _ => 0⟩] state ∧ state.status = .finished := by
  obtain ⟨bound, ends⟩ := (optimisation_ends (ρ := Nat)).1 ["-falign-jumps".toList] (single noFlags) [] nofun
    (fun flags member => by
      obtain rfl := List.mem_singleton.mp member
      exact fun spec value found => absurd found nofun) (.inl rfl)
  refine ⟨_, bound, ends _ _ ⟨?_, ?_, rfl⟩, ?_⟩
  · decide
  · decide
  · rfl

-- With one boolean flag that is better turned on, its only neighbour is the first
-- task again: the new generation is empty.
theorem one_flag_is_exhausted :
    ∃ state, exec HillClimbingBestBranch.algorithm.step
        (.start ∅ [HillClimbingBestBranch.first (single noFlags) [] ["-falign-jumps".toList]])
        [⟨⟨noFlags, some 5⟩, fun _ => 0⟩, ⟨⟨alignJumps, some 3⟩, fun _ => 0⟩] = some state ∧
      state.status = .failed .emptyPool :=
  ⟨_, rfl, rfl⟩

end ToolchainUtils.Bestflags
