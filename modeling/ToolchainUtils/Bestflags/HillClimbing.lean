import ToolchainUtils.Bestflags.Algorithm

set_option autoImplicit false

namespace ToolchainUtils.Bestflags

open PyString Randomised

variable {ρ : Type} [LT ρ] [DecidableLT ρ]

structure HillClimbingBestBranch (ρ : Type) where
  -- The candidate pool.
  parents : List (Task FlagSet ρ)
  specs : List Text
  nextTask : Option (Task FlagSet ρ)

namespace HillClimbingBestBranch

-- The loop over the execution set that looks for the best neighbor.
def findBest : Option (Task FlagSet ρ) → List (Task FlagSet ρ) → Except Raised (Option (Task FlagSet ρ))
  | best, [] => pure best
  | none, task :: rest => findBest (some task) rest
  | some best, task :: rest => do
      let improved ← task.isImproved best
      findBest (some (if improved then task else best)) rest

def isImproved (generation : Generation FlagSet ρ (HillClimbingBestBranch ρ)) :
    Except Raised (Bool × HillClimbingBestBranch ρ) := do
  match ← findBest none generation.exeSet.tasks with
  | none => pure (false, generation.own)
  | some best =>
      match generation.own.parents with
      | [] => pure (true, { generation.own with nextTask := some best })
      | [parent] => do
          let improved ← best.isImproved parent
          pure (improved, { generation.own with nextTask := some best })
      | _ => throw .assertionError

def next (generation : Generation FlagSet ρ (HillClimbingBestBranch ρ)) (cache : Finset FlagSet) :
    Drawn (List (NewGeneration FlagSet ρ (HillClimbingBestBranch ρ))) :=
  match generation.own.nextTask with
  | none => throw .attributeError
  | some currentTask => do
      let neighbours ← each (climbNext currentTask.flags) generation.own.specs
      let fresh := neighbours.flatten.filter fun flags => flags ∉ cache
      let childrenTasks ← setOf (fresh.map fun flags => ⟨flags, none⟩)
      pure [⟨childrenTasks, ⟨[currentTask], generation.own.specs, none⟩⟩]

def algorithm : Algorithm FlagSet ρ (HillClimbingBestBranch ρ) := ⟨isImproved, next⟩

def first (exeSet : TaskSet FlagSet ρ) (parents : List (Task FlagSet ρ)) (specs : List Text) :
    NewGeneration FlagSet ρ (HillClimbingBestBranch ρ) := ⟨exeSet, ⟨parents, specs, none⟩⟩

end HillClimbingBestBranch

end ToolchainUtils.Bestflags
