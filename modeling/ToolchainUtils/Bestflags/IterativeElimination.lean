import ToolchainUtils.Bestflags.Algorithm

set_option autoImplicit false

namespace ToolchainUtils.Bestflags

open PyString Randomised

variable {ρ : Type} [LT ρ] [DecidableLT ρ]

def decreaseFlag (flags : FlagSet) (spec : Text) : Drawn FlagSet :=
  match flags.get? spec, search spec with
  | none, _ => throw .assertionError
  | some _, none => pure (flags.erase spec)
  | some value, some (start, _) =>
      if value = start then
        pure (flags.erase spec)
      else do
        let less ← flag spec (value - 1)
        pure (flags.insert spec less)

-- A first generation is one of IterativeEliminationFirstGeneration.
structure IterativeElimination (ρ : Type) where
  parentTask : Task FlagSet ρ
  isFirst : Bool

namespace IterativeElimination

-- The tasks that are compared with the parent. `!=` is not defined for tasks and
-- compares objects, and the only task of a set that may be the parent itself is the
-- one with its flags.
def others (parentTask : Task FlagSet ρ) (tasks : List (Task FlagSet ρ)) : List (Task FlagSet ρ) :=
  tasks.filter fun task => task.flags ≠ parentTask.flags

def anyImproved (parentTask : Task FlagSet ρ) : List (Task FlagSet ρ) → Except Raised Bool
  | [] => pure false
  | task :: rest => do
      if ← task.isImproved parentTask then pure true else anyImproved parentTask rest

def isImproved (generation : Generation FlagSet ρ (IterativeElimination ρ)) :
    Except Raised (Bool × IterativeElimination ρ) := do
  let parentTask ←
    if generation.own.isFirst then
      match generation.exeSet.tasks.find? fun task => task.flags = generation.own.parentTask.flags with
      | some task => pure task
      | none => throw .stopIteration
    else
      pure generation.own.parentTask
  let improved ← anyImproved parentTask (others parentTask generation.exeSet.tasks)
  pure (improved, { generation.own with parentTask })

def findWorst : Task FlagSet ρ → List (Task FlagSet ρ) → Except Raised (Task FlagSet ρ)
  | worst, [] => pure worst
  | worst, task :: rest => do
      let improved ← task.isImproved worst
      findWorst (if improved then task else worst) rest

def next (generation : Generation FlagSet ρ (IterativeElimination ρ)) (cache : Finset FlagSet) :
    Drawn (List (NewGeneration FlagSet ρ (IterativeElimination ρ))) := do
  let parentTask := generation.own.parentTask
  let worstTask ← StateT.lift (findWorst parentTask (others parentTask generation.exeSet.tasks))
  if worstTask.flags = parentTask.flags then
    throw .assertionError
  else if worstTask.flags.keys = [] then
    pure []
  else do
    let decreased ← each (decreaseFlag worstTask.flags) worstTask.flags.keys
    let fresh := decreased.filter fun flags => flags ∉ cache
    let results ← setOf (fresh.map fun flags => ⟨flags, none⟩)
    pure [⟨results, ⟨worstTask, false⟩⟩]

def algorithm : Algorithm FlagSet ρ (IterativeElimination ρ) := ⟨isImproved, next⟩

-- IterativeEliminationFirstGeneration(exe_set, parent_task)
def first (exeSet : TaskSet FlagSet ρ) (parentTask : Task FlagSet ρ) :
    NewGeneration FlagSet ρ (IterativeElimination ρ) := ⟨exeSet, ⟨parentTask, true⟩⟩

end IterativeElimination

end ToolchainUtils.Bestflags
