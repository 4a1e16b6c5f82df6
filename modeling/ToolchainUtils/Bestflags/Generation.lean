import Mathlib.Data.List.Nodup

set_option autoImplicit false

namespace ToolchainUtils.Bestflags

-- Two tasks are the same if their flag options are the same, so the flags are the
-- key under which a set holds a task. The result is what the stages recorded in it.
structure Task (κ ρ : Type) where
  flags : κ
  result : Option ρ
  deriving DecidableEq

-- A set of tasks, listed in the order in which it is iterated.
structure TaskSet (κ ρ : Type) where
  tasks : List (Task κ ρ)
  distinct : (tasks.map (·.flags)).Nodup
  deriving DecidableEq

variable {κ ρ σ : Type}

-- Tasks that no stage has seen yet.
def TaskSet.unrun (keys : List κ) (distinct : keys.Nodup) : TaskSet κ ρ where
  tasks := keys.map fun flags => ⟨flags, none⟩
  distinct := by
    rw [List.map_map]
    exact (List.map_id keys).symm ▸ distinct

def TaskSet.keys (set : TaskSet κ ρ) : List κ := set.tasks.map (·.flags)

theorem TaskSet.keys_length (set : TaskSet κ ρ) : set.keys.length = set.tasks.length :=
  List.length_map _

theorem TaskSet.keys_eq_nil (set : TaskSet κ ρ) : set.keys = [] ↔ set.tasks = [] :=
  List.map_eq_nil_iff

@[simp] theorem TaskSet.unrun_keys (keys : List κ) (distinct : keys.Nodup) :
    (TaskSet.unrun keys distinct : TaskSet κ ρ).keys = keys := by
  rw [TaskSet.keys, TaskSet.unrun, List.map_map]
  exact List.map_id keys

variable [DecidableEq κ]

theorem replaced_keys (tasks : List (Task κ ρ)) (task : Task κ ρ) :
    (tasks.map fun old => if old.flags = task.flags then task else old).map (·.flags) = tasks.map (·.flags) := by
  rw [List.map_map]
  apply List.map_congr_left
  intro old _
  by_cases same : old.flags = task.flags
  · simp [same]
  · simp [same]

-- `remove` followed by `add`: the placeholder leaves and the task with its result
-- takes its place.
def TaskSet.replace (set : TaskSet κ ρ) (task : Task κ ρ) : TaskSet κ ρ where
  tasks := set.tasks.map fun old => if old.flags = task.flags then task else old
  distinct := by
    rw [replaced_keys]
    exact set.distinct

@[simp] theorem TaskSet.replace_keys (set : TaskSet κ ρ) (task : Task κ ρ) : (set.replace task).keys = set.keys :=
  replaced_keys set.tasks task

-- The fields of a subclass, its candidate pool among them, are of type `σ`.
structure Generation (κ ρ σ : Type) where
  exeSet : TaskSet κ ρ
  own : σ
  pending : Int

-- What is handed to the constructor of a subclass.
structure NewGeneration (κ ρ σ : Type) where
  exeSet : TaskSet κ ρ
  own : σ

def NewGeneration.init (new : NewGeneration κ ρ σ) : Generation κ ρ σ where
  exeSet := new.exeSet
  own := new.own
  pending := new.exeSet.tasks.length

def Generation.done (generation : Generation κ ρ σ) : Bool := generation.pending == 0

-- `none` when the task is not in the set. Whether the counter has become negative
-- is asserted where the result is used.
def Generation.updateTask (generation : Generation κ ρ σ) (task : Task κ ρ) : Option (Generation κ ρ σ) :=
  if task.flags ∈ generation.exeSet.keys then
    some { generation with
      exeSet := generation.exeSet.replace task
      pending := generation.pending - 1 }
  else
    none

def Generation.keys (generation : Generation κ ρ σ) : List κ := generation.exeSet.keys

theorem update_task_some (generation updated : Generation κ ρ σ) (task : Task κ ρ)
    (taken : generation.updateTask task = some updated) :
    task.flags ∈ generation.keys ∧ updated.keys = generation.keys ∧
      updated.pending = generation.pending - 1 ∧ updated.own = generation.own := by
  unfold Generation.updateTask at taken
  split at taken
  next held =>
    obtain rfl := Option.some.inj taken
    exact ⟨held, TaskSet.replace_keys generation.exeSet task, rfl, rfl⟩
  next => exact absurd taken nofun

theorem update_task_none (generation : Generation κ ρ σ) (task : Task κ ρ)
    (refused : generation.updateTask task = none) : task.flags ∉ generation.keys := by
  unfold Generation.updateTask at refused
  split at refused
  next => exact absurd refused nofun
  next missing => exact missing

end ToolchainUtils.Bestflags
