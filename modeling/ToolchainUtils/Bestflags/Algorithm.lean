import ToolchainUtils.Bestflags.Flags
import ToolchainUtils.Bestflags.Steering

set_option autoImplicit false

namespace ToolchainUtils.Bestflags

open Randomised

variable {κ ρ σ : Type} [DecidableEq κ]

-- Task.IsImproved: the execution costs must have been initiated.
def Task.isImproved [LT ρ] [DecidableLT ρ] (task other : Task κ ρ) : Except Raised Bool :=
  match task.result, other.result with
  | some cost, some otherCost => pure (decide (cost < otherCost))
  | _, _ => throw .assertionError

omit [DecidableEq κ] in
theorem compared [LT ρ] [DecidableLT ρ] (task other : Task κ ρ) (here : task.result.isSome)
    (there : other.result.isSome) : ∃ improved, task.isImproved other = .ok improved := by
  obtain ⟨cost, known⟩ := Option.isSome_iff_exists.mp here
  obtain ⟨otherCost, otherKnown⟩ := Option.isSome_iff_exists.mp there
  exact ⟨decide (cost < otherCost), by simp [Task.isImproved, known, otherKnown, pure, Except.pure]⟩

-- A set keeps the first of equal tasks.
def firstOfEqual : List (Task κ ρ) → List (Task κ ρ)
  | [] => []
  | task :: rest => task :: (firstOfEqual rest).filter fun other => other.flags ≠ task.flags

theorem first_of_equal_distinct (tasks : List (Task κ ρ)) : ((firstOfEqual tasks).map (·.flags)).Nodup := by
  induction tasks with
  | nil => exact List.nodup_nil
  | cons task rest ih =>
      rw [firstOfEqual, List.map_cons]
      apply List.nodup_cons.mpr
      constructor
      · simp
      · exact ih.sublist (List.filter_sublist.map _)

def TaskSet.ofTasks (tasks : List (Task κ ρ)) : TaskSet κ ρ := ⟨firstOfEqual tasks, first_of_equal_distinct tasks⟩

-- set(tasks), which is iterated in some order: the order is drawn.
def setOf (tasks : List (Task κ ρ)) : Drawn (TaskSet κ ρ) := do
  let order ← shuffle (firstOfEqual tasks)
  pure (.ofTasks order)

theorem first_of_equal_sub (tasks : List (Task κ ρ)) : ∀ task ∈ firstOfEqual tasks, task ∈ tasks := by
  induction tasks with
  | nil => exact nofun
  | cons first rest ih =>
      intro task member
      cases List.mem_cons.mp member with
      | inl here => exact here ▸ List.mem_cons_self
      | inr there => exact List.mem_cons_of_mem _ (ih task (List.mem_of_mem_filter there))

theorem first_of_equal_keys (tasks : List (Task κ ρ)) (task : Task κ ρ) (member : task ∈ tasks) :
    ∃ kept ∈ firstOfEqual tasks, kept.flags = task.flags := by
  induction tasks with
  | nil => exact absurd member nofun
  | cons first rest ih =>
      by_cases same : task.flags = first.flags
      · exact ⟨first, List.mem_cons_self, same.symm⟩
      · have later := (List.mem_cons.mp member).resolve_left fun here => same (congrArg Task.flags here)
        obtain ⟨kept, present, equal⟩ := ih later
        refine ⟨kept, List.mem_cons_of_mem _ (List.mem_filter.mpr ⟨present, ?_⟩), equal⟩
        exact decide_eq_true fun again => same (equal.symm.trans again)

theorem first_of_equal_all (tasks : List (Task κ ρ)) (distinct : (tasks.map (·.flags)).Nodup) :
    firstOfEqual tasks = tasks := by
  induction tasks with
  | nil => rfl
  | cons first rest ih =>
      obtain ⟨outside, later⟩ := List.nodup_cons.mp distinct
      rw [firstOfEqual, ih later]
      congr 1
      apply List.filter_eq_self.mpr
      intro task member
      exact decide_eq_true fun same => outside (List.mem_map.mpr ⟨task, member, same⟩)

theorem set_of_spec (tasks : List (Task κ ρ)) :
    Always (setOf tasks) fun set => set.tasks.Perm (firstOfEqual tasks) := by
  apply always_bind _ _ _ _ (always_shuffle (firstOfEqual tasks))
  intro order perm
  apply always_pure
  have distinct : (order.map (·.flags)).Nodup := (perm.map _).nodup_iff.mpr (first_of_equal_distinct tasks)
  have kept : (TaskSet.ofTasks order).tasks = order := first_of_equal_all order distinct
  rw [kept]
  exact perm

theorem set_of_keys (tasks : List (Task κ ρ)) :
    Always (setOf tasks) fun set => (∀ task ∈ set.tasks, task ∈ tasks) ∧
      ∀ flags, flags ∈ set.keys ↔ flags ∈ tasks.map (·.flags) := by
  apply always_imp _ _ _ (set_of_spec tasks)
  intro set perm
  constructor
  · exact fun task member => first_of_equal_sub tasks task (perm.mem_iff.mp member)
  · intro flags
    rw [TaskSet.keys, (perm.map _).mem_iff]
    constructor
    · intro member
      obtain ⟨task, kept, same⟩ := List.mem_map.mp member
      exact List.mem_map.mpr ⟨task, first_of_equal_sub tasks task kept, same⟩
    · intro member
      obtain ⟨task, present, same⟩ := List.mem_map.mp member
      obtain ⟨kept, first, equal⟩ := first_of_equal_keys tasks task present
      exact List.mem_map.mpr ⟨kept, first, equal.trans same⟩

-- A set of tasks that were not run, made of flags that an algorithm has found.
theorem set_of_new (found : List κ) :
    Always (setOf (found.map fun flags => (⟨flags, none⟩ : Task κ ρ))) fun set =>
      (∀ task ∈ set.tasks, task.result = none) ∧ (found ≠ [] → set.tasks ≠ []) ∧ ∀ flags, flags ∈ set.keys ↔ flags ∈ found := by
  apply always_imp _ _ _ (set_of_keys _)
  intro set spec
  have members : ∀ flags, flags ∈ set.keys ↔ flags ∈ found := by
    intro flags
    rw [spec.2 flags, List.map_map]
    exact (List.map_id found).symm ▸ Iff.rfl
  refine ⟨?_, ?_, members⟩
  · intro task member
    obtain ⟨flags, -, rfl⟩ := List.mem_map.mp (spec.1 task member)
    rfl
  · intro filled empty
    obtain ⟨flags, present⟩ := List.exists_mem_of_ne_nil found filled
    have inside := (members flags).mpr present
    rw [set.keys_eq_nil.mpr empty] at inside
    exact absurd inside nofun

theorem set_of_unrun (found : List κ) :
    Always (setOf (found.map fun flags => (⟨flags, none⟩ : Task κ ρ))) fun set =>
      (found ≠ [] → set.tasks ≠ []) ∧ ∀ flags, flags ∈ set.keys ↔ flags ∈ found :=
  always_imp _ _ _ (set_of_new found) fun _ spec => spec.2

-- A concrete subclass of Generation. `isImproved` may change the subclass's own fields.
structure Algorithm (κ ρ σ : Type) where
  isImproved : Generation κ ρ σ → Except Raised (Bool × σ)
  next : Generation κ ρ σ → Finset κ → Drawn (List (NewGeneration κ ρ σ))

-- A result comes back, and the random module answers from the source.
structure Returned (κ ρ : Type) where
  task : Task κ ρ
  source : Source

-- What `IsImproved` and `Next` of the generation that the result completes answer.
def Algorithm.answer (algorithm : Algorithm κ ρ σ) (state : SteeringState κ ρ σ) (returned : Returned κ ρ) :
    Except Raised (Bool × List (NewGeneration κ ρ σ)) :=
  match state.completes returned.task with
  | none => pure (false, [])
  | some generation => do
      let (improved, own) ← algorithm.isImproved generation
      if improved then
        let (next, _) ← algorithm.next { generation with own } state.cache returned.source
        pure (true, next)
      else
        pure (false, [])

-- Steering with the generations of one algorithm.
def Algorithm.step (algorithm : Algorithm κ ρ σ) (state : SteeringState κ ρ σ) (returned : Returned κ ρ) :
    Option (SteeringState κ ρ σ) :=
  match algorithm.answer state returned with
  | .ok (improved, next) => state.step ⟨returned.task, improved, next⟩
  | .error _ =>
      if state.status = .running ∧ returned.task.flags ∈ state.inFlight then
        some ({ state with inFlight := state.inFlight.erase returned.task.flags }.fail .raised)
      else
        none

end ToolchainUtils.Bestflags
