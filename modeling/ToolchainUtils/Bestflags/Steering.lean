import Mathlib.Data.Finset.Basic
import Mathlib.Data.Finset.Image
import ToolchainUtils.Bestflags.Generation
import ToolchainUtils.Transition

set_option autoImplicit false

namespace ToolchainUtils.Bestflags

inductive Message (κ : Type) where
  | task (flags : κ)
  | poisonpill
  deriving DecidableEq

inductive Failure where
  | stopIteration
  | negativePending
  | emptyPool
  | raised
  deriving DecidableEq

inductive SteeringStatus where
  | running
  | finished
  | failed (failure : Failure)
  deriving DecidableEq

structure SteeringState (κ ρ σ : Type) where
  waiting : List (Generation κ ρ σ)
  -- Every task in the cache is only ever compared by its flags.
  cache : Finset κ
  resultQueue : List (Message κ)
  -- The tasks put in the result queue whose results have not been read yet.
  inFlight : List κ
  status : SteeringStatus

variable {κ ρ σ : Type} [DecidableEq κ]

-- One result read from the input queue, with what `IsImproved` and `Next` of its
-- generation answer if the generation is done.
structure Arrival (κ ρ σ : Type) where
  task : Task κ ρ
  isImproved : Bool
  next : List (NewGeneration κ ρ σ)

-- The tasks of the initial generations that are sent, against the cache as the
-- generations before have left it.
def initialTasks (cache : Finset κ) : List (NewGeneration κ ρ σ) → List κ
  | [] => []
  | generation :: rest =>
      let tasks := generation.exeSet.keys.filter fun task => task ∉ cache
      tasks ++ initialTasks (cache ∪ tasks.toFinset) rest

def SteeringState.start (cache : Finset κ) (generations : List (NewGeneration κ ρ σ)) : SteeringState κ ρ σ :=
  let tasks := initialTasks cache generations
  let sent : SteeringState κ ρ σ :=
    { waiting := generations.map (·.init)
      cache := cache ∪ tasks.toFinset
      resultQueue := tasks.map .task
      inFlight := tasks
      status := .running }
  if tasks.length = 0 then
    { sent with
      resultQueue := [.poisonpill]
      status := .finished }
  else
    sent

def SteeringState.fail (state : SteeringState κ ρ σ) (failure : Failure) : SteeringState κ ρ σ :=
  { state with status := .failed failure }

-- The test of the `while` loop and what follows the loop.
def SteeringState.loopTest (state : SteeringState κ ρ σ) : SteeringState κ ρ σ :=
  if state.waiting = [] then
    { state with
      resultQueue := state.resultQueue ++ [.poisonpill]
      status := .finished }
  else
    state

def SteeringState.send (state : SteeringState κ ρ σ) (new : NewGeneration κ ρ σ) : SteeringState κ ρ σ :=
  { state with
    waiting := state.waiting ++ [new.init]
    cache := state.cache ∪ new.exeSet.keys.toFinset
    resultQueue := state.resultQueue ++ new.exeSet.keys.map .task
    inFlight := state.inFlight ++ new.exeSet.keys }

-- New tasks are sent whether or not the cache has them.
def SteeringState.submit (state : SteeringState κ ρ σ) : List (NewGeneration κ ρ σ) → SteeringState κ ρ σ
  | [] => state.loopTest
  | new :: rest =>
      if new.exeSet.tasks = [] then state.fail .emptyPool else (state.send new).submit rest

-- The first waiting generation whose `UpdateTask` returns true, as it leaves it,
-- between the generations before and after it.
def findOwner (task : Task κ ρ) : List (Generation κ ρ σ) →
    Option (List (Generation κ ρ σ) × Generation κ ρ σ × List (Generation κ ρ σ))
  | [] => none
  | generation :: rest =>
      match generation.updateTask task with
      | some updated => some ([], updated, rest)
      | none => (findOwner task rest).map fun found => (generation :: found.1, found.2)

def SteeringState.receive (state : SteeringState κ ρ σ) (arrival : Arrival κ ρ σ) : SteeringState κ ρ σ :=
  match findOwner arrival.task state.waiting with
  | none => state.fail .stopIteration
  | some (before, generation, after) =>
      if generation.pending < 0 then
        state.fail .negativePending
      else if generation.done then
        { state with waiting := before ++ after }.submit (if arrival.isImproved then arrival.next else [])
      else
        { state with waiting := before ++ generation :: after }

-- Each task that was put in the result queue comes back once, in any order.
def SteeringState.step (state : SteeringState κ ρ σ) (arrival : Arrival κ ρ σ) : Option (SteeringState κ ρ σ) :=
  if state.status = .running ∧ arrival.task.flags ∈ state.inFlight then
    some ({ state with inFlight := state.inFlight.erase arrival.task.flags }.receive arrival)
  else
    none

-- The generation that the result completes, as `IsImproved` is called on it.
def SteeringState.completes (state : SteeringState κ ρ σ) (task : Task κ ρ) : Option (Generation κ ρ σ) :=
  (findOwner task state.waiting).bind fun found => if found.2.1.done then some found.2.1 else none

def SteeringState.tasksPut (state : SteeringState κ ρ σ) : List κ :=
  state.resultQueue.filterMap fun message =>
    match message with
    | .task flags => some flags
    | .poisonpill => none

theorem find_owner_some (task : Task κ ρ) (waiting before after : List (Generation κ ρ σ))
    (updated : Generation κ ρ σ) (found : findOwner task waiting = some (before, updated, after)) :
    ∃ owner, waiting = before ++ owner :: after ∧ owner.updateTask task = some updated ∧
      ∀ generation ∈ before, task.flags ∉ generation.keys := by
  induction waiting generalizing before with
  | nil => exact absurd found nofun
  | cons generation rest ih =>
      rw [findOwner] at found
      split at found
      next taken =>
        simp only [Option.some.injEq, Prod.mk.injEq] at found
        obtain ⟨rfl, rfl, rfl⟩ := found
        exact ⟨generation, rfl, taken, nofun⟩
      next refused =>
        obtain ⟨⟨earlier, inner, later⟩, foundLater, same⟩ := Option.map_eq_some_iff.mp found
        simp only [Prod.mk.injEq] at same
        obtain ⟨rfl, rfl, rfl⟩ := same
        obtain ⟨owner, split, taken, before⟩ := ih earlier foundLater
        refine ⟨owner, by rw [split]; rfl, taken, ?_⟩
        intro other member
        cases List.mem_cons.mp member with
        | inl here => exact here ▸ update_task_none generation task refused
        | inr there => exact before other there

theorem find_owner_none (task : Task κ ρ) (waiting : List (Generation κ ρ σ)) (missing : findOwner task waiting = none)
    (generation : Generation κ ρ σ) (member : generation ∈ waiting) : task.flags ∉ generation.keys := by
  induction waiting with
  | nil => exact absurd member nofun
  | cons first rest ih =>
      rw [findOwner] at missing
      split at missing
      next => exact absurd missing nofun
      next refused =>
        cases List.mem_cons.mp member with
        | inl here => exact here ▸ update_task_none first task refused
        | inr there => exact ih (Option.map_eq_none_iff.mp missing) there

end ToolchainUtils.Bestflags
