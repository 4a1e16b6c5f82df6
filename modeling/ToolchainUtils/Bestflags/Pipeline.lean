import Mathlib.Algebra.GroupWithZero.Nat
import ToolchainUtils.Bestflags.Steering

set_option autoImplicit false

namespace ToolchainUtils.Bestflags.Pipeline

-- A task as one stage sees it. Tasks are equal when their flags are; the identifier
-- is the formatted flags in the build stage and the checksum in the test stage. The
-- task is done at the stage when it has the stage's result.
structure StageTask (κ ι ρ : Type) where
  flags : κ
  identifier : ι
  result : Option ρ
  deriving DecidableEq

inductive ProcessControl where
  | running
  | closing
  | joining
  | ended
  deriving DecidableEq

-- A worker of the pool between the steps of Worker: the task is taken, `Work` has
-- returned, its result is in the completed queue.
inductive Worker (κ ι ρ : Type) where
  | idle
  | taken (task : StageTask κ ι ρ)
  | worked (task : StageTask κ ι ρ)
  | reported (task : StageTask κ ι ρ)
  deriving DecidableEq

-- The two loops of Helper; `after` says to which of them
-- GetResultFromCompletedQueue returns.
inductive HelperLoop where
  | pulling
  | draining
  deriving DecidableEq

inductive HelperControl (κ ι ρ : Type) where
  | top (loop : HelperLoop)
  | collecting (after : HelperLoop)
  | resolving (after : HelperLoop) (result : ρ) (tasks : List (StageTask κ ι ρ))
  | ended
  | failed
  deriving DecidableEq

structure Stage (κ ι ρ : Type) where
  taskQueue : List (Message (StageTask κ ι ρ))
  process : ProcessControl
  mycache : List ι
  poolQueue : List (StageTask κ ι ρ)
  workers : List (Worker κ ι ρ)
  helperQueue : List (Message (StageTask κ ι ρ))
  completedQueue : List (ι × ρ)
  helper : HelperControl κ ι ρ
  doneDict : List (ι × ρ)
  waitingList : List (StageTask κ ι ρ)
  resultQueue : List (Message (StageTask κ ι ρ))
  -- Every call of `Work` so far, with the identifier and the result of the task.
  workLog : List (ι × ρ)

inductive Actor where
  | process
  | worker (slot : Nat)
  | helper
  deriving DecidableEq

-- The scheduler picks who moves; the result is what `Work` makes of the task if the
-- turn is a worker's that does its work.
structure Turn (ρ : Type) where
  actor : Actor
  result : ρ

variable {κ ι ρ : Type}

def Worker.isIdle : Worker κ ι ρ → Bool
  | .idle => true
  | _ => false

def HelperControl.hasEnded : HelperControl κ ι ρ → Bool
  | .ended => true
  | _ => false

variable [DecidableEq κ] [DecidableEq ι]

def Stage.start (cache : List (ι × ρ)) (tasks : List (StageTask κ ι ρ)) (numProcesses : Nat) : Stage κ ι ρ where
  taskQueue := tasks.map .task ++ [.poisonpill]
  process := .running
  mycache := cache.map (·.1)
  poolQueue := []
  workers := List.replicate numProcesses .idle
  helperQueue := []
  completedQueue := []
  helper := .top .pulling
  doneDict := cache
  waitingList := []
  resultQueue := []
  workLog := []

def Stage.put (stage : Stage κ ι ρ) (message : Message (StageTask κ ι ρ)) : Stage κ ι ρ :=
  { stage with resultQueue := stage.resultQueue ++ [message] }

-- PipelineProcess.run. `get` blocks on an empty queue, and the two joins block until
-- the pool has done its work and the helper has returned.
def Stage.processStep (stage : Stage κ ι ρ) : Option (Stage κ ι ρ) :=
  match stage.process with
  | .running =>
      match stage.taskQueue with
      | [] => none
      | .poisonpill :: rest =>
          some { stage.put .poisonpill with
            taskQueue := rest
            process := .closing }
      | .task task :: rest =>
          if task.identifier ∈ stage.mycache then
            some { stage with
              taskQueue := rest
              helperQueue := stage.helperQueue ++ [.task task] }
          else
            some { stage with
              taskQueue := rest
              poolQueue := stage.poolQueue ++ [task]
              mycache := stage.mycache ++ [task.identifier] }
  | .closing =>
      if stage.poolQueue = [] ∧ ∀ worker ∈ stage.workers, worker.isIdle then
        some { stage with
          helperQueue := stage.helperQueue ++ [.poisonpill]
          process := .joining }
      else
        none
  | .joining => if stage.helper.hasEnded then some { stage with process := .ended } else none
  | .ended => none

def Stage.workerStep (stage : Stage κ ι ρ) (slot : Nat) (result : ρ) : Option (Stage κ ι ρ) :=
  match stage.workers[slot]? with
  | none => none
  | some .idle =>
      match stage.poolQueue with
      | [] => none
      | task :: rest =>
          some { stage with
            poolQueue := rest
            workers := stage.workers.set slot (.taken task) }
  | some (.taken task) =>
      -- A failing assertion is kept in the AsyncResult that nobody looks at.
      if task.result.isSome then
        some { stage with workers := stage.workers.set slot .idle }
      else
        some { stage with
          workers := stage.workers.set slot (.worked { task with result := some result })
          workLog := stage.workLog ++ [(task.identifier, result)] }
  | some (.worked task) =>
      match task.result with
      | none => none
      | some found =>
          some { stage with
            workers := stage.workers.set slot (.reported task)
            completedQueue := stage.completedQueue ++ [(task.identifier, found)] }
  | some (.reported task) => some { stage.put (.task task) with workers := stage.workers.set slot .idle }

-- Helper and GetResultFromCompletedQueue. waiting_list.remove removes the first task
-- that is equal to the duplicate task.
def Stage.helperStep (stage : Stage κ ι ρ) : Option (Stage κ ι ρ) :=
  match stage.helper with
  | .top .pulling =>
      match stage.helperQueue with
      | [] => some { stage with helper := .collecting .pulling }
      | .poisonpill :: rest =>
          some { stage with
            helperQueue := rest
            helper := .top .draining }
      | .task task :: rest =>
          if task.result.isSome then
            some { stage with helper := .failed }
          else
            match stage.doneDict.lookup task.identifier with
            | some result =>
                some { stage.put (.task { task with result := some result }) with
                  helperQueue := rest
                  helper := .collecting .pulling }
            | none =>
                some { stage with
                  helperQueue := rest
                  waitingList := stage.waitingList ++ [task]
                  helper := .collecting .pulling }
  | .top .draining =>
      if stage.waitingList = [] then
        some { stage with helper := .ended }
      else
        some { stage with helper := .collecting .draining }
  | .collecting after =>
      match stage.completedQueue with
      | [] => some { stage with helper := .top after }
      | (identifier, result) :: rest =>
          some { stage with
            completedQueue := rest
            doneDict := (identifier, result) :: stage.doneDict
            helper := .resolving after result (stage.waitingList.filter fun task => task.identifier = identifier) }
  | .resolving after _ [] => some { stage with helper := .top after }
  | .resolving after result (task :: rest) =>
      some { stage.put (.task { task with result := some result }) with
        waitingList := stage.waitingList.eraseP fun other => other.flags = task.flags
        helper := .resolving after result rest }
  | .ended => none
  | .failed => none

def Stage.step (stage : Stage κ ι ρ) (turn : Turn ρ) : Option (Stage κ ι ρ) :=
  match turn.actor with
  | .process => stage.processStep
  | .worker slot => stage.workerStep slot turn.result
  | .helper => stage.helperStep

-- A turn that is blocked changes nothing.
def Stage.turn (stage : Stage κ ι ρ) (turn : Turn ρ) : Stage κ ι ρ := (stage.step turn).getD stage

end ToolchainUtils.Bestflags.Pipeline
