import ToolchainUtils.Bestflags.Pipeline

set_option autoImplicit false

namespace ToolchainUtils.Bestflags.Pipeline

variable {κ ι ρ : Type} [DecidableEq κ] [DecidableEq ι]

-- All that one turn can do, with the state it starts from. The invariants are
-- proved along these moves, and the step functions are unfolded nowhere else.
inductive ProcessMove (stage : Stage κ ι ρ) : Stage κ ι ρ → Prop where
  | readPill (rest : List (Message (StageTask κ ι ρ))) (running : stage.process = .running)
      (read : stage.taskQueue = .poisonpill :: rest) :
      ProcessMove stage { stage.put .poisonpill with
        taskQueue := rest
        process := .closing }
  | toHelper (task : StageTask κ ι ρ) (rest : List (Message (StageTask κ ι ρ))) (running : stage.process = .running)
      (read : stage.taskQueue = .task task :: rest) (known : task.identifier ∈ stage.mycache) :
      ProcessMove stage { stage with
        taskQueue := rest
        helperQueue := stage.helperQueue ++ [.task task] }
  | toPool (task : StageTask κ ι ρ) (rest : List (Message (StageTask κ ι ρ))) (running : stage.process = .running)
      (read : stage.taskQueue = .task task :: rest) (new : task.identifier ∉ stage.mycache) :
      ProcessMove stage { stage with
        taskQueue := rest
        poolQueue := stage.poolQueue ++ [task]
        mycache := stage.mycache ++ [task.identifier] }
  | joinPool (closing : stage.process = .closing) (allTaken : stage.poolQueue = [])
      (idle : ∀ worker ∈ stage.workers, worker.isIdle) :
      ProcessMove stage { stage with
        helperQueue := stage.helperQueue ++ [.poisonpill]
        process := .joining }
  | joinHelper (joining : stage.process = .joining) (ended : stage.helper.hasEnded) :
      ProcessMove stage { stage with process := .ended }

inductive WorkerMove (stage : Stage κ ι ρ) (slot : Nat) (result : ρ) : Stage κ ι ρ → Prop where
  | take (task : StageTask κ ι ρ) (rest : List (StageTask κ ι ρ)) (idle : stage.workers[slot]? = some .idle)
      (waiting : stage.poolQueue = task :: rest) :
      WorkerMove stage slot result { stage with
        poolQueue := rest
        workers := stage.workers.set slot (.taken task) }
  | giveUp (task : StageTask κ ι ρ) (taken : stage.workers[slot]? = some (.taken task)) (done : task.result.isSome) :
      WorkerMove stage slot result { stage with workers := stage.workers.set slot .idle }
  | work (task : StageTask κ ι ρ) (taken : stage.workers[slot]? = some (.taken task)) (blank : task.result = none) :
      WorkerMove stage slot result { stage with
        workers := stage.workers.set slot (.worked { task with result := some result })
        workLog := stage.workLog ++ [(task.identifier, result)] }
  | report (task : StageTask κ ι ρ) (found : ρ) (worked : stage.workers[slot]? = some (.worked task))
      (has : task.result = some found) :
      WorkerMove stage slot result { stage with
        workers := stage.workers.set slot (.reported task)
        completedQueue := stage.completedQueue ++ [(task.identifier, found)] }
  | send (task : StageTask κ ι ρ) (reported : stage.workers[slot]? = some (.reported task)) :
      WorkerMove stage slot result { stage.put (.task task) with workers := stage.workers.set slot .idle }

inductive HelperMove (stage : Stage κ ι ρ) : Stage κ ι ρ → Prop where
  | nothing (top : stage.helper = .top .pulling) (empty : stage.helperQueue = []) :
      HelperMove stage { stage with helper := .collecting .pulling }
  | readPill (rest : List (Message (StageTask κ ι ρ))) (top : stage.helper = .top .pulling)
      (read : stage.helperQueue = .poisonpill :: rest) :
      HelperMove stage { stage with
        helperQueue := rest
        helper := .top .draining }
  | failAssert (task : StageTask κ ι ρ) (rest : List (Message (StageTask κ ι ρ))) (top : stage.helper = .top .pulling)
      (read : stage.helperQueue = .task task :: rest) (done : task.result.isSome) :
      HelperMove stage { stage with helper := .failed }
  | resolveNow (task : StageTask κ ι ρ) (rest : List (Message (StageTask κ ι ρ))) (result : ρ)
      (top : stage.helper = .top .pulling) (read : stage.helperQueue = .task task :: rest) (blank : task.result = none)
      (found : stage.doneDict.lookup task.identifier = some result) :
      HelperMove stage { stage.put (.task { task with result := some result }) with
        helperQueue := rest
        helper := .collecting .pulling }
  | putOff (task : StageTask κ ι ρ) (rest : List (Message (StageTask κ ι ρ))) (top : stage.helper = .top .pulling)
      (read : stage.helperQueue = .task task :: rest) (blank : task.result = none)
      (unknown : stage.doneDict.lookup task.identifier = none) :
      HelperMove stage { stage with
        helperQueue := rest
        waitingList := stage.waitingList ++ [task]
        helper := .collecting .pulling }
  | finish (top : stage.helper = .top .draining) (empty : stage.waitingList = []) :
      HelperMove stage { stage with helper := .ended }
  | drain (top : stage.helper = .top .draining) (waits : stage.waitingList ≠ []) :
      HelperMove stage { stage with helper := .collecting .draining }
  | nothingCompleted (after : HelperLoop) (collecting : stage.helper = .collecting after)
      (empty : stage.completedQueue = []) : HelperMove stage { stage with helper := .top after }
  | collect (after : HelperLoop) (identifier : ι) (result : ρ) (rest : List (ι × ρ))
      (collecting : stage.helper = .collecting after) (read : stage.completedQueue = (identifier, result) :: rest) :
      HelperMove stage { stage with
        completedQueue := rest
        doneDict := (identifier, result) :: stage.doneDict
        helper := .resolving after result (stage.waitingList.filter fun task => task.identifier = identifier) }
  | resolved (after : HelperLoop) (result : ρ) (resolving : stage.helper = .resolving after result []) :
      HelperMove stage { stage with helper := .top after }
  | resolve (after : HelperLoop) (result : ρ) (task : StageTask κ ι ρ) (rest : List (StageTask κ ι ρ))
      (resolving : stage.helper = .resolving after result (task :: rest)) :
      HelperMove stage { stage.put (.task { task with result := some result }) with
        waitingList := stage.waitingList.eraseP fun other => other.flags = task.flags
        helper := .resolving after result rest }

omit [DecidableEq κ] in
theorem process_moves (stage next : Stage κ ι ρ) (taken : stage.processStep = some next) : ProcessMove stage next := by
  obtain ⟨taskQueue, process, _⟩ := stage
  cases process with
  | running =>
      cases taskQueue with
      | nil => exact absurd taken nofun
      | cons message rest =>
          cases message with
          | poisonpill => exact Option.some.inj taken ▸ .readPill rest rfl rfl
          | task task =>
              simp only [Stage.processStep] at taken
              split at taken
              · next known => exact Option.some.inj taken ▸ .toHelper task rest rfl rfl known
              · next new => exact Option.some.inj taken ▸ .toPool task rest rfl rfl new
  | closing =>
      simp only [Stage.processStep] at taken
      split at taken
      · next quiet => exact Option.some.inj taken ▸ .joinPool rfl quiet.1 quiet.2
      · exact absurd taken nofun
  | joining =>
      simp only [Stage.processStep] at taken
      split at taken
      · next isOver => exact Option.some.inj taken ▸ .joinHelper rfl isOver
      · exact absurd taken nofun
  | ended => exact absurd taken nofun

omit [DecidableEq κ] [DecidableEq ι] in
theorem worker_moves (stage next : Stage κ ι ρ) (slot : Nat) (result : ρ)
    (taken : stage.workerStep slot result = some next) : WorkerMove stage slot result next := by
  obtain ⟨taskQueue, process, mycache, poolQueue, _⟩ := stage
  simp only [Stage.workerStep] at taken
  split at taken
  · exact absurd taken nofun
  · next idle =>
      cases poolQueue with
      | nil => exact absurd taken nofun
      | cons task rest => exact Option.some.inj taken ▸ .take task rest idle rfl
  · next task here =>
      split at taken
      · next done => exact Option.some.inj taken ▸ .giveUp task here done
      · next blank => exact Option.some.inj taken ▸ .work task here (Option.not_isSome_iff_eq_none.mp blank)
  · next task here =>
      split at taken
      · exact absurd taken nofun
      · next found has => exact Option.some.inj taken ▸ .report task found here has
  · next task here => exact Option.some.inj taken ▸ .send task here

theorem helper_moves (stage next : Stage κ ι ρ) (taken : stage.helperStep = some next) : HelperMove stage next := by
  obtain ⟨_, _, _, _, _, helperQueue, completedQueue, helper, _⟩ := stage
  cases helper with
  | top loop =>
      cases loop with
      | pulling =>
          cases helperQueue with
          | nil => exact Option.some.inj taken ▸ .nothing rfl rfl
          | cons message rest =>
              cases message with
              | poisonpill => exact Option.some.inj taken ▸ .readPill rest rfl rfl
              | task task =>
                  simp only [Stage.helperStep] at taken
                  split at taken
                  · next done => exact Option.some.inj taken ▸ .failAssert task rest rfl rfl done
                  · next blank =>
                      have none := Option.not_isSome_iff_eq_none.mp blank
                      split at taken
                      · next result found => exact Option.some.inj taken ▸ .resolveNow task rest result rfl rfl none found
                      · next unknown => exact Option.some.inj taken ▸ .putOff task rest rfl rfl none unknown
      | draining =>
          simp only [Stage.helperStep] at taken
          split at taken
          · next empty => exact Option.some.inj taken ▸ .finish rfl empty
          · next waits => exact Option.some.inj taken ▸ .drain rfl waits
  | collecting after =>
      cases completedQueue with
      | nil => exact Option.some.inj taken ▸ .nothingCompleted after rfl rfl
      | cons entry rest => exact Option.some.inj taken ▸ .collect after entry.1 entry.2 rest rfl rfl
  | resolving after result tasks =>
      cases tasks with
      | nil => exact Option.some.inj taken ▸ .resolved after result rfl
      | cons task rest => exact Option.some.inj taken ▸ .resolve after result task rest rfl
  | ended => exact absurd taken nofun
  | failed => exact absurd taken nofun

end ToolchainUtils.Bestflags.Pipeline
