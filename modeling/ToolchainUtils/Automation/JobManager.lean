import Mathlib.Data.List.Basic
import Mathlib.Logic.Function.Basic
import ToolchainUtils.Automation.Job
import ToolchainUtils.Automation.MachineManager

set_option autoImplicit false

namespace ToolchainUtils.Automation

-- What clients build before any job is added. DependsOn keeps both relations in step.
-- commandText is str(job.command); none is the TypeError of a Pipe that has an input.
structure JobSetup (J : Type) where
  predecessors : J → List J
  successors : J → List J
  symmetric : ∀ job succ, succ ∈ successors job ↔ job ∈ predecessors succ
  machineDependencies : J → List MachineSpecification
  folderDependencies : J → List J
  commandText : J → Option String
  dryRun : J → Bool

inductive ExecuterOperation (J : Type) where
  | setStatus (status : JobStatus)
  | getCommand
  | command (command : JobCommand J)
deriving DecidableEq, Repr

-- What JobGroupManager.NotifyJobComplete asks of the job manager, job after job.
inductive CleanUpOperation (J : Type) where
  | kill (job : J)
  | cleanUp (job : J)
deriving DecidableEq, Repr

-- `executing` is JobExecuter.run up to the listeners, `notifying` the second half of
-- JobManager.NotifyJobComplete; the rest belongs to the job group manager.
inductive ExecuterPhase (J : Type) where
  | executing (operations : List (ExecuterOperation J))
  | notifying
  | informing
  | cleaning (operations : List (CleanUpOperation J))
  | finished
  | died
deriving DecidableEq, Repr

structure Executer (J : Type) (machines : Nat) where
  job : J
  machines : List (Fin machines)
  phase : ExecuterPhase J
  terminated : Bool
  notified : Bool
deriving DecidableEq, Repr

-- Where the manager's own thread is in JobManager.run.
inductive ThreadPoint where
  | notStarted
  | testing
  | locking
  | waiting (notified : Bool)
  | draining
  | stopped
  | crashed
deriving DecidableEq, Repr

-- Executers are never forgotten; job_executer_mapping refers to them by position.
structure JobManager (J : Type) (machines : Nat) where
  jobs : J → StateMachine JobStatus
  jobMachines : J → List (Fin machines)
  ids : J → Nat
  counter : Nat
  allJobs : List J
  readyJobs : List J
  executers : List (Executer J machines)
  mapping : Nat → Option Nat
  pool : Pool machines
  exitRequest : Bool
  thread : ThreadPoint
  assertionFailed : Bool

variable {J : Type} {machines : Nat}

def JobManager.status (manager : JobManager J machines) (job : J) : JobStatus := (manager.jobs job).current

-- A new server over an idle pool; ids go on from the work directories it finds.
def newJobManager (pool : Pool machines) (counter : Nat) : JobManager J machines where
  jobs _ := StateMachine.init .notExecuted
  jobMachines _ := []
  ids _ := 0
  counter := counter + 1
  allJobs := []
  readyJobs := []
  executers := []
  mapping _ := none
  pool := pool
  exitRequest := false
  thread := .notStarted
  assertionFailed := false

def JobManager.isReady (setup : JobSetup J) (manager : JobManager J machines) (job : J) : Bool :=
  (setup.predecessors job).all fun pred => decide (manager.status pred = .succeeded)

-- Nobody else can take the lock while the thread empties the queue.
def JobManager.lockFree (manager : JobManager J machines) : Bool := manager.thread != .draining

def ThreadPoint.notify : ThreadPoint → ThreadPoint
  | .waiting _ => .waiting true
  | other => other

def JobManager.notifyAll (manager : JobManager J machines) : JobManager J machines :=
  { manager with thread := manager.thread.notify }

def JobManager.setExecuter (manager : JobManager J machines) (index : Nat) (executer : Executer J machines) :
    JobManager J machines :=
  { manager with executers := manager.executers.set index executer }

-- KillJob is called with a job id by some callers and with a Job by others.
inductive JobKey (J : Type) where
  | id (number : Nat)
  | job (job : J)
deriving DecidableEq, Repr

-- job_id in job_executer_mapping: a Job is never equal to a number.
def JobManager.lookup (manager : JobManager J machines) : JobKey J → Option Nat
  | .id number => manager.mapping number
  | .job _ => none

-- job_.id == job_id
def JobManager.hasKey (manager : JobManager J machines) (job : J) : JobKey J → Bool
  | .id number => manager.ids job == number
  | .job _ => false

def JobManager.terminate (manager : JobManager J machines) (index : Nat) : JobManager J machines :=
  match manager.executers[index]? with
  | none => manager
  | some executer => manager.setExecuter index { executer with terminated := true }

def JobManager.kill (manager : JobManager J machines) (key : JobKey J) : JobManager J machines :=
  let killed := match manager.lookup key with
    | none => manager
    | some index => manager.terminate index
  { killed with readyJobs := killed.readyJobs.eraseP fun job => killed.hasKey job key }

-- All that a kill does: it terminates executers and takes jobs out of ready_jobs.
structure KillRelation (related : JobManager J machines → JobManager J machines → Prop) : Prop where
  refl : ∀ manager, related manager manager
  trans : ∀ first second third, related first second → related second third → related first third
  terminated : ∀ (manager : JobManager J machines) (index : Nat) (executer : Executer J machines),
    manager.executers[index]? = some executer → related manager (manager.setExecuter index { executer with terminated := true })
  unqueued : ∀ (manager : JobManager J machines) (ready : List J),
    ready.Sublist manager.readyJobs → related manager { manager with readyJobs := ready }

theorem kill_related (related : JobManager J machines → JobManager J machines → Prop) (kills : KillRelation related)
    (manager : JobManager J machines) (key : JobKey J) : related manager (manager.kill key) := by
  have terminate : ∀ index, related manager (manager.terminate index) := by
    intro index
    rw [JobManager.terminate]
    cases present : manager.executers[index]? with
    | none => exact kills.refl manager
    | some executer => exact kills.terminated manager index executer present
  rw [JobManager.kill]
  cases manager.lookup key with
  | none => exact kills.unqueued manager _ List.eraseP_sublist
  | some index => exact kills.trans _ _ _ (terminate index) (kills.unqueued _ _ List.eraseP_sublist)

theorem kill_all_related (related : JobManager J machines → JobManager J machines → Prop) (kills : KillRelation related)
    (jobs : List J) (manager : JobManager J machines) :
    related manager (jobs.foldl (fun killed job => JobManager.kill killed (.id (killed.ids job))) manager) := by
  induction jobs generalizing manager with
  | nil => exact kills.refl manager
  | cons job rest ih => exact kills.trans _ _ _ (kill_related related kills manager _) (ih _)

section

variable [DecidableEq J]

def JobManager.addJob (setup : JobSetup J) (manager : JobManager J machines) (job : J) : JobManager J machines :=
  let added := { manager with
    ids := Function.update manager.ids job manager.counter
    counter := manager.counter + 1
    allJobs := manager.allJobs ++ [job] }
  { added with readyJobs := if added.isReady setup job then added.readyJobs ++ [job] else added.readyJobs }.notifyAll

-- for succ in job_.successors: if succ.is_ready: if succ not in self.ready_jobs: ...
def JobManager.queueSuccessors (setup : JobSetup J) (manager : JobManager J machines) (job : J) : List J :=
  (setup.successors job).foldl (fun ready succ =>
    if manager.isReady setup succ ∧ succ ∉ ready then ready ++ [succ] else ready) manager.readyJobs

def JobManager.completeJob (setup : JobSetup J) (manager : JobManager J machines) (job : J) : JobManager J machines :=
  let queued := if manager.status job = JobStatus.succeeded then manager.queueSuccessors setup job else manager.readyJobs
  { manager with readyJobs := queued }.notifyAll

-- JobExecuter.run without its listeners; a JobFailure leads to STATUS_FAILED.
def jobOperations (setup : JobSetup J) (job : J) : List (ExecuterOperation J) :=
  ([.setStatus .setup, .command .cleanUpWorkDir, .command .prepareRuntimeEnvironment, .setStatus .copying] :
      List (ExecuterOperation J)) ++
    (setup.folderDependencies job).map (fun producer => ExecuterOperation.command (.satisfyFolderDependency producer)) ++
    ([.setStatus .running, .getCommand, .command .launchJobCommand, .command .copyJobResults, .setStatus .succeeded] :
      List (ExecuterOperation J))

def newExecuter (setup : JobSetup J) (job : J) (acquired : List (Fin machines)) : Executer J machines where
  job := job
  machines := acquired
  phase := .executing (jobOperations setup job)
  terminated := false
  notified := false

def JobManager.preferPredecessors (manager : JobManager J machines) (spec : MachineSpecification) :
    List J → Option MachineSpecification
  | [] => some spec
  | pred :: rest => match manager.jobMachines pred with
      | [] => none
      | primary :: _ => manager.preferPredecessors (spec.addPreferredMachine (manager.pool primary).hostname) rest

-- None is the IndexError of required_machines[0] or of a primary_machine. The names
-- added to the specification stay in it, but adding them again changes nothing.
def JobManager.requiredMachines (setup : JobSetup J) (manager : JobManager J machines) (job : J) :
    Option (List MachineSpecification) :=
  match setup.predecessors job, setup.machineDependencies job with
  | [], specs => some specs
  | _ :: _, [] => none
  | preds, spec :: specs => (manager.preferPredecessors spec preds).map (· :: specs)

def JobManager.startJob (setup : JobSetup J) (manager : JobManager J machines) (job : J) (acquired : List (Fin machines)) :
    JobManager J machines :=
  { manager with
    executers := manager.executers ++ [newExecuter setup job acquired]
    mapping := Function.update manager.mapping (manager.ids job) (some manager.executers.length) }

-- One round of `while self.ready_jobs`; leaving the loop leaves the lock.
def JobManager.drain (setup : JobSetup J) (manager : JobManager J machines) : JobManager J machines :=
  match manager.readyJobs.getLast? with
  | none => { manager with thread := .testing }
  | some job =>
      let popped := { manager with readyJobs := manager.readyJobs.dropLast }
      match manager.requiredMachines setup job with
      | none => { popped with thread := .crashed }
      | some specs => match getMachines manager.pool specs with
          | .error _ => { popped with thread := .crashed, assertionFailed := true }
          | .ok (pool, []) => { popped with pool := pool, readyJobs := job :: popped.readyJobs, thread := .testing }
          | .ok (pool, acquired) => { popped with pool := pool }.startJob setup job acquired

def JobManager.run (setup : JobSetup J) (manager : JobManager J machines) : Option (JobManager J machines) :=
  match manager.thread with
  | .testing => some { manager with thread := if manager.exitRequest then .stopped else .locking }
  | .locking => some { manager with thread := .waiting false }
  | .waiting true => some { manager with thread := .draining }
  | .draining => some (manager.drain setup)
  | _ => none

def JobManager.stop (manager : JobManager J machines) : JobManager J machines :=
  let killed := manager.allJobs.foldl (fun killed job => JobManager.kill killed (.id (killed.ids job))) manager
  { killed with exitRequest := true }.notifyAll

def JobManager.setStatus (manager : JobManager J machines) (index : Nat) (executer : Executer J machines)
    (status : JobStatus) (rest : List (ExecuterOperation J)) : JobManager J machines :=
  match (manager.jobs executer.job).change jobTransitions status with
  | none => { manager.setExecuter index { executer with phase := .died } with assertionFailed := true }
  | some changed => { manager.setExecuter index { executer with phase := .executing rest } with
      jobs := Function.update manager.jobs executer.job changed
      jobMachines := if status = .setup then Function.update manager.jobMachines executer.job executer.machines
        else manager.jobMachines }

def JobManager.execute (setup : JobSetup J) (manager : JobManager J machines) (index : Nat) (exitCode : Int)
    (timedOut : Bool) : Option (JobManager J machines) :=
  match manager.executers[index]? with
  | none => none
  | some executer => match executer.phase with
      | .executing (.setStatus status :: rest) => some (manager.setStatus index executer status rest)
      -- Where there is no text the exception ends the thread, which takes no step any more.
      | .executing (.getCommand :: rest) =>
          (setup.commandText executer.job).map fun _ => manager.setExecuter index { executer with phase := .executing rest }
      | .executing (.command _ :: rest) =>
          let result := runCommand (setup.dryRun executer.job) executer.terminated exitCode timedOut
          some (manager.setExecuter index { executer with
            terminated := result.terminated
            phase := .executing (if result.exitCode = 0 then rest else [.setStatus .failed]) })
      | _ => none

def JobManager.returnJobMachines (manager : JobManager J machines) (index : Nat) : Option (JobManager J machines) :=
  match manager.executers[index]? with
  | none => none
  | some executer => match executer.phase with
      | .executing [] => match returnMachines manager.pool (manager.jobMachines executer.job) with
          | .error _ => some { manager.setExecuter index { executer with phase := .died } with assertionFailed := true }
          | .ok pool => some { manager.setExecuter index { executer with phase := .notifying } with pool := pool }
      | _ => none

def JobManager.notifyJobComplete (setup : JobSetup J) (manager : JobManager J machines) (index : Nat) :
    Option (JobManager J machines) :=
  match manager.executers[index]? with
  | none => none
  | some executer => match executer.phase with
      | .notifying => some ((manager.setExecuter index { executer with phase := .informing, notified := true }).completeJob
          setup executer.job)
      | _ => none

-- JobExecuter.CleanUpWorkDir of a job's own executer; false is an exception, from a
-- job without a primary machine or a command that failed.
def JobManager.cleanUpJob (setup : JobSetup J) (manager : JobManager J machines) (job : J) (exitCode : Int)
    (timedOut : Bool) : JobManager J machines × Bool :=
  match manager.mapping (manager.ids job) with
  | none => (manager, true)
  | some index => match manager.executers[index]? with
      | none => (manager, true)
      | some executer =>
          if manager.jobMachines executer.job = [] then (manager, false)
          else
            let result := runCommand (setup.dryRun executer.job) executer.terminated exitCode timedOut
            let cleaned := manager.setExecuter index { executer with terminated := result.terminated }
            if result.exitCode = 0 then
              ({ cleaned with mapping := Function.update cleaned.mapping (cleaned.ids job) none }, true)
            else (cleaned, false)

inductive JobAction (J : Type) where
  | startJobManager
  | stopJobManager
  | addJob (job : J)
  | killJob (key : JobKey J)
  | run
  | execute (index : Nat) (exitCode : Int) (timedOut : Bool)
  | returnJobMachines (index : Nat)
  | notifyJobComplete (index : Nat)
deriving DecidableEq, Repr

def JobManager.step (setup : JobSetup J) (manager : JobManager J machines) : JobAction J → Option (JobManager J machines)
  | .startJobManager => if manager.thread = .notStarted then some { manager with thread := .testing }.notifyAll else none
  | .stopJobManager => if manager.lockFree then some manager.stop else none
  | .addJob job => if manager.lockFree then some (manager.addJob setup job) else none
  | .killJob key => if manager.lockFree then some (manager.kill key) else none
  | .run => manager.run setup
  | .execute index exitCode timedOut => manager.execute setup index exitCode timedOut
  | .returnJobMachines index => manager.returnJobMachines index
  | .notifyJobComplete index => if manager.lockFree then manager.notifyJobComplete setup index else none

-- What an executer that goes on does, said once for all invariants.
inductive Executed (setup : JobSetup J) (manager : JobManager J machines) (index : Nat) (exitCode : Int) (timedOut : Bool) :
    JobManager J machines → Prop where
  | status (executer : Executer J machines) (status : JobStatus) (rest : List (ExecuterOperation J))
      (present : manager.executers[index]? = some executer) (phase : executer.phase = .executing (.setStatus status :: rest)) :
      Executed setup manager index exitCode timedOut (manager.setStatus index executer status rest)
  | got (executer : Executer J machines) (rest : List (ExecuterOperation J)) (text : String)
      (present : manager.executers[index]? = some executer) (phase : executer.phase = .executing (.getCommand :: rest))
      (written : setup.commandText executer.job = some text) :
      Executed setup manager index exitCode timedOut (manager.setExecuter index { executer with phase := .executing rest })
  | command (executer : Executer J machines) (command : JobCommand J) (rest : List (ExecuterOperation J))
      (present : manager.executers[index]? = some executer) (phase : executer.phase = .executing (.command command :: rest)) :
      Executed setup manager index exitCode timedOut (manager.setExecuter index { executer with
        terminated := (runCommand (setup.dryRun executer.job) executer.terminated exitCode timedOut).terminated
        phase := .executing
          (if (runCommand (setup.dryRun executer.job) executer.terminated exitCode timedOut).exitCode = 0 then rest
          else [.setStatus .failed]) })

theorem execute_cases (setup : JobSetup J) (manager next : JobManager J machines) (index : Nat) (exitCode : Int)
    (timedOut : Bool) (taken : manager.execute setup index exitCode timedOut = some next) :
    Executed setup manager index exitCode timedOut next := by
  rw [JobManager.execute] at taken
  split at taken
  · cases taken
  · next executer present =>
      split at taken
      · next status rest phase =>
          cases taken
          exact .status executer status rest present phase
      · next rest phase =>
          obtain ⟨text, written, rfl⟩ := Option.map_eq_some_iff.mp taken
          exact .got executer rest text present phase written
      · next command rest phase =>
          cases taken
          exact .command executer command rest present phase
      · cases taken

omit [DecidableEq J] in
theorem return_job_machines_cases (manager next : JobManager J machines) (index : Nat)
    (taken : manager.returnJobMachines index = some next) :
    ∃ executer, manager.executers[index]? = some executer ∧ executer.phase = .executing [] ∧
      ((∃ failure, returnMachines manager.pool (manager.jobMachines executer.job) = .error failure ∧
          next = { manager.setExecuter index { executer with phase := .died } with assertionFailed := true }) ∨
        ∃ pool, returnMachines manager.pool (manager.jobMachines executer.job) = .ok pool ∧
          next = { manager.setExecuter index { executer with phase := .notifying } with pool := pool }) := by
  rw [JobManager.returnJobMachines] at taken
  split at taken
  · cases taken
  · next executer present =>
      split at taken
      · next phase =>
          refine ⟨executer, present, phase, ?_⟩
          split at taken
          · next failure result =>
              cases taken
              exact .inl ⟨failure, result, rfl⟩
          · next pool result =>
              cases taken
              exact .inr ⟨pool, result, rfl⟩
      · cases taken

theorem notify_job_complete_cases (setup : JobSetup J) (manager next : JobManager J machines) (index : Nat)
    (taken : manager.notifyJobComplete setup index = some next) :
    ∃ executer, manager.executers[index]? = some executer ∧ executer.phase = .notifying ∧
      next = (manager.setExecuter index { executer with phase := .informing, notified := true }).completeJob setup executer.job := by
  rw [JobManager.notifyJobComplete] at taken
  split at taken
  · cases taken
  · next executer present =>
      split at taken
      · next phase =>
          cases taken
          exact ⟨executer, present, phase, rfl⟩
      · cases taken

omit [DecidableEq J] in
theorem run_cases (setup : JobSetup J) (manager next : JobManager J machines) (taken : manager.run setup = some next) :
    (∃ thread, next = { manager with thread := thread }) ∨ manager.thread = .draining ∧ next = manager.drain setup := by
  rw [JobManager.run] at taken
  split at taken
  · cases taken
    exact .inl ⟨_, rfl⟩
  · cases taken
    exact .inl ⟨_, rfl⟩
  · cases taken
    exact .inl ⟨_, rfl⟩
  · next draining =>
      cases taken
      exact .inr ⟨draining, rfl⟩
  · cases taken

-- No executer to clean up after, no primary machine, or a command that ran.
inductive CleanedUp (setup : JobSetup J) (manager : JobManager J machines) (job : J) (exitCode : Int) (timedOut : Bool) :
    JobManager J machines × Bool → Prop where
  | absent : CleanedUp setup manager job exitCode timedOut (manager, true)
  | homeless (index : Nat) (executer : Executer J machines) (found : manager.mapping (manager.ids job) = some index)
      (present : manager.executers[index]? = some executer) (none_left : manager.jobMachines executer.job = []) :
      CleanedUp setup manager job exitCode timedOut (manager, false)
  | ran (index : Nat) (executer : Executer J machines) (mapping : Nat → Option Nat) (succeeded : Bool)
      (found : manager.mapping (manager.ids job) = some index) (present : manager.executers[index]? = some executer)
      (result : succeeded = false →
        (runCommand (setup.dryRun executer.job) executer.terminated exitCode timedOut).exitCode ≠ 0) :
      CleanedUp setup manager job exitCode timedOut ({ manager.setExecuter index { executer with
        terminated := (runCommand (setup.dryRun executer.job) executer.terminated exitCode timedOut).terminated } with
        mapping := mapping }, succeeded)

omit [DecidableEq J] in
theorem clean_up_job_cases (setup : JobSetup J) (manager : JobManager J machines) (job : J) (exitCode : Int) (timedOut : Bool) :
    CleanedUp setup manager job exitCode timedOut (manager.cleanUpJob setup job exitCode timedOut) := by
  rw [JobManager.cleanUpJob]
  split
  · exact .absent
  · next index found =>
      split
      · exact .absent
      · next executer present =>
          split
          · next none_left => exact .homeless index executer found present none_left
          · dsimp only
            split
            · exact .ran index executer _ true found present nofun
            · next failed => exact .ran index executer _ false found present fun _ => failed

-- The actions with their guards taken off.
inductive Stepped (setup : JobSetup J) (manager : JobManager J machines) : JobAction J → JobManager J machines → Prop where
  | started (notStarted : manager.thread = .notStarted) :
      Stepped setup manager .startJobManager { manager with thread := .testing }.notifyAll
  | stopped : Stepped setup manager .stopJobManager manager.stop
  | added (job : J) : Stepped setup manager (.addJob job) (manager.addJob setup job)
  | killed (key : JobKey J) : Stepped setup manager (.killJob key) (manager.kill key)
  | ran (next : JobManager J machines) (taken : manager.run setup = some next) : Stepped setup manager .run next
  | executed (index : Nat) (exitCode : Int) (timedOut : Bool) (next : JobManager J machines)
      (taken : manager.execute setup index exitCode timedOut = some next) :
      Stepped setup manager (.execute index exitCode timedOut) next
  | returned (index : Nat) (next : JobManager J machines) (taken : manager.returnJobMachines index = some next) :
      Stepped setup manager (.returnJobMachines index) next
  | notified (index : Nat) (next : JobManager J machines) (taken : manager.notifyJobComplete setup index = some next) :
      Stepped setup manager (.notifyJobComplete index) next

theorem step_cases (setup : JobSetup J) (manager : JobManager J machines) (action : JobAction J) (next : JobManager J machines)
    (taken : manager.step setup action = some next) : Stepped setup manager action next := by
  cases action with
  | startJobManager =>
      simp only [JobManager.step, Option.ite_none_right_eq_some, Option.some.injEq] at taken
      obtain ⟨notStarted, rfl⟩ := taken
      exact .started notStarted
  | stopJobManager =>
      simp only [JobManager.step, Option.ite_none_right_eq_some, Option.some.injEq] at taken
      obtain ⟨_, rfl⟩ := taken
      exact .stopped
  | addJob job =>
      simp only [JobManager.step, Option.ite_none_right_eq_some, Option.some.injEq] at taken
      obtain ⟨_, rfl⟩ := taken
      exact .added job
  | killJob key =>
      simp only [JobManager.step, Option.ite_none_right_eq_some, Option.some.injEq] at taken
      obtain ⟨_, rfl⟩ := taken
      exact .killed key
  | run => exact .ran next taken
  | execute index exitCode timedOut => exact .executed index exitCode timedOut next taken
  | returnJobMachines index => exact .returned index next taken
  | notifyJobComplete index =>
      simp only [JobManager.step, Option.ite_none_right_eq_some] at taken
      exact .notified index next taken.2

end

end ToolchainUtils.Automation
