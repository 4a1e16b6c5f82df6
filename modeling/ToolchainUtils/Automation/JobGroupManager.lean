import ToolchainUtils.Transition
import ToolchainUtils.Automation.JobManager

set_option autoImplicit false

namespace ToolchainUtils.Automation

-- Groups as clients build them: JobGroup.AddJob sets both directions.
structure GroupSetup (J G : Type) extends JobSetup J where
  jobs : G → List J
  group : J → G
  belongs : ∀ job among, job ∈ jobs among ↔ group job = among
  cleanupOnCompletion : G → Bool
  cleanupOnFailure : G → Bool

-- Who is inside `with self._lock`, and what is left of its loop over the jobs.
inductive GroupLock (J G : Type) where
  | free
  | adding (group : G) (rest : List J)
  | killing (group : G) (rest : List J)
  | cleaning (index : Nat)
deriving DecidableEq, Repr

-- What was queued and how many executers there were when a kill loop ended. No step reads it.
structure Kill (J G : Type) where
  group : G
  queued : List J
  executers : Nat
deriving DecidableEq, Repr

structure JobGroupManager (J G : Type) (machines : Nat) where
  jobManager : JobManager J machines
  groups : G → StateMachine GroupStatus
  allJobGroups : List G
  lock : GroupLock J G
  kills : List (Kill J G)
  assertionFailed : Bool

variable {J G : Type} {machines : Nat}

def newServer (pool : Pool machines) (counter : Nat) : JobGroupManager J G machines where
  jobManager := newJobManager pool counter
  groups _ := StateMachine.init .notExecuted
  allJobGroups := []
  lock := .free
  kills := []
  assertionFailed := false

def JobManager.setPhase (manager : JobManager J machines) (index : Nat) (phase : ExecuterPhase J) : JobManager J machines :=
  match manager.executers[index]? with
  | none => manager
  | some executer => manager.setExecuter index { executer with phase := phase }

def JobGroupManager.setPhase (server : JobGroupManager J G machines) (index : Nat) (phase : ExecuterPhase J) :
    JobGroupManager J G machines :=
  { server with jobManager := server.jobManager.setPhase index phase }

-- An uncaught AssertionError ends the executer's thread and leaves the lock.
def JobGroupManager.assertionFails (server : JobGroupManager J G machines) (index : Nat) : JobGroupManager J G machines :=
  { server.setPhase index .died with assertionFailed := true }

-- for other_job in group.jobs. The other executers go on meanwhile, but SUCCEEDED is
-- final and the first other status decides, so the loop sees what one look would.
def finished (status : J → JobStatus) : List J → Option Bool
  | [] => some true
  | otherJob :: rest =>
      if status otherJob = .failed then none
      else if status otherJob = .succeeded then finished status rest
      else some false

section

variable [DecidableEq G]

def JobManager.survivors (setup : GroupSetup J G) (manager : JobManager J machines) (group : G) : Kill J G where
  group := group
  queued := manager.readyJobs.filter fun job => setup.group job = group
  executers := manager.executers.length

def JobGroupManager.recordKill (setup : GroupSetup J G) (server : JobGroupManager J G machines) (group : G) :
    JobGroupManager J G machines :=
  { server with kills := server.kills ++ [server.jobManager.survivors setup group] }

def JobGroupManager.failGroup (setup : GroupSetup J G) (server : JobGroupManager J G machines) (index : Nat) (group : G) :
    JobGroupManager J G machines :=
  match (server.groups group).change groupTransitions .failed with
  | none =>
      let died := server.assertionFails index
      if setup.cleanupOnFailure group then died.recordKill setup group else died
  | some changed =>
      let failed := { server with groups := Function.update server.groups group changed }
      if setup.cleanupOnFailure group then
        { failed.setPhase index (.cleaning ((setup.jobs group).flatMap fun job => [.kill job, .cleanUp job])) with
          lock := .cleaning index }
      else failed.setPhase index .finished

def JobGroupManager.completeGroup (setup : GroupSetup J G) (server : JobGroupManager J G machines) (index : Nat) (group : G) :
    JobGroupManager J G machines :=
  match (server.groups group).change groupTransitions .succeeded with
  | none => server.assertionFails index
  | some changed =>
      let succeeded := { server with groups := Function.update server.groups group changed }
      if setup.cleanupOnCompletion group then
        { succeeded.setPhase index (.cleaning ((setup.jobs group).map .cleanUp)) with lock := .cleaning index }
      else succeeded.setPhase index .finished

def JobGroupManager.handle (setup : GroupSetup J G) (server : JobGroupManager J G machines) (index : Nat) (job : J) :
    JobGroupManager J G machines :=
  let group := setup.group job
  if (server.groups group).current = .failed then server.setPhase index .finished
  else if server.jobManager.status job = .failed then server.failGroup setup index group
  else if server.jobManager.status job = .succeeded then
    match finished server.jobManager.status (setup.jobs group) with
    | none => server.assertionFails index
    | some all =>
        if all ∧ (server.groups group).current ≠ .succeeded then server.completeGroup setup index group
        else server.setPhase index .finished
  else server.assertionFails index

def JobGroupManager.notifyJobComplete (setup : GroupSetup J G) (server : JobGroupManager J G machines) (index : Nat) :
    Option (JobGroupManager J G machines) :=
  match server.jobManager.executers[index]? with
  | none => none
  | some executer => match executer.phase, server.lock with
      | .informing, .free => some (server.handle setup index executer.job)
      | _, _ => none

-- The end of the loop, also by an exception: a kill if the job was reported as failed.
def JobGroupManager.leaveCleanUp (setup : GroupSetup J G) (server : JobGroupManager J G machines) (index : Nat) (job : J)
    (phase : ExecuterPhase J) : JobGroupManager J G machines :=
  let left := { server.setPhase index phase with lock := .free }
  if left.jobManager.status job = .failed then left.recordKill setup (setup.group job) else left

def JobGroupManager.cleanUp (setup : GroupSetup J G) (server : JobGroupManager J G machines) (index : Nat) (exitCode : Int)
    (timedOut : Bool) : Option (JobGroupManager J G machines) :=
  match server.jobManager.executers[index]? with
  | none => none
  | some executer => match executer.phase with
      | .cleaning [] => some (server.leaveCleanUp setup index executer.job .finished)
      | .cleaning (.kill job :: rest) =>
          if server.jobManager.lockFree then
            some { server with jobManager := (server.jobManager.kill (.job job)).setPhase index (.cleaning rest) }
          else none
      | .cleaning (.cleanUp job :: rest) =>
          if server.jobManager.lockFree then
            let result := server.jobManager.cleanUpJob setup.toJobSetup job exitCode timedOut
            let cleaned := { server with jobManager := result.1 }
            some (if result.2 then cleaned.setPhase index (.cleaning rest)
              else cleaned.leaveCleanUp setup index executer.job .died)
          else none
      | _ => none

variable [DecidableEq J]

def JobGroupManager.addJobGroup (setup : GroupSetup J G) (server : JobGroupManager J G machines) (group : G) :
    Option (JobGroupManager J G machines) :=
  match server.lock with
  | .free =>
      if group ∈ server.allJobGroups then none
      else some { server with allJobGroups := server.allJobGroups ++ [group], lock := .adding group (setup.jobs group) }
  | _ => none

def JobGroupManager.goOnAdding (setup : GroupSetup J G) (server : JobGroupManager J G machines) :
    Option (JobGroupManager J G machines) :=
  match server.lock with
  | .adding group (job :: rest) =>
      if server.jobManager.lockFree then
        some { server with jobManager := server.jobManager.addJob setup.toJobSetup job, lock := .adding group rest }
      else none
  | .adding group [] => match (server.groups group).change groupTransitions .executing with
      | none => some { server with lock := .free, assertionFailed := true }
      | some changed => some { server with groups := Function.update server.groups group changed, lock := .free }
  | _ => none

-- After its loop KillJobGroup only waits for the group's end, outside the lock.
def JobGroupManager.killJobGroup (setup : GroupSetup J G) (server : JobGroupManager J G machines) (group : G) :
    Option (JobGroupManager J G machines) :=
  match server.lock with
  | .free => some { server with lock := .killing group (setup.jobs group) }
  | _ => none

def JobGroupManager.goOnKilling (setup : GroupSetup J G) (server : JobGroupManager J G machines) :
    Option (JobGroupManager J G machines) :=
  match server.lock with
  | .killing group (job :: rest) =>
      if server.jobManager.lockFree then
        some { server with jobManager := server.jobManager.kill (.job job), lock := .killing group rest }
      else none
  | .killing group [] => some { server.recordKill setup group with lock := .free }
  | _ => none

-- AddJob and KillJob are only called by the group manager.
def JobAction.internal : JobAction J → Bool
  | .addJob _ => false
  | .killJob _ => false
  | _ => true

inductive GroupAction (J G : Type) where
  | jobManager (action : JobAction J)
  | addJobGroup (group : G)
  | goOnAdding
  | killJobGroup (group : G)
  | goOnKilling
  | notifyJobComplete (index : Nat)
  | cleanUp (index : Nat) (exitCode : Int) (timedOut : Bool)
deriving DecidableEq, Repr

def JobGroupManager.step (setup : GroupSetup J G) (server : JobGroupManager J G machines) :
    GroupAction J G → Option (JobGroupManager J G machines)
  | .jobManager action =>
      if action.internal then
        (server.jobManager.step setup.toJobSetup action).map fun next => { server with jobManager := next }
      else none
  | .addJobGroup group => server.addJobGroup setup group
  | .goOnAdding => server.goOnAdding setup
  | .killJobGroup group => server.killJobGroup setup group
  | .goOnKilling => server.goOnKilling setup
  | .notifyJobComplete index => server.notifyJobComplete setup index
  | .cleanUp index exitCode timedOut => server.cleanUp setup index exitCode timedOut

end

end ToolchainUtils.Automation
