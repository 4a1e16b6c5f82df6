set_option autoImplicit false

namespace ToolchainUtils.Automation

-- BasicStateMachine; the timeline has every state that was entered.
structure StateMachine (S : Type) where
  current : S
  timeline : List S
deriving DecidableEq, Repr

section

variable {S : Type} [DecidableEq S]

def StateMachine.init (initial : S) : StateMachine S := { current := initial, timeline := [initial] }

-- None is the failed assertion 'Transition from %s to %s not possible'.
def StateMachine.change (transitions : S → List S) (machine : StateMachine S) (newState : S) : Option (StateMachine S) :=
  if newState ∈ transitions machine.current then
    some { current := newState, timeline := machine.timeline ++ [newState] }
  else none

theorem change_some (transitions : S → List S) (machine next : StateMachine S) (newState : S)
    (changed : machine.change transitions newState = some next) :
    newState ∈ transitions machine.current ∧ next = { current := newState, timeline := machine.timeline ++ [newState] } := by
  unfold StateMachine.change at changed
  split at changed
  · next allowed => exact ⟨allowed, (Option.some.inj changed).symm⟩
  · cases changed

theorem change_allowed (transitions : S → List S) (machine : StateMachine S) (newState : S)
    (allowed : newState ∈ transitions machine.current) :
    machine.change transitions newState = some { current := newState, timeline := machine.timeline ++ [newState] } := by
  rw [StateMachine.change, if_pos allowed]

end

inductive JobStatus where
  | notExecuted
  | setup
  | copying
  | running
  | succeeded
  | failed
deriving DecidableEq, Repr

def jobTransitions : JobStatus → List JobStatus
  | .notExecuted => [.setup]
  | .setup => [.copying, .failed]
  | .copying => [.running, .failed]
  | .running => [.succeeded, .failed]
  | .succeeded => []
  | .failed => []

inductive GroupStatus where
  | notExecuted
  | executing
  | succeeded
  | failed
deriving DecidableEq, Repr

def groupTransitions : GroupStatus → List GroupStatus
  | .notExecuted => [.executing]
  | .executing => [.succeeded, .failed]
  | .succeeded => []
  | .failed => []

-- The commands of JobExecuter, by what they are run for.
inductive JobCommand (J : Type) where
  | cleanUpWorkDir
  | prepareRuntimeEnvironment
  | satisfyFolderDependency (producer : J)
  | launchJobCommand
  | copyJobResults
deriving DecidableEq, Repr

-- The exit code of CommandExecuter.RunCommand, whether a child process was spawned,
-- and the terminator afterwards: a timeout sets it too.
structure CommandResult where
  exitCode : Int
  spawned : Bool
  terminated : Bool
deriving DecidableEq, Repr

def runCommand (dryRun terminated : Bool) (exitCode : Int) (timedOut : Bool) : CommandResult :=
  if dryRun then { exitCode := 0, spawned := false, terminated := terminated }
  else if terminated then { exitCode := 1, spawned := false, terminated := true }
  else { exitCode := exitCode, spawned := true, terminated := timedOut }

theorem run_command_terminated (dryRun : Bool) (exitCode : Int) (timedOut : Bool) :
    (runCommand dryRun true exitCode timedOut).spawned = false ∧
      (runCommand dryRun true exitCode timedOut).terminated = true := by
  cases dryRun <;> exact ⟨rfl, rfl⟩

end ToolchainUtils.Automation
