import ToolchainUtils.Automation.JobProgress

set_option autoImplicit false

namespace ToolchainUtils.Automation

variable {J : Type} {machines : Nat}

-- What RunCommand comes back with: the exit code of a child, the 1 of a terminated
-- executer, or an exception such as the OSError of Popen.
inductive CommandOutcome where
  | returned (exitCode : Int)
  | raised
deriving DecidableEq, Repr

-- How JobExecuter.run gets to CloseLog; `escaped` says that it does not.
structure BodyEnd where
  status : StateMachine JobStatus
  escaped : Bool
deriving DecidableEq, Repr

-- _RunRemotely and _RunLocally turn an exit code other than 0 into a JobFailure, the only
-- exception that run catches. GetCommand may raise a TypeError.
def runBody (commandText : Option String) :
    List (ExecuterOperation J) → (Nat → CommandOutcome) → StateMachine JobStatus → BodyEnd
  | [], _, status => { status := status, escaped := false }
  | .setStatus newStatus :: rest, outcomes, status => match status.change jobTransitions newStatus with
      | none => { status := status, escaped := true }
      | some changed => runBody commandText rest outcomes changed
  | .getCommand :: rest, outcomes, status => match commandText with
      | none => { status := status, escaped := true }
      | some _ => runBody commandText rest outcomes status
  | .command _ :: rest, outcomes, status => match outcomes 0 with
      | .raised => { status := status, escaped := true }
      | .returned exitCode =>
          if exitCode = 0 then runBody commandText rest (fun n => outcomes (n + 1)) status
          else match status.change jobTransitions .failed with
            | none => { status := status, escaped := true }
            | some changed => { status := changed, escaped := false }

-- JobManager appends itself first, JobGroupManager adds itself later.
inductive Listener where
  | jobManager
  | jobGroupManager
deriving DecidableEq, Repr

def listeners : List Listener := [.jobManager, .jobGroupManager]

structure ExecuterThread (machines : Nat) where
  status : StateMachine JobStatus
  pool : Pool machines
  notified : List Listener

-- A listener that raises ends the loop. JobManager's begins with ReturnMachines, and
-- nothing after that can raise; JobGroupManager's may.
def notifyListeners (handed : List (Fin machines)) (groupRaised : Bool) :
    List Listener → ExecuterThread machines → ExecuterThread machines
  | [], thread => thread
  | .jobManager :: rest, thread =>
      let called := { thread with notified := thread.notified ++ [.jobManager] }
      match returnMachines called.pool handed with
      | .error _ => called
      | .ok pool => notifyListeners handed groupRaised rest { called with pool := pool }
  | .jobGroupManager :: rest, thread =>
      let called := { thread with notified := thread.notified ++ [.jobGroupManager] }
      if groupRaised then called else notifyListeners handed groupRaised rest called

def jobExecuterRun (setup : JobSetup J) (job : J) (status : StateMachine JobStatus) (handed : List (Fin machines))
    (pool : Pool machines) (outcomes : Nat → CommandOutcome) (groupRaised : Bool) : ExecuterThread machines :=
  let ended := runBody (setup.commandText job) (jobOperations setup job) outcomes status
  let thread : ExecuterThread machines := { status := ended.status, pool := pool, notified := [] }
  if ended.escaped then thread else notifyListeners handed groupRaised listeners thread

-- Every machine is released as often as it was handed to the executer.
structure EndsWell (handed : List (Fin machines)) (pool : Pool machines) (thread : ExecuterThread machines) : Prop where
  released : ∀ mach, (pool mach).uses = (thread.pool mach).uses + handed.count mach
  final : thread.status.current = .succeeded ∨ thread.status.current = .failed
  notified : ∀ listener ∈ listeners, thread.notified.count listener = 1

-- The commands are issued one after another as long as they return 0.
def NoneRaises (count : Nat) (outcomes : Nat → CommandOutcome) : Prop :=
  ∀ n < count, (∀ m < n, outcomes m = .returned 0) → outcomes n ≠ .raised

theorem none_raises_zero (outcomes : Nat → CommandOutcome) : NoneRaises 0 outcomes := by
  intro n none_left
  omega

theorem none_raises_succ (count : Nat) (outcomes : Nat → CommandOutcome) :
    NoneRaises (count + 1) outcomes ↔
      outcomes 0 ≠ .raised ∧ (outcomes 0 = .returned 0 → NoneRaises count fun n => outcomes (n + 1)) := by
  constructor
  · intro none_raises
    refine ⟨none_raises 0 (by omega) (by omega), fun first n less before => none_raises (n + 1) (by omega) fun m earlier => ?_⟩
    cases m with
    | zero => exact first
    | succ m => exact before m (by omega)
  · rintro ⟨first, later⟩ n less before
    cases n with
    | zero => exact first
    | succ n => exact later (before 0 (by omega)) n (by omega) fun m earlier => before (m + 1) (by omega)

def commandCount : List (ExecuterOperation J) → Nat
  | [] => 0
  | .setStatus _ :: rest => commandCount rest
  | .getCommand :: rest => commandCount rest
  | .command _ :: rest => commandCount rest + 1

theorem command_count_append (first second : List (ExecuterOperation J)) :
    commandCount (first ++ second) = commandCount first + commandCount second := by
  induction first with
  | nil => simp [commandCount]
  | cons operation rest ih =>
      cases operation with
      | setStatus status | getCommand => exact ih
      | command command =>
          simp only [List.cons_append, commandCount, ih]
          omega

theorem command_count_commands (commands : List (JobCommand J)) : commandCount (commands.map .command) = commands.length := by
  induction commands with
  | nil => rfl
  | cons command rest ih => simp [commandCount, ih]

theorem job_operations_commands (setup : JobSetup J) (job : J) :
    commandCount (jobOperations setup job) = (setup.folderDependencies job).length + 4 := by
  have copied := command_count_commands ((setup.folderDependencies job).map JobCommand.satisfyFolderDependency)
  rw [List.map_map, List.length_map] at copied
  simp only [jobOperations, command_count_append, commandCount]
  change 2 + commandCount ((setup.folderDependencies job).map (ExecuterOperation.command ∘ JobCommand.satisfyFolderDependency)) + 2 = _
  rw [copied]
  omega

-- GetCommand comes when every command before it has returned 0.
def Gets (commandText : Option String) : List (ExecuterOperation J) → (Nat → CommandOutcome) → Prop
  | [], _ => True
  | .setStatus _ :: rest, outcomes => Gets commandText rest outcomes
  | .getCommand :: rest, outcomes => commandText.isSome = true ∧ Gets commandText rest outcomes
  | .command _ :: rest, outcomes => outcomes 0 = .returned 0 → Gets commandText rest fun n => outcomes (n + 1)

-- As long as every status may follow the one before it, only an exception escapes.
theorem run_body_remaining (commandText : Option String) (operations : List (ExecuterOperation J))
    (outcomes : Nat → CommandOutcome) (status : StateMachine JobStatus) (remaining : Remaining status.current operations) :
    ((runBody commandText operations outcomes status).escaped = false ↔
        NoneRaises (commandCount operations) outcomes ∧ Gets commandText operations outcomes) ∧
      ((runBody commandText operations outcomes status).escaped = false →
        (runBody commandText operations outcomes status).status.current = .succeeded ∨
          (runBody commandText operations outcomes status).status.current = .failed) := by
  induction operations generalizing outcomes status with
  | nil => exact ⟨⟨fun _ => ⟨none_raises_zero outcomes, trivial⟩, fun _ => rfl⟩, fun _ => remaining⟩
  | cons operation rest ih =>
      cases operation with
      | setStatus newStatus =>
          obtain ⟨allowed, later⟩ := remaining
          simp only [runBody, commandCount, Gets, change_allowed jobTransitions status newStatus allowed]
          exact ih outcomes _ later
      | getCommand =>
          cases written : commandText with
          | none => simp [runBody, Gets]
          | some text =>
              simp only [written] at ih
              simpa [runBody, commandCount, Gets] using ih outcomes status remaining
      | command command =>
          obtain ⟨fails, later⟩ := remaining
          rw [commandCount, none_raises_succ, Gets]
          cases first : outcomes 0 with
          | raised => simp [runBody, first]
          | returned exitCode =>
              by_cases done : exitCode = 0
              · subst done
                simp only [runBody, first, if_true]
                obtain ⟨escapes, ends⟩ := ih (fun n => outcomes (n + 1)) status later
                exact ⟨escapes.trans (by simp), ends⟩
              · simp [runBody, first, done, change_allowed jobTransitions status .failed fails]

theorem run_body_started_before (setup : JobSetup J) (job : J) (commandText : Option String) (outcomes : Nat → CommandOutcome)
    (status : StateMachine JobStatus) (started : status.current ≠ .notExecuted) :
    (runBody commandText (jobOperations setup job) outcomes status).escaped = true := by
  have refused : status.change jobTransitions .setup = none := by
    rw [StateMachine.change, if_neg]
    cases current : status.current <;> simp_all [jobTransitions]
  simp [jobOperations, runBody, refused]

theorem gets_commands (commandText : Option String) (commands : List (JobCommand J)) (rest : List (ExecuterOperation J))
    (outcomes : Nat → CommandOutcome) :
    Gets commandText (commands.map .command ++ rest) outcomes ↔
      ((∀ n < commands.length, outcomes n = .returned 0) → Gets commandText rest fun n => outcomes (n + commands.length)) := by
  induction commands generalizing outcomes with
  | nil => simp
  | cons command others ih =>
      rw [List.map_cons, List.cons_append, Gets, ih, List.length_cons]
      have shifted : (fun n => outcomes (n + others.length + 1)) = fun n => outcomes (n + (others.length + 1)) := rfl
      rw [shifted, Nat.forall_lt_succ_left, and_imp]

-- Two commands come before the copies.
theorem job_operations_gets (setup : JobSetup J) (job : J) (commandText : Option String) (outcomes : Nat → CommandOutcome) :
    Gets commandText (jobOperations setup job) outcomes ↔
      ((∀ n < (setup.folderDependencies job).length + 2, outcomes n = .returned 0) → commandText.isSome = true) := by
  have copied := gets_commands commandText ((setup.folderDependencies job).map JobCommand.satisfyFolderDependency)
    [.setStatus .running, .getCommand, .command .launchJobCommand, .command .copyJobResults, .setStatus .succeeded]
    fun n => outcomes (n + 1 + 1)
  rw [List.map_map, List.length_map] at copied
  simp only [Gets, implies_true, and_true] at copied
  simp only [jobOperations, List.cons_append, List.nil_append, Gets]
  rw [Nat.forall_lt_succ_left, Nat.forall_lt_succ_left, and_imp, and_imp]
  exact imp_congr_right fun _ => imp_congr_right fun _ => copied

-- Machines in use at least as often as they are given back can all be released.
theorem return_machines_uses (pool : Pool machines) (handed : List (Fin machines))
    (used : ∀ mach, handed.count mach ≤ (pool mach).uses) :
    ∃ after, returnMachines pool handed = .ok after ∧ ∀ mach, (pool mach).uses = (after mach).uses + handed.count mach := by
  induction handed generalizing pool with
  | nil => exact ⟨pool, rfl, fun _ => rfl⟩
  | cons first rest ih =>
      have inUse : (pool first).uses ≠ 0 := by
        have counted := used first
        rw [List.count_cons_self] at counted
        omega
      have counts : ∀ mach, (pool mach).uses = (released pool first mach).uses + if mach = first then 1 else 0 := by
        intro mach
        by_cases same : mach = first
        · subst same
          simp only [released_same, if_true]
          omega
        · rw [released_other pool first mach same, if_neg same]
          rfl
      have left : ∀ mach, rest.count mach ≤ (released pool first mach).uses := by
        intro mach
        have counted := used mach
        rw [counts mach, List.count_cons] at counted
        by_cases same : mach = first
        · subst same
          simp only [beq_self_eq_true, if_true] at counted
          omega
        · rw [if_neg same] at counted
          omega
      obtain ⟨after, done, uses⟩ := ih (released pool first) left
      refine ⟨after, (return_machines_cons pool first rest inUse).trans done, fun mach => ?_⟩
      rw [counts mach, uses mach, List.count_cons]
      by_cases same : mach = first
      · subst same
        simp only [beq_self_eq_true, if_true]
        omega
      · simp [same, Ne.symm same]

theorem notify_listeners_all (handed : List (Fin machines)) (groupRaised : Bool) (thread : ExecuterThread machines) (after : Pool machines)
    (returned : returnMachines thread.pool handed = .ok after) :
    notifyListeners handed groupRaised listeners thread =
      { thread with pool := after, notified := thread.notified ++ [.jobManager] ++ [.jobGroupManager] } := by
  simp only [listeners, notifyListeners, returned]
  cases groupRaised <;> rfl

-- The executer of a job that was started before dies at once.
theorem job_executer_ends_well_iff (setup : JobSetup J) (job : J) (status : StateMachine JobStatus) (handed : List (Fin machines))
    (pool : Pool machines) (outcomes : Nat → CommandOutcome) (groupRaised : Bool) (some_machine : handed ≠ [])
    (used : ∀ mach, handed.count mach ≤ (pool mach).uses) :
    EndsWell handed pool (jobExecuterRun setup job status handed pool outcomes groupRaised) ↔
      status.current = .notExecuted ∧
        (∀ n < (setup.folderDependencies job).length + 4, (∀ m < n, outcomes m = .returned 0) → outcomes n ≠ .raised) ∧
          ((∀ n < (setup.folderDependencies job).length + 2, outcomes n = .returned 0) →
            (setup.commandText job).isSome = true) := by
  have unreleased : (runBody (setup.commandText job) (jobOperations setup job) outcomes status).escaped = true →
      ¬ EndsWell handed pool (jobExecuterRun setup job status handed pool outcomes groupRaised) := by
    intro escaped well
    obtain ⟨mach, member⟩ := List.exists_mem_of_ne_nil handed some_machine
    have counted := List.count_pos_iff.mpr member
    have kept := well.released mach
    simp only [jobExecuterRun, escaped, if_true] at kept
    omega
  by_cases fresh : status.current = .notExecuted
  · obtain ⟨escapes, ends⟩ := run_body_remaining (setup.commandText job) (jobOperations setup job) outcomes status
      (fresh ▸ job_operations_remaining setup job)
    rw [job_operations_commands, job_operations_gets] at escapes
    cases escaped : (runBody (setup.commandText job) (jobOperations setup job) outcomes status).escaped with
    | true =>
        refine ⟨fun well => absurd well (unreleased escaped), fun conditions => ?_⟩
        have contained := escapes.mpr conditions.2
        rw [escaped] at contained
        cases contained
    | false =>
        refine ⟨fun _ => ⟨fresh, escapes.mp escaped⟩, fun _ => ?_⟩
        obtain ⟨after, returned, uses⟩ := return_machines_uses pool handed used
        simp only [jobExecuterRun, escaped, Bool.false_eq_true, if_false]
        rw [notify_listeners_all handed groupRaised _ after returned]
        exact ⟨uses, ends escaped, fun listener _ => by cases listener <;> rfl⟩
  · exact ⟨fun well => absurd well (unreleased (run_body_started_before setup job _ outcomes status fresh)),
      fun conditions => absurd conditions.1 fresh⟩

-- Popen raises for the first command.
theorem raising_command_keeps_machine :
    ¬ EndsWell [0] (acquired linuxBox 0 false) (jobExecuterRun twoPredecessors 0 (StateMachine.init .notExecuted) [0]
      (acquired linuxBox 0 false) (fun _ => .raised) false) := by
  intro well
  exact absurd (well.released 0) (by decide)

theorem failing_command_ends_well :
    EndsWell [0] (acquired linuxBox 0 false) (jobExecuterRun twoPredecessors 0 (StateMachine.init .notExecuted) [0]
      (acquired linuxBox 0 false) (fun _ => .returned 255) false) :=
  (job_executer_ends_well_iff twoPredecessors 0 (StateMachine.init .notExecuted) [0] (acquired linuxBox 0 false)
    (fun _ => .returned 255) false (by decide) (by decide)).mpr ⟨rfl, by simp, fun _ => rfl⟩

end ToolchainUtils.Automation
