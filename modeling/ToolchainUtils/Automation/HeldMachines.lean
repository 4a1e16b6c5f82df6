import ToolchainUtils.Automation.JobStarts
import ToolchainUtils.Automation.MachineHolders

set_option autoImplicit false

namespace ToolchainUtils.Automation

variable {J : Type} {machines : Nat}

-- The machines that an executer has not returned; one that died before it could
-- keeps them for good.
def Executer.holds (executer : Executer J machines) : Bool :=
  match executer.phase with
  | .executing _ => true
  | .died => !executer.notified
  | _ => false

def Executer.held (executer : Executer J machines) : List (Acquisition machines) :=
  if executer.holds then executer.machines.map (·, false) else []

def JobManager.held (manager : JobManager J machines) : List (Acquisition machines) := manager.executers.flatMap Executer.held

-- No executer is running or has yet to notify the job manager.
def JobManager.AllNotified (manager : JobManager J machines) : Prop := ∀ executer ∈ manager.executers, executer.notified = true

def PastSetup (operations : List (ExecuterOperation J)) : Prop := ∀ rest, operations ≠ .setStatus .setup :: rest

-- What an executer that is still executing can rely on.
structure ExecutesOn (manager : JobManager J machines) (executer : Executer J machines) : Prop where
  unnotified : ∀ operations, executer.phase = .executing operations → executer.notified = false
  machines : ∀ operations, executer.phase = .executing operations → PastSetup operations →
    manager.jobMachines executer.job = executer.machines ∧ manager.status executer.job ≠ .notExecuted

structure Outstanding (manager : JobManager J machines) : Prop where
  uses : UsesExact manager.pool manager.held
  executes : ∀ executer ∈ manager.executers, ExecutesOn manager executer

theorem executes_on_same (manager next : JobManager J machines) (executer : Executer J machines) (executes : ExecutesOn manager executer)
    (jobs : next.jobs = manager.jobs) (jobMachines : next.jobMachines = manager.jobMachines) : ExecutesOn next executer := by
  refine ⟨executes.unnotified, fun operations phase past => ?_⟩
  rw [jobMachines, JobManager.status, jobs]
  exact executes.machines operations phase past

-- Whatever a step does to the queue, the ids and the thread.
theorem outstanding_same (manager next : JobManager J machines) (outstanding : Outstanding manager)
    (executers : next.executers = manager.executers) (pool : next.pool = manager.pool) (jobs : next.jobs = manager.jobs)
    (jobMachines : next.jobMachines = manager.jobMachines) : Outstanding next := by
  have held : next.held = manager.held := by rw [JobManager.held, executers, JobManager.held]
  refine ⟨by rw [pool, held]; exact outstanding.uses, fun one member => ?_⟩
  rw [executers] at member
  exact executes_on_same manager next one (outstanding.executes one member) jobs jobMachines

theorem held_set_executer (manager : JobManager J machines) (index : Nat) (executer other : Executer J machines)
    (present : manager.executers[index]? = some executer) :
    ∃ rest, manager.held.Perm (executer.held ++ rest) ∧ (manager.setExecuter index other).held.Perm (other.held ++ rest) := by
  obtain ⟨within, is⟩ := List.getElem?_eq_some_iff.mp present
  refine ⟨(manager.executers.take index).flatMap Executer.held ++ (manager.executers.drop (index + 1)).flatMap Executer.held, ?_, ?_⟩
  · have split : manager.executers = manager.executers.take index ++ executer :: manager.executers.drop (index + 1) := by
      rw [← is, List.getElem_cons_drop, List.take_append_drop]
    rw [JobManager.held]
    conv_lhs => rw [split]
    rw [List.flatMap_append, List.flatMap_cons]
    exact List.perm_append_comm_assoc _ _ _
  · rw [JobManager.held, JobManager.setExecuter]
    simp only [List.set_eq_take_append_cons_drop, within, if_true, List.flatMap_append, List.flatMap_cons]
    exact List.perm_append_comm_assoc _ _ _

theorem mem_set_executer (manager : JobManager J machines) (index : Nat) (changed other : Executer J machines)
    (member : other ∈ (manager.setExecuter index changed).executers) : other ∈ manager.executers ∨ other = changed :=
  List.mem_or_eq_of_mem_set member

-- Replacing an executer by one that holds the same machines.
theorem outstanding_set_executer (manager : JobManager J machines) (index : Nat) (executer other : Executer J machines)
    (present : manager.executers[index]? = some executer) (outstanding : Outstanding manager) (same : other.held = executer.held)
    (executes : ExecutesOn manager other) : Outstanding (manager.setExecuter index other) := by
  obtain ⟨rest, before, after⟩ := held_set_executer manager index executer other present
  rw [same] at after
  refine ⟨uses_exact_perm _ _ _ (before.trans after.symm) outstanding.uses, ?_⟩
  intro one member
  rcases mem_set_executer manager index other one member with old | rfl
  · exact executes_on_same manager _ one (outstanding.executes one old) rfl rfl
  · exact executes_on_same manager _ one executes rfl rfl

theorem set_executer_all_notified (manager : JobManager J machines) (index : Nat) (executer other : Executer J machines)
    (present : manager.executers[index]? = some executer) (same : other.notified = executer.notified) :
    (manager.setExecuter index other).AllNotified ↔ manager.AllNotified := by
  obtain ⟨within, is⟩ := List.getElem?_eq_some_iff.mp present
  constructor
  · intro all one member
    obtain ⟨position, inside, at_position⟩ := List.getElem_of_mem member
    by_cases here : position = index
    · subst here
      rw [← at_position, is, ← same]
      exact all other (List.mem_set within other)
    · refine all one (List.mem_iff_getElem.mpr ⟨position, by simpa [JobManager.setExecuter] using inside, ?_⟩)
      simp only [JobManager.setExecuter, List.getElem_set_ne (Ne.symm here)]
      exact at_position
  · intro all one member
    rcases mem_set_executer manager index other one member with old | rfl
    · exact all one old
    · rw [same]
      exact all executer (is ▸ List.getElem_mem within)

-- What killing a job leaves alone.
structure Killed (manager next : JobManager J machines) : Prop where
  ready : next.readyJobs ⊆ manager.readyJobs
  notified : next.AllNotified ↔ manager.AllNotified
  outstanding : Outstanding manager → Outstanding next
  pool : next.pool = manager.pool
  jobMachines : next.jobMachines = manager.jobMachines
  thread : next.thread = manager.thread
  exitRequest : next.exitRequest = manager.exitRequest

theorem killed_refl (manager : JobManager J machines) : Killed manager manager :=
  ⟨List.Subset.refl _, Iff.rfl, id, rfl, rfl, rfl, rfl⟩

theorem killed_trans (first second third : JobManager J machines) (before : Killed first second) (after : Killed second third) :
    Killed first third :=
  ⟨fun _ member => before.ready (after.ready member), after.notified.trans before.notified,
    fun outstanding => after.outstanding (before.outstanding outstanding), after.pool.trans before.pool,
    after.jobMachines.trans before.jobMachines, after.thread.trans before.thread, after.exitRequest.trans before.exitRequest⟩

theorem killed_kills : KillRelation (@Killed J machines) where
  refl := killed_refl
  trans := killed_trans
  terminated manager index executer present := by
    refine ⟨List.Subset.refl _, set_executer_all_notified manager index executer _ present rfl, fun outstanding => ?_, rfl, rfl, rfl, rfl⟩
    have executes := outstanding.executes executer (List.mem_of_getElem? present)
    exact outstanding_set_executer manager index executer _ present outstanding rfl ⟨executes.unnotified, executes.machines⟩
  unqueued manager ready fewer :=
    ⟨fewer.subset, Iff.rfl, fun outstanding => outstanding_same manager _ outstanding rfl rfl rfl rfl, rfl, rfl, rfl, rfl⟩

theorem kill_killed (manager : JobManager J machines) (key : JobKey J) : Killed manager (manager.kill key) :=
  kill_related Killed killed_kills manager key

theorem kill_all_killed (jobs : List J) (manager : JobManager J machines) :
    Killed manager (jobs.foldl (fun killed job => JobManager.kill killed (.id (killed.ids job))) manager) :=
  kill_all_related Killed killed_kills jobs manager

variable [DecidableEq J]

omit [DecidableEq J] in
theorem past_setup_tail (status : JobStatus) (rest : List (ExecuterOperation J)) (different : status ≠ .setup) :
    PastSetup (.setStatus status :: rest) := by
  intro other same
  cases same
  exact different rfl

omit [DecidableEq J] in
theorem changed_executed (state changed : StateMachine JobStatus) (status : JobStatus)
    (allowed : state.change jobTransitions status = some changed) :
    changed.current ≠ .notExecuted ∧ (status = .setup → state.current = .notExecuted) := by
  obtain ⟨member, rfl⟩ := change_some _ _ _ _ allowed
  constructor
  · rintro rfl
    cases current : state.current <;> simp [current, jobTransitions] at member
  · rintro rfl
    cases current : state.current <;> simp [current, jobTransitions] at member ⊢

theorem set_status_outstanding (manager : JobManager J machines) (index : Nat) (executer : Executer J machines)
    (status : JobStatus) (rest : List (ExecuterOperation J)) (present : manager.executers[index]? = some executer)
    (phase : executer.phase = .executing (.setStatus status :: rest)) (outstanding : Outstanding manager) :
    Outstanding (manager.setStatus index executer status rest) := by
  have here := outstanding.executes executer (List.mem_of_getElem? present)
  have unnotified := here.unnotified _ phase
  unfold JobManager.setStatus
  cases changed : (manager.jobs executer.job).change jobTransitions status with
  | none =>
      have died := outstanding_set_executer manager index executer { executer with phase := .died } present outstanding
        (by simp [Executer.held, Executer.holds, phase, unnotified]) ⟨by simp, by simp⟩
      exact outstanding_same _ _ died rfl rfl rfl rfl
  | some state =>
      obtain ⟨executed, first⟩ := changed_executed _ _ _ changed
      obtain ⟨left, before, after⟩ := held_set_executer manager index executer { executer with phase := .executing rest } present
      have same : ({ executer with phase := .executing rest } : Executer J machines).held = executer.held := by
        simp [Executer.held, Executer.holds, phase]
      rw [same] at after
      refine ⟨uses_exact_perm _ _ _ (before.trans after.symm) outstanding.uses, fun one member => ?_⟩
      rcases mem_set_executer manager index _ one member with old | rfl
      · have executes := outstanding.executes one old
        refine ⟨executes.unnotified, fun operations onePhase past => ?_⟩
        obtain ⟨onMachines, begun⟩ := executes.machines operations onePhase past
        by_cases sameJob : one.job = executer.job
        · -- Another executer of this job is past the setup, so this is not the setup.
          have later : status ≠ .setup := fun setting => begun (by rw [sameJob]; exact first setting)
          simp only [JobManager.status, later, if_false, sameJob, Function.update_self]
          exact ⟨by rw [← sameJob]; exact onMachines, executed⟩
        · simp only [JobManager.status, Function.update_of_ne sameJob]
          refine ⟨?_, begun⟩
          split
          · rw [Function.update_of_ne sameJob]
            exact onMachines
          · exact onMachines
      · refine ⟨fun operations _ => unnotified, fun operations onePhase past => ?_⟩
        simp only [JobManager.status, Function.update_self]
        refine ⟨?_, executed⟩
        split
        · rw [Function.update_self]
        · next different =>
            exact (here.machines _ phase (past_setup_tail status rest different)).1

theorem execute_outstanding (setup : JobSetup J) (manager next : JobManager J machines) (index : Nat) (exitCode : Int)
    (timedOut : Bool) (outstanding : Outstanding manager) (taken : manager.execute setup index exitCode timedOut = some next) :
    Outstanding next := by
  cases execute_cases setup manager next index exitCode timedOut taken with
  | status executer status rest present phase =>
      exact set_status_outstanding manager index executer status rest present phase outstanding
  | got executer rest text present phase written =>
      have here := outstanding.executes executer (List.mem_of_getElem? present)
      refine outstanding_set_executer manager index executer _ present outstanding (by simp [Executer.held, Executer.holds, phase])
        ⟨fun operations _ => here.unnotified _ phase, fun operations _ _ => ?_⟩
      exact here.machines _ phase (by intro other same; cases same)
  | command executer command rest present phase =>
      have here := outstanding.executes executer (List.mem_of_getElem? present)
      refine outstanding_set_executer manager index executer _ present outstanding (by simp [Executer.held, Executer.holds, phase])
        ⟨fun operations _ => here.unnotified _ phase, fun operations _ _ => ?_⟩
      exact here.machines _ phase (by intro other same; cases same)

omit [DecidableEq J] in
theorem own_machines_returned (manager : JobManager J machines) (index : Nat) (executer : Executer J machines)
    (outstanding : Outstanding manager) (present : manager.executers[index]? = some executer)
    (phase : executer.phase = .executing []) :
    ∃ pool, returnMachines manager.pool (manager.jobMachines executer.job) = .ok pool ∧
      UsesExact pool (manager.setExecuter index { executer with phase := .notifying }).held := by
  have here := outstanding.executes executer (List.mem_of_getElem? present)
  obtain ⟨onMachines, _⟩ := here.machines _ phase (by intro other same; cases same)
  obtain ⟨rest, before, after⟩ := held_set_executer manager index executer { executer with phase := .notifying } present
  have holding : executer.held = executer.machines.map (·, false) := by simp [Executer.held, Executer.holds, phase]
  have letGo : ({ executer with phase := .notifying } : Executer J machines).held = [] := by
    simp [Executer.held, Executer.holds]
  rw [holding] at before
  rw [letGo, List.nil_append] at after
  obtain ⟨pool, done, uses, _⟩ := return_machines_exact manager.pool _ rest (uses_exact_perm _ _ _ before outstanding.uses)
  have listed : returnable (executer.machines.map (·, false)) = executer.machines := by
    simp [returnable, Function.comp_def]
  rw [listed, ← onMachines] at done
  exact ⟨pool, done, uses_exact_perm _ _ _ after.symm uses⟩

-- The machines that an outstanding job gives back are all in use, so no assertion fails.
omit [DecidableEq J] in
theorem outstanding_job_returns (manager next : JobManager J machines) (index : Nat) (outstanding : Outstanding manager)
    (taken : manager.returnJobMachines index = some next) :
    ∃ executer pool, manager.executers[index]? = some executer ∧ executer.phase = .executing [] ∧
      UsesExact pool (manager.setExecuter index { executer with phase := .notifying }).held ∧
      next = { manager.setExecuter index { executer with phase := .notifying } with pool := pool } := by
  obtain ⟨executer, present, phase, returned⟩ := return_job_machines_cases manager next index taken
  obtain ⟨pool, done, uses⟩ := own_machines_returned manager index executer outstanding present phase
  rcases returned with ⟨failure, failed, _⟩ | ⟨other, result, rfl⟩
  · exact absurd (done.symm.trans failed) nofun
  · have same : pool = other := Except.ok.inj (done.symm.trans result)
    exact ⟨executer, other, present, phase, same ▸ uses, rfl⟩

omit [DecidableEq J] in
theorem return_job_machines_outstanding (manager next : JobManager J machines) (index : Nat) (outstanding : Outstanding manager)
    (taken : manager.returnJobMachines index = some next) : Outstanding next := by
  obtain ⟨executer, pool, present, _, uses, rfl⟩ := outstanding_job_returns manager next index outstanding taken
  refine ⟨uses, fun one member => ?_⟩
  rcases mem_set_executer manager index _ one member with old | rfl
  · exact executes_on_same manager _ one (outstanding.executes one old) rfl rfl
  · exact ⟨by simp, by simp⟩

theorem notify_job_complete_outstanding (setup : JobSetup J) (manager next : JobManager J machines) (index : Nat)
    (outstanding : Outstanding manager) (taken : manager.notifyJobComplete setup index = some next) : Outstanding next := by
  obtain ⟨executer, present, phase, rfl⟩ := notify_job_complete_cases setup manager next index taken
  have told := outstanding_set_executer manager index executer { executer with phase := .informing, notified := true } present
    outstanding (by simp [Executer.held, Executer.holds, phase]) ⟨by simp, by simp⟩
  exact outstanding_same _ _ told rfl rfl rfl rfl

omit [DecidableEq J] in
theorem drain_outstanding (setup : JobSetup J) (manager : JobManager J machines) (outstanding : Outstanding manager) :
    Outstanding (manager.drain setup) := by
  have drained := drain_cases setup manager
  generalize manager.drain setup = next at drained
  cases drained with
  | empty | crashed =>
      exact outstanding_same manager _ outstanding rfl rfl rfl rfl
  | refused job specs pool last required result =>
      refine ⟨get_machines_uses_exact manager.pool pool specs [] _ outstanding.uses result, fun one member => ?_⟩
      exact executes_on_same manager _ one (outstanding.executes one member) rfl rfl
  | started job specs pool acquired last required result some_machine =>
      have counted := get_machines_uses_exact manager.pool pool specs acquired _ outstanding.uses result
      constructor
      · refine uses_exact_perm pool _ _ ?_ counted
        simp only [JobManager.held, JobManager.startJob, List.flatMap_append, List.flatMap_cons, List.flatMap_nil, List.append_nil]
        exact List.perm_append_comm
      · intro one member
        rcases List.mem_append.mp member with old | new
        · exact executes_on_same manager _ one (outstanding.executes one old) rfl rfl
        · rw [List.mem_singleton.mp new]
          refine ⟨fun operations _ => rfl, fun operations phase past => ?_⟩
          simp only [newExecuter, ExecuterPhase.executing.injEq] at phase
          exact absurd rfl (phase ▸ past _)

theorem step_outstanding (setup : JobSetup J) (manager : JobManager J machines) (action : JobAction J)
    (next : JobManager J machines) (outstanding : Outstanding manager) (taken : manager.step setup action = some next) :
    Outstanding next := by
  cases step_cases setup manager action next taken with
  | started | added => exact outstanding_same manager _ outstanding rfl rfl rfl rfl
  | stopped =>
      have killed := (kill_all_killed manager.allJobs manager).outstanding outstanding
      exact outstanding_same _ _ killed rfl rfl rfl rfl
  | killed key => exact (kill_killed manager key).outstanding outstanding
  | ran _ taken =>
      obtain ⟨thread, rfl⟩ | ⟨_, rfl⟩ := run_cases setup manager next taken
      · exact outstanding_same manager _ outstanding rfl rfl rfl rfl
      · exact drain_outstanding setup manager outstanding
  | executed index exitCode timedOut _ taken =>
      exact execute_outstanding setup manager next index exitCode timedOut outstanding taken
  | returned index _ taken => exact return_job_machines_outstanding manager next index outstanding taken
  | notified index _ taken => exact notify_job_complete_outstanding setup manager next index outstanding taken

end ToolchainUtils.Automation
