import ToolchainUtils.Automation.JobStarts
import ToolchainUtils.Automation.JobGroupManager

set_option autoImplicit false

namespace ToolchainUtils.Automation

variable {J : Type} {machines : Nat}

-- An executer goes on, and nothing takes its terminator back.
structure Follows (before after : Executer J machines) : Prop where
  job : after.job = before.job
  executing : ∀ operations, after.phase = .executing operations → ∃ earlier, before.phase = .executing earlier
  terminated : before.terminated = true → after.terminated = true

structure Ages (manager next : JobManager J machines) : Prop where
  longer : manager.executers.length ≤ next.executers.length
  older : ∀ index executer, index < manager.executers.length → next.executers[index]? = some executer →
    ∃ before, manager.executers[index]? = some before ∧ Follows before executer

theorem ages_same (manager next : JobManager J machines) (same : next.executers = manager.executers) : Ages manager next := by
  refine ⟨by rw [same], fun index executer _ present => ⟨executer, by rw [← same]; exact present, ?_⟩⟩
  exact ⟨rfl, fun operations executing => ⟨operations, executing⟩, id⟩

theorem ages_trans (first second third : JobManager J machines) (before : Ages first second) (after : Ages second third) :
    Ages first third := by
  refine ⟨Nat.le_trans before.longer after.longer, fun index executer within present => ?_⟩
  obtain ⟨middle, presentMiddle, later⟩ := after.older index executer (Nat.lt_of_lt_of_le within before.longer) present
  obtain ⟨start, presentStart, earlier⟩ := before.older index middle within presentMiddle
  refine ⟨start, presentStart, later.job.trans earlier.job, fun operations executing => ?_, fun killed => ?_⟩
  · obtain ⟨inside, executingMiddle⟩ := later.executing operations executing
    exact earlier.executing inside executingMiddle
  · exact later.terminated (earlier.terminated killed)

theorem ages_set_executer (manager : JobManager J machines) (index : Nat) (executer other : Executer J machines)
    (present : manager.executers[index]? = some executer) (follows : Follows executer other) :
    Ages manager (manager.setExecuter index other) := by
  refine ⟨by simp [JobManager.setExecuter], fun position one within listed => ?_⟩
  by_cases here : position = index
  · subst here
    simp only [JobManager.setExecuter, List.getElem?_set_self within, Option.some.injEq] at listed
    exact ⟨executer, present, listed ▸ follows⟩
  · simp only [JobManager.setExecuter, List.getElem?_set_ne (Ne.symm here)] at listed
    exact ⟨one, listed, rfl, fun operations executing => ⟨operations, executing⟩, id⟩

theorem ages_kills : KillRelation (@Ages J machines) where
  refl manager := ages_same manager manager rfl
  trans := ages_trans
  terminated manager index executer present :=
    ages_set_executer manager index executer _ present ⟨rfl, fun operations executing => ⟨operations, executing⟩, fun _ => rfl⟩
  unqueued manager _ _ := ages_same manager _ rfl

theorem kill_ages (manager : JobManager J machines) (key : JobKey J) : Ages manager (manager.kill key) :=
  kill_related Ages ages_kills manager key

theorem stop_ages (manager : JobManager J machines) : Ages manager manager.stop :=
  ages_trans _ _ _ (kill_all_related Ages ages_kills manager.allJobs manager) (ages_same _ _ rfl)

-- KillJob gets a Job where ids are compared, which finds nothing at all.
theorem kill_job_nothing (manager : JobManager J machines) (job : J) : manager.kill (.job job) = manager := by
  have nothing : manager.readyJobs.eraseP (fun other => manager.hasKey other (.job job)) = manager.readyJobs :=
    List.eraseP_of_forall_not fun _ _ => by simp [JobManager.hasKey]
  simp only [JobManager.kill, JobManager.lookup, nothing]

theorem set_phase_ages (manager : JobManager J machines) (index : Nat) (phase : ExecuterPhase J)
    (ended : ∀ operations, phase ≠ .executing operations) : Ages manager (manager.setPhase index phase) := by
  unfold JobManager.setPhase
  split
  · exact ages_same manager manager rfl
  · next executer present =>
      exact ages_set_executer manager index executer _ present
        ⟨rfl, fun operations executing => absurd executing (ended operations), id⟩

theorem set_phase_fields (manager : JobManager J machines) (index : Nat) (phase : ExecuterPhase J) :
    (manager.setPhase index phase).readyJobs = manager.readyJobs ∧ (manager.setPhase index phase).jobs = manager.jobs ∧
      (manager.setPhase index phase).executers.length = manager.executers.length := by
  unfold JobManager.setPhase
  split
  · exact ⟨rfl, rfl, rfl⟩
  · exact ⟨rfl, rfl, List.length_set⟩

theorem set_phase_status (manager : JobManager J machines) (index : Nat) (phase : ExecuterPhase J) (job : J) :
    (manager.setPhase index phase).status job = manager.status job := by
  rw [JobManager.status, (set_phase_fields manager index phase).2.1, JobManager.status]

theorem run_command_keeps_terminated (dryRun terminated : Bool) (exitCode : Int) (timedOut : Bool) (killed : terminated = true) :
    (runCommand dryRun terminated exitCode timedOut).terminated = true := by
  rw [killed]
  exact (run_command_terminated dryRun exitCode timedOut).2

theorem clean_up_job_ages (setup : JobSetup J) (manager : JobManager J machines) (job : J) (exitCode : Int) (timedOut : Bool) :
    Ages manager (manager.cleanUpJob setup job exitCode timedOut).1 := by
  have cleaned := clean_up_job_cases setup manager job exitCode timedOut
  generalize manager.cleanUpJob setup job exitCode timedOut = result at cleaned
  cases cleaned with
  | absent | homeless => exact ages_same manager manager rfl
  | ran index executer mapping succeeded found present =>
      have going := ages_set_executer manager index executer { executer with
          terminated := (runCommand (setup.dryRun executer.job) executer.terminated exitCode timedOut).terminated } present
        ⟨rfl, fun operations executing => ⟨operations, executing⟩, run_command_keeps_terminated _ _ exitCode timedOut⟩
      exact ages_trans _ _ _ going (ages_same _ _ rfl)

theorem clean_up_job_fields (setup : JobSetup J) (manager : JobManager J machines) (job : J) (exitCode : Int) (timedOut : Bool) :
    (manager.cleanUpJob setup job exitCode timedOut).1.readyJobs = manager.readyJobs ∧
      (manager.cleanUpJob setup job exitCode timedOut).1.jobs = manager.jobs ∧
      (manager.cleanUpJob setup job exitCode timedOut).1.ids = manager.ids ∧
      (manager.cleanUpJob setup job exitCode timedOut).1.executers.length = manager.executers.length := by
  have cleaned := clean_up_job_cases setup manager job exitCode timedOut
  generalize manager.cleanUpJob setup job exitCode timedOut = result at cleaned
  cases cleaned with
  | absent | homeless => exact ⟨rfl, rfl, rfl, rfl⟩
  | ran => exact ⟨rfl, rfl, rfl, List.length_set⟩

section

variable [DecidableEq J]

theorem set_status_ages (manager : JobManager J machines) (index : Nat) (executer : Executer J machines) (status : JobStatus)
    (rest earlier : List (ExecuterOperation J)) (present : manager.executers[index]? = some executer)
    (phase : executer.phase = .executing earlier) : Ages manager (manager.setStatus index executer status rest) := by
  unfold JobManager.setStatus
  split
  · refine ages_trans _ _ _ (ages_set_executer manager index executer { executer with phase := .died } present ?_) (ages_same _ _ rfl)
    exact ⟨rfl, fun operations executing => absurd executing (by simp), id⟩
  · refine ages_trans _ _ _ (ages_set_executer manager index executer { executer with phase := .executing rest } present ?_)
      (ages_same _ _ rfl)
    exact ⟨rfl, fun _ _ => ⟨earlier, phase⟩, id⟩

theorem execute_ages (setup : JobSetup J) (manager next : JobManager J machines) (index : Nat) (exitCode : Int)
    (timedOut : Bool) (taken : manager.execute setup index exitCode timedOut = some next) : Ages manager next := by
  cases execute_cases setup manager next index exitCode timedOut taken with
  | status executer status rest present phase => exact set_status_ages manager index executer status rest _ present phase
  | got executer rest text present phase written =>
      exact ages_set_executer manager index executer _ present ⟨rfl, fun _ _ => ⟨_, phase⟩, id⟩
  | command executer command rest present phase =>
      exact ages_set_executer manager index executer _ present
        ⟨rfl, fun _ _ => ⟨_, phase⟩, run_command_keeps_terminated _ _ exitCode timedOut⟩

omit [DecidableEq J] in
theorem return_job_machines_ages (manager next : JobManager J machines) (index : Nat)
    (taken : manager.returnJobMachines index = some next) : Ages manager next := by
  obtain ⟨executer, present, _, ⟨_, _, rfl⟩ | ⟨_, _, rfl⟩⟩ := return_job_machines_cases manager next index taken
  · refine ages_trans _ _ _ (ages_set_executer manager index executer { executer with phase := .died } present ?_)
      (ages_same _ _ rfl)
    exact ⟨rfl, fun operations executing => absurd executing (by simp), id⟩
  · refine ages_trans _ _ _ (ages_set_executer manager index executer { executer with phase := .notifying } present ?_)
      (ages_same _ _ rfl)
    exact ⟨rfl, fun operations executing => absurd executing (by simp), id⟩

theorem notify_job_complete_ages (setup : JobSetup J) (manager next : JobManager J machines) (index : Nat)
    (taken : manager.notifyJobComplete setup index = some next) : Ages manager next := by
  obtain ⟨executer, present, _, rfl⟩ := notify_job_complete_cases setup manager next index taken
  refine ages_trans _ _ _ (ages_set_executer manager index executer _ present ?_) (ages_same _ _ rfl)
  exact ⟨rfl, fun operations executing => absurd executing (by simp), id⟩

omit [DecidableEq J] in
theorem drain_ages (setup : JobSetup J) (manager : JobManager J machines) : Ages manager (manager.drain setup) := by
  have drained := drain_cases setup manager
  generalize manager.drain setup = next at drained
  cases drained with
  | empty | crashed | refused => exact ages_same _ _ rfl
  | started job specs pool acquired last required result some_machine =>
      refine ⟨by simp [JobManager.startJob], fun index executer within present => ?_⟩
      simp only [JobManager.startJob, List.getElem?_append_left within] at present
      exact ⟨executer, present, rfl, fun operations executing => ⟨operations, executing⟩, id⟩

theorem step_ages (setup : JobSetup J) (manager : JobManager J machines) (action : JobAction J) (next : JobManager J machines)
    (taken : manager.step setup action = some next) : Ages manager next := by
  cases step_cases setup manager action next taken with
  | started | added => exact ages_same _ _ rfl
  | stopped => exact stop_ages manager
  | killed key => exact kill_ages manager key
  | ran _ taken =>
      obtain ⟨thread, rfl⟩ | ⟨_, rfl⟩ := run_cases setup manager next taken
      · exact ages_same _ _ rfl
      · exact drain_ages setup manager
  | executed index exitCode timedOut _ taken => exact execute_ages setup manager next index exitCode timedOut taken
  | returned index _ taken => exact return_job_machines_ages manager next index taken
  | notified index _ taken => exact notify_job_complete_ages setup manager next index taken

end

-- The group manager's loops and the final statuses are left alone by the job manager.
structure Leaves (manager next : JobManager J machines) : Prop where
  final : ∀ job, manager.status job = .succeeded ∨ manager.status job = .failed → next.status job = manager.status job
  cleaning : ∀ (index : Nat) (executer : Executer J machines) (operations : List (CleanUpOperation J)),
    next.executers[index]? = some executer → executer.phase = .cleaning operations →
    ∃ before, manager.executers[index]? = some before ∧ before.phase = .cleaning operations

theorem leaves_same (manager next : JobManager J machines) (executers : next.executers = manager.executers)
    (jobs : next.jobs = manager.jobs) : Leaves manager next := by
  refine ⟨fun job _ => by rw [JobManager.status, jobs, JobManager.status], fun index executer operations present cleaning => ?_⟩
  rw [executers] at present
  exact ⟨executer, present, cleaning⟩

theorem leaves_trans (first second third : JobManager J machines) (before : Leaves first second) (after : Leaves second third) :
    Leaves first third := by
  refine ⟨fun job final => ?_, fun index executer operations present cleaning => ?_⟩
  · have same := before.final job final
    rw [← same]
    exact after.final job (by rw [same]; exact final)
  · obtain ⟨middle, presentMiddle, cleaningMiddle⟩ := after.cleaning index executer operations present cleaning
    exact before.cleaning index middle operations presentMiddle cleaningMiddle

theorem leaves_set_executer (manager : JobManager J machines) (index : Nat) (executer other : Executer J machines)
    (present : manager.executers[index]? = some executer)
    (same : ∀ operations, other.phase = .cleaning operations → executer.phase = .cleaning operations) :
    Leaves manager (manager.setExecuter index other) := by
  obtain ⟨within, _⟩ := List.getElem?_eq_some_iff.mp present
  refine ⟨fun _ _ => rfl, fun position one operations listed cleaning => ?_⟩
  by_cases here : index = position
  · subst here
    simp only [JobManager.setExecuter, List.getElem?_set_self within, Option.some.injEq] at listed
    subst listed
    exact ⟨executer, present, same operations cleaning⟩
  · simp only [JobManager.setExecuter, List.getElem?_set_ne here] at listed
    exact ⟨one, listed, cleaning⟩

theorem leaves_kills : KillRelation (@Leaves J machines) where
  refl manager := leaves_same manager manager rfl rfl
  trans := leaves_trans
  terminated manager index executer present := leaves_set_executer manager index executer _ present fun _ => id
  unqueued manager _ _ := leaves_same manager _ rfl rfl

theorem clean_up_job_leaves (setup : JobSetup J) (manager : JobManager J machines) (job : J) (exitCode : Int) (timedOut : Bool) :
    Leaves manager (manager.cleanUpJob setup job exitCode timedOut).1 := by
  have cleaned := clean_up_job_cases setup manager job exitCode timedOut
  generalize manager.cleanUpJob setup job exitCode timedOut = result at cleaned
  cases cleaned with
  | absent | homeless => exact leaves_same manager manager rfl rfl
  | ran index executer mapping succeeded found present =>
      have going := leaves_set_executer manager index executer { executer with
          terminated := (runCommand (setup.dryRun executer.job) executer.terminated exitCode timedOut).terminated } present
        fun _ => id
      exact leaves_trans _ _ _ going (leaves_same _ _ rfl rfl)

section

variable [DecidableEq J]

theorem set_status_leaves (manager : JobManager J machines) (index : Nat) (executer : Executer J machines) (status : JobStatus)
    (rest : List (ExecuterOperation J)) (present : manager.executers[index]? = some executer) :
    Leaves manager (manager.setStatus index executer status rest) := by
  unfold JobManager.setStatus
  cases changed : (manager.jobs executer.job).change jobTransitions status with
  | none =>
      have died := leaves_set_executer manager index executer { executer with phase := .died } present fun _ => nofun
      exact leaves_trans _ _ _ died (leaves_same _ _ rfl rfl)
  | some state =>
      have goes := leaves_set_executer manager index executer { executer with phase := .executing rest } present fun _ => nofun
      refine ⟨fun job final => ?_, goes.cleaning⟩
      have other : job ≠ executer.job := by
        rintro rfl
        have allowed := (change_some _ _ _ _ changed).1
        rw [JobManager.status] at final
        rcases final with final | final <;> simp [final, jobTransitions] at allowed
      simp only [JobManager.status, Function.update_of_ne other]

theorem execute_leaves (setup : JobSetup J) (manager next : JobManager J machines) (index : Nat) (exitCode : Int)
    (timedOut : Bool) (taken : manager.execute setup index exitCode timedOut = some next) : Leaves manager next := by
  cases execute_cases setup manager next index exitCode timedOut taken with
  | status executer status rest present phase => exact set_status_leaves manager index executer status rest present
  | got executer rest text present phase written => exact leaves_set_executer manager index executer _ present fun _ => nofun
  | command executer command rest present phase => exact leaves_set_executer manager index executer _ present fun _ => nofun

omit [DecidableEq J] in
theorem drain_leaves (setup : JobSetup J) (manager : JobManager J machines) : Leaves manager (manager.drain setup) := by
  have drained := drain_cases setup manager
  generalize manager.drain setup = next at drained
  cases drained with
  | empty | crashed | refused => exact leaves_same _ _ rfl rfl
  | started job specs pool acquired last required result some_machine =>
      refine ⟨fun _ _ => rfl, fun index executer operations present cleaning => ?_⟩
      simp only [JobManager.startJob, List.getElem?_append] at present
      split at present
      · exact ⟨executer, present, cleaning⟩
      · rw [List.mem_singleton.mp (List.mem_of_getElem? present)] at cleaning
        cases cleaning

theorem step_leaves (setup : JobSetup J) (manager : JobManager J machines) (action : JobAction J) (next : JobManager J machines)
    (taken : manager.step setup action = some next) : Leaves manager next := by
  cases step_cases setup manager action next taken with
  | started | added => exact leaves_same _ _ rfl rfl
  | stopped => exact leaves_trans _ _ _ (kill_all_related Leaves leaves_kills manager.allJobs manager) (leaves_same _ _ rfl rfl)
  | killed key => exact kill_related Leaves leaves_kills manager key
  | ran _ taken =>
      obtain ⟨thread, rfl⟩ | ⟨_, rfl⟩ := run_cases setup manager next taken
      · exact leaves_same _ _ rfl rfl
      · exact drain_leaves setup manager
  | executed index exitCode timedOut _ taken => exact execute_leaves setup manager next index exitCode timedOut taken
  | returned index _ taken =>
      obtain ⟨executer, present, _, ⟨_, _, rfl⟩ | ⟨_, _, rfl⟩⟩ := return_job_machines_cases manager next index taken
      · have died := leaves_set_executer manager index executer { executer with phase := .died } present fun _ => nofun
        exact leaves_trans _ _ _ died (leaves_same _ _ rfl rfl)
      · have notifying := leaves_set_executer manager index executer { executer with phase := .notifying } present fun _ => nofun
        exact leaves_trans _ _ _ notifying (leaves_same _ _ rfl rfl)
  | notified index _ taken =>
      obtain ⟨executer, present, _, rfl⟩ := notify_job_complete_cases setup manager next index taken
      have told := leaves_set_executer manager index executer { executer with phase := .informing, notified := true } present
        fun _ => nofun
      exact leaves_trans _ _ _ told (leaves_same _ _ rfl rfl)

end

end ToolchainUtils.Automation
