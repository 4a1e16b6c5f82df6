import ToolchainUtils.Automation.HeldMachines

set_option autoImplicit false

namespace ToolchainUtils.Automation

variable {J : Type} {machines : Nat}

-- What is left of JobExecuter.run ends in a final status, without an illegal transition.
def Remaining : JobStatus → List (ExecuterOperation J) → Prop
  | status, [] => status = .succeeded ∨ status = .failed
  | status, .setStatus newStatus :: rest => newStatus ∈ jobTransitions status ∧ Remaining newStatus rest
  | status, .getCommand :: rest => Remaining status rest
  | status, .command _ :: rest => .failed ∈ jobTransitions status ∧ Remaining status rest

structure Progress (status : JobStatus) (executer : Executer J machines) : Prop where
  executing : ∀ operations, executer.phase = .executing operations → Remaining status operations
  ended : (∀ operations, executer.phase ≠ .executing operations) → status = .succeeded ∨ status = .failed
  notified : (∀ operations, executer.phase ≠ .executing operations) → executer.phase ≠ .notifying → executer.notified = true

theorem remaining_commands (status : JobStatus) (commands : List (JobCommand J)) (rest : List (ExecuterOperation J))
    (fails : .failed ∈ jobTransitions status) (remaining : Remaining status rest) :
    Remaining status (commands.map .command ++ rest) := by
  induction commands with
  | nil => exact remaining
  | cons command others ih => exact ⟨fails, ih⟩

theorem job_operations_remaining (setup : JobSetup J) (job : J) : Remaining .notExecuted (jobOperations setup job) := by
  have copied := remaining_commands .copying ((setup.folderDependencies job).map .satisfyFolderDependency)
    [.setStatus .running, .getCommand, .command .launchJobCommand, .command .copyJobResults, .setStatus .succeeded]
    (by decide) (by simp [Remaining, jobTransitions])
  rw [List.map_map] at copied
  simp only [jobOperations, List.cons_append, List.nil_append, Remaining]
  exact ⟨by decide, by decide, by decide, by decide, copied⟩

-- Every executer is on its way, jobs that were never started are untouched, and no
-- assertion has failed.
structure OnTheWay (manager : JobManager J machines) : Prop where
  progress : ∀ executer ∈ manager.executers, Progress (manager.status executer.job) executer
  untouched : ∀ job, job ∉ manager.started → manager.status job = .notExecuted
  asserted : manager.assertionFailed = false

structure JobsProgress (setup : JobSetup J) (manager : JobManager J machines) : Prop where
  outstanding : Outstanding manager
  queuedOnce : QueuedOnce setup manager
  onTheWay : OnTheWay manager

theorem final_ne_executed (status : JobStatus) (final : status = .succeeded ∨ status = .failed) : status ≠ .notExecuted := by
  rcases final with rfl | rfl <;> simp

-- Each job has one executer only, so another executer has another job.
theorem mem_set_executer_job (manager : JobManager J machines) (index : Nat) (executer changed one : Executer J machines)
    (once : manager.started.Nodup) (present : manager.executers[index]? = some executer)
    (member : one ∈ (manager.setExecuter index changed).executers) :
    one = changed ∨ (one ∈ manager.executers ∧ one.job ≠ executer.job) := by
  obtain ⟨within, is⟩ := List.getElem?_eq_some_iff.mp present
  obtain ⟨position, inside, at_position⟩ := List.getElem_of_mem member
  simp only [JobManager.setExecuter, List.length_set] at inside
  by_cases here : index = position
  · subst here
    simp only [JobManager.setExecuter, List.getElem_set_self] at at_position
    exact .inl at_position.symm
  · simp only [JobManager.setExecuter, List.getElem_set_ne here] at at_position
    refine .inr ⟨at_position ▸ List.getElem_mem inside, fun same => here ?_⟩
    have first : index < manager.started.length := by simpa [JobManager.started] using within
    have second : position < manager.started.length := by simpa [JobManager.started] using inside
    have equal : manager.started[index] = manager.started[position] := by
      simp only [JobManager.started, List.getElem_map, is, at_position, same]
    exact (List.Nodup.getElem_inj_iff once).mp equal

theorem on_the_way_same (manager next : JobManager J machines) (inv : OnTheWay manager) (executers : next.executers = manager.executers)
    (jobs : next.jobs = manager.jobs) (asserted : next.assertionFailed = manager.assertionFailed) : OnTheWay next := by
  refine ⟨fun executer member => ?_, fun job absent => ?_, by rw [asserted]; exact inv.asserted⟩
  · rw [executers] at member
    rw [JobManager.status, jobs]
    exact inv.progress executer member
  · rw [JobManager.started, executers] at absent
    rw [JobManager.status, jobs]
    exact inv.untouched job absent

theorem set_executer_on_the_way (manager : JobManager J machines) (index : Nat) (executer other : Executer J machines)
    (inv : OnTheWay manager) (present : manager.executers[index]? = some executer) (same : other.job = executer.job)
    (progress : Progress (manager.status executer.job) other) : OnTheWay (manager.setExecuter index other) := by
  refine ⟨fun one member => ?_, fun job absent => ?_, inv.asserted⟩
  · rcases mem_set_executer manager index other one member with old | rfl
    · exact inv.progress one old
    · rw [same]
      exact progress
  · rw [set_executer_started manager index executer other present same] at absent
    exact inv.untouched job absent

theorem terminated_progress (status : JobStatus) (executer : Executer J machines) (terminated : Bool)
    (progress : Progress status executer) : Progress status { executer with terminated := terminated } :=
  ⟨progress.executing, progress.ended, progress.notified⟩

theorem on_the_way_kills :
    KillRelation fun manager next : JobManager J machines => OnTheWay manager → OnTheWay next where
  refl _ := id
  trans _ _ _ before after inv := after (before inv)
  terminated manager index executer present inv :=
    set_executer_on_the_way manager index executer _ inv present rfl
      (terminated_progress _ executer true (inv.progress executer (List.mem_of_getElem? present)))
  unqueued manager _ _ inv := on_the_way_same manager _ inv rfl rfl rfl

theorem kill_on_the_way (manager : JobManager J machines) (key : JobKey J) (inv : OnTheWay manager) :
    OnTheWay (manager.kill key) :=
  kill_related _ on_the_way_kills manager key inv

theorem stop_on_the_way (manager : JobManager J machines) (inv : OnTheWay manager) : OnTheWay manager.stop :=
  on_the_way_same _ _ (kill_all_related _ on_the_way_kills manager.allJobs manager inv) rfl rfl rfl

variable [DecidableEq J]

theorem set_status_on_the_way (manager : JobManager J machines) (index : Nat) (executer : Executer J machines)
    (status : JobStatus) (rest : List (ExecuterOperation J)) (inv : OnTheWay manager) (once : manager.started.Nodup)
    (present : manager.executers[index]? = some executer)
    (phase : executer.phase = .executing (.setStatus status :: rest)) :
    OnTheWay (manager.setStatus index executer status rest) := by
  have member : executer ∈ manager.executers := List.mem_of_getElem? present
  obtain ⟨allowed, remaining⟩ := (inv.progress executer member).executing _ phase
  unfold JobManager.setStatus
  rw [change_allowed jobTransitions (manager.jobs executer.job) status allowed]
  refine ⟨fun one among => ?_, fun job absent => ?_, inv.asserted⟩
  · rcases mem_set_executer_job manager index executer _ one once present among with rfl | ⟨old, different⟩
    · refine ⟨fun operations executing => ?_, fun none_left => absurd rfl (none_left rest), fun none_left => absurd rfl (none_left rest)⟩
      simp only [ExecuterPhase.executing.injEq] at executing
      simpa only [JobManager.status, Function.update_self, ← executing] using remaining
    · simpa only [JobManager.status, Function.update_of_ne different] using inv.progress one old
  · have started := set_executer_started manager index executer { executer with phase := .executing rest } present rfl
    have other : job ≠ executer.job := by
      rintro rfl
      refine absent ?_
      change executer.job ∈ (manager.setExecuter index { executer with phase := .executing rest }).started
      rw [started]
      exact List.mem_map_of_mem member
    have before : job ∉ manager.started := by
      rw [← started]
      exact absent
    simpa only [JobManager.status, Function.update_of_ne other] using inv.untouched job before

theorem execute_on_the_way (setup : JobSetup J) (manager next : JobManager J machines) (index : Nat) (exitCode : Int)
    (timedOut : Bool) (inv : OnTheWay manager) (once : manager.started.Nodup)
    (taken : manager.execute setup index exitCode timedOut = some next) : OnTheWay next := by
  cases execute_cases setup manager next index exitCode timedOut taken with
  | status executer status rest present phase =>
      exact set_status_on_the_way manager index executer status rest inv once present phase
  | got executer rest text present phase written =>
      have remaining := (inv.progress executer (List.mem_of_getElem? present)).executing _ phase
      refine set_executer_on_the_way manager index executer _ inv present rfl
        ⟨fun operations executing => ?_, fun none_left => absurd rfl (none_left _), fun none_left => absurd rfl (none_left _)⟩
      simp only [ExecuterPhase.executing.injEq] at executing
      rw [← executing]
      exact remaining
  | command executer command rest present phase =>
      obtain ⟨fails, remaining⟩ := (inv.progress executer (List.mem_of_getElem? present)).executing _ phase
      refine set_executer_on_the_way manager index executer _ inv present rfl
        ⟨fun operations executing => ?_, fun none_left => absurd rfl (none_left _), fun none_left => absurd rfl (none_left _)⟩
      simp only [ExecuterPhase.executing.injEq] at executing
      rw [← executing]
      split
      · exact remaining
      · exact ⟨fails, .inr rfl⟩

omit [DecidableEq J] in
theorem return_job_machines_on_the_way (manager next : JobManager J machines) (index : Nat) (inv : OnTheWay manager)
    (outstanding : Outstanding manager) (taken : manager.returnJobMachines index = some next) : OnTheWay next := by
  obtain ⟨executer, pool, present, phase, _, rfl⟩ := outstanding_job_returns manager next index outstanding taken
  have final := (inv.progress executer (List.mem_of_getElem? present)).executing _ phase
  have notifying := set_executer_on_the_way manager index executer { executer with phase := .notifying } inv present rfl
    ⟨by simp, fun _ => final, fun _ still => absurd rfl still⟩
  exact on_the_way_same _ _ notifying rfl rfl rfl

theorem notify_job_complete_on_the_way (setup : JobSetup J) (manager next : JobManager J machines) (index : Nat)
    (inv : OnTheWay manager) (taken : manager.notifyJobComplete setup index = some next) : OnTheWay next := by
  obtain ⟨executer, present, phase, rfl⟩ := notify_job_complete_cases setup manager next index taken
  have final := (inv.progress executer (List.mem_of_getElem? present)).ended (by simp [phase])
  have told := set_executer_on_the_way manager index executer { executer with phase := .informing, notified := true } inv
    present rfl ⟨by simp, fun _ => final, fun _ _ => rfl⟩
  exact on_the_way_same _ _ told rfl rfl rfl

omit [DecidableEq J] in
theorem drain_on_the_way (setup : JobSetup J) (manager : JobManager J machines) (inv : JobsProgress setup manager) :
    OnTheWay (manager.drain setup) := by
  have drained := drain_cases setup manager
  have asserted : (manager.drain setup).assertionFailed = false := by
    unfold JobManager.drain
    split
    · exact inv.onTheWay.asserted
    · dsimp only
      split
      · exact inv.onTheWay.asserted
      · next specs required =>
          obtain ⟨result, got⟩ := (no_assertion_fails ⟨manager.pool, [manager.held]⟩ (by
            simpa [Manager.held] using inv.outstanding.uses)).getMachines specs
          simp only at got
          rw [got]
          split
          · next failed => cases failed
          · exact inv.onTheWay.asserted
          · exact inv.onTheWay.asserted
  generalize manager.drain setup = next at drained asserted
  cases drained with
  | empty | refused => exact on_the_way_same _ _ inv.onTheWay rfl rfl rfl
  | crashed => exact on_the_way_same _ _ inv.onTheWay rfl rfl (asserted.trans inv.onTheWay.asserted.symm)
  | started job specs pool acquired last required result some_machine =>
      have queued : job ∈ manager.readyJobs := List.mem_of_getLast? last
      have unstarted := inv.queuedOnce.fresh job queued
      refine ⟨fun one member => ?_, fun other absent => ?_, asserted⟩
      · rcases List.mem_append.mp member with old | new
        · exact inv.onTheWay.progress one old
        · rw [List.mem_singleton.mp new]
          refine ⟨fun operations executing => ?_, fun none_left => absurd rfl (none_left _), fun none_left => absurd rfl (none_left _)⟩
          simp only [newExecuter, ExecuterPhase.executing.injEq] at executing
          rw [← executing]
          change Remaining (manager.status job) (jobOperations setup job)
          rw [inv.onTheWay.untouched job unstarted]
          exact job_operations_remaining setup job
      · refine inv.onTheWay.untouched other fun begun => absent ?_
        simp only [JobManager.started, JobManager.startJob, List.map_append]
        exact List.mem_append_left _ begun

theorem step_progress (setup : JobSetup J) (manager : JobManager J machines) (action : JobAction J) (next : JobManager J machines)
    (inv : JobsProgress setup manager) (fresh : EnqueuesFresh setup manager action)
    (taken : manager.step setup action = some next) : JobsProgress setup next := by
  refine ⟨step_outstanding setup manager action next inv.outstanding taken,
    step_queued_once setup manager action next inv.queuedOnce fresh taken, ?_⟩
  cases step_cases setup manager action next taken with
  | started | added => exact on_the_way_same _ _ inv.onTheWay rfl rfl rfl
  | stopped => exact stop_on_the_way manager inv.onTheWay
  | killed key => exact kill_on_the_way manager key inv.onTheWay
  | ran _ taken =>
      obtain ⟨thread, rfl⟩ | ⟨_, rfl⟩ := run_cases setup manager next taken
      · exact on_the_way_same _ _ inv.onTheWay rfl rfl rfl
      · exact drain_on_the_way setup manager inv
  | executed index exitCode timedOut _ taken =>
      exact execute_on_the_way setup manager next index exitCode timedOut inv.onTheWay inv.queuedOnce.once taken
  | returned index _ taken => exact return_job_machines_on_the_way manager next index inv.onTheWay inv.outstanding taken
  | notified index _ taken => exact notify_job_complete_on_the_way setup manager next index inv.onTheWay taken

end ToolchainUtils.Automation
