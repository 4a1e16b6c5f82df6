import ToolchainUtils.Automation.JobProgress
import ToolchainUtils.Automation.GroupKills

set_option autoImplicit false

namespace ToolchainUtils.Automation

open Transition

variable {J G : Type} {machines : Nat}

-- The group manager has handled the executer's notification.
def Executer.delivered (executer : Executer J machines) : Bool :=
  match executer.phase with
  | .cleaning _ => true
  | .finished => true
  | .died => true
  | _ => false

def JobStatus.final (status : JobStatus) : Prop := status = .succeeded ∨ status = .failed

-- What the job manager's own steps leave alone.
structure Carries (manager next : JobManager J machines) : Prop where
  final : ∀ job, (manager.status job).final → next.status job = manager.status job
  delivered : ∀ (index : Nat) (executer : Executer J machines), next.executers[index]? = some executer → executer.delivered = true →
    ∃ before, manager.executers[index]? = some before ∧ before.job = executer.job ∧ before.phase = executer.phase

theorem carries_same (manager next : JobManager J machines) (executers : next.executers = manager.executers)
    (jobs : next.jobs = manager.jobs) : Carries manager next := by
  refine ⟨fun job _ => by rw [JobManager.status, jobs, JobManager.status], fun index executer present _ => ?_⟩
  rw [executers] at present
  exact ⟨executer, present, rfl, rfl⟩

theorem carries_trans (first second third : JobManager J machines) (before : Carries first second) (after : Carries second third) :
    Carries first third := by
  refine ⟨fun job final => ?_, fun index executer present delivered => ?_⟩
  · have same := before.final job final
    rw [← same]
    exact after.final job (by rw [same]; exact final)
  · obtain ⟨middle, presentMiddle, job, phase⟩ := after.delivered index executer present delivered
    have middleDelivered : middle.delivered = true := by
      rw [Executer.delivered, phase]
      exact delivered
    obtain ⟨start, presentStart, startJob, startPhase⟩ := before.delivered index middle presentMiddle middleDelivered
    exact ⟨start, presentStart, startJob.trans job, startPhase.trans phase⟩

theorem set_executer_carries (manager : JobManager J machines) (index : Nat) (executer other : Executer J machines)
    (present : manager.executers[index]? = some executer)
    (same : other.delivered = true → executer.job = other.job ∧ executer.phase = other.phase) :
    Carries manager (manager.setExecuter index other) := by
  refine ⟨fun _ _ => rfl, fun position one listed delivered => ?_⟩
  obtain ⟨within, _⟩ := List.getElem?_eq_some_iff.mp present
  by_cases here : index = position
  · subst here
    simp only [JobManager.setExecuter, List.getElem?_set_self within, Option.some.injEq] at listed
    subst listed
    exact ⟨executer, present, same delivered⟩
  · simp only [JobManager.setExecuter, List.getElem?_set_ne here] at listed
    exact ⟨one, listed, rfl, rfl⟩

theorem carries_kills : KillRelation (@Carries J machines) where
  refl manager := carries_same manager manager rfl rfl
  trans := carries_trans
  terminated manager index executer present := set_executer_carries manager index executer _ present fun _ => ⟨rfl, rfl⟩
  unqueued manager _ _ := carries_same manager _ rfl rfl

theorem kill_carries (manager : JobManager J machines) (key : JobKey J) : Carries manager (manager.kill key) :=
  kill_related Carries carries_kills manager key

theorem stop_carries (manager : JobManager J machines) : Carries manager manager.stop :=
  carries_trans _ _ _ (kill_all_related Carries carries_kills manager.allJobs manager) (carries_same _ _ rfl rfl)

theorem clean_up_job_carries (setup : JobSetup J) (manager : JobManager J machines) (job : J) (exitCode : Int) (timedOut : Bool) :
    Carries manager (manager.cleanUpJob setup job exitCode timedOut).1 := by
  have cleaned := clean_up_job_cases setup manager job exitCode timedOut
  generalize manager.cleanUpJob setup job exitCode timedOut = result at cleaned
  cases cleaned with
  | absent | homeless => exact carries_same manager manager rfl rfl
  | ran index executer mapping succeeded found present =>
      have going := set_executer_carries manager index executer { executer with
          terminated := (runCommand (setup.dryRun executer.job) executer.terminated exitCode timedOut).terminated } present
        fun _ => ⟨rfl, rfl⟩
      exact carries_trans _ _ _ going (carries_same _ _ rfl rfl)

theorem final_no_transitions (status : JobStatus) (final : status.final) : jobTransitions status = [] := by
  rcases final with rfl | rfl <;> rfl

section

variable [DecidableEq J]

theorem set_status_carries (manager : JobManager J machines) (index : Nat) (executer : Executer J machines)
    (status : JobStatus) (rest : List (ExecuterOperation J)) (present : manager.executers[index]? = some executer)
    (allowed : status ∈ jobTransitions (manager.status executer.job)) :
    Carries manager (manager.setStatus index executer status rest) := by
  have going := set_executer_carries manager index executer { executer with phase := .executing rest } present
    fun delivered => by simp [Executer.delivered] at delivered
  unfold JobManager.setStatus
  rw [change_allowed jobTransitions (manager.jobs executer.job) status allowed]
  refine ⟨fun job final => ?_, going.delivered⟩
  have other : job ≠ executer.job := by
    rintro rfl
    rw [final_no_transitions _ final] at allowed
    cases allowed
  simp only [JobManager.status, Function.update_of_ne other]

theorem execute_carries (setup : JobSetup J) (manager next : JobManager J machines) (index : Nat) (exitCode : Int)
    (timedOut : Bool) (inv : OnTheWay manager) (taken : manager.execute setup index exitCode timedOut = some next) :
    Carries manager next := by
  cases execute_cases setup manager next index exitCode timedOut taken with
  | status executer status rest present phase =>
      have progress := inv.progress executer (List.mem_of_getElem? present)
      exact set_status_carries manager index executer status rest present (progress.executing _ phase).1
  | got executer rest text present phase written =>
      exact set_executer_carries manager index executer _ present fun delivered => by simp [Executer.delivered] at delivered
  | command executer command rest present phase =>
      exact set_executer_carries manager index executer _ present fun delivered => by simp [Executer.delivered] at delivered

omit [DecidableEq J] in
theorem return_job_machines_carries (manager next : JobManager J machines) (index : Nat) (outstanding : Outstanding manager)
    (taken : manager.returnJobMachines index = some next) : Carries manager next := by
  obtain ⟨executer, pool, present, _, _, rfl⟩ := outstanding_job_returns manager next index outstanding taken
  have notifying := set_executer_carries manager index executer { executer with phase := .notifying } present
    fun delivered => by simp [Executer.delivered] at delivered
  exact carries_trans _ _ _ notifying (carries_same _ _ rfl rfl)

theorem notify_job_complete_carries (setup : JobSetup J) (manager next : JobManager J machines) (index : Nat)
    (taken : manager.notifyJobComplete setup index = some next) : Carries manager next := by
  obtain ⟨executer, present, _, rfl⟩ := notify_job_complete_cases setup manager next index taken
  have told := set_executer_carries manager index executer { executer with phase := .informing, notified := true } present
    fun delivered => by simp [Executer.delivered] at delivered
  exact carries_trans _ _ _ told (carries_same _ _ rfl rfl)

omit [DecidableEq J] in
theorem drain_carries (setup : JobSetup J) (manager : JobManager J machines) : Carries manager (manager.drain setup) := by
  have drained := drain_cases setup manager
  generalize manager.drain setup = next at drained
  cases drained with
  | empty | crashed | refused => exact carries_same _ _ rfl rfl
  | started job specs pool acquired last required result some_machine =>
      refine ⟨fun _ _ => rfl, fun index executer present delivered => ?_⟩
      simp only [JobManager.startJob, List.getElem?_append] at present
      split at present
      · exact ⟨executer, present, rfl, rfl⟩
      · rw [List.mem_singleton.mp (List.mem_of_getElem? present)] at delivered
        simp [Executer.delivered, newExecuter] at delivered

theorem step_carries (setup : JobSetup J) (manager : JobManager J machines) (action : JobAction J) (next : JobManager J machines)
    (inv : JobsProgress setup manager) (taken : manager.step setup action = some next) : Carries manager next := by
  cases step_cases setup manager action next taken with
  | started | added => exact carries_same _ _ rfl rfl
  | stopped => exact stop_carries manager
  | killed key => exact kill_carries manager key
  | ran _ taken =>
      obtain ⟨thread, rfl⟩ | ⟨_, rfl⟩ := run_cases setup manager next taken
      · exact carries_same _ _ rfl rfl
      · exact drain_carries setup manager
  | executed index exitCode timedOut _ taken =>
      exact execute_carries setup manager next index exitCode timedOut inv.onTheWay taken
  | returned index _ taken => exact return_job_machines_carries manager next index inv.outstanding taken
  | notified index _ taken => exact notify_job_complete_carries setup manager next index taken

end

theorem set_executer_jobs_progress (setup : JobSetup J) (manager : JobManager J machines) (index : Nat)
    (executer other : Executer J machines) (inv : JobsProgress setup manager) (present : manager.executers[index]? = some executer)
    (same : other.job = executer.job) (held : other.held = executer.held) (executes : ExecutesOn manager other)
    (progress : Progress (manager.status executer.job) other) : JobsProgress setup (manager.setExecuter index other) :=
  ⟨outstanding_set_executer manager index executer other present inv.outstanding held executes,
    quiet_queued_once setup manager _ inv.queuedOnce
      ⟨List.Subset.refl _, id, set_executer_started manager index executer other present same, rfl, rfl, fun _ => id⟩,
    set_executer_on_the_way manager index executer other inv.onTheWay present same progress⟩

theorem clean_up_job_progress (setup : JobSetup J) (manager : JobManager J machines) (job : J) (exitCode : Int) (timedOut : Bool)
    (inv : JobsProgress setup manager) : JobsProgress setup (manager.cleanUpJob setup job exitCode timedOut).1 := by
  have cleaned := clean_up_job_cases setup manager job exitCode timedOut
  generalize manager.cleanUpJob setup job exitCode timedOut = result at cleaned
  cases cleaned with
  | absent | homeless => exact inv
  | ran index executer mapping succeeded found present =>
      have member : executer ∈ manager.executers := List.mem_of_getElem? present
      have executes := inv.outstanding.executes executer member
      have going := set_executer_jobs_progress setup manager index executer { executer with
          terminated := (runCommand (setup.dryRun executer.job) executer.terminated exitCode timedOut).terminated } inv present
        rfl rfl ⟨executes.unnotified, executes.machines⟩ (terminated_progress _ executer _ (inv.onTheWay.progress executer member))
      exact ⟨outstanding_same _ _ going.outstanding rfl rfl rfl rfl,
        quiet_queued_once setup _ _ going.queuedOnce ⟨List.Subset.refl _, id, rfl, rfl, rfl, fun _ => id⟩,
        on_the_way_same _ _ going.onTheWay rfl rfl rfl⟩

-- Past its own notification an executer only changes its phase.
structure Told (executer : Executer J machines) : Prop where
  ended : ∀ operations, executer.phase ≠ .executing operations
  told : executer.phase ≠ .notifying

theorem told_holds_nothing (executer : Executer J machines) (ended : ∀ operations, executer.phase ≠ .executing operations)
    (notified : executer.notified = true) : executer.held = [] := by
  have idle : executer.holds = false := by
    cases phase : executer.phase with
    | executing operations => exact absurd phase (ended operations)
    | died => simp [Executer.holds, phase, notified]
    | notifying | informing | cleaning | finished => simp [Executer.holds, phase]
  simp [Executer.held, idle]

theorem set_phase_progress (setup : JobSetup J) (manager : JobManager J machines) (index : Nat) (executer : Executer J machines)
    (phase : ExecuterPhase J) (inv : JobsProgress setup manager) (present : manager.executers[index]? = some executer)
    (told : Told executer) (ended : ∀ operations, phase ≠ .executing operations) :
    JobsProgress setup (manager.setPhase index phase) := by
  have progress := inv.onTheWay.progress executer (List.mem_of_getElem? present)
  have notified := progress.notified told.ended told.told
  simp only [JobManager.setPhase, present]
  refine set_executer_jobs_progress setup manager index executer _ inv present rfl ?_ ⟨?_, ?_⟩ ⟨?_, ?_, ?_⟩
  · rw [told_holds_nothing executer told.ended notified]
    exact told_holds_nothing _ ended notified
  · exact fun operations executing => absurd executing (ended operations)
  · exact fun operations executing => absurd executing (ended operations)
  · exact fun operations executing => absurd executing (ended operations)
  · exact fun _ => progress.ended told.ended
  · exact fun _ _ => notified

-- Nothing that a group's status depends on is taken back.
structure Steady (setup : GroupSetup J G) (manager next : JobManager J machines) (group : G) : Prop where
  final : ∀ job, (manager.status job).final → next.status job = manager.status job
  delivered : ∀ executer ∈ next.executers, setup.group executer.job = group → executer.delivered = true →
    ∃ before ∈ manager.executers, before.job = executer.job ∧ before.delivered = true

theorem carries_steady (setup : GroupSetup J G) (manager next : JobManager J machines) (group : G) (carries : Carries manager next) :
    Steady setup manager next group := by
  refine ⟨carries.final, fun executer member _ delivered => ?_⟩
  obtain ⟨index, present⟩ := List.getElem?_of_mem member
  obtain ⟨before, presentBefore, job, phase⟩ := carries.delivered index executer present delivered
  refine ⟨before, List.mem_of_getElem? presentBefore, job, ?_⟩
  rw [Executer.delivered, phase]
  exact delivered

-- Where a group can be: not added yet, being added, or added with its status.
inductive GroupAt (setup : GroupSetup J G) (server : JobGroupManager J G machines) (group : G) : Prop where
  | absent (missing : group ∉ server.allJobGroups) (unlocked : ∀ rest, server.lock ≠ .adding group rest)
      (state : server.groups group = StateMachine.init .notExecuted)
      (unnumbered : ∀ job, setup.group job = group → server.jobManager.ids job = 0)
  | adding (rest : List J) (member : group ∈ server.allJobGroups) (lock : server.lock = .adding group rest)
      (belong : ∀ job ∈ rest, setup.group job = group) (state : server.groups group = StateMachine.init .notExecuted)
      (undelivered : ∀ executer ∈ server.jobManager.executers, setup.group executer.job = group → executer.delivered = false)
  | executing (member : group ∈ server.allJobGroups) (unlocked : ∀ rest, server.lock ≠ .adding group rest)
      (state : server.groups group = { current := .executing, timeline := [.notExecuted, .executing] })
      (succeeded : ∀ executer ∈ server.jobManager.executers, setup.group executer.job = group → executer.delivered = true →
        server.jobManager.status executer.job = .succeeded)
      (pending : setup.jobs group ≠ [] → ∃ job ∈ setup.jobs group, ∀ executer ∈ server.jobManager.executers,
        executer.job = job → executer.delivered = false)
  | succeeded (member : group ∈ server.allJobGroups) (unlocked : ∀ rest, server.lock ≠ .adding group rest)
      (state : server.groups group = { current := .succeeded, timeline := [.notExecuted, .executing, .succeeded] })
      (all : ∀ job ∈ setup.jobs group, server.jobManager.status job = .succeeded)
  | failed (member : group ∈ server.allJobGroups) (unlocked : ∀ rest, server.lock ≠ .adding group rest)
      (state : server.groups group = { current := .failed, timeline := [.notExecuted, .executing, .failed] })
      (one : ∃ job ∈ setup.jobs group, server.jobManager.status job = .failed)

theorem group_at_steady (setup : GroupSetup J G) (server next : JobGroupManager J G machines) (group : G)
    (at_group : GroupAt setup server group) (steady : Steady setup server.jobManager next.jobManager group)
    (groups : next.groups group = server.groups group) (added : group ∈ next.allJobGroups ↔ group ∈ server.allJobGroups)
    (lock : ∀ rest, next.lock = .adding group rest ↔ server.lock = .adding group rest)
    (ids : ∀ job, setup.group job = group → next.jobManager.ids job = server.jobManager.ids job) : GroupAt setup next group := by
  have open_lock : (∀ rest, server.lock ≠ .adding group rest) → ∀ rest, next.lock ≠ .adding group rest :=
    fun unlocked rest locked => unlocked rest ((lock rest).mp locked)
  have undelivered : ∀ job, setup.group job = group →
      (∀ executer ∈ server.jobManager.executers, executer.job = job → executer.delivered = false) →
      ∀ executer ∈ next.jobManager.executers, executer.job = job → executer.delivered = false := by
    intro job among before executer member is
    by_contra delivers
    rw [Bool.not_eq_false] at delivers
    obtain ⟨old, oldMember, same, delivered⟩ := steady.delivered executer member (by rw [is]; exact among) delivers
    rw [before old oldMember (same.trans is)] at delivered
    cases delivered
  cases at_group with
  | absent missing unlocked state unnumbered =>
      refine .absent (fun member => missing (added.mp member)) (open_lock unlocked) (groups.trans state) fun job among => ?_
      rw [ids job among]
      exact unnumbered job among
  | adding rest member locked belong state before =>
      refine .adding rest (added.mpr member) ((lock rest).mpr locked) belong (groups.trans state) fun executer inside among => ?_
      exact undelivered executer.job among (fun old oldMember same => before old oldMember (by rw [same]; exact among)) executer inside rfl
  | executing member unlocked state succeeded pending =>
      refine .executing (added.mpr member) (open_lock unlocked) (groups.trans state) (fun executer inside among delivered => ?_)
        fun nonempty => ?_
      · obtain ⟨old, oldMember, same, oldDelivered⟩ := steady.delivered executer inside among delivered
        have done := succeeded old oldMember (by rw [same]; exact among) oldDelivered
        rw [same] at done
        rw [steady.final executer.job (.inl done)]
        exact done
      · obtain ⟨job, inside, before⟩ := pending nonempty
        exact ⟨job, inside, undelivered job ((setup.belongs job group).mp inside) before⟩
  | succeeded member unlocked state all =>
      refine .succeeded (added.mpr member) (open_lock unlocked) (groups.trans state) fun job inside => ?_
      rw [steady.final job (.inl (all job inside))]
      exact all job inside
  | failed member unlocked state one =>
      obtain ⟨job, inside, failed⟩ := one
      refine .failed (added.mpr member) (open_lock unlocked) (groups.trans state) ⟨job, inside, ?_⟩
      rw [steady.final job (.inr failed)]
      exact failed

-- While a group is being added, none of its executers can have delivered.
structure BeingAdded (setup : GroupSetup J G) (server : JobGroupManager J G machines) (group : G) (rest : List J) : Prop where
  member : group ∈ server.allJobGroups
  belong : ∀ job ∈ rest, setup.group job = group
  state : server.groups group = StateMachine.init .notExecuted
  undelivered : ∀ executer ∈ server.jobManager.executers, setup.group executer.job = group → executer.delivered = false

theorem group_at_adding (setup : GroupSetup J G) (server : JobGroupManager J G machines) (group : G) (rest : List J)
    (at_group : GroupAt setup server group) (lock : server.lock = .adding group rest) : BeingAdded setup server group rest := by
  cases at_group with
  | adding left member locked belong state undelivered =>
      rw [lock, GroupLock.adding.injEq] at locked
      exact ⟨member, locked.2 ▸ belong, state, undelivered⟩
  | absent _ unlocked => exact absurd lock (unlocked rest)
  | executing _ unlocked => exact absurd lock (unlocked rest)
  | succeeded _ unlocked => exact absurd lock (unlocked rest)
  | failed _ unlocked => exact absurd lock (unlocked rest)

structure GroupsTracked (setup : GroupSetup J G) (server : JobGroupManager J G machines) : Prop where
  jobs : JobsProgress setup.toJobSetup server.jobManager
  groups : ∀ group, GroupAt setup server group
  cleaning : ∀ (index : Nat) (executer : Executer J machines), server.jobManager.executers[index]? = some executer →
    ∀ operations, executer.phase = .cleaning operations → server.lock = .cleaning index
  asserted : server.assertionFailed = false

theorem carried_tracked (setup : GroupSetup J G) (server : JobGroupManager J G machines) (manager : JobManager J machines)
    (inv : GroupsTracked setup server) (jobs : JobsProgress setup.toJobSetup manager) (carries : Carries server.jobManager manager)
    (ids : manager.ids = server.jobManager.ids) : GroupsTracked setup { server with jobManager := manager } := by
  refine ⟨jobs, fun group => ?_, fun index executer present operations phase => ?_, inv.asserted⟩
  · exact group_at_steady setup server _ group (inv.groups group) (carries_steady setup _ _ group carries) rfl Iff.rfl
      (fun _ => Iff.rfl) fun job _ => by rw [ids]
  · obtain ⟨before, presentBefore, _, same⟩ := carries.delivered index executer present (by simp [Executer.delivered, phase])
    exact inv.cleaning index before presentBefore operations (same.trans phase)

-- The lock goes from hand to hand while no executer and no AddJobGroup has it.
theorem relocked_tracked (setup : GroupSetup J G) (server : JobGroupManager J G machines) (lock : GroupLock J G) (kills : List (Kill J G))
    (inv : GroupsTracked setup server) (adds : ∀ group rest, server.lock ≠ .adding group rest)
    (cleans : ∀ index, server.lock ≠ .cleaning index) (later : ∀ group rest, lock ≠ .adding group rest) :
    GroupsTracked setup { server with lock := lock, kills := kills } := by
  refine ⟨inv.jobs, fun group => ?_, fun index executer present operations phase => ?_, inv.asserted⟩
  · refine group_at_steady setup server _ group (inv.groups group) (carries_steady setup _ _ group (carries_same _ _ rfl rfl)) rfl Iff.rfl
      (fun rest => ?_) fun _ _ => rfl
    exact ⟨fun adding => absurd adding (later group rest), fun adding => absurd adding (adds group rest)⟩
  · exact absurd (inv.cleaning index executer present operations phase) (cleans index)

theorem deliver_tracked (setup : GroupSetup J G) (server next : JobGroupManager J G machines) (index : Nat)
    (executer : Executer J machines) (phase : ExecuterPhase J) (inv : GroupsTracked setup server)
    (present : server.jobManager.executers[index]? = some executer) (informing : executer.phase = .informing)
    (free : server.lock = .free) (manager : next.jobManager = server.jobManager.setPhase index phase)
    (lock : ((∃ operations, phase = .cleaning operations) ∧ next.lock = .cleaning index) ∨ (phase = .finished ∧ next.lock = .free))
    (added : next.allJobGroups = server.allJobGroups) (asserted : next.assertionFailed = server.assertionFailed)
    (others : ∀ group, group ≠ setup.group executer.job → next.groups group = server.groups group)
    (here : GroupAt setup next (setup.group executer.job)) : GroupsTracked setup next := by
  have ended : ∀ operations, phase ≠ .executing operations := by
    rcases lock with ⟨⟨operations, rfl⟩, _⟩ | ⟨rfl, _⟩ <;> simp
  have unlocked : ∀ group rest, next.lock ≠ .adding group rest := by
    rcases lock with ⟨_, locked⟩ | ⟨_, locked⟩ <;> simp [locked]
  have set : server.jobManager.setPhase index phase = server.jobManager.setExecuter index { executer with phase := phase } := by
    simp only [JobManager.setPhase, present]
  refine ⟨?_, fun group => ?_, fun position one listed operations cleaning => ?_, asserted.trans inv.asserted⟩
  · rw [manager]
    exact set_phase_progress setup.toJobSetup server.jobManager index executer phase inv.jobs present
      ⟨by simp [informing], by simp [informing]⟩ ended
  · by_cases same : group = setup.group executer.job
    · rw [same]
      exact here
    · refine group_at_steady setup server next group (inv.groups group) ⟨fun _ _ => by rw [manager, set]; rfl, ?_⟩ (others group same)
        (by rw [added]) (fun rest => ?_) fun _ _ => by rw [manager, set]; rfl
      · intro one member among delivered
        rw [manager, set] at member
        rcases mem_set_executer server.jobManager index _ one member with old | rfl
        · exact ⟨one, old, rfl, delivered⟩
        · exact absurd among.symm same
      · rw [free]
        exact ⟨fun adding => absurd adding (unlocked group rest), fun adding => by cases adding⟩
  · rw [manager, set] at listed
    by_cases same : index = position
    · subst same
      obtain ⟨within, _⟩ := List.getElem?_eq_some_iff.mp present
      simp only [JobManager.setExecuter, List.getElem?_set_self within, Option.some.injEq] at listed
      rcases lock with ⟨_, locked⟩ | ⟨done, _⟩
      · exact locked
      · rw [← listed, done] at cleaning
        cases cleaning
    · simp only [JobManager.setExecuter, List.getElem?_set_ne same] at listed
      have locked := inv.cleaning position one listed operations cleaning
      rw [free] at locked
      cases locked

-- The job at which the loop over the group's jobs stops.
def FirstUnfinished (status : J → JobStatus) (jobs : List J) (job : J) : Prop :=
  ∃ before after, jobs = before ++ job :: after ∧ (∀ other ∈ before, status other = .succeeded) ∧ status job ≠ .succeeded

theorem finished_some_true (status : J → JobStatus) (jobs : List J) :
    finished status jobs = some true ↔ ∀ job ∈ jobs, status job = .succeeded := by
  induction jobs with
  | nil => simp [finished]
  | cons job rest ih =>
      simp only [finished]
      by_cases failed : status job = .failed
      · simp [failed]
      by_cases succeeded : status job = .succeeded
      · simp [succeeded, ih]
      · simp [failed, succeeded]

theorem finished_none (status : J → JobStatus) (jobs : List J) (fails : finished status jobs = none) :
    ∃ job, FirstUnfinished status jobs job ∧ status job = .failed := by
  induction jobs with
  | nil => cases fails
  | cons job rest ih =>
      simp only [finished] at fails
      by_cases failed : status job = .failed
      · exact ⟨job, ⟨[], rest, rfl, by simp, by simp [failed]⟩, failed⟩
      by_cases succeeded : status job = .succeeded
      · rw [if_neg failed, if_pos succeeded] at fails
        obtain ⟨other, ⟨before, after, is, all, unfinished⟩, otherFailed⟩ := ih fails
        refine ⟨other, ⟨job :: before, after, by rw [is]; rfl, ?_, unfinished⟩, otherFailed⟩
        exact List.forall_mem_cons.mpr ⟨succeeded, all⟩
      · rw [if_neg failed, if_neg succeeded] at fails
        cases fails

section

variable [DecidableEq G]

theorem fail_group_tracked (setup : GroupSetup J G) (server : JobGroupManager J G machines) (index : Nat) (executer : Executer J machines)
    (inv : GroupsTracked setup server) (present : server.jobManager.executers[index]? = some executer)
    (informing : executer.phase = .informing) (free : server.lock = .free) (added : setup.group executer.job ∈ server.allJobGroups)
    (state : server.groups (setup.group executer.job) = { current := .executing, timeline := [.notExecuted, .executing] })
    (failed : server.jobManager.status executer.job = .failed) :
    GroupsTracked setup (server.failGroup setup index (setup.group executer.job)) := by
  have own : executer.job ∈ setup.jobs (setup.group executer.job) := (setup.belongs _ _).mpr rfl
  have allowed := change_allowed groupTransitions (server.groups (setup.group executer.job)) .failed
    (by rw [state]; simp [groupTransitions])
  unfold JobGroupManager.failGroup
  rw [allowed, state]
  dsimp only
  split
  · refine deliver_tracked setup server _ index executer _ inv present informing free rfl (.inl ⟨⟨_, rfl⟩, rfl⟩) rfl rfl
      (fun group other => Function.update_of_ne other _ _) ?_
    exact .failed added (by simp) (by simp [JobGroupManager.setPhase]) ⟨executer.job, own, (set_phase_status _ _ _ _).trans failed⟩
  · refine deliver_tracked setup server _ index executer _ inv present informing free rfl (.inr ⟨rfl, free⟩) rfl rfl
      (fun group other => Function.update_of_ne other _ _) ?_
    exact .failed added (by simp [JobGroupManager.setPhase, free]) (by simp [JobGroupManager.setPhase])
      ⟨executer.job, own, (set_phase_status _ _ _ _).trans failed⟩

theorem complete_group_tracked (setup : GroupSetup J G) (server : JobGroupManager J G machines) (index : Nat)
    (executer : Executer J machines) (inv : GroupsTracked setup server)
    (present : server.jobManager.executers[index]? = some executer) (informing : executer.phase = .informing)
    (free : server.lock = .free) (added : setup.group executer.job ∈ server.allJobGroups)
    (state : server.groups (setup.group executer.job) = { current := .executing, timeline := [.notExecuted, .executing] })
    (all : ∀ job ∈ setup.jobs (setup.group executer.job), server.jobManager.status job = .succeeded) :
    GroupsTracked setup (server.completeGroup setup index (setup.group executer.job)) := by
  have allowed := change_allowed groupTransitions (server.groups (setup.group executer.job)) .succeeded
    (by rw [state]; simp [groupTransitions])
  unfold JobGroupManager.completeGroup
  rw [allowed, state]
  dsimp only
  split
  · refine deliver_tracked setup server _ index executer _ inv present informing free rfl (.inl ⟨⟨_, rfl⟩, rfl⟩) rfl rfl
      (fun group other => Function.update_of_ne other _ _) ?_
    exact .succeeded added (by simp) (by simp [JobGroupManager.setPhase]) fun job inside =>
      (set_phase_status _ _ _ _).trans (all job inside)
  · refine deliver_tracked setup server _ index executer _ inv present informing free rfl (.inr ⟨rfl, free⟩) rfl rfl
      (fun group other => Function.update_of_ne other _ _) ?_
    exact .succeeded added (by simp [JobGroupManager.setPhase, free]) (by simp [JobGroupManager.setPhase]) fun job inside =>
      (set_phase_status _ _ _ _).trans (all job inside)

omit [DecidableEq G] in
-- A success that is not the last one: whoever else has delivered has succeeded too, so
-- the job that has not is still pending.
theorem unfinished_group_at (setup : GroupSetup J G) (server : JobGroupManager J G machines) (index : Nat)
    (executer : Executer J machines) (present : server.jobManager.executers[index]? = some executer) (free : server.lock = .free)
    (done : server.jobManager.status executer.job = .succeeded) (added : setup.group executer.job ∈ server.allJobGroups)
    (state : server.groups (setup.group executer.job) = { current := .executing, timeline := [.notExecuted, .executing] })
    (succeeded : ∀ one ∈ server.jobManager.executers, setup.group one.job = setup.group executer.job → one.delivered = true →
      server.jobManager.status one.job = .succeeded)
    (unfinished : finished server.jobManager.status (setup.jobs (setup.group executer.job)) ≠ some true) :
    GroupAt setup (server.setPhase index .finished) (setup.group executer.job) := by
  have delivers : ∀ one ∈ (server.jobManager.setPhase index .finished).executers, setup.group one.job = setup.group executer.job →
      one.delivered = true → server.jobManager.status one.job = .succeeded := by
    intro one member among delivered
    simp only [JobManager.setPhase, present] at member
    rcases mem_set_executer server.jobManager index _ one member with old | rfl
    · exact succeeded one old among delivered
    · exact done
  refine .executing added (by simp [JobGroupManager.setPhase, free]) state (fun one member among delivered => ?_) fun _ => ?_
  · exact (set_phase_status _ _ _ _).trans (delivers one member among delivered)
  · obtain ⟨job, inside, open_job⟩ : ∃ job ∈ setup.jobs (setup.group executer.job), server.jobManager.status job ≠ .succeeded := by
      by_contra none_open
      refine unfinished ((finished_some_true _ _).mpr fun job inside => ?_)
      by_contra open_job
      exact none_open ⟨job, inside, open_job⟩
    refine ⟨job, inside, fun one member is => ?_⟩
    by_contra delivered
    rw [Bool.not_eq_false] at delivered
    have among : setup.group one.job = setup.group executer.job := by
      rw [is]
      exact (setup.belongs job _).mp inside
    exact open_job (is ▸ delivers one member among delivered)

theorem handle_tracked (setup : GroupSetup J G) (server : JobGroupManager J G machines) (index : Nat) (executer : Executer J machines)
    (inv : GroupsTracked setup server) (present : server.jobManager.executers[index]? = some executer)
    (informing : executer.phase = .informing) (free : server.lock = .free)
    (unfailed : server.jobManager.status executer.job = .succeeded →
      (server.groups (setup.group executer.job)).current ≠ .failed →
      ∀ job, FirstUnfinished server.jobManager.status (setup.jobs (setup.group executer.job)) job → server.jobManager.status job ≠ .failed) :
    GroupsTracked setup (server.handle setup index executer.job) := by
  have member : executer ∈ server.jobManager.executers := List.mem_of_getElem? present
  have own : executer.job ∈ setup.jobs (setup.group executer.job) := (setup.belongs _ _).mpr rfl
  have final := (inv.jobs.onTheWay.progress executer member).ended (by simp [informing])
  have stays : GroupAt setup (server.setPhase index .finished) (setup.group executer.job) →
      GroupsTracked setup (server.setPhase index .finished) :=
    deliver_tracked setup server _ index executer .finished inv present informing free rfl (.inr ⟨rfl, free⟩) rfl rfl fun _ _ => rfl
  unfold JobGroupManager.handle
  dsimp only
  cases inv.groups (setup.group executer.job) with
  | absent missing unlocked state unnumbered =>
      exact absurd (unnumbered executer.job rfl) (inv.jobs.queuedOnce.added executer.job (.inr (List.mem_map_of_mem member)))
  | adding rest added locked belong state undelivered =>
      rw [free] at locked
      cases locked
  | failed added unlocked state one =>
      rw [state, if_pos rfl]
      obtain ⟨job, inside, failed⟩ := one
      exact stays (.failed added unlocked state ⟨job, inside, (set_phase_status _ _ _ _).trans failed⟩)
  | succeeded added unlocked state all =>
      have done := all executer.job own
      have finishes := (finished_some_true server.jobManager.status _).mpr all
      rw [state, if_neg (by simp), if_neg (by simp [done]), if_pos done, finishes]
      simp only [ne_eq, not_true_eq_false, and_false, if_false]
      exact stays (.succeeded added unlocked state fun job inside => (set_phase_status _ _ _ _).trans (all job inside))
  | executing added unlocked state succeeded pending =>
      rw [if_neg (by simp [state])]
      rcases final with done | failed
      · rw [if_neg (by simp [done]), if_pos done]
        cases result : finished server.jobManager.status (setup.jobs (setup.group executer.job)) with
        | none =>
            obtain ⟨job, first, failed⟩ := finished_none _ _ result
            exact absurd failed (unfailed done (by simp [state]) job first)
        | some all =>
            cases all with
            | true =>
                dsimp only
                rw [if_pos ⟨rfl, by simp [state]⟩]
                exact complete_group_tracked setup server index executer inv present informing free added state
                  ((finished_some_true _ _).mp result)
            | false =>
                dsimp only
                rw [if_neg (by simp)]
                exact stays (unfinished_group_at setup server index executer present free done added state succeeded (by simp [result]))
      · rw [if_pos failed]
        exact fail_group_tracked setup server index executer inv present informing free added state failed

omit [DecidableEq G] in
theorem cleaned_tracked (setup : GroupSetup J G) (server : JobGroupManager J G machines) (index : Nat) (executer : Executer J machines)
    (operations : List (CleanUpOperation J)) (phase : ExecuterPhase J) (lock : GroupLock J G) (kills : List (Kill J G))
    (inv : GroupsTracked setup server) (present : server.jobManager.executers[index]? = some executer)
    (cleaning : executer.phase = .cleaning operations) (ended : ∀ rest, phase ≠ .executing rest)
    (next : ((∃ rest, phase = .cleaning rest) ∧ lock = .cleaning index) ∨ ((∀ rest, phase ≠ .cleaning rest) ∧ lock = .free)) :
    GroupsTracked setup { server.setPhase index phase with lock := lock, kills := kills } := by
  have locked := inv.cleaning index executer present operations cleaning
  have unlocked : ∀ group rest, lock ≠ .adding group rest := by
    rcases next with ⟨_, rfl⟩ | ⟨_, rfl⟩ <;> simp
  have set : server.jobManager.setPhase index phase = server.jobManager.setExecuter index { executer with phase := phase } := by
    simp only [JobManager.setPhase, present]
  refine ⟨?_, fun group => ?_, fun position one listed rest still => ?_, inv.asserted⟩
  · exact set_phase_progress setup.toJobSetup server.jobManager index executer phase inv.jobs present
      ⟨by simp [cleaning], by simp [cleaning]⟩ ended
  · refine group_at_steady setup server _ group (inv.groups group) ⟨fun job _ => set_phase_status _ _ _ job, ?_⟩ rfl Iff.rfl (fun rest => ?_)
      fun _ _ => by simp only [JobGroupManager.setPhase, set]; rfl
    · intro one member among delivered
      simp only [JobGroupManager.setPhase, set] at member
      rcases mem_set_executer server.jobManager index _ one member with old | rfl
      · exact ⟨one, old, rfl, delivered⟩
      · exact ⟨executer, List.mem_of_getElem? present, rfl, by simp [Executer.delivered, cleaning]⟩
    · rw [locked]
      exact ⟨fun adding => absurd adding (unlocked group rest), fun adding => by cases adding⟩
  · simp only [JobGroupManager.setPhase, set] at listed
    by_cases same : index = position
    · subst same
      obtain ⟨within, _⟩ := List.getElem?_eq_some_iff.mp present
      simp only [JobManager.setExecuter, List.getElem?_set_self within, Option.some.injEq] at listed
      rw [← listed] at still
      rcases next with ⟨_, rfl⟩ | ⟨left, _⟩
      · rfl
      · exact absurd still (left rest)
    · simp only [JobManager.setExecuter, List.getElem?_set_ne same] at listed
      have other := inv.cleaning position one listed rest still
      rw [locked, GroupLock.cleaning.injEq] at other
      exact absurd other same

omit [DecidableEq G] in
theorem clean_up_job_phase (setup : JobSetup J) (manager : JobManager J machines) (job : J) (exitCode : Int) (timedOut : Bool)
    (index : Nat) (executer : Executer J machines) (present : manager.executers[index]? = some executer) :
    ∃ after, (manager.cleanUpJob setup job exitCode timedOut).1.executers[index]? = some after ∧ after.phase = executer.phase := by
  obtain ⟨within, _⟩ := List.getElem?_eq_some_iff.mp present
  have cleaned := clean_up_job_cases setup manager job exitCode timedOut
  generalize manager.cleanUpJob setup job exitCode timedOut = result at cleaned
  cases cleaned with
  | absent | homeless => exact ⟨executer, present, rfl⟩
  | ran own other mapping succeeded found presentOther =>
      by_cases same : own = index
      · subst same
        rw [present, Option.some.injEq] at presentOther
        exact ⟨_, List.getElem?_set_self within, by rw [presentOther]⟩
      · exact ⟨executer, (List.getElem?_set_ne same).trans present, rfl⟩

theorem leave_clean_up_tracked (setup : GroupSetup J G) (server : JobGroupManager J G machines) (index : Nat) (job : J)
    (executer : Executer J machines) (operations : List (CleanUpOperation J)) (phase : ExecuterPhase J)
    (inv : GroupsTracked setup server) (present : server.jobManager.executers[index]? = some executer)
    (cleaning : executer.phase = .cleaning operations) (ended : ∀ rest, phase ≠ .executing rest)
    (left : ∀ rest, phase ≠ .cleaning rest) : GroupsTracked setup (server.leaveCleanUp setup index job phase) := by
  have tracked := fun kills => cleaned_tracked setup server index executer operations phase .free kills inv present cleaning ended
    (.inr ⟨left, rfl⟩)
  unfold JobGroupManager.leaveCleanUp
  dsimp only
  split
  · exact tracked _
  · exact tracked _

theorem clean_up_tracked (setup : GroupSetup J G) (server next : JobGroupManager J G machines) (index : Nat) (exitCode : Int)
    (timedOut : Bool) (inv : GroupsTracked setup server) (taken : server.cleanUp setup index exitCode timedOut = some next) :
    GroupsTracked setup next := by
  obtain ⟨executer, present, ⟨cleaning, rfl⟩ | ⟨job, rest, cleaning, rfl⟩ | ⟨job, rest, cleaning, rfl⟩⟩ :=
    clean_up_cases setup server next index exitCode timedOut taken
  · exact leave_clean_up_tracked setup server index executer.job executer [] .finished inv present cleaning (by simp) (by simp)
  · exact cleaned_tracked setup server index executer _ (.cleaning rest) server.lock server.kills inv present cleaning (by simp)
      (.inl ⟨⟨rest, rfl⟩, inv.cleaning index executer present _ cleaning⟩)
  · have carries := clean_up_job_carries setup.toJobSetup server.jobManager job exitCode timedOut
    have ids : (server.jobManager.cleanUpJob setup.toJobSetup job exitCode timedOut).1.ids = server.jobManager.ids :=
      (clean_up_job_fields setup.toJobSetup server.jobManager job exitCode timedOut).2.2.1
    have tracked := carried_tracked setup server _ inv
      (clean_up_job_progress setup.toJobSetup server.jobManager job exitCode timedOut inv.jobs) carries ids
    obtain ⟨after, presentAfter, same⟩ := clean_up_job_phase setup.toJobSetup server.jobManager job exitCode timedOut
      index executer present
    have still : after.phase = .cleaning (.cleanUp job :: rest) := same.trans cleaning
    split
    · exact cleaned_tracked setup _ index after _ (.cleaning rest) server.lock server.kills tracked presentAfter still (by simp)
        (.inl ⟨⟨rest, rfl⟩, inv.cleaning index executer present _ cleaning⟩)
    · exact leave_clean_up_tracked setup _ index executer.job after _ .died tracked presentAfter still (by simp) (by simp)

variable [DecidableEq J]

omit [DecidableEq G] in
theorem step_ids (setup : JobSetup J) (manager : JobManager J machines) (action : JobAction J) (next : JobManager J machines)
    (own : action.internal = true) (taken : manager.step setup action = some next) : next.ids = manager.ids := by
  cases step_cases setup manager action next taken with
  | started => rfl
  | stopped => exact (stop_quiet manager).ids
  | added | killed => simp [JobAction.internal] at own
  | ran _ taken =>
      obtain ⟨thread, rfl⟩ | ⟨_, rfl⟩ := run_cases setup manager next taken
      · rfl
      · have drained := drain_cases setup manager
        generalize manager.drain setup = next at drained
        cases drained <;> rfl
  | executed index exitCode timedOut _ taken => exact (execute_quiet setup manager next index exitCode timedOut taken).ids
  | returned index _ taken => exact (return_job_machines_quiet manager next index taken).ids
  | notified index _ taken =>
      obtain ⟨executer, present, _, rfl⟩ := notify_job_complete_cases setup manager next index taken
      rfl

-- The queue gets no job twice, and a success is not handled while the first job of the
-- group that has not succeeded has failed without the group knowing.
def HeardInTime (setup : GroupSetup J G) (server : JobGroupManager J G machines) : GroupAction J G → Prop
  | .jobManager action => EnqueuesFresh setup.toJobSetup server.jobManager action
  | .goOnAdding => ∀ group job rest, server.lock = .adding group (job :: rest) →
      EnqueuesFresh setup.toJobSetup server.jobManager (.addJob job)
  | .notifyJobComplete index => ∀ executer, server.jobManager.executers[index]? = some executer →
      server.jobManager.status executer.job = .succeeded → (server.groups (setup.group executer.job)).current ≠ .failed →
      ∀ job, FirstUnfinished server.jobManager.status (setup.jobs (setup.group executer.job)) job →
        server.jobManager.status job ≠ .failed
  | _ => True

omit [DecidableEq J] in
theorem add_job_group_tracked (setup : GroupSetup J G) (server next : JobGroupManager J G machines) (group : G)
    (inv : GroupsTracked setup server) (taken : server.addJobGroup setup group = some next) : GroupsTracked setup next := by
  unfold JobGroupManager.addJobGroup at taken
  split at taken
  · next free =>
      simp only [Option.ite_none_left_eq_some, Option.some.injEq] at taken
      obtain ⟨missing, rfl⟩ := taken
      refine ⟨inv.jobs, fun other => ?_, fun index executer present operations phase => ?_, inv.asserted⟩
      · by_cases same : other = group
        · subst same
          cases inv.groups other with
          | absent _ unlocked state unnumbered =>
              refine .adding (setup.jobs other) (by simp) rfl (fun job inside => (setup.belongs job other).mp inside) state ?_
              intro executer member among
              exact absurd (unnumbered executer.job among)
                (inv.jobs.queuedOnce.added executer.job (.inr (List.mem_map_of_mem member)))
          | adding _ added => exact absurd added missing
          | executing added => exact absurd added missing
          | succeeded added => exact absurd added missing
          | failed added => exact absurd added missing
        · refine group_at_steady setup server _ other (inv.groups other) (carries_steady setup _ _ other (carries_same _ _ rfl rfl)) rfl
            (by simp [same]) (fun rest => ?_) fun _ _ => rfl
          simp [free, Ne.symm same]
      · have locked := inv.cleaning index executer present operations phase
        rw [free] at locked
        cases locked
  · cases taken

theorem add_next_job_tracked (setup : GroupSetup J G) (server : JobGroupManager J G machines) (group : G) (job : J) (rest : List J)
    (inv : GroupsTracked setup server) (lock : server.lock = .adding group (job :: rest))
    (fresh : EnqueuesFresh setup.toJobSetup server.jobManager (.addJob job)) (lockFree : server.jobManager.lockFree = true) :
    GroupsTracked setup { server with
      jobManager := server.jobManager.addJob setup.toJobSetup job, lock := .adding group rest } := by
  have taken : server.jobManager.step setup.toJobSetup (.addJob job) = some (server.jobManager.addJob setup.toJobSetup job) :=
    if_pos lockFree
  have carries := step_carries setup.toJobSetup server.jobManager _ _ inv.jobs taken
  have adding := group_at_adding setup server group (job :: rest) (inv.groups group) lock
  refine ⟨step_progress setup.toJobSetup server.jobManager _ _ inv.jobs fresh taken, fun other => ?_,
    fun index executer present operations phase => ?_, inv.asserted⟩
  · by_cases same : other = group
    · subst same
      exact .adding rest adding.member rfl (fun one inside => adding.belong one (List.mem_cons_of_mem _ inside)) adding.state
        adding.undelivered
    · refine group_at_steady setup server _ other (inv.groups other) (carries_steady setup _ _ other carries) rfl Iff.rfl
        (fun left => by simp [lock, Ne.symm same]) fun one among => ?_
      have different : one ≠ job := by
        rintro rfl
        exact same (among.symm.trans (adding.belong one List.mem_cons_self))
      exact Function.update_of_ne different _ _
  · obtain ⟨before, presentBefore, _, samePhase⟩ := carries.delivered index executer present (by simp [Executer.delivered, phase])
    have locked := inv.cleaning index before presentBefore operations (samePhase.trans phase)
    rw [lock] at locked
    cases locked

theorem go_on_adding_tracked (setup : GroupSetup J G) (server next : JobGroupManager J G machines) (inv : GroupsTracked setup server)
    (heard : HeardInTime setup server .goOnAdding) (taken : server.goOnAdding setup = some next) : GroupsTracked setup next := by
  unfold JobGroupManager.goOnAdding at taken
  split at taken
  · next group job rest lock =>
      simp only [Option.ite_none_right_eq_some, Option.some.injEq] at taken
      obtain ⟨lockFree, rfl⟩ := taken
      exact add_next_job_tracked setup server group job rest inv lock (heard group job rest lock) lockFree
  · next group lock =>
      have idle : ∀ (index : Nat) (executer : Executer J machines), server.jobManager.executers[index]? = some executer →
          ∀ operations, executer.phase ≠ .cleaning operations := by
        intro index executer present operations phase
        have locked := inv.cleaning index executer present operations phase
        rw [lock] at locked
        cases locked
      have adding := group_at_adding setup server group [] (inv.groups group) lock
      rw [adding.state, change_allowed groupTransitions _ .executing (by simp [StateMachine.init, groupTransitions])] at taken
      cases taken
      refine ⟨inv.jobs, fun other => ?_, fun index executer present operations phase => ?_, inv.asserted⟩
      · by_cases same : other = group
        · subst same
          refine .executing adding.member (by simp) (by simp [StateMachine.init]) (fun executer member among delivered => ?_) fun nonempty => ?_
          · rw [adding.undelivered executer member among] at delivered
            cases delivered
          · obtain ⟨job, inside⟩ := List.exists_mem_of_ne_nil _ nonempty
            refine ⟨job, inside, fun executer member is => adding.undelivered executer member ?_⟩
            rw [is]
            exact (setup.belongs job other).mp inside
        · exact group_at_steady setup server _ other (inv.groups other) (carries_steady setup _ _ other (carries_same _ _ rfl rfl))
            (Function.update_of_ne same _ _) Iff.rfl (fun left => by simp [lock, Ne.symm same]) fun _ _ => rfl
      · exact absurd phase (idle index executer present operations)
  · cases taken

theorem group_step_tracked (setup : GroupSetup J G) (server : JobGroupManager J G machines) (action : GroupAction J G)
    (next : JobGroupManager J G machines) (inv : GroupsTracked setup server) (heard : HeardInTime setup server action)
    (taken : server.step setup action = some next) : GroupsTracked setup next := by
  cases action with
  | jobManager action =>
      simp only [JobGroupManager.step, Option.ite_none_right_eq_some, Option.map_eq_some_iff] at taken
      obtain ⟨own, manager, stepped, rfl⟩ := taken
      exact carried_tracked setup server manager inv (step_progress setup.toJobSetup server.jobManager action manager inv.jobs heard stepped)
        (step_carries setup.toJobSetup server.jobManager action manager inv.jobs stepped)
        (step_ids setup.toJobSetup server.jobManager action manager own stepped)
  | addJobGroup group => exact add_job_group_tracked setup server next group inv taken
  | goOnAdding => exact go_on_adding_tracked setup server next inv heard taken
  | killJobGroup group =>
      simp only [JobGroupManager.step, JobGroupManager.killJobGroup] at taken
      split at taken
      · next free =>
          cases taken
          exact relocked_tracked setup server _ server.kills inv (by simp [free]) (by simp [free]) (by simp)
      · cases taken
  | goOnKilling =>
      simp only [JobGroupManager.step, JobGroupManager.goOnKilling] at taken
      split at taken
      · next group job rest lock =>
          simp only [Option.ite_none_right_eq_some, Option.some.injEq] at taken
          obtain ⟨_, rfl⟩ := taken
          rw [kill_job_nothing]
          exact relocked_tracked setup server _ server.kills inv (by simp [lock]) (by simp [lock]) (by simp)
      · next group lock =>
          cases taken
          exact relocked_tracked setup server .free _ inv (by simp [lock]) (by simp [lock]) (by simp)
      · cases taken
  | notifyJobComplete index =>
      simp only [JobGroupManager.step, JobGroupManager.notifyJobComplete] at taken
      split at taken
      · cases taken
      · next executer present =>
          split at taken
          · next informing free =>
              cases taken
              exact handle_tracked setup server index executer inv present informing free (heard executer present)
          · cases taken
  | cleanUp index exitCode timedOut => exact clean_up_tracked setup server next index exitCode timedOut inv taken

-- Every executer of the group whose job has ended has told the group manager.
def AllDelivered (setup : GroupSetup J G) (server : JobGroupManager J G machines) (group : G) : Prop :=
  ∀ executer ∈ server.jobManager.executers, setup.group executer.job = group →
    (server.jobManager.status executer.job).final → executer.delivered = true

structure StatusesRight (setup : GroupSetup J G) (server : JobGroupManager J G machines) : Prop where
  succeeded : ∀ group, setup.jobs group ≠ [] → AllDelivered setup server group →
    ((server.groups group).current = .succeeded ↔ ∀ job ∈ setup.jobs group, server.jobManager.status job = .succeeded)
  failed : ∀ group, setup.jobs group ≠ [] → AllDelivered setup server group →
    ((server.groups group).current = .failed ↔ ∃ job ∈ setup.jobs group, server.jobManager.status job = .failed)
  once : ∀ group, (server.groups group).timeline ∈ [[.notExecuted], [.notExecuted, .executing],
    [.notExecuted, .executing, .succeeded], [.notExecuted, .executing, .failed]]
  jobsAsserted : server.jobManager.assertionFailed = false
  groupsAsserted : server.assertionFailed = false

omit [DecidableEq J] [DecidableEq G] in
theorem tracked_statuses_right (setup : GroupSetup J G) (server : JobGroupManager J G machines) (inv : GroupsTracked setup server) :
    StatusesRight setup server := by
  have ended : ∀ group, AllDelivered setup server group → ∀ job ∈ setup.jobs group, (server.jobManager.status job).final →
      ∃ executer ∈ server.jobManager.executers, executer.job = job ∧ executer.delivered = true := by
    intro group all job inside final
    have begun : job ∈ server.jobManager.started := by
      by_contra unstarted
      exact final_ne_executed _ final (inv.jobs.onTheWay.untouched job unstarted)
    obtain ⟨executer, member, rfl⟩ := List.mem_map.mp begun
    exact ⟨executer, member, rfl, all executer member ((setup.belongs _ _).mp inside) final⟩
  have unended : ∀ group, AllDelivered setup server group → (group ∉ server.allJobGroups ∨ ∃ rest, server.lock = .adding group rest) →
      ∀ job ∈ setup.jobs group, ¬ (server.jobManager.status job).final := by
    intro group all early job inside final
    obtain ⟨executer, member, is, delivered⟩ := ended group all job inside final
    have among : setup.group executer.job = group := by
      rw [is]
      exact (setup.belongs job group).mp inside
    cases inv.groups group with
    | absent _ _ _ unnumbered =>
        exact inv.jobs.queuedOnce.added executer.job (.inr (List.mem_map_of_mem member)) (unnumbered executer.job among)
    | adding _ _ _ _ _ undelivered =>
        rw [undelivered executer member among] at delivered
        cases delivered
    | executing added unlocked => exact early.elim (fun missing => missing added) fun ⟨rest, lock⟩ => unlocked rest lock
    | succeeded added unlocked => exact early.elim (fun missing => missing added) fun ⟨rest, lock⟩ => unlocked rest lock
    | failed added unlocked => exact early.elim (fun missing => missing added) fun ⟨rest, lock⟩ => unlocked rest lock
  refine ⟨fun group nonempty all => ?_, fun group nonempty all => ?_, fun group => ?_, inv.jobs.onTheWay.asserted, inv.asserted⟩
  · obtain ⟨first, firstInside⟩ := List.exists_mem_of_ne_nil _ nonempty
    cases inv.groups group with
    | absent missing _ state =>
        refine iff_of_false (by simp [state, StateMachine.init]) fun done => ?_
        exact unended group all (.inl missing) first firstInside (.inl (done first firstInside))
    | adding rest _ lock _ state =>
        refine iff_of_false (by simp [state, StateMachine.init]) fun done => ?_
        exact unended group all (.inr ⟨rest, lock⟩) first firstInside (.inl (done first firstInside))
    | executing _ _ state _ pending =>
        refine iff_of_false (by simp [state]) fun done => ?_
        obtain ⟨job, inside, undelivered⟩ := pending nonempty
        obtain ⟨executer, member, is, delivered⟩ := ended group all job inside (.inl (done job inside))
        rw [undelivered executer member is] at delivered
        cases delivered
    | succeeded _ _ state done => exact iff_of_true (by simp [state]) done
    | failed _ _ state one =>
        refine iff_of_false (by simp [state]) fun done => ?_
        obtain ⟨job, inside, failed⟩ := one
        rw [done job inside] at failed
        cases failed
  · cases inv.groups group with
    | absent missing _ state =>
        refine iff_of_false (by simp [state, StateMachine.init]) ?_
        rintro ⟨job, inside, failed⟩
        exact unended group all (.inl missing) job inside (.inr failed)
    | adding rest _ lock _ state =>
        refine iff_of_false (by simp [state, StateMachine.init]) ?_
        rintro ⟨job, inside, failed⟩
        exact unended group all (.inr ⟨rest, lock⟩) job inside (.inr failed)
    | executing _ _ state succeeded =>
        refine iff_of_false (by simp [state]) ?_
        rintro ⟨job, inside, failed⟩
        obtain ⟨executer, member, is, delivered⟩ := ended group all job inside (.inr failed)
        have done := succeeded executer member (by rw [is]; exact (setup.belongs job group).mp inside) delivered
        rw [is, failed] at done
        cases done
    | succeeded _ _ state done =>
        refine iff_of_false (by simp [state]) ?_
        rintro ⟨job, inside, failed⟩
        rw [done job inside] at failed
        cases failed
    | failed _ _ state one => exact iff_of_true (by simp [state]) one
  · cases inv.groups group with
    | absent _ _ state => simp [state, StateMachine.init]
    | adding _ _ _ _ state => simp [state, StateMachine.init]
    | executing _ _ state => simp [state]
    | succeeded _ _ state => simp [state]
    | failed _ _ state => simp [state]

omit [DecidableEq J] [DecidableEq G] in
theorem new_server_tracked (setup : GroupSetup J G) (pool : Pool machines) (counter : Nat) (idle : ∀ i, (pool i).idle) :
    GroupsTracked setup (newServer pool counter) := by
  refine ⟨⟨⟨⟨fun i => (idle i).1⟩, ?_⟩, new_manager_queued_once setup.toJobSetup pool counter, ⟨?_, fun _ _ => rfl, rfl⟩⟩,
    fun group => ?_, ?_, rfl⟩
  · exact fun _ member => absurd member List.not_mem_nil
  · exact fun _ member => absurd member List.not_mem_nil
  · exact .absent List.not_mem_nil (by simp [newServer]) rfl fun _ _ => rfl
  · simp [newServer, newJobManager]

theorem group_statuses_right (setup : GroupSetup J G) (pool : Pool machines) (counter : Nat) (idle : ∀ i, (pool i).idle)
    (actions : List (GroupAction J G))
    (heard : Along (JobGroupManager.step setup) (HeardInTime setup) (newServer pool counter) actions) :
    Throughout (JobGroupManager.step setup) (StatusesRight setup) (newServer pool counter) actions :=
  throughout_mono (JobGroupManager.step setup) (GroupsTracked setup) (StatusesRight setup) (tracked_statuses_right setup) _ actions
    (throughout_of_along (JobGroupManager.step setup) (HeardInTime setup) (GroupsTracked setup)
      (fun server action next inv allowed taken => group_step_tracked setup server action next inv allowed taken) actions _
      (new_server_tracked setup pool counter idle) heard)

end

-- Job 0 fails its first command and has yet to tell anybody when job 1 reports its success.
def failWhileOtherSucceeds : List (GroupAction (Fin 2) Unit) :=
  let fail : List (GroupAction (Fin 2) Unit) :=
    [.jobManager .startJobManager, .jobManager .run, .jobManager .run, .addJobGroup (), .goOnAdding, .goOnAdding, .goOnAdding,
      .jobManager .run, .jobManager .run, .jobManager .run, .jobManager .run, .jobManager (.execute 1 0 false),
      .jobManager (.execute 1 1 false), .jobManager (.execute 1 0 false)]
  let succeed : List (GroupAction (Fin 2) Unit) := List.replicate 9 (.jobManager (.execute 0 0 false))
  let notify : List (GroupAction (Fin 2) Unit) :=
    [.jobManager (.returnJobMachines 0), .jobManager (.notifyJobComplete 0), .notifyJobComplete 0]
  fail ++ succeed ++ notify

theorem unreported_failure_asserts : ∃ server : JobGroupManager (Fin 2) Unit 1,
    exec (JobGroupManager.step (independentJobs 2 false)) (newServer linuxBox 0) failWhileOtherSucceeds = some server ∧
    ¬ StatusesRight (independentJobs 2 false) server := by
  refine ⟨_, rfl, fun right => ?_⟩
  exact absurd right.groupsAsserted (by decide)

def addAlone : List (GroupAction (Fin 1) Unit) :=
  [.jobManager .startJobManager, .jobManager .run, .jobManager .run, .addJobGroup ()]

def finishAdding : List (GroupAction (Fin 1) Unit) := [.goOnAdding, .goOnAdding]

def succeedAlone : List (GroupAction (Fin 1) Unit) :=
  let start : List (GroupAction (Fin 1) Unit) := List.replicate 3 (.jobManager .run)
  let succeed : List (GroupAction (Fin 1) Unit) := List.replicate 9 (.jobManager (.execute 0 0 false))
  start ++ succeed ++ [.jobManager (.returnJobMachines 0)]

def notifyAlone : List (GroupAction (Fin 1) Unit) := [.jobManager (.notifyJobComplete 0), .notifyJobComplete 0]

theorem lone_success_right :
    Along (JobGroupManager.step (independentJobs 1 false)) (HeardInTime (independentJobs 1 false)) (newServer linuxBox 0)
      (addAlone ++ finishAdding ++ succeedAlone ++ notifyAlone) ∧
    Throughout (JobGroupManager.step (independentJobs 1 false)) (StatusesRight (independentJobs 1 false)) (newServer linuxBox 0)
      (addAlone ++ finishAdding ++ succeedAlone ++ notifyAlone) := by
  have heard : Along (JobGroupManager.step (independentJobs 1 false)) (HeardInTime (independentJobs 1 false)) (newServer linuxBox 0)
      (addAlone ++ finishAdding ++ succeedAlone ++ notifyAlone) := by
    refine (along_append _ _ _ _ _ _ rfl).mpr ⟨(along_append _ _ _ _ _ _ rfl).mpr ⟨(along_append _ _ _ _ _ _ rfl).mpr ⟨?_, ?_⟩, ?_⟩, ?_⟩
    · exact along_of_forall _ _ _ _ (by simp [addAlone, HeardInTime, EnqueuesFresh])
    · refine along_cons _ _ _ _ _ _ rfl (fun group job rest _ _ => ?_) ?_
      · exact ⟨List.not_mem_nil, List.not_mem_nil⟩
      · exact along_cons _ _ _ _ _ _ rfl (fun group job rest lock => by cases lock) trivial
    · exact along_of_forall _ _ _ _ (by simp [succeedAlone, HeardInTime, EnqueuesFresh])
    · refine along_cons _ _ _ _ _ _ rfl (fun executer _ _ succ later => absurd later List.not_mem_nil) ?_
      refine along_cons _ _ _ _ _ _ rfl (fun executer _ _ _ job _ => ?_) trivial
      rw [Subsingleton.elim job 0]
      decide
  exact ⟨heard, group_statuses_right (independentJobs 1 false) linuxBox 0 (fun i => by simp [linuxBox, Machine.idle]) _ heard⟩

end ToolchainUtils.Automation
