import ToolchainUtils.Automation.HeldMachines

set_option autoImplicit false

namespace ToolchainUtils.Automation

open Transition

variable {J : Type} [DecidableEq J] {machines : Nat}

-- A job whose machine requirements the pool satisfies as it is.
def Satisfiable (setup : JobSetup J) (manager : JobManager J machines) (job : J) : Prop :=
  ∃ specs after acquired, manager.requiredMachines setup job = some specs ∧
    getMachines manager.pool specs = .ok (after, acquired) ∧ acquired ≠ []

omit [DecidableEq J] in
theorem required_machines_congr (setup : JobSetup J) (manager other : JobManager J machines) (samePool : other.pool = manager.pool)
    (sameMachines : other.jobMachines = manager.jobMachines) (job : J) :
    other.requiredMachines setup job = manager.requiredMachines setup job := by
  have same : ∀ (preds : List J) (spec : MachineSpecification),
      other.preferPredecessors spec preds = manager.preferPredecessors spec preds := by
    intro preds
    induction preds with
    | nil => exact fun spec => rfl
    | cons pred rest ih =>
        intro spec
        simp only [JobManager.preferPredecessors, sameMachines, samePool]
        cases manager.jobMachines pred with
        | nil => rfl
        | cons primary others => exact ih _
  simp only [JobManager.requiredMachines, same]

omit [DecidableEq J] in
theorem satisfiable_before (setup : JobSetup J) (manager other : JobManager J machines) (job : J)
    (satisfiable : Satisfiable setup other job) (samePool : other.pool = manager.pool)
    (sameMachines : other.jobMachines = manager.jobMachines) : Satisfiable setup manager job := by
  simpa only [Satisfiable, required_machines_congr setup manager other samePool sameMachines job, samePool] using satisfiable

omit [DecidableEq J] in
theorem pool_unused (manager : JobManager J machines) (outstanding : Outstanding manager) (all : manager.AllNotified) :
    ∀ i, (manager.pool i).uses = 0 := by
  have nothing : manager.held = [] := by
    rw [JobManager.held, List.flatMap_eq_nil_iff]
    intro executer member
    have notified := all executer member
    have idle : executer.holds = false := by
      cases phase : executer.phase with
      | executing operations =>
          have unnotified := (outstanding.executes executer member).unnotified operations phase
          simp [notified] at unnotified
      | died => simp [Executer.holds, phase, notified]
      | notifying | informing | cleaning | finished => simp [Executer.holds, phase]
    simp [Executer.held, idle]
  intro i
  rw [outstanding.uses.uses i, nothing]
  rfl

-- The manager's thread sleeps with something to do and nobody left to wake it.
structure AsleepForGood (setup : JobSetup J) (manager : JobManager J machines) : Prop where
  asleep : manager.thread = .waiting false
  nobody : manager.AllNotified
  pending : manager.exitRequest = true ∨ ∃ job ∈ manager.readyJobs, Satisfiable setup manager job

-- notifyAll is lost on a thread that has yet to reach wait().
def ThreadPoint.misses : ThreadPoint → Bool
  | .notStarted => true
  | .testing => true
  | .locking => true
  | _ => false

def HeardWhenNeeded (setup : JobSetup J) (manager : JobManager J machines) : JobAction J → Prop
  | .addJob job => manager.thread.misses = true → manager.AllNotified → manager.isReady setup job = true →
      ¬ Satisfiable setup manager job
  | .stopJobManager => manager.thread = .locking → ¬ manager.AllNotified
  | .notifyJobComplete index => manager.thread.misses = true →
      (∀ other executer, manager.executers[other]? = some executer → other ≠ index → executer.notified = true) →
      (manager.thread = .locking → manager.exitRequest = false) ∧
      (∀ job ∈ manager.readyJobs, ¬ Satisfiable setup manager job) ∧
      ∀ executer, manager.executers[index]? = some executer → manager.status executer.job = .succeeded →
        ∀ succ ∈ setup.successors executer.job, manager.isReady setup succ = true → ¬ Satisfiable setup manager succ
  | .run => manager.thread = .draining → manager.AllNotified → ∀ last, manager.readyJobs.getLast? = some last →
      manager.requiredMachines setup last ≠ none → ¬ Satisfiable setup manager last →
      ∀ job ∈ manager.readyJobs, ¬ Satisfiable setup manager job
  | _ => True

structure Armed (setup : JobSetup J) (manager : JobManager J machines) : Prop where
  outstanding : Outstanding manager
  queue : manager.thread.misses = true ∨ manager.thread = .waiting false → manager.AllNotified →
    ∀ job ∈ manager.readyJobs, ¬ Satisfiable setup manager job
  exit : manager.thread = .locking ∨ manager.thread = .waiting false → manager.AllNotified → manager.exitRequest = false

omit [DecidableEq J] in
theorem armed_awake (setup : JobSetup J) (manager : JobManager J machines) (armed : Armed setup manager) :
    ¬ AsleepForGood setup manager := by
  rintro ⟨asleep, nobody, pending⟩
  rcases pending with exit | ⟨job, ready, satisfiable⟩
  · rw [armed.exit (.inr asleep) nobody] at exit
    cases exit
  · exact armed.queue (.inr asleep) nobody job ready satisfiable

theorem notify_misses (point : ThreadPoint) : point.notify.misses = point.misses := by
  cases point <;> rfl

theorem notify_awake (point : ThreadPoint) : point.notify ≠ .waiting false := by
  cases point <;> simp [ThreadPoint.notify]

theorem notify_locking (point : ThreadPoint) : point.notify = .locking ↔ point = .locking := by
  cases point <;> simp [ThreadPoint.notify]

theorem locking_misses (point : ThreadPoint) (locking : point = .locking) : point.misses = true := by
  rw [locking]
  rfl

-- After a notifyAll only a thread that missed it needs an argument.
omit [DecidableEq J] in
theorem armed_notified (setup : JobSetup J) (next : JobManager J machines) (point : ThreadPoint) (thread : next.thread = point.notify)
    (outstanding : Outstanding next)
    (queue : point.misses = true → next.AllNotified → ∀ job ∈ next.readyJobs, ¬ Satisfiable setup next job)
    (exit : point = .locking → next.AllNotified → next.exitRequest = false) : Armed setup next := by
  refine ⟨outstanding, ?_, ?_⟩
  · intro missed
    rw [thread, notify_misses] at missed
    exact queue (missed.resolve_right (notify_awake point))
  · intro missed
    rw [thread, notify_locking] at missed
    exact exit (missed.resolve_right (notify_awake point))

omit [DecidableEq J] in
theorem stop_armed (setup : JobSetup J) (manager : JobManager J machines) (armed : Armed setup manager)
    (heard : HeardWhenNeeded setup manager .stopJobManager) : Armed setup manager.stop := by
  have killed := kill_all_killed manager.allJobs manager
  obtain ⟨all, is⟩ : ∃ all, all = manager.allJobs.foldl (fun killed job => JobManager.kill killed (.id (killed.ids job))) manager :=
    ⟨_, rfl⟩
  rw [← is] at killed
  have stopped : manager.stop = { all with exitRequest := true }.notifyAll := by rw [is]; rfl
  have outstanding := killed.outstanding armed.outstanding
  rw [stopped]
  refine armed_notified setup _ manager.thread (congrArg ThreadPoint.notify killed.thread) ?_ ?_ ?_
  · exact outstanding_same all _ outstanding rfl rfl rfl rfl
  · intro missed nobody job ready satisfiable
    refine armed.queue (.inl missed) (killed.notified.mp nobody) job (killed.ready ready) ?_
    exact satisfiable_before setup manager _ job satisfiable killed.pool killed.jobMachines
  · intro locking nobody
    exact absurd (killed.notified.mp nobody) (heard locking)

omit [DecidableEq J] in
theorem kill_armed (setup : JobSetup J) (manager : JobManager J machines) (key : JobKey J) (armed : Armed setup manager) :
    Armed setup (manager.kill key) := by
  have killed := kill_killed manager key
  refine ⟨killed.outstanding armed.outstanding, ?_, ?_⟩
  · intro missed nobody job ready satisfiable
    rw [killed.thread] at missed
    refine armed.queue missed (killed.notified.mp nobody) job (killed.ready ready) ?_
    exact satisfiable_before setup manager _ job satisfiable killed.pool killed.jobMachines
  · intro missed nobody
    rw [killed.thread] at missed
    rw [killed.exitRequest]
    exact armed.exit missed (killed.notified.mp nobody)

theorem add_job_armed (setup : JobSetup J) (manager : JobManager J machines) (job : J) (armed : Armed setup manager)
    (heard : HeardWhenNeeded setup manager (.addJob job)) : Armed setup (manager.addJob setup job) := by
  have outstanding := armed.outstanding
  refine armed_notified setup _ manager.thread rfl ?_ ?_ ?_
  · exact outstanding_same manager _ outstanding rfl rfl rfl rfl
  · intro missed nobody other ready satisfiable
    have before := satisfiable_before setup manager _ other satisfiable rfl rfl
    simp only [JobManager.addJob, JobManager.notifyAll] at ready
    split at ready
    · next isReady =>
        rcases List.mem_append.mp ready with old | new
        · exact armed.queue (.inl missed) nobody other old before
        · rw [List.mem_singleton.mp new] at before
          exact heard missed nobody isReady before
    · exact armed.queue (.inl missed) nobody other ready before
  · intro locking nobody
    exact armed.exit (.inl locking) nobody

theorem notify_job_complete_armed (setup : JobSetup J) (manager next : JobManager J machines) (index : Nat)
    (armed : Armed setup manager) (heard : HeardWhenNeeded setup manager (.notifyJobComplete index))
    (taken : manager.notifyJobComplete setup index = some next) : Armed setup next := by
  have outstanding := notify_job_complete_outstanding setup manager next index armed.outstanding taken
  obtain ⟨executer, present, _, rfl⟩ := notify_job_complete_cases setup manager next index taken
  obtain ⟨told, is⟩ : ∃ told, told = manager.setExecuter index { executer with phase := .informing, notified := true } :=
    ⟨_, rfl⟩
  rw [← is] at outstanding ⊢
  -- When everybody has notified now, everybody else had before.
  have others : told.AllNotified →
      ∀ other one, manager.executers[other]? = some one → other ≠ index → one.notified = true := by
    intro nobody other one listed different
    refine nobody one (List.mem_of_getElem? (i := other) ?_)
    rw [is, JobManager.setExecuter, List.getElem?_set_ne (Ne.symm different)]
    exact listed
  refine armed_notified setup _ manager.thread (by rw [is]; rfl) outstanding ?_ ?_
  · intro missed nobody other ready satisfiable
    obtain ⟨_, queued, successors⟩ := heard missed (others nobody)
    have before : Satisfiable setup manager other := by
      rw [is] at satisfiable
      exact satisfiable_before setup manager _ other satisfiable rfl rfl
    rw [is] at ready
    simp only [JobManager.completeJob, JobManager.notifyAll] at ready
    split at ready
    · next done =>
        rcases mem_queue_successors setup _ _ other ready with old | ⟨succ, isReady⟩
        · exact queued other old before
        · exact successors executer present done other succ isReady before
    · exact queued other ready before
  · intro locking nobody
    have open_exit := (heard (locking_misses _ locking) (others nobody)).1 locking
    rw [is]
    exact open_exit

omit [DecidableEq J] in
theorem drain_armed (setup : JobSetup J) (manager : JobManager J machines) (draining : manager.thread = .draining)
    (armed : Armed setup manager) (heard : HeardWhenNeeded setup manager .run) : Armed setup (manager.drain setup) := by
  have outstanding := drain_outstanding setup manager armed.outstanding
  have drained := drain_cases setup manager
  generalize manager.drain setup = next at drained outstanding
  cases drained with
  | empty none_left =>
      refine ⟨outstanding, fun _ _ job ready => ?_, by simp⟩
      simp [none_left] at ready
  | crashed job failed last => exact ⟨outstanding, by simp [ThreadPoint.misses], by simp⟩
  | refused job specs pool last required result =>
      refine ⟨outstanding, fun _ nobody other ready satisfiable => ?_, by simp⟩
      have same := refused_unused_same manager.pool pool specs result (pool_unused manager armed.outstanding nobody)
      have before := satisfiable_before setup manager _ other satisfiable same rfl
      have unobtainable : ¬ Satisfiable setup manager job := by
        rintro ⟨otherSpecs, after, acquired, alsoRequired, obtained, some_machine⟩
        rw [required] at alsoRequired
        cases alsoRequired
        rw [result] at obtained
        cases obtained
        exact some_machine rfl
      have queued : other ∈ manager.readyJobs := by
        rw [ready_split manager job last]
        exact (List.perm_append_singleton _ _).mem_iff.mpr ready
      exact heard draining nobody job last (by simp [required]) unobtainable other queued before
  | started job specs pool acquired last required result some_machine =>
      exact ⟨outstanding, by simp [JobManager.startJob, draining, ThreadPoint.misses], by simp [JobManager.startJob, draining]⟩

omit [DecidableEq J] in
theorem run_armed (setup : JobSetup J) (manager next : JobManager J machines) (armed : Armed setup manager)
    (heard : HeardWhenNeeded setup manager .run) (taken : manager.run setup = some next) : Armed setup next := by
  have outstanding := armed.outstanding
  have kept : ∀ thread, Outstanding { manager with thread := thread } := fun thread =>
    outstanding_same manager _ outstanding rfl rfl rfl rfl
  unfold JobManager.run at taken
  split at taken
  · next testing =>
      cases taken
      refine ⟨kept _, fun _ nobody job ready satisfiable => ?_, fun waits _ => ?_⟩
      · exact armed.queue (.inl (by rw [testing]; rfl)) nobody job ready
          (satisfiable_before setup manager _ job satisfiable rfl rfl)
      · cases exit : manager.exitRequest with
        | false => rfl
        | true => simp [exit] at waits
  · next locking =>
      cases taken
      refine ⟨kept _, fun _ nobody job ready satisfiable => ?_, fun _ nobody => armed.exit (.inl locking) nobody⟩
      exact armed.queue (.inl (by rw [locking]; rfl)) nobody job ready
        (satisfiable_before setup manager _ job satisfiable rfl rfl)
  · cases taken
    exact ⟨kept _, by simp [ThreadPoint.misses], by simp⟩
  · next draining =>
      cases taken
      exact drain_armed setup manager draining armed heard
  · cases taken

theorem execute_armed (setup : JobSetup J) (manager next : JobManager J machines) (index : Nat) (exitCode : Int)
    (timedOut : Bool) (armed : Armed setup manager) (taken : manager.execute setup index exitCode timedOut = some next) :
    Armed setup next := by
  have outstanding := execute_outstanding setup manager next index exitCode timedOut armed.outstanding taken
  have busy : ¬ next.AllNotified := by
    cases execute_cases setup manager next index exitCode timedOut taken with
    | status executer status rest present phase =>
        obtain ⟨within, is⟩ := List.getElem?_eq_some_iff.mp present
        have unnotified := (armed.outstanding.executes executer (List.mem_of_getElem? present)).unnotified _ phase
        intro all
        rw [JobManager.setStatus] at all
        split at all
        · have notified := all { executer with phase := .died } (List.mem_set within _)
          simp [unnotified] at notified
        · have notified := all { executer with phase := .executing rest } (List.mem_set within _)
          simp [unnotified] at notified
    | got executer rest text present phase written =>
        obtain ⟨within, is⟩ := List.getElem?_eq_some_iff.mp present
        have unnotified := (armed.outstanding.executes executer (List.mem_of_getElem? present)).unnotified _ phase
        intro all
        have notified := all _ (List.mem_set within _)
        simp [unnotified] at notified
    | command executer command rest present phase =>
        obtain ⟨within, is⟩ := List.getElem?_eq_some_iff.mp present
        have unnotified := (armed.outstanding.executes executer (List.mem_of_getElem? present)).unnotified _ phase
        intro all
        have notified := all _ (List.mem_set within _)
        simp [unnotified] at notified
  exact ⟨outstanding, fun _ all => absurd all busy, fun _ all => absurd all busy⟩

omit [DecidableEq J] in
theorem return_job_machines_armed (setup : JobSetup J) (manager next : JobManager J machines) (index : Nat)
    (armed : Armed setup manager) (taken : manager.returnJobMachines index = some next) : Armed setup next := by
  have outstanding := return_job_machines_outstanding manager next index armed.outstanding taken
  have busy : ¬ next.AllNotified := by
    obtain ⟨executer, pool, present, phase, _, rfl⟩ := outstanding_job_returns manager next index armed.outstanding taken
    obtain ⟨within, is⟩ := List.getElem?_eq_some_iff.mp present
    intro all
    have notified := all { executer with phase := .notifying } (List.mem_set within _)
    simp [(armed.outstanding.executes executer (List.mem_of_getElem? present)).unnotified _ phase] at notified
  exact ⟨outstanding, fun _ all => absurd all busy, fun _ all => absurd all busy⟩

theorem step_armed (setup : JobSetup J) (manager : JobManager J machines) (action : JobAction J) (next : JobManager J machines)
    (armed : Armed setup manager) (heard : HeardWhenNeeded setup manager action)
    (taken : manager.step setup action = some next) : Armed setup next := by
  cases step_cases setup manager action next taken with
  | started notStarted =>
      have outstanding := armed.outstanding
      refine armed_notified setup _ .testing rfl ?_ (fun _ nobody job ready satisfiable => ?_) (by simp)
      · exact outstanding_same manager _ outstanding rfl rfl rfl rfl
      · exact armed.queue (.inl (by rw [notStarted]; rfl)) nobody job ready
          (satisfiable_before setup manager _ job satisfiable rfl rfl)
  | stopped => exact stop_armed setup manager armed heard
  | added job => exact add_job_armed setup manager job armed heard
  | killed key => exact kill_armed setup manager key armed
  | ran _ taken => exact run_armed setup manager next armed heard taken
  | executed index exitCode timedOut _ taken => exact execute_armed setup manager next index exitCode timedOut armed taken
  | returned index _ taken => exact return_job_machines_armed setup manager next index armed taken
  | notified index _ taken => exact notify_job_complete_armed setup manager next index armed heard taken

omit [DecidableEq J] in
theorem new_manager_armed (setup : JobSetup J) (pool : Pool machines) (counter : Nat) (idle : ∀ i, (pool i).idle) :
    Armed setup (newJobManager pool counter : JobManager J machines) :=
  ⟨⟨⟨fun i => (idle i).1⟩, fun _ member => absurd member List.not_mem_nil⟩, fun _ _ _ ready => absurd ready List.not_mem_nil,
    fun _ _ => rfl⟩

theorem never_asleep_for_good (setup : JobSetup J) (pool : Pool machines) (counter : Nat) (idle : ∀ i, (pool i).idle)
    (actions : List (JobAction J))
    (heard : Along (JobManager.step setup) (HeardWhenNeeded setup) (newJobManager pool counter) actions) :
    Throughout (JobManager.step setup) (fun manager => ¬ AsleepForGood setup manager) (newJobManager pool counter) actions :=
  throughout_mono (JobManager.step setup) (Armed setup) _ (armed_awake setup) _ actions
    (throughout_of_along (JobManager.step setup) (HeardWhenNeeded setup) (Armed setup)
      (fun manager action next armed needed taken => step_armed setup manager action next armed needed taken) actions _
      (new_manager_armed setup pool counter idle) heard)

-- A job added just before the thread's first wait() is never looked at.
theorem job_added_before_wait : ∃ manager : JobManager (Fin 3) 1,
    exec (JobManager.step twoPredecessors) (newJobManager linuxBox 0) [.startJobManager, .run, .addJob 0, .run] = some manager ∧
    AsleepForGood twoPredecessors manager := by
  refine ⟨_, rfl, rfl, fun _ member => absurd member List.not_mem_nil, .inr ⟨0, by decide, ?_⟩⟩
  exact ⟨[anyMachine false], _, [0], rfl, rfl, by decide⟩

theorem job_added_after_wait_is_heard :
    Along (JobManager.step twoPredecessors) (HeardWhenNeeded twoPredecessors) (newJobManager linuxBox 0)
      [.startJobManager, .run, .run, .addJob 0, .run] ∧
    Throughout (JobManager.step twoPredecessors) (fun manager => ¬ AsleepForGood twoPredecessors manager)
      (newJobManager linuxBox 0) [.startJobManager, .run, .run, .addJob 0, .run] := by
  have heard : Along (JobManager.step twoPredecessors) (HeardWhenNeeded twoPredecessors) (newJobManager linuxBox 0)
      [.startJobManager, .run, .run, .addJob 0, .run] := by
    refine along_cons _ _ _ _ _ _ rfl trivial ?_
    refine along_cons _ _ _ _ _ _ rfl (fun draining => by cases draining) ?_
    refine along_cons _ _ _ _ _ _ rfl (fun draining => by cases draining) ?_
    refine along_cons _ _ _ _ _ _ rfl (fun missed => by cases missed) ?_
    exact along_cons _ _ _ _ _ _ rfl (fun draining => by cases draining) trivial
  exact ⟨heard, never_asleep_for_good twoPredecessors linuxBox 0 (fun i => by simp [linuxBox, Machine.idle]) _ heard⟩

end ToolchainUtils.Automation
