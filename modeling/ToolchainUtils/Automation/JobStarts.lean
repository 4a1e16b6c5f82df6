import Mathlib.Data.List.Nodup
import ToolchainUtils.Transition
import ToolchainUtils.Automation.JobManager

set_option autoImplicit false

namespace ToolchainUtils.Automation

open Transition

variable {J : Type} [DecidableEq J] {machines : Nat}

-- The jobs that were passed to a JobExecuter, in that order.
def JobManager.started (manager : JobManager J machines) : List J := manager.executers.map Executer.job

-- What every step but AddJob, NotifyJobComplete and the start of a job leaves alone.
structure Quiet (manager next : JobManager J machines) : Prop where
  ready : next.readyJobs ⊆ manager.readyJobs
  distinct : manager.readyJobs.Nodup → next.readyJobs.Nodup
  started : next.started = manager.started
  ids : next.ids = manager.ids
  counter : next.counter = manager.counter
  succeeded : ∀ job, manager.status job = .succeeded → next.status job = .succeeded

omit [DecidableEq J] in
theorem quiet_refl (manager : JobManager J machines) : Quiet manager manager :=
  ⟨List.Subset.refl _, id, rfl, rfl, rfl, fun _ => id⟩

omit [DecidableEq J] in
theorem quiet_trans (first second third : JobManager J machines) (before : Quiet first second) (after : Quiet second third) :
    Quiet first third :=
  ⟨fun _ member => before.ready (after.ready member), fun distinct => after.distinct (before.distinct distinct),
    after.started.trans before.started, after.ids.trans before.ids,
    after.counter.trans before.counter, fun job done => after.succeeded job (before.succeeded job done)⟩

omit [DecidableEq J] in
theorem set_executer_started (manager : JobManager J machines) (index : Nat) (executer other : Executer J machines)
    (present : manager.executers[index]? = some executer) (same : other.job = executer.job) :
    (manager.setExecuter index other).started = manager.started := by
  obtain ⟨within, is⟩ := List.getElem?_eq_some_iff.mp present
  simp only [JobManager.started, JobManager.setExecuter, List.map_set, same, ← is]
  rw [← List.getElem_map Executer.job (h := by simpa using within)]
  exact List.set_getElem_self _

omit [DecidableEq J] in
theorem quiet_kills : KillRelation (@Quiet J machines) where
  refl := quiet_refl
  trans := quiet_trans
  terminated manager index executer present :=
    ⟨List.Subset.refl _, id, set_executer_started manager index executer _ present rfl, rfl, rfl, fun _ => id⟩
  unqueued _ _ fewer := ⟨fewer.subset, fewer.nodup, rfl, rfl, rfl, fun _ => id⟩

omit [DecidableEq J] in
theorem kill_quiet (manager : JobManager J machines) (key : JobKey J) : Quiet manager (manager.kill key) :=
  kill_related Quiet quiet_kills manager key

omit [DecidableEq J] in
theorem stop_quiet (manager : JobManager J machines) : Quiet manager manager.stop := by
  have all := kill_all_related Quiet quiet_kills manager.allJobs manager
  exact ⟨all.ready, all.distinct, all.started, all.ids, all.counter, all.succeeded⟩

theorem set_status_quiet (manager : JobManager J machines) (index : Nat) (executer : Executer J machines) (status : JobStatus)
    (rest : List (ExecuterOperation J)) (present : manager.executers[index]? = some executer) :
    Quiet manager (manager.setStatus index executer status rest) := by
  unfold JobManager.setStatus
  cases changed : (manager.jobs executer.job).change jobTransitions status with
  | none => exact ⟨List.Subset.refl _, id, set_executer_started manager index executer _ present rfl, rfl, rfl, fun _ => id⟩
  | some state =>
      refine ⟨List.Subset.refl _, id, set_executer_started manager index executer _ present rfl, rfl, rfl, ?_⟩
      intro job done
      -- STATUS_SUCCEEDED is final.
      have different : job ≠ executer.job := by
        rintro rfl
        have allowed := (change_some _ _ _ _ changed).1
        rw [JobManager.status] at done
        simp [done, jobTransitions] at allowed
      simpa [JobManager.status, Function.update_of_ne different] using done

theorem execute_quiet (setup : JobSetup J) (manager next : JobManager J machines) (index : Nat) (exitCode : Int)
    (timedOut : Bool) (taken : manager.execute setup index exitCode timedOut = some next) : Quiet manager next := by
  cases execute_cases setup manager next index exitCode timedOut taken with
  | status executer status rest present phase => exact set_status_quiet manager index executer status rest present
  | got executer rest text present phase written =>
      exact ⟨List.Subset.refl _, id, set_executer_started manager index executer _ present rfl, rfl, rfl, fun _ => id⟩
  | command executer command rest present phase =>
      exact ⟨List.Subset.refl _, id, set_executer_started manager index executer _ present rfl, rfl, rfl, fun _ => id⟩

omit [DecidableEq J] in
theorem return_job_machines_quiet (manager next : JobManager J machines) (index : Nat)
    (taken : manager.returnJobMachines index = some next) : Quiet manager next := by
  obtain ⟨executer, present, _, ⟨_, _, rfl⟩ | ⟨_, _, rfl⟩⟩ := return_job_machines_cases manager next index taken
  · exact ⟨List.Subset.refl _, id, set_executer_started manager index executer _ present rfl, rfl, rfl, fun _ => id⟩
  · exact ⟨List.Subset.refl _, id, set_executer_started manager index executer _ present rfl, rfl, rfl, fun _ => id⟩

-- The state in which no job can come twice out of the queue.
structure QueuedOnce (setup : JobSetup J) (manager : JobManager J machines) : Prop where
  queued : manager.readyJobs.Nodup
  fresh : ∀ job ∈ manager.readyJobs, job ∉ manager.started
  once : manager.started.Nodup
  added : ∀ job, job ∈ manager.readyJobs ∨ job ∈ manager.started → manager.ids job ≠ 0
  allowed : ∀ job, job ∈ manager.readyJobs ∨ job ∈ manager.started →
    ∀ pred ∈ setup.predecessors job, manager.status pred = .succeeded
  counting : manager.counter ≠ 0

omit [DecidableEq J] in
theorem quiet_queued_once (setup : JobSetup J) (manager next : JobManager J machines) (inv : QueuedOnce setup manager)
    (quiet : Quiet manager next) : QueuedOnce setup next := by
  have known : ∀ job, job ∈ next.readyJobs ∨ job ∈ next.started → job ∈ manager.readyJobs ∨ job ∈ manager.started := by
    intro job member
    rw [quiet.started] at member
    exact member.imp_left fun ready => quiet.ready ready
  refine ⟨quiet.distinct inv.queued, ?_, ?_, ?_, ?_, ?_⟩
  · intro job ready
    rw [quiet.started]
    exact inv.fresh job (quiet.ready ready)
  · rw [quiet.started]
    exact inv.once
  · intro job member
    rw [quiet.ids]
    exact inv.added job (known job member)
  · exact fun job member pred before => quiet.succeeded pred (inv.allowed job (known job member) pred before)
  · rw [quiet.counter]
    exact inv.counting

-- A job may be put in the queue when it is in neither place yet and has its id.
structure MayQueue (manager : JobManager J machines) (job : J) : Prop where
  unqueued : job ∉ manager.readyJobs
  unstarted : job ∉ manager.started
  added : manager.ids job ≠ 0

omit [DecidableEq J] in
theorem is_ready_iff (setup : JobSetup J) (manager : JobManager J machines) (job : J) :
    manager.isReady setup job = true ↔ ∀ pred ∈ setup.predecessors job, manager.status pred = .succeeded := by
  simp [JobManager.isReady]

omit [DecidableEq J] in
theorem enqueue_queued_once (setup : JobSetup J) (manager : JobManager J machines) (inv : QueuedOnce setup manager) (job : J)
    (may : MayQueue manager job) (ready : manager.isReady setup job = true) :
    QueuedOnce setup { manager with readyJobs := manager.readyJobs ++ [job] } := by
  have known : ∀ other, other ∈ manager.readyJobs ++ [job] ∨ other ∈ manager.started →
      other = job ∨ other ∈ manager.readyJobs ∨ other ∈ manager.started := by
    intro other member
    rcases member with queued | started
    · rcases List.mem_append.mp queued with old | new
      · exact .inr (.inl old)
      · exact .inl (List.mem_singleton.mp new)
    · exact .inr (.inr started)
  refine ⟨?_, ?_, inv.once, ?_, ?_, inv.counting⟩
  · exact List.nodup_append.mpr ⟨inv.queued, List.nodup_singleton job, by
      intro old before new after same
      rw [List.mem_singleton.mp after] at same
      exact may.unqueued (same ▸ before)⟩
  · intro other queued
    rcases List.mem_append.mp queued with old | new
    · exact inv.fresh other old
    · exact List.mem_singleton.mp new ▸ may.unstarted
  · intro other member
    rcases known other member with rfl | before
    · exact may.added
    · exact inv.added other before
  · intro other member
    rcases known other member with rfl | before
    · exact (is_ready_iff setup manager other).mp ready
    · exact inv.allowed other before

theorem queue_successors_queued_once (setup : JobSetup J) (manager : JobManager J machines) (succs ready : List J)
    (inv : QueuedOnce setup { manager with readyJobs := ready })
    (may : ∀ succ ∈ succs, manager.isReady setup succ = true →
      succ ∈ ready ∨ MayQueue { manager with readyJobs := ready } succ) :
    QueuedOnce setup { manager with readyJobs := succs.foldl (fun ready succ =>
      if manager.isReady setup succ ∧ succ ∉ ready then ready ++ [succ] else ready) ready } := by
  induction succs generalizing ready with
  | nil => exact inv
  | cons succ rest ih =>
      rw [List.foldl_cons]
      by_cases queues : manager.isReady setup succ = true ∧ succ ∉ ready
      · rw [if_pos queues]
        have here := (may succ List.mem_cons_self queues.1).resolve_left queues.2
        refine ih (ready ++ [succ]) (enqueue_queued_once setup _ inv succ here queues.1) ?_
        intro other member otherReady
        by_cases same : other = succ
        · exact .inl (by simp [same])
        · refine (may other (List.mem_cons_of_mem _ member) otherReady).imp (List.mem_append_left _) fun fresh => ?_
          exact ⟨by simp [same, fresh.unqueued], fresh.unstarted, fresh.added⟩
      · rw [if_neg queues]
        exact ih ready inv fun other member => may other (List.mem_cons_of_mem _ member)

theorem mem_queue_successors (setup : JobSetup J) (manager : JobManager J machines) (job other : J)
    (member : other ∈ manager.queueSuccessors setup job) :
    other ∈ manager.readyJobs ∨ (other ∈ setup.successors job ∧ manager.isReady setup other = true) := by
  have general : ∀ (succs ready : List J), (∀ succ ∈ succs, succ ∈ setup.successors job) →
      other ∈ succs.foldl (fun ready succ => if manager.isReady setup succ ∧ succ ∉ ready then ready ++ [succ] else ready) ready →
      other ∈ ready ∨ (other ∈ setup.successors job ∧ manager.isReady setup other = true) := by
    intro succs
    induction succs with
    | nil => exact fun ready _ inside => .inl inside
    | cons succ rest ih =>
        intro ready listed inside
        rw [List.foldl_cons] at inside
        rcases ih _ (fun one later => listed one (List.mem_cons_of_mem _ later)) inside with queued | new
        · split at queued
          · next queues =>
              rcases List.mem_append.mp queued with old | here
              · exact .inl old
              · rw [List.mem_singleton.mp here]
                exact .inr ⟨listed succ List.mem_cons_self, queues.1⟩
          · exact .inl queued
        · exact .inr new
  exact general _ _ (fun _ inside => inside) member

-- Whenever AddJob or NotifyJobComplete appends a job to ready_jobs, it has its id and
-- was neither queued nor passed to an executer before.
def EnqueuesFresh (setup : JobSetup J) (manager : JobManager J machines) : JobAction J → Prop
  | .addJob job => manager.isReady setup job = true → job ∉ manager.readyJobs ∧ job ∉ manager.started
  | .notifyJobComplete index => ∀ executer, manager.executers[index]? = some executer →
      manager.status executer.job = .succeeded → ∀ succ ∈ setup.successors executer.job,
        manager.isReady setup succ = true → succ ∈ manager.readyJobs ∨ MayQueue manager succ
  | _ => True

theorem add_job_queued_once (setup : JobSetup J) (manager : JobManager J machines) (job : J)
    (inv : QueuedOnce setup manager) (fresh : EnqueuesFresh setup manager (.addJob job)) :
    QueuedOnce setup (manager.addJob setup job) := by
  let added : JobManager J machines := { manager with
    ids := Function.update manager.ids job manager.counter
    counter := manager.counter + 1
    allJobs := manager.allJobs ++ [job] }
  have invAdded : QueuedOnce setup added := by
    refine ⟨inv.queued, inv.fresh, inv.once, ?_, inv.allowed, Nat.succ_ne_zero _⟩
    intro other member
    by_cases same : other = job
    · subst same
      simpa [added] using inv.counting
    · simpa [added, Function.update_of_ne same] using inv.added other member
  by_cases ready : manager.isReady setup job = true
  · have may : MayQueue added job := ⟨(fresh ready).1, (fresh ready).2, by simpa [added] using inv.counting⟩
    have queued := enqueue_queued_once setup added invAdded job may ready
    have same : added.isReady setup job = true := ready
    simp only [JobManager.addJob, JobManager.notifyAll]
    rw [if_pos same]
    exact ⟨queued.queued, queued.fresh, queued.once, queued.added, queued.allowed, queued.counting⟩
  · have same : ¬ added.isReady setup job = true := ready
    simp only [JobManager.addJob, JobManager.notifyAll]
    rw [if_neg same]
    exact ⟨invAdded.queued, invAdded.fresh, invAdded.once, invAdded.added, invAdded.allowed, invAdded.counting⟩

theorem notify_job_complete_queued_once (setup : JobSetup J) (manager next : JobManager J machines) (index : Nat)
    (inv : QueuedOnce setup manager) (fresh : EnqueuesFresh setup manager (.notifyJobComplete index))
    (taken : manager.notifyJobComplete setup index = some next) : QueuedOnce setup next := by
  obtain ⟨executer, present, _, rfl⟩ := notify_job_complete_cases setup manager next index taken
  obtain ⟨told, is⟩ : ∃ told, told = manager.setExecuter index { executer with phase := .informing, notified := true } :=
    ⟨_, rfl⟩
  have same : told.started = manager.started := by
    rw [is]
    exact set_executer_started manager index executer _ present rfl
  have invTold : QueuedOnce setup told := by
    refine quiet_queued_once setup manager told inv ?_
    rw [is] at same ⊢
    exact ⟨List.Subset.refl _, id, same, rfl, rfl, fun _ => id⟩
  rw [← is]
  simp only [JobManager.completeJob, JobManager.notifyAll]
  by_cases done : told.status executer.job = .succeeded
  · rw [if_pos done]
    have queued := queue_successors_queued_once setup told (setup.successors executer.job) told.readyJobs invTold (by
      intro succ member ready
      rw [is] at ready done
      refine (fresh executer present done succ member ready).imp (fun old => by rw [is]; exact old) fun may => ?_
      exact ⟨by rw [is]; exact may.unqueued, by change succ ∉ told.started; rw [same]; exact may.unstarted,
        by rw [is]; exact may.added⟩)
    exact ⟨queued.queued, queued.fresh, queued.once, queued.added, queued.allowed, queued.counting⟩
  · rw [if_neg done]
    exact ⟨invTold.queued, invTold.fresh, invTold.once, invTold.added, invTold.allowed, invTold.counting⟩

omit [DecidableEq J] in
theorem ready_split (manager : JobManager J machines) (job : J) (last : manager.readyJobs.getLast? = some job) :
    manager.readyJobs = manager.readyJobs.dropLast ++ [job] := by
  have nonempty : manager.readyJobs ≠ [] := by
    intro empty
    simp [empty] at last
  rw [List.getLast?_eq_some_getLast nonempty, Option.some.injEq] at last
  rw [← last, List.dropLast_append_getLast]

-- The ways a round of the drain ends: nothing to do, a broken job is lost, a job goes
-- back to the front, a job is started.
inductive Drained (setup : JobSetup J) (manager : JobManager J machines) : JobManager J machines → Prop where
  | empty (none_left : manager.readyJobs = []) : Drained setup manager { manager with thread := .testing }
  | crashed (job : J) (failed : Bool) (last : manager.readyJobs.getLast? = some job) :
      Drained setup manager { manager with
        readyJobs := manager.readyJobs.dropLast, thread := .crashed, assertionFailed := failed }
  | refused (job : J) (specs : List MachineSpecification) (pool : Pool machines) (last : manager.readyJobs.getLast? = some job)
      (required : manager.requiredMachines setup job = some specs) (result : getMachines manager.pool specs = .ok (pool, [])) :
      Drained setup manager { manager with
        pool := pool, readyJobs := job :: manager.readyJobs.dropLast, thread := .testing }
  | started (job : J) (specs : List MachineSpecification) (pool : Pool machines) (acquired : List (Fin machines))
      (last : manager.readyJobs.getLast? = some job) (required : manager.requiredMachines setup job = some specs)
      (result : getMachines manager.pool specs = .ok (pool, acquired)) (some_machine : acquired ≠ []) :
      Drained setup manager ({ manager with readyJobs := manager.readyJobs.dropLast, pool := pool }.startJob setup job acquired)

omit [DecidableEq J] in
theorem drain_cases (setup : JobSetup J) (manager : JobManager J machines) : Drained setup manager (manager.drain setup) := by
  unfold JobManager.drain
  cases last : manager.readyJobs.getLast? with
  | none => exact .empty (List.getLast?_eq_none_iff.mp last)
  | some job =>
      dsimp only
      cases required : manager.requiredMachines setup job with
      | none => exact .crashed job manager.assertionFailed last
      | some specs =>
          dsimp only
          cases result : getMachines manager.pool specs with
          | error failure => exact .crashed job true last
          | ok outcome =>
              obtain ⟨pool, acquired⟩ := outcome
              cases acquired with
              | nil => exact .refused job specs pool last required result
              | cons first rest => exact .started job specs pool (first :: rest) last required result (by simp)

omit [DecidableEq J] in
theorem drain_queued_once (setup : JobSetup J) (manager : JobManager J machines) (inv : QueuedOnce setup manager) :
    QueuedOnce setup (manager.drain setup) := by
  have drained := drain_cases setup manager
  generalize manager.drain setup = next at drained
  cases drained with
  | empty none_left => exact ⟨inv.queued, inv.fresh, inv.once, inv.added, inv.allowed, inv.counting⟩
  | crashed job failed last =>
      refine quiet_queued_once setup manager _ inv ⟨List.dropLast_subset _, ?_, rfl, rfl, rfl, fun _ => id⟩
      exact fun distinct => distinct.sublist (List.dropLast_sublist _)
  | refused job specs pool last required result =>
      have order : (job :: manager.readyJobs.dropLast).Perm manager.readyJobs := by
        conv_rhs => rw [ready_split manager job last]
        exact (List.perm_append_singleton _ _).symm
      exact quiet_queued_once setup manager _ inv ⟨order.subset, order.nodup_iff.mpr, rfl, rfl, rfl, fun _ => id⟩
  | started job specs pool acquired last required result some_machine =>
      have split := ready_split manager job last
      have member : job ∈ manager.readyJobs := by
        rw [split]
        simp
      have distinct := inv.queued
      rw [split] at distinct
      have gone : job ∉ manager.readyJobs.dropLast := by
        intro again
        exact (List.nodup_append.mp distinct).2.2 job again job (List.mem_singleton.mpr rfl) rfl
      have known : ∀ other, other ∈ manager.readyJobs.dropLast ∨ other ∈ manager.started ++ [job] →
          other ∈ manager.readyJobs ∨ other ∈ manager.started := by
        intro other inside
        rcases inside with queued | begun
        · exact .inl (List.dropLast_subset _ queued)
        · rcases List.mem_append.mp begun with old | new
          · exact .inr old
          · exact .inl (List.mem_singleton.mp new ▸ member)
      have starts : ({ manager with readyJobs := manager.readyJobs.dropLast, pool := pool }.startJob setup job acquired).started =
          manager.started ++ [job] := by
        simp [JobManager.started, JobManager.startJob, newExecuter]
      refine ⟨(List.nodup_append.mp distinct).1, ?_, ?_, ?_, ?_, inv.counting⟩
      · intro other queued
        rw [starts]
        intro begun
        rcases List.mem_append.mp begun with old | new
        · exact inv.fresh other (List.dropLast_subset _ queued) old
        · exact gone (List.mem_singleton.mp new ▸ queued)
      · rw [starts]
        refine List.nodup_append.mpr ⟨inv.once, List.nodup_singleton job, ?_⟩
        intro old before new after same
        rw [List.mem_singleton.mp after] at same
        exact inv.fresh job member (same ▸ before)
      · intro other inside
        rw [starts] at inside
        exact inv.added other (known other inside)
      · intro other inside
        rw [starts] at inside
        exact inv.allowed other (known other inside)

omit [DecidableEq J] in
theorem run_queued_once (setup : JobSetup J) (manager next : JobManager J machines) (inv : QueuedOnce setup manager)
    (taken : manager.run setup = some next) : QueuedOnce setup next := by
  obtain ⟨thread, rfl⟩ | ⟨_, rfl⟩ := run_cases setup manager next taken
  · exact ⟨inv.queued, inv.fresh, inv.once, inv.added, inv.allowed, inv.counting⟩
  · exact drain_queued_once setup manager inv

theorem step_queued_once (setup : JobSetup J) (manager : JobManager J machines) (action : JobAction J)
    (next : JobManager J machines) (inv : QueuedOnce setup manager) (fresh : EnqueuesFresh setup manager action)
    (taken : manager.step setup action = some next) : QueuedOnce setup next := by
  cases step_cases setup manager action next taken with
  | started => exact ⟨inv.queued, inv.fresh, inv.once, inv.added, inv.allowed, inv.counting⟩
  | stopped => exact quiet_queued_once setup manager _ inv (stop_quiet manager)
  | added job => exact add_job_queued_once setup manager job inv fresh
  | killed key => exact quiet_queued_once setup manager _ inv (kill_quiet manager key)
  | ran _ taken => exact run_queued_once setup manager next inv taken
  | executed index exitCode timedOut _ taken =>
      exact quiet_queued_once setup manager next inv (execute_quiet setup manager next index exitCode timedOut taken)
  | returned index _ taken =>
      exact quiet_queued_once setup manager next inv (return_job_machines_quiet manager next index taken)
  | notified index _ taken => exact notify_job_complete_queued_once setup manager next index inv fresh taken

-- Every job was passed to an executer at most once, and not before AddJob gave it its
-- id and its predecessors succeeded.
structure StartedOnce (setup : JobSetup J) (manager : JobManager J machines) : Prop where
  once : ∀ job, manager.started.count job ≤ 1
  added : ∀ job ∈ manager.started, manager.ids job ≠ 0
  allowed : ∀ job ∈ manager.started, ∀ pred ∈ setup.predecessors job, manager.status pred = .succeeded

theorem queued_once_started_once (setup : JobSetup J) (manager : JobManager J machines) (inv : QueuedOnce setup manager) :
    StartedOnce setup manager :=
  ⟨fun job => List.nodup_iff_count_le_one.mp inv.once job, fun job begun => inv.added job (.inr begun),
    fun job begun => inv.allowed job (.inr begun)⟩

omit [DecidableEq J] in
theorem new_manager_queued_once (setup : JobSetup J) (pool : Pool machines) (counter : Nat) :
    QueuedOnce setup (newJobManager pool counter : JobManager J machines) := by
  refine ⟨List.nodup_nil, ?_, List.nodup_nil, ?_, ?_, Nat.succ_ne_zero _⟩ <;> simp [newJobManager, JobManager.started]

theorem jobs_started_once (setup : JobSetup J) (pool : Pool machines) (counter : Nat) (actions : List (JobAction J))
    (fresh : Along (JobManager.step setup) (EnqueuesFresh setup) (newJobManager pool counter) actions) :
    Throughout (JobManager.step setup) (StartedOnce setup) (newJobManager pool counter) actions :=
  throughout_mono (JobManager.step setup) (QueuedOnce setup) (StartedOnce setup) (queued_once_started_once setup) _ actions
    (throughout_of_along (JobManager.step setup) (EnqueuesFresh setup) (QueuedOnce setup)
      (fun manager action next inv allowed taken => step_queued_once setup manager action next inv allowed taken) actions _
      (new_manager_queued_once setup pool counter) fresh)

-- Job 2 depends on jobs 0 and 1; any machine does, and nothing is really run.
def twoPredecessors : JobSetup (Fin 3) where
  predecessors job := if job = 2 then [0, 1] else []
  successors job := if job = 2 then [] else [2]
  symmetric := by decide
  machineDependencies _ := [anyMachine false]
  folderDependencies _ := []
  commandText _ := some "make"
  dryRun _ := true

def executeAll (index : Nat) : List (JobAction (Fin 3)) := List.replicate 9 (.execute index 0 false)

-- Both predecessors have succeeded when the first of them notifies. The second one
-- queues the job again, which has left the queue in the meantime.
def bothFinish : List (JobAction (Fin 3)) :=
  let start : List (JobAction (Fin 3)) :=
    [.startJobManager, .run, .run, .addJob 0, .addJob 1, .addJob 2, .run, .run, .run, .run, .run, .run]
  let notify : List (JobAction (Fin 3)) :=
    [.returnJobMachines 0, .notifyJobComplete 0, .run, .run, .run, .run, .run,
      .returnJobMachines 1, .notifyJobComplete 1, .run, .run]
  start ++ executeAll 0 ++ executeAll 1 ++ notify

theorem successor_started_twice : ∃ manager : JobManager (Fin 3) 1,
    exec (JobManager.step twoPredecessors) (newJobManager linuxBox 0) bothFinish = some manager ∧
    manager.started = [1, 0, 2, 2] :=
  ⟨_, rfl, rfl⟩

theorem one_job_started_once :
    Along (JobManager.step twoPredecessors) (EnqueuesFresh twoPredecessors) (newJobManager linuxBox 0)
      [.startJobManager, .run, .run, .addJob 1, .run, .run] ∧
    Throughout (JobManager.step twoPredecessors) (StartedOnce twoPredecessors) (newJobManager linuxBox 0)
      [.startJobManager, .run, .run, .addJob 1, .run, .run] := by
  have fresh : Along (JobManager.step twoPredecessors) (EnqueuesFresh twoPredecessors) (newJobManager linuxBox 0)
      [.startJobManager, .run, .run, .addJob 1, .run, .run] := by
    refine along_cons _ _ _ _ _ _ rfl trivial ?_
    refine along_cons _ _ _ _ _ _ rfl trivial ?_
    refine along_cons _ _ _ _ _ _ rfl trivial ?_
    refine along_cons _ _ _ _ _ _ rfl (fun _ => by decide) ?_
    refine along_cons _ _ _ _ _ _ rfl trivial ?_
    exact along_cons _ _ _ _ _ _ rfl trivial trivial
  exact ⟨fresh, jobs_started_once twoPredecessors linuxBox 0 _ fresh⟩

end ToolchainUtils.Automation
