import ToolchainUtils.Automation.ExecuterAges

set_option autoImplicit false

namespace ToolchainUtils.Automation

open Transition

variable {J G : Type} {machines : Nat}

variable [DecidableEq G]

-- What has to be true of the jobs of a group once it was killed, in every later state.
structure KillKept (setup : GroupSetup J G) (manager : JobManager J machines) (kill : Kill J G) : Prop where
  unstarted : ∀ index executer, manager.executers[index]? = some executer → kill.executers ≤ index → executer.job ∉ kill.queued
  terminated : ∀ index executer, manager.executers[index]? = some executer → index < kill.executers →
    setup.group executer.job = kill.group → ∀ operations, executer.phase = .executing operations → executer.terminated = true
  silent : ∀ index executer, manager.executers[index]? = some executer → index < kill.executers →
    setup.group executer.job = kill.group → ∀ operations, executer.phase = .executing operations →
    ∀ exitCode timedOut, (runCommand (setup.dryRun executer.job) executer.terminated exitCode timedOut).spawned = false

def KillsKept (setup : GroupSetup J G) (server : JobGroupManager J G machines) : Prop :=
  ∀ kill ∈ server.kills, KillKept setup server.jobManager kill

-- No job of the group is queued, and all its running executers are terminated.
structure NothingLeft (setup : GroupSetup J G) (manager : JobManager J machines) (group : G) : Prop where
  queued : ∀ job ∈ manager.readyJobs, setup.group job ≠ group
  running : ∀ executer ∈ manager.executers, setup.group executer.job = group →
    ∀ operations, executer.phase = .executing operations → executer.terminated = true

-- The groups whose jobs a loop is killing.
inductive Killing (setup : GroupSetup J G) (server : JobGroupManager J G machines) : G → Prop where
  | killed (group : G) (rest : List J) (lock : server.lock = .killing group rest) : Killing setup server group
  | failed (index : Nat) (executer : Executer J machines) (lock : server.lock = .cleaning index)
      (present : server.jobManager.executers[index]? = some executer)
      (status : server.jobManager.status executer.job = .failed) : Killing setup server (setup.group executer.job)

-- A kill loop starts with nothing left to kill, and while it goes on no notification
-- makes a job of its group ready.
def NothingLeftToKill (setup : GroupSetup J G) (server : JobGroupManager J G machines) : GroupAction J G → Prop
  | .killJobGroup group => NothingLeft setup server.jobManager group
  | .notifyJobComplete index => ∀ executer, server.jobManager.executers[index]? = some executer →
      server.jobManager.status executer.job = .failed → (server.groups (setup.group executer.job)).current ≠ .failed →
      setup.cleanupOnFailure (setup.group executer.job) = true → NothingLeft setup server.jobManager (setup.group executer.job)
  | .jobManager (.notifyJobComplete index) => ∀ executer, server.jobManager.executers[index]? = some executer →
      server.jobManager.status executer.job = .succeeded → ∀ succ ∈ setup.successors executer.job,
      Killing setup server (setup.group succ) → server.jobManager.isReady setup.toJobSetup succ = false
  | _ => True

-- A kill that had nothing left to do.
structure KillDone (setup : GroupSetup J G) (manager : JobManager J machines) (kill : Kill J G) : Prop where
  queued : kill.queued = []
  executers : kill.executers ≤ manager.executers.length
  terminated : ∀ index executer, manager.executers[index]? = some executer → index < kill.executers →
    setup.group executer.job = kill.group → ∀ operations, executer.phase = .executing operations → executer.terminated = true

omit [DecidableEq G] in
theorem kill_done_ages (setup : GroupSetup J G) (manager next : JobManager J machines) (kill : Kill J G)
    (ages : Ages manager next) (done : KillDone setup manager kill) : KillDone setup next kill := by
  refine ⟨done.queued, Nat.le_trans done.executers ages.longer, fun index executer present early among operations executing => ?_⟩
  obtain ⟨before, presentBefore, follows⟩ := ages.older index executer (Nat.lt_of_lt_of_le early done.executers) present
  obtain ⟨earlier, executingBefore⟩ := follows.executing operations executing
  rw [follows.job] at among
  exact follows.terminated (done.terminated index before presentBefore early among earlier executingBefore)

omit [DecidableEq G] in
theorem kill_done_kept (setup : GroupSetup J G) (manager : JobManager J machines) (kill : Kill J G)
    (done : KillDone setup manager kill) : KillKept setup manager kill := by
  refine ⟨fun _ _ _ _ => by simp [done.queued], done.terminated, ?_⟩
  intro index executer present early among operations executing exitCode timedOut
  rw [done.terminated index executer present early among operations executing]
  exact (run_command_terminated _ exitCode timedOut).1

omit [DecidableEq G] in
theorem nothing_left_next (setup : GroupSetup J G) (manager next : JobManager J machines) (group : G) (ages : Ages manager next)
    (ready : ∀ job ∈ next.readyJobs, setup.group job = group → job ∈ manager.readyJobs)
    (fresh : ∀ (index : Nat) (executer : Executer J machines), manager.executers.length ≤ index →
      next.executers[index]? = some executer → executer.job ∈ manager.readyJobs)
    (nothing : NothingLeft setup manager group) : NothingLeft setup next group := by
  refine ⟨fun job queued among => nothing.queued job (ready job queued among) among,
    fun executer member among operations executing => ?_⟩
  obtain ⟨index, present⟩ := List.getElem?_of_mem member
  by_cases old : index < manager.executers.length
  · obtain ⟨before, presentBefore, follows⟩ := ages.older index executer old present
    obtain ⟨earlier, executingBefore⟩ := follows.executing operations executing
    rw [follows.job] at among
    exact follows.terminated (nothing.running before (List.mem_of_getElem? presentBefore) among earlier executingBefore)
  · exact absurd among (nothing.queued _ (fresh index executer (Nat.le_of_not_lt old) present))

omit [DecidableEq G] in
theorem nothing_left_ages (setup : GroupSetup J G) (manager next : JobManager J machines) (group : G) (ages : Ages manager next)
    (ready : next.readyJobs ⊆ manager.readyJobs) (length : next.executers.length = manager.executers.length)
    (nothing : NothingLeft setup manager group) : NothingLeft setup next group := by
  refine nothing_left_next setup manager next group ages (fun job queued _ => ready queued) (fun index executer beyond present => ?_)
    nothing
  obtain ⟨within, _⟩ := List.getElem?_eq_some_iff.mp present
  omega

theorem survivors_kill_done (setup : GroupSetup J G) (manager : JobManager J machines) (group : G)
    (nothing : NothingLeft setup manager group) : KillDone setup manager (manager.survivors setup group) := by
  refine ⟨?_, Nat.le_refl _, fun _ executer present _ => nothing.running executer (List.mem_of_getElem? present)⟩
  simp only [JobManager.survivors, List.filter_eq_nil_iff, decide_eq_true_eq]
  exact nothing.queued

-- A step either records no kill, or one with nothing left to do.
inductive Recorded (setup : GroupSetup J G) (server next : JobGroupManager J G machines) : Prop where
  | same (ages : Ages server.jobManager next.jobManager) (kills : next.kills = server.kills)
  | kill (group : G) (ages : Ages server.jobManager next.jobManager) (nothing : NothingLeft setup next.jobManager group)
      (kills : next.kills = server.kills ++ [next.jobManager.survivors setup group])

def KillsDone (setup : GroupSetup J G) (server : JobGroupManager J G machines) : Prop :=
  ∀ kill ∈ server.kills, KillDone setup server.jobManager kill

theorem recorded_kills_done (setup : GroupSetup J G) (server next : JobGroupManager J G machines) (done : KillsDone setup server)
    (recorded : Recorded setup server next) : KillsDone setup next := by
  cases recorded with
  | same ages kills =>
      intro kill member
      rw [kills] at member
      exact kill_done_ages setup _ _ kill ages (done kill member)
  | kill group ages nothing kills =>
      intro kill member
      rw [kills] at member
      rcases List.mem_append.mp member with old | new
      · exact kill_done_ages setup _ _ kill ages (done kill old)
      · rw [List.mem_singleton.mp new]
        exact survivors_kill_done setup next.jobManager group nothing

omit [DecidableEq G] in
theorem set_phase_nothing_left (setup : GroupSetup J G) (manager : JobManager J machines) (index : Nat) (phase : ExecuterPhase J)
    (group : G) (ended : ∀ operations, phase ≠ .executing operations) (nothing : NothingLeft setup manager group) :
    NothingLeft setup (manager.setPhase index phase) group :=
  nothing_left_ages setup manager _ group (set_phase_ages manager index phase ended)
    (by rw [(set_phase_fields manager index phase).1]; exact List.Subset.refl _)
    (set_phase_fields manager index phase).2.2 nothing

theorem handle_recorded (setup : GroupSetup J G) (server : JobGroupManager J G machines) (index : Nat) (job : J)
    (nothing : server.jobManager.status job = .failed → (server.groups (setup.group job)).current ≠ .failed →
      setup.cleanupOnFailure (setup.group job) = true → NothingLeft setup server.jobManager (setup.group job)) :
    Recorded setup server (server.handle setup index job) := by
  have phased : ∀ phase : ExecuterPhase J, (∀ operations, phase ≠ .executing operations) →
      Ages server.jobManager (server.jobManager.setPhase index phase) := set_phase_ages server.jobManager index
  have died := phased .died (by simp)
  have ended := phased .finished (by simp)
  unfold JobGroupManager.handle
  dsimp only
  by_cases already : (server.groups (setup.group job)).current = .failed
  · rw [if_pos already]
    exact .same ended rfl
  rw [if_neg already]
  by_cases failed : server.jobManager.status job = .failed
  · rw [if_pos failed]
    unfold JobGroupManager.failGroup
    cases changed : (server.groups (setup.group job)).change groupTransitions .failed with
    | none =>
        dsimp only
        by_cases cleans : setup.cleanupOnFailure (setup.group job) = true
        · rw [if_pos cleans]
          exact .kill (setup.group job) died
            (set_phase_nothing_left setup server.jobManager index .died _ (by simp) (nothing failed already cleans)) rfl
        · rw [if_neg cleans]
          exact .same died rfl
    | some state =>
        dsimp only
        by_cases cleans : setup.cleanupOnFailure (setup.group job) = true
        · rw [if_pos cleans]
          exact .same (phased _ (by simp)) rfl
        · rw [if_neg cleans]
          exact .same ended rfl
  rw [if_neg failed]
  by_cases succeeded : server.jobManager.status job = .succeeded
  · rw [if_pos succeeded]
    split
    · exact .same died rfl
    · split
      · unfold JobGroupManager.completeGroup
        split
        · exact .same died rfl
        · dsimp only
          split
          · exact .same (phased _ (by simp)) rfl
          · exact .same ended rfl
      · exact .same ended rfl
  · rw [if_neg succeeded]
    exact .same died rfl

theorem leave_clean_up_recorded (setup : GroupSetup J G) (server : JobGroupManager J G machines) (index : Nat) (job : J)
    (phase : ExecuterPhase J) (ended : ∀ operations, phase ≠ .executing operations)
    (nothing : server.jobManager.status job = .failed → NothingLeft setup server.jobManager (setup.group job)) :
    Recorded setup server (server.leaveCleanUp setup index job phase) := by
  have ages := set_phase_ages server.jobManager index phase ended
  have same : (server.jobManager.setPhase index phase).status job = server.jobManager.status job := by
    rw [JobManager.status, (set_phase_fields server.jobManager index phase).2.1, JobManager.status]
  unfold JobGroupManager.leaveCleanUp
  dsimp only
  split
  · next failed =>
      have before : server.jobManager.status job = .failed := same.symm.trans failed
      exact .kill (setup.group job) ages (set_phase_nothing_left setup server.jobManager index phase _ ended (nothing before)) rfl
  · exact .same ages rfl

-- The steps of the loop that cleans a group up; its kills find no job.
theorem clean_up_cases (setup : GroupSetup J G) (server next : JobGroupManager J G machines) (index : Nat) (exitCode : Int)
    (timedOut : Bool) (taken : server.cleanUp setup index exitCode timedOut = some next) :
    ∃ executer, server.jobManager.executers[index]? = some executer ∧
      ((executer.phase = .cleaning [] ∧ next = server.leaveCleanUp setup index executer.job .finished) ∨
        (∃ job rest, executer.phase = .cleaning (.kill job :: rest) ∧ next = server.setPhase index (.cleaning rest)) ∨
        ∃ job rest, executer.phase = .cleaning (.cleanUp job :: rest) ∧
          let result := server.jobManager.cleanUpJob setup.toJobSetup job exitCode timedOut
          let cleaned := { server with jobManager := result.1 }
          next = if result.2 then cleaned.setPhase index (.cleaning rest)
            else cleaned.leaveCleanUp setup index executer.job .died) := by
  rw [JobGroupManager.cleanUp] at taken
  split at taken
  · cases taken
  · next executer present =>
      refine ⟨executer, present, ?_⟩
      split at taken
      · next phase =>
          cases taken
          exact .inl ⟨phase, rfl⟩
      · next job rest phase =>
          simp only [Option.ite_none_right_eq_some, Option.some.injEq] at taken
          obtain ⟨_, rfl⟩ := taken
          rw [kill_job_nothing]
          exact .inr (.inl ⟨job, rest, phase, rfl⟩)
      · next job rest phase =>
          simp only [Option.ite_none_right_eq_some, Option.some.injEq] at taken
          obtain ⟨_, rfl⟩ := taken
          exact .inr (.inr ⟨job, rest, phase, rfl⟩)
      · cases taken

-- While a loop kills a group there is nothing left of it to kill. The lock tells whose
-- loop it is; a job whose completion is cleaned up has a final status.
structure Settled (setup : GroupSetup J G) (server : JobGroupManager J G machines) : Prop where
  cleaning : ∀ (index : Nat) (executer : Executer J machines) (operations : List (CleanUpOperation J)),
    server.jobManager.executers[index]? = some executer → executer.phase = .cleaning operations → server.lock = .cleaning index
  final : ∀ index, server.lock = .cleaning index → ∃ executer, server.jobManager.executers[index]? = some executer ∧
    (server.jobManager.status executer.job = .succeeded ∨ server.jobManager.status executer.job = .failed)
  nothing : ∀ group, Killing setup server group → NothingLeft setup server.jobManager group

omit [DecidableEq G] in
-- Steps that leave the lock alone and the jobs of the killed groups unqueued.
theorem settled_next (setup : GroupSetup J G) (server next : JobGroupManager J G machines) (settled : Settled setup server)
    (lock : next.lock = server.lock) (ages : Ages server.jobManager next.jobManager)
    (leaves : Leaves server.jobManager next.jobManager)
    (nothing : ∀ group, Killing setup server group → NothingLeft setup next.jobManager group) : Settled setup next := by
  have same : ∀ index, next.lock = .cleaning index → ∀ executer, next.jobManager.executers[index]? = some executer →
      ∃ before, server.jobManager.executers[index]? = some before ∧ executer.job = before.job ∧
        next.jobManager.status before.job = server.jobManager.status before.job := by
    intro index held executer present
    obtain ⟨before, presentBefore, final⟩ := settled.final index (lock.symm.trans held)
    obtain ⟨old, presentOld, follows⟩ :=
      ages.older index executer (List.getElem?_eq_some_iff.mp presentBefore).1 present
    cases presentBefore.symm.trans presentOld
    exact ⟨before, presentBefore, follows.job, leaves.final before.job final⟩
  refine ⟨fun index executer operations present cleaning => ?_, fun index held => ?_, fun group killing => nothing group ?_⟩
  · obtain ⟨before, presentBefore, cleaningBefore⟩ := leaves.cleaning index executer operations present cleaning
    rw [lock]
    exact settled.cleaning index before operations presentBefore cleaningBefore
  · obtain ⟨before, presentBefore, final⟩ := settled.final index (lock.symm.trans held)
    have within := Nat.lt_of_lt_of_le (List.getElem?_eq_some_iff.mp presentBefore).1 ages.longer
    obtain ⟨old, presentOld, job, status⟩ := same index held _ (List.getElem?_eq_getElem within)
    cases presentBefore.symm.trans presentOld
    exact ⟨_, List.getElem?_eq_getElem within, by rw [job, status]; exact final⟩
  · cases killing with
    | killed group rest held => exact .killed group rest (lock.symm.trans held)
    | failed index executer held present status =>
        obtain ⟨before, presentBefore, job, kept⟩ := same index held executer present
        rw [job] at status ⊢
        exact .failed index before (lock.symm.trans held) presentBefore (kept.symm.trans status)

omit [DecidableEq G] in
-- A lock that no clean-up has: nobody is cleaning up.
theorem settled_unlocked (setup : GroupSetup J G) (server next : JobGroupManager J G machines) (settled : Settled setup server)
    (idle : ∀ index, server.lock ≠ .cleaning index) (unlocked : ∀ index, next.lock ≠ .cleaning index)
    (leaves : Leaves server.jobManager next.jobManager)
    (nothing : ∀ group rest, next.lock = .killing group rest → NothingLeft setup next.jobManager group) : Settled setup next := by
  refine ⟨fun index executer operations present cleaning => ?_, fun index held => absurd held (unlocked index),
    fun group killing => ?_⟩
  · obtain ⟨before, presentBefore, cleaningBefore⟩ := leaves.cleaning index executer operations present cleaning
    exact absurd (settled.cleaning index before operations presentBefore cleaningBefore) (idle index)
  · cases killing with
    | killed group rest held => exact nothing group rest held
    | failed index executer held => exact absurd held (unlocked index)

omit [DecidableEq G] in
theorem set_phase_executers (manager : JobManager J machines) (index position : Nat) (phase : ExecuterPhase J)
    (executer : Executer J machines) (present : (manager.setPhase index phase).executers[position]? = some executer) :
    (position = index ∧ executer.phase = phase ∧
        ∃ before, manager.executers[index]? = some before ∧ executer.job = before.job) ∨
      (position ≠ index ∧ manager.executers[position]? = some executer) := by
  unfold JobManager.setPhase at present
  split at present
  · next absent =>
      have other : position ≠ index := by
        rintro rfl
        rw [absent] at present
        cases present
      exact .inr ⟨other, present⟩
  · next before presentBefore =>
      obtain ⟨within, _⟩ := List.getElem?_eq_some_iff.mp presentBefore
      by_cases here : position = index
      · subst here
        simp only [JobManager.setExecuter, List.getElem?_set_self within, Option.some.injEq] at present
        subst present
        exact .inl ⟨rfl, rfl, before, presentBefore, rfl⟩
      · simp only [JobManager.setExecuter, List.getElem?_set_ne (Ne.symm here)] at present
        exact .inr ⟨here, present⟩

omit [DecidableEq G] in
-- Nobody else is cleaning up, and the one that leaves the lock has stopped.
theorem settled_leaves (setup : GroupSetup J G) (server next : JobGroupManager J G machines) (settled : Settled setup server)
    (index : Nat) (phase : ExecuterPhase J) (stops : ∀ operations, phase ≠ .cleaning operations)
    (held : server.lock = .free ∨ server.lock = .cleaning index)
    (manager : next.jobManager = server.jobManager.setPhase index phase) (free : next.lock = .free) : Settled setup next := by
  refine ⟨fun position executer operations present cleaning => ?_, fun other lock => ?_, fun group killing => ?_⟩
  · rw [manager] at present
    rcases set_phase_executers _ index position phase executer present with ⟨_, now, _⟩ | ⟨apart, before⟩
    · exact absurd (now.symm.trans cleaning) (stops operations)
    · have lock := settled.cleaning position executer operations before cleaning
      rcases held with held | held
      · cases held.symm.trans lock
      · cases held.symm.trans lock
        exact absurd rfl apart
  · cases free.symm.trans lock
  · cases killing with
    | killed group rest lock => cases free.symm.trans lock
    | failed other executer lock => cases free.symm.trans lock

omit [DecidableEq G] in
-- The one that has the lock, or takes it, is cleaning up.
theorem settled_cleans (setup : GroupSetup J G) (server next : JobGroupManager J G machines) (settled : Settled setup server)
    (index : Nat) (executer : Executer J machines) (operations : List (CleanUpOperation J))
    (held : server.lock = .free ∨ server.lock = .cleaning index)
    (present : server.jobManager.executers[index]? = some executer)
    (final : server.jobManager.status executer.job = .succeeded ∨ server.jobManager.status executer.job = .failed)
    (nothing : server.jobManager.status executer.job = .failed → NothingLeft setup server.jobManager (setup.group executer.job))
    (manager : next.jobManager = server.jobManager.setPhase index (.cleaning operations)) (lock : next.lock = .cleaning index) :
    Settled setup next := by
  have mine : ∀ one, next.jobManager.executers[index]? = some one → one.job = executer.job := by
    intro one listed
    rw [manager] at listed
    rcases set_phase_executers _ index index _ one listed with ⟨_, _, before, presentBefore, job⟩ | ⟨apart, _⟩
    · cases present.symm.trans presentBefore
      exact job
    · exact absurd rfl apart
  have status : ∀ job, next.jobManager.status job = server.jobManager.status job := fun job => by
    rw [manager, set_phase_status]
  refine ⟨fun position one others listed cleaning => ?_, fun other taken => ?_, fun group killing => ?_⟩
  · rw [manager] at listed
    rcases set_phase_executers _ index position _ one listed with ⟨rfl, _⟩ | ⟨apart, before⟩
    · exact lock
    · have taken := settled.cleaning position one others before cleaning
      rcases held with held | held
      · cases held.symm.trans taken
      · cases held.symm.trans taken
        exact absurd rfl apart
  · cases lock.symm.trans taken
    have within : index < next.jobManager.executers.length := by
      rw [manager, (set_phase_fields _ index _).2.2]
      exact (List.getElem?_eq_some_iff.mp present).1
    refine ⟨_, List.getElem?_eq_getElem within, ?_⟩
    rw [status, mine _ (List.getElem?_eq_getElem within)]
    exact final
  · cases killing with
    | killed group rest taken => cases lock.symm.trans taken
    | failed other one taken listed failed =>
        cases lock.symm.trans taken
        rw [status, mine one listed] at failed
        rw [mine one listed, manager]
        exact set_phase_nothing_left setup server.jobManager index _ _ (by simp) (nothing failed)

theorem handle_settled (setup : GroupSetup J G) (server : JobGroupManager J G machines) (index : Nat)
    (executer : Executer J machines) (settled : Settled setup server) (free : server.lock = .free)
    (present : server.jobManager.executers[index]? = some executer)
    (nothing : server.jobManager.status executer.job = .failed → (server.groups (setup.group executer.job)).current ≠ .failed →
      setup.cleanupOnFailure (setup.group executer.job) = true →
      NothingLeft setup server.jobManager (setup.group executer.job)) :
    Settled setup (server.handle setup index executer.job) := by
  have stops (next : JobGroupManager J G machines) (phase : ExecuterPhase J) (ends : ∀ operations, phase ≠ .cleaning operations)
      (manager : next.jobManager = server.jobManager.setPhase index phase) (unlocked : next.lock = .free) : Settled setup next :=
    settled_leaves setup server next settled index phase ends (.inl free) manager unlocked
  unfold JobGroupManager.handle
  dsimp only
  by_cases already : (server.groups (setup.group executer.job)).current = .failed
  · rw [if_pos already]
    exact stops _ .finished nofun rfl free
  rw [if_neg already]
  by_cases failed : server.jobManager.status executer.job = .failed
  · rw [if_pos failed]
    unfold JobGroupManager.failGroup
    split
    · dsimp only
      split
      · exact stops _ .died nofun rfl free
      · exact stops _ .died nofun rfl free
    · dsimp only
      split
      · next cleans =>
          exact settled_cleans setup server _ settled index executer _ (.inl free) present (.inr failed)
            (fun _ => nothing failed already cleans) rfl rfl
      · exact stops _ .finished nofun rfl free
  rw [if_neg failed]
  by_cases succeeded : server.jobManager.status executer.job = .succeeded
  · rw [if_pos succeeded]
    split
    · exact stops _ .died nofun rfl free
    · split
      · unfold JobGroupManager.completeGroup
        split
        · exact stops _ .died nofun rfl free
        · dsimp only
          split
          · exact settled_cleans setup server _ settled index executer _ (.inl free) present (.inl succeeded)
              (fun is_failed => absurd is_failed failed) rfl rfl
          · exact stops _ .finished nofun rfl free
      · exact stops _ .finished nofun rfl free
  · rw [if_neg succeeded]
    exact stops _ .died nofun rfl free

theorem leave_clean_up_settled (setup : GroupSetup J G) (server : JobGroupManager J G machines) (index : Nat) (job : J)
    (phase : ExecuterPhase J) (stops : ∀ operations, phase ≠ .cleaning operations) (settled : Settled setup server)
    (held : server.lock = .cleaning index) : Settled setup (server.leaveCleanUp setup index job phase) := by
  unfold JobGroupManager.leaveCleanUp
  dsimp only
  split
  · exact settled_leaves setup server _ settled index phase stops (.inr held) rfl rfl
  · exact settled_leaves setup server _ settled index phase stops (.inr held) rfl rfl

theorem clean_up_settled (setup : GroupSetup J G) (server next : JobGroupManager J G machines) (index : Nat) (exitCode : Int)
    (timedOut : Bool) (settled : Settled setup server) (taken : server.cleanUp setup index exitCode timedOut = some next) :
    Settled setup next ∧ Recorded setup server next := by
  obtain ⟨executer, present, ⟨phase, rfl⟩ | ⟨job, rest, phase, rfl⟩ | ⟨job, rest, phase, rfl⟩⟩ :=
    clean_up_cases setup server next index exitCode timedOut taken
  all_goals
    have held := settled.cleaning index executer _ present phase
    obtain ⟨same, presentSame, final⟩ := settled.final index held
    cases present.symm.trans presentSame
    have nothing (failed : server.jobManager.status executer.job = .failed) :
        NothingLeft setup server.jobManager (setup.group executer.job) :=
      settled.nothing _ (.failed index executer held present failed)
  · exact ⟨leave_clean_up_settled setup server index executer.job .finished nofun settled held,
      leave_clean_up_recorded setup server index executer.job .finished (by simp) nothing⟩
  · exact ⟨settled_cleans setup server _ settled index executer rest (.inr held) present final nothing rfl held,
      .same (set_phase_ages server.jobManager index _ (by simp)) rfl⟩
  · have ages := clean_up_job_ages setup.toJobSetup server.jobManager job exitCode timedOut
    obtain ⟨ready, jobs, _, length⟩ := clean_up_job_fields setup.toJobSetup server.jobManager job exitCode timedOut
    have left (group : G) (before : NothingLeft setup server.jobManager group) :
        NothingLeft setup (server.jobManager.cleanUpJob setup.toJobSetup job exitCode timedOut).1 group :=
      nothing_left_ages setup _ _ _ ages (by rw [ready]; exact List.Subset.refl _) length before
    have cleaned : Settled setup
        { server with jobManager := (server.jobManager.cleanUpJob setup.toJobSetup job exitCode timedOut).1 } :=
      settled_next setup server _ settled rfl ages (clean_up_job_leaves setup.toJobSetup server.jobManager job exitCode timedOut)
        fun group killing => left group (settled.nothing group killing)
    obtain ⟨after, presentAfter, finalAfter⟩ := cleaned.final index held
    cases result : (server.jobManager.cleanUpJob setup.toJobSetup job exitCode timedOut).2 with
    | true =>
        rw [if_pos rfl]
        exact ⟨settled_cleans setup _ _ cleaned index after rest (.inr held) presentAfter finalAfter
            (fun failed => cleaned.nothing _ (.failed index after held presentAfter failed)) rfl held,
          .same (ages_trans _ _ _ ages (set_phase_ages _ index _ (by simp))) rfl⟩
    | false =>
        rw [if_neg (by simp)]
        refine ⟨leave_clean_up_settled setup _ index executer.job .died nofun cleaned held, ?_⟩
        have recorded := leave_clean_up_recorded setup
          { server with jobManager := (server.jobManager.cleanUpJob setup.toJobSetup job exitCode timedOut).1 } index executer.job
          .died (by simp) fun failed => by
            rw [JobManager.status, jobs] at failed
            exact left _ (nothing failed)
        cases recorded with
        | same later kills => exact .same (ages_trans _ _ _ ages later) kills
        | kill group later left kills => exact .kill group (ages_trans _ _ _ ages later) left kills

variable [DecidableEq J]

omit [DecidableEq G] [DecidableEq J] in
theorem quiet_nothing_left (setup : GroupSetup J G) (manager next : JobManager J machines) (group : G) (ages : Ages manager next)
    (quiet : Quiet manager next) (nothing : NothingLeft setup manager group) : NothingLeft setup next group := by
  refine nothing_left_ages setup manager next group ages quiet.ready ?_ nothing
  have started := congrArg List.length quiet.started
  simpa [JobManager.started] using started

omit [DecidableEq G] in
-- A step adds jobs that a notification makes ready, and executers of jobs that were queued.
theorem step_nothing_left (setup : GroupSetup J G) (manager : JobManager J machines) (action : JobAction J)
    (next : JobManager J machines) (group : G) (internal : action.internal = true)
    (unqueued : ∀ index, action = .notifyJobComplete index → ∀ executer, manager.executers[index]? = some executer →
      manager.status executer.job = .succeeded → ∀ succ ∈ setup.successors executer.job, setup.group succ = group →
      manager.isReady setup.toJobSetup succ = false)
    (taken : manager.step setup.toJobSetup action = some next) (nothing : NothingLeft setup manager group) :
    NothingLeft setup next group := by
  have ages := step_ages setup.toJobSetup manager action next taken
  cases step_cases setup.toJobSetup manager action next taken with
  | started => exact nothing_left_ages setup _ _ group ages (List.Subset.refl _) rfl nothing
  | stopped => exact quiet_nothing_left setup _ _ group ages (stop_quiet manager) nothing
  | added job => cases internal
  | killed key => exact quiet_nothing_left setup _ _ group ages (kill_quiet manager key) nothing
  | ran _ ran =>
      obtain ⟨thread, rfl⟩ | ⟨_, rfl⟩ := run_cases setup.toJobSetup manager next ran
      · exact nothing_left_ages setup _ _ group ages (List.Subset.refl _) rfl nothing
      · have drained := drain_cases setup.toJobSetup manager
        generalize manager.drain setup.toJobSetup = next at drained ages
        cases drained with
        | empty => exact nothing_left_ages setup _ _ group ages (List.Subset.refl _) rfl nothing
        | crashed => exact nothing_left_ages setup _ _ group ages (List.dropLast_subset _) rfl nothing
        | refused job specs pool last required result =>
            refine nothing_left_ages setup _ _ group ages (fun other queued => ?_) rfl nothing
            rcases List.mem_cons.mp queued with rfl | old
            · exact List.mem_of_getLast? last
            · exact List.dropLast_subset _ old
        | started job specs pool acquired last required result some_machine =>
            refine nothing_left_next setup _ _ group ages (fun other queued _ => List.dropLast_subset _ queued)
              (fun index executer beyond present => ?_) nothing
            simp only [JobManager.startJob, List.getElem?_append_right beyond] at present
            rw [List.mem_singleton.mp (List.mem_of_getElem? present)]
            exact List.mem_of_getLast? last
  | executed index exitCode timedOut _ executed =>
      exact quiet_nothing_left setup _ _ group ages (execute_quiet setup.toJobSetup manager next index exitCode timedOut executed)
        nothing
  | returned index _ returned =>
      exact quiet_nothing_left setup _ _ group ages (return_job_machines_quiet manager next index returned) nothing
  | notified index _ notified =>
      obtain ⟨executer, present, _, rfl⟩ := notify_job_complete_cases setup.toJobSetup manager next index notified
      refine nothing_left_next setup _ _ group ages (fun job queued among => ?_) (fun position one beyond listed => ?_) nothing
      · simp only [JobManager.completeJob, JobManager.notifyAll] at queued
        split at queued
        · next succeeded =>
            rcases mem_queue_successors setup.toJobSetup _ _ job queued with old | ⟨succ, ready⟩
            · exact old
            · have unready := unqueued index rfl executer present succeeded job succ among
              exact absurd (unready.symm.trans ready) Bool.false_ne_true
        · exact queued
      · obtain ⟨within, _⟩ := List.getElem?_eq_some_iff.mp listed
        simp only [JobManager.completeJob, JobManager.notifyAll, JobManager.setExecuter, List.length_set] at within
        omega

theorem step_settled (setup : GroupSetup J G) (server : JobGroupManager J G machines) (action : GroupAction J G)
    (next : JobGroupManager J G machines) (settled : Settled setup server) (condition : NothingLeftToKill setup server action)
    (taken : server.step setup action = some next) : Settled setup next ∧ Recorded setup server next := by
  cases action with
  | jobManager action =>
      simp only [JobGroupManager.step, Option.ite_none_right_eq_some, Option.map_eq_some_iff] at taken
      obtain ⟨internal, manager, stepped, rfl⟩ := taken
      have ages := step_ages setup.toJobSetup server.jobManager action manager stepped
      refine ⟨settled_next setup server _ settled rfl ages (step_leaves setup.toJobSetup server.jobManager action manager stepped)
        fun group killing => ?_, .same ages rfl⟩
      refine step_nothing_left setup server.jobManager action manager group internal (fun index is executer present succeeded succ
        member among => ?_) stepped (settled.nothing group killing)
      subst is
      exact condition executer present succeeded succ member (among ▸ killing)
  | addJobGroup group =>
      simp only [JobGroupManager.step, JobGroupManager.addJobGroup] at taken
      split at taken
      · next free =>
          simp only [Option.ite_none_left_eq_some, Option.some.injEq] at taken
          obtain ⟨_, rfl⟩ := taken
          exact ⟨settled_unlocked setup server _ settled (by simp [free]) (by simp) (leaves_same _ _ rfl rfl) (by simp),
            .same (ages_same _ _ rfl) rfl⟩
      · cases taken
  | goOnAdding =>
      simp only [JobGroupManager.step, JobGroupManager.goOnAdding] at taken
      split at taken
      · next group job rest adding =>
          simp only [Option.ite_none_right_eq_some, Option.some.injEq] at taken
          obtain ⟨_, rfl⟩ := taken
          exact ⟨settled_unlocked setup server _ settled (by simp [adding]) (by simp) (leaves_same _ _ rfl rfl) (by simp),
            .same (ages_same _ _ rfl) rfl⟩
      · next group adding =>
          split at taken <;>
          · cases taken
            exact ⟨settled_unlocked setup server _ settled (by simp [adding]) (by simp) (leaves_same _ _ rfl rfl) (by simp),
              .same (ages_same _ _ rfl) rfl⟩
      · cases taken
  | killJobGroup group =>
      simp only [JobGroupManager.step, JobGroupManager.killJobGroup] at taken
      split at taken
      · next free =>
          cases taken
          refine ⟨settled_unlocked setup server _ settled (by simp [free]) (by simp) (leaves_same _ _ rfl rfl) ?_,
            .same (ages_same _ _ rfl) rfl⟩
          intro other rest lock
          cases lock
          exact condition
      · cases taken
  | goOnKilling =>
      simp only [JobGroupManager.step, JobGroupManager.goOnKilling] at taken
      split at taken
      · next group job rest lock =>
          simp only [Option.ite_none_right_eq_some, Option.some.injEq] at taken
          obtain ⟨_, rfl⟩ := taken
          rw [kill_job_nothing]
          refine ⟨settled_unlocked setup server _ settled (by simp [lock]) (by simp) (leaves_same _ _ rfl rfl) ?_,
            .same (ages_same _ _ rfl) rfl⟩
          intro other others same
          cases same
          exact settled.nothing group (.killed group (job :: rest) lock)
      · next group lock =>
          cases taken
          exact ⟨settled_unlocked setup server _ settled (by simp [lock]) (by simp) (leaves_same _ _ rfl rfl) (by simp),
            .kill group (ages_same _ _ rfl) (settled.nothing group (.killed group [] lock)) rfl⟩
      · cases taken
  | notifyJobComplete index =>
      simp only [JobGroupManager.step, JobGroupManager.notifyJobComplete] at taken
      split at taken
      · cases taken
      · next executer present =>
          split at taken
          · next free =>
              cases taken
              exact ⟨handle_settled setup server index executer settled free present (condition executer present),
                handle_recorded setup server index executer.job (condition executer present)⟩
          · cases taken
  | cleanUp index exitCode timedOut => exact clean_up_settled setup server next index exitCode timedOut settled taken

omit [DecidableEq G] [DecidableEq J] in
theorem new_server_settled (setup : GroupSetup J G) (pool : Pool machines) (counter : Nat) :
    Settled setup (newServer pool counter : JobGroupManager J G machines) := by
  refine ⟨fun index executer operations present => ?_, fun index lock => ?_, fun group killing => ?_⟩
  · simp [newServer, newJobManager] at present
  · cases lock
  · cases killing with
    | killed group rest lock => cases lock
    | failed index executer lock => cases lock

theorem killed_groups_stay_killed (setup : GroupSetup J G) (pool : Pool machines) (counter : Nat) (actions : List (GroupAction J G))
    (nothing : Along (JobGroupManager.step setup) (NothingLeftToKill setup) (newServer pool counter) actions) :
    Throughout (JobGroupManager.step setup) (KillsKept setup) (newServer pool counter) actions := by
  have both : Throughout (JobGroupManager.step setup) (fun server => Settled setup server ∧ KillsDone setup server)
      (newServer pool counter) actions := by
    refine throughout_of_along (JobGroupManager.step setup) (NothingLeftToKill setup) _
      (fun server action next inv condition taken => ?_) actions _ ?_ nothing
    · obtain ⟨settled, recorded⟩ := step_settled setup server action next inv.1 condition taken
      exact ⟨settled, recorded_kills_done setup server next inv.2 recorded⟩
    · exact ⟨new_server_settled setup pool counter, fun _ member => absurd member List.not_mem_nil⟩
  exact throughout_mono (JobGroupManager.step setup) _ (KillsKept setup)
    (fun server inv kill member => kill_done_kept setup server.jobManager kill (inv.2 kill member)) _ actions both

-- Independent jobs of one group, each on any machine, for itself or shared.
def independentJobs (count : Nat) (lockRequired : Bool) : GroupSetup (Fin count) Unit where
  predecessors _ := []
  successors _ := []
  symmetric := by simp
  machineDependencies _ := [anyMachine lockRequired]
  folderDependencies _ := []
  commandText _ := some "make"
  dryRun _ := false
  jobs _ := List.finRange count
  group _ := ()
  belongs := by simp
  cleanupOnCompletion _ := false
  cleanupOnFailure _ := false

-- One job is running and the other waits for its machine when the group is killed.
def killWhileRunning : List (GroupAction (Fin 2) Unit) :=
  [.jobManager .startJobManager, .jobManager .run, .jobManager .run, .addJobGroup (), .goOnAdding, .goOnAdding, .goOnAdding,
    .jobManager .run, .jobManager .run, .jobManager .run, .killJobGroup (), .goOnKilling, .goOnKilling, .goOnKilling]

def finishFirstJob : List (GroupAction (Fin 2) Unit) :=
  let succeed : List (GroupAction (Fin 2) Unit) := List.replicate 9 (.jobManager (.execute 0 0 false))
  let notify : List (GroupAction (Fin 2) Unit) :=
    [.jobManager (.returnJobMachines 0), .jobManager .run, .jobManager .run, .jobManager (.notifyJobComplete 0),
      .jobManager .run, .jobManager .run]
  succeed ++ notify

theorem killed_group_goes_on : ∃ killed later : JobGroupManager (Fin 2) Unit 1,
    exec (JobGroupManager.step (independentJobs 2 true)) (newServer linuxBox 0) killWhileRunning = some killed ∧
    ¬ KillsKept (independentJobs 2 true) killed ∧
    exec (JobGroupManager.step (independentJobs 2 true)) killed finishFirstJob = some later ∧
    ¬ ∀ kill ∈ later.kills, ∀ index executer, later.jobManager.executers[index]? = some executer →
      kill.executers ≤ index → executer.job ∉ kill.queued := by
  refine ⟨_, _, rfl, ?_, rfl, ?_⟩
  · intro kept
    have terminated := (kept ⟨(), [0], 1⟩ (by decide)).terminated 0 _ rfl (by decide) rfl _ rfl
    exact absurd terminated (by decide)
  · intro unstarted
    exact unstarted ⟨(), [0], 1⟩ (by decide) 1 _ rfl (by decide) (by decide)

-- Stopping the server terminates the running job by its id and empties the queue.
def stopWhileRunning : List (GroupAction (Fin 2) Unit) :=
  [.jobManager .startJobManager, .jobManager .run, .jobManager .run, .addJobGroup (), .goOnAdding, .goOnAdding, .goOnAdding,
    .jobManager .run, .jobManager .run, .jobManager .run, .jobManager .stopJobManager]

def killStopped : List (GroupAction (Fin 2) Unit) := [.killJobGroup (), .goOnKilling, .goOnKilling, .goOnKilling]

theorem stopped_group_stays_killed :
    Along (JobGroupManager.step (independentJobs 2 true)) (NothingLeftToKill (independentJobs 2 true)) (newServer linuxBox 0)
      (stopWhileRunning ++ killStopped) ∧
    Throughout (JobGroupManager.step (independentJobs 2 true)) (KillsKept (independentJobs 2 true)) (newServer linuxBox 0)
      (stopWhileRunning ++ killStopped) := by
  have nothing : Along (JobGroupManager.step (independentJobs 2 true)) (NothingLeftToKill (independentJobs 2 true)) (newServer linuxBox 0)
      (stopWhileRunning ++ killStopped) := by
    refine (along_append _ _ _ _ _ _ rfl).mpr ⟨along_of_forall _ _ _ _ ?_, ?_⟩
    · simp [stopWhileRunning, NothingLeftToKill]
    · refine along_cons _ _ _ _ _ _ rfl ⟨?_, ?_⟩ (along_of_forall _ _ _ _ ?_)
      · exact fun job queued => absurd queued List.not_mem_nil
      · intro executer member among operations executing
        rw [List.mem_singleton.mp member]
      · simp [NothingLeftToKill]
  exact ⟨nothing, killed_groups_stay_killed (independentJobs 2 true) linuxBox 0 _ nothing⟩

end ToolchainUtils.Automation
