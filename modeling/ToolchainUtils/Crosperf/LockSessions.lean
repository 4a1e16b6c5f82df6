import ToolchainUtils.AfeLockMachine.LockChecks
import ToolchainUtils.Crosperf.ExperimentRunner

set_option autoImplicit false

namespace ToolchainUtils.Crosperf.ExperimentRunner

open PyString AfeLockMachine AtomicCalls AtomicCalls.Program

-- Where a machine is locked.
def place (machine : Text) : Address := queried toolchainLabMachines machine

theorem modified_place (machine : Text) : modified toolchainLabMachines machine = place machine :=
  modified_queried toolchainLabMachines lab_machines_named machine

-- The name that a host has in the states stands for the same host.
theorem place_host (machine : Text) : place (place machine).host = place machine := by
  apply host_determines toolchainLabMachines lab_machines_named
  by_cases listed : machine ∈ toolchainLabMachines ∨ machine ++ dotCros ∈ toolchainLabMachines
  · have full := (lab_forms toolchainLabMachines lab_machines_named machine listed).1
    rw [place, queried_lab _ machine listed, queried_lab _ _ (.inr full)]
    exact host_part_dotless_eq _ (host_part_dotless machine)
  · rw [place, queried_nonlab _ machine listed]
    exact congrArg Address.host (queried_nonlab _ machine listed)

theorem place_determines (first second : Text) (same : (place first).host = (place second).host) : place first = place second :=
  host_determines toolchainLabMachines lab_machines_named first second same

-- A run only unlocks a host that it has locked itself, before its exit handler is at work, and starts
-- its experiment with the lists that the locking leaves. It reads that what it has locked is locked.
def rules (user : Text) (experiment : Experiment) : Rules Answer Noted where
  allowed noted
    | .modifyHosts address updateData =>
        updateData.locked = true ∨ noted.running = [] ∧ (noted.exiting = true ∨ address ∈ noted.held)
    | .startExperiment lockedMachines machines =>
        (∀ address, address ∈ noted.held ↔ ∃ m ∈ lockedMachines, place m = address) ∧
          machines = (Crosperf.lockAllMachines CrosMachine.name experiment.lists lockedMachines).1.names CrosMachine.name
    | _ => True
  possible noted
    | .getHosts address, .ok infos => ∀ info ∈ infos, info.hostname = address.host ∧
        (address ∈ noted.held → info.locked = true ∧ info.lockedBy = user)
    | .modifyHosts address updateData, .ok () => updateData.locked = true → address ∉ noted.held
    | _, _ => True

abbrev Obeys {Value : Type} (user : Text) (experiment : Experiment) (after : Value → Noted → Prop) (raises : Failure → Noted → Prop)
    (program : Session Value) (noted : Noted) : Prop := Follows note (rules user experiment) after raises program noted

-- An error of a server only counts for the exit handler.
structure Upset (noted later : Noted) : Prop where
  waiting : noted.exiting = false → later = noted
  exiting : noted.exiting = true → later.exitFailed = true

theorem upset_failure (noted : Noted) : Upset noted (noteFailure noted) := by
  refine ⟨fun waiting => ?_, fun exiting => ?_⟩
  · obtain ⟨held, running, exiting, exitFailed, stranded⟩ := noted
    cases waiting
    exact congrArg (fun failed => Noted.mk held running false failed stranded) (Bool.or_false exitFailed)
  · rw [noteFailure, exiting, Bool.or_true]

section Managers

variable (system : System) (lab : List Text)

def Pingable (remotes : List Text) : Prop :=
  usesLocal (lockOptions remotes) (system.listSet remotes) lab = true → checkLocalServer system (lockOptions remotes) = .ok ()

structure ManagerOf (remotes : List Text) (manager : AFELockManager) : Prop where
  user : manager.user = system.user
  labMachines : manager.toolchainLabMachines = lab
  connected : manager.localAfe = manager.useLocal
  machines : manager.machines = system.listSet remotes
  reached : ∀ m ∈ manager.machines, (queried lab m).server = .nonlab → manager.localAfe = true

theorem list_set_given (remotes : List Text) (some : remotes ≠ []) : system.listSet remotes ≠ [] := by
  intro empty
  refine some (List.eq_nil_iff_forall_not_mem.mpr fun m member => ?_)
  exact List.eq_nil_iff_forall_not_mem.mp empty m ((system.list_set_mem remotes m).mpr member)

theorem pingable_fewer (remotes fewer : List Text) (less : ∀ m ∈ fewer, m ∈ remotes) (some : fewer ≠ [])
    (pingable : Pingable system lab remotes) : Pingable system lab fewer := by
  intro used
  refine pingable ?_
  by_contra unused
  have allLab : ∀ m ∈ system.listSet remotes, m ∈ lab := by
    by_contra outside
    exact unused (if_neg fun both => outside both.2)
  have fewerLab : ∀ m ∈ system.listSet fewer, m ∈ lab := fun m member =>
    allLab m ((system.list_set_mem remotes m).mpr (less m ((system.list_set_mem fewer m).mp member)))
  rw [usesLocal, if_pos ⟨list_set_given system fewer some, fewerLab⟩] at used
  cases used

theorem obeys_new_manager_for (user : Text) (experiment : Experiment) (remotes : List Text) (some : remotes ≠ []) (noted : Noted) :
    Obeys user experiment (fun manager later => later = noted ∧ ManagerOf system lab remotes manager ∧ Pingable system lab remotes)
      (fun _ later => later = noted ∧ ¬ Pingable system lab remotes) (newLockManagerFor system remotes lab) noted := by
  simp only [newLockManagerFor]
  refine follows_bind (Q := fun _ later => later = noted ∧ Pingable system lab remotes) ?_ fun _ later pinged => ?_
  · apply follows_of_except
    · intro value returned
      refine ⟨rfl, fun used => ?_⟩
      rw [if_pos used] at returned
      cases checked : checkLocalServer system (lockOptions remotes) with
      | ok => rfl
      | error raised =>
          rw [checked] at returned
          cases returned
    · intro failure failed
      refine ⟨rfl, fun pingable => ?_⟩
      by_cases used : usesLocal (lockOptions remotes) (system.listSet remotes) lab = true
      · rw [if_pos used, pingable used] at failed
        cases failed
      · rw [if_neg used] at failed
        cases failed
  · rw [managedMachines, if_neg (list_set_given system remotes some)]
    refine follows_done.mpr ⟨pinged.1, ⟨rfl, rfl, rfl, rfl, fun m member nonlab => ?_⟩, pinged.2⟩
    refine if_neg fun allLab => ?_
    rw [queried_lab lab m (.inl (allLab.2 m member))] at nonlab
    cases nonlab

theorem obeys_new_manager (user : Text) (experiment : Experiment) (remotes : List Text) (some : remotes ≠ []) (noted : Noted) :
    Obeys user experiment (fun manager later => later = noted ∧ ManagerOf system toolchainLabMachines remotes manager ∧
        Pingable system toolchainLabMachines remotes)
      (fun _ later => later = noted ∧ ¬ Pingable system toolchainLabMachines remotes) (newLockManager system remotes) noted := by
  rw [newLockManager, lab_machines_read, Option.elim_some]
  exact obeys_new_manager_for system toolchainLabMachines user experiment remotes some noted

variable {system} {remotes : List Text} {manager : AFELockManager} {user : Text} {experiment : Experiment}

theorem obeys_host_info (made : ManagerOf system toolchainLabMachines remotes manager) (m : Text) (member : m ∈ manager.machines)
    (noted : Noted) :
    Obeys user experiment (fun info later => later = noted ∧ info.hostname = (place m).host ∧
        (place m ∈ noted.held → info.locked = true ∧ info.lockedBy = user))
      (fun _ => Upset noted) (getHostInfo manager m) noted := by
  unfold getHostInfo
  rw [made.labMachines]
  by_cases listed : m ∈ toolchainLabMachines ∨ m ++ dotCros ∈ toolchainLabMachines
  · rw [if_pos listed, place, queried_lab _ m listed]
    refine follows_ask trivial ?_
    rintro (text | (_ | ⟨info, rest⟩)) possible
    · exact follows_raised.mpr (upset_failure noted)
    · exact follows_raised.mpr (upset_failure noted)
    · exact follows_done.mpr ⟨rfl, possible info List.mem_cons_self⟩
  · have reached := made.reached m member
    rw [queried_nonlab _ m listed] at reached
    rw [if_neg listed, if_pos (reached rfl), place, queried_nonlab _ m listed]
    refine follows_ask trivial ?_
    rintro (text | (_ | ⟨info, rest⟩)) possible
    · exact follows_raised.mpr (upset_failure noted)
    · exact follows_raised.mpr (upset_failure noted)
    · exact follows_done.mpr ⟨rfl, possible info List.mem_cons_self⟩

-- What the states tell of machines that the run has locked.
structure Reads (user : Text) (held : List Address) (machines : List Text) (states : SortedDict Text MachineState) : Prop where
  listed : ∀ m ∈ machines, ∃ state, states.get? (place m).host = some state
  told : ∀ key state, states.get? key = some state → ∃ m ∈ machines, (place m).host = key ∧
    (place m ∈ held → state.locked = true ∧ state.lockedBy = user)

-- The states when some of the machines are left.
structure ReadSoFar (user : Text) (noted : Noted) (machines rest : List Text) (states : SortedDict Text MachineState)
    (later : Noted) : Prop where
  same : later = noted
  inside : ∀ m ∈ rest, m ∈ machines
  listed : ∀ m ∈ machines, m ∈ rest ∨ ∃ state, states.get? (place m).host = some state
  told : ∀ key state, states.get? key = some state → ∃ m ∈ machines, (place m).host = key ∧
    (place m ∈ noted.held → state.locked = true ∧ state.lockedBy = user)

theorem obeys_add_state (made : ManagerOf system toolchainLabMachines remotes manager) (noted : Noted) (m : Text) (rest : List Text)
    (states : SortedDict Text MachineState) (later : Noted) (soFar : ReadSoFar user noted manager.machines (m :: rest) states later) :
    Obeys user experiment (ReadSoFar user noted manager.machines rest) (fun _ => Upset noted)
      (addMachineState manager states m) later := by
  obtain ⟨rfl, inside, listed, told⟩ := soFar
  refine follows_bind (obeys_host_info made m (inside m List.mem_cons_self) later) ?_
  rintro info _ ⟨rfl, named, known⟩
  refine follows_done.mpr ⟨rfl, fun other member => inside other (List.mem_cons_of_mem _ member), fun other member => ?_,
    fun key state found => ?_⟩
  · rw [SortedDict.get_insert, named]
    by_cases same : (place other).host = (place m).host
    · exact .inr ⟨_, if_pos same⟩
    · rw [if_neg same]
      refine (listed other member).imp_left fun within => ?_
      rcases List.mem_cons.mp within with here | later
      · exact absurd (here ▸ rfl) same
      · exact later
  · rw [SortedDict.get_insert, named] at found
    by_cases same : key = (place m).host
    · rw [if_pos same] at found
      refine ⟨m, inside m List.mem_cons_self, same.symm, fun held => ?_⟩
      obtain ⟨locked, owner⟩ := known held
      rw [← Option.some.inj found, machineState, locked]
      exact ⟨rfl, owner⟩
    · rw [if_neg same] at found
      exact told key state found

theorem obeys_states (made : ManagerOf system toolchainLabMachines remotes manager) (noted : Noted) :
    Obeys user experiment (fun states later => later = noted ∧ Reads user noted.held manager.machines states) (fun _ => Upset noted)
      (getMachineStates manager) noted := by
  have available : (manager.useLocal && !manager.localAfe) = false := by rw [made.connected, Bool.and_not_self]
  rw [getMachineStates, available, if_neg Bool.false_ne_true]
  have fold : Obeys user experiment (ReadSoFar user noted manager.machines []) (fun _ => Upset noted)
      (manager.machines.foldlM (addMachineState manager) SortedDict.empty) noted :=
    follows_fold (ReadSoFar user noted manager.machines) _ _ (obeys_add_state made noted) _ _
      ⟨rfl, fun _ member => member, fun _ member => .inl member, fun _ _ none => nomatch none⟩
  refine follows_weaken fold (fun states later soFar => ⟨soFar.same, fun m member => ?_, soFar.told⟩) fun _ _ upset => upset
  exact (soFar.listed m member).resolve_left List.not_mem_nil

theorem update_lock_asks (made : ManagerOf system toolchainLabMachines remotes manager) (lock : Bool) (m : Text)
    (reached : (place m).server = .nonlab → manager.localAfe = true) :
    ∃ reason failed, updateLockInAFE manager lock m =
      modifyHosts (place m) ⟨lock, reason⟩ >>= fun answer => ofExcept (answer.mapError failed) := by
  refine ⟨"toolchain user request (".toList ++ manager.user ++ ")".toList, ?_⟩
  have found : (place m).server = .main ∨ manager.localAfe = true := by
    cases server : (place m).server with
    | main => exact .inl rfl
    | nonlab => exact .inr (reached server)
  unfold updateLockInAFE
  rw [made.labMachines, modified_place]
  exact ⟨_, if_pos found⟩

theorem obeys_lock (made : ManagerOf system toolchainLabMachines remotes manager) (m : Text)
    (reached : (place m).server = .nonlab → manager.localAfe = true) (noted : Noted) :
    Obeys user experiment (fun _ later => later = { noted with held := place m :: noted.held } ∧ place m ∉ noted.held)
      (fun _ later => later = { noted with stranded := noted.held }) (updateLockInAFE manager true m) noted := by
  obtain ⟨reason, failed, asks⟩ := update_lock_asks made true m reached
  rw [asks]
  refine follows_ask (.inl rfl) ?_
  rintro (text | _) possible
  · exact follows_raised.mpr rfl
  · exact follows_done.mpr ⟨rfl, possible rfl⟩

theorem obeys_unlock (made : ManagerOf system toolchainLabMachines remotes manager) (m : Text)
    (reached : (place m).server = .nonlab → manager.localAfe = true) (noted : Noted) (stopped : noted.running = [])
    (mine : noted.exiting = true ∨ place m ∈ noted.held) :
    Obeys user experiment (fun _ later => later = { noted with held := noted.held.filter fun other => other ≠ place m })
      (fun _ => Upset noted) (updateLockInAFE manager false m) noted := by
  obtain ⟨reason, failed, asks⟩ := update_lock_asks made false m reached
  rw [asks]
  refine follows_ask (.inr ⟨stopped, mine⟩) ?_
  rintro (text | _) _
  · exact follows_raised.mpr (upset_failure noted)
  · exact follows_done.mpr rfl

-- A server that will not lock a machine leaves the ones in front of it locked.
theorem obeys_lock_machines (made : ManagerOf system toolchainLabMachines remotes manager) (machines : List Text)
    (reached : ∀ m ∈ machines, (place m).server = .nonlab → manager.localAfe = true) (noted : Noted) (apart : noted.held.Nodup) :
    Obeys user experiment (fun updated later => updated = machines ∧
      later = { noted with held := (machines.map place).reverse ++ noted.held } ∧
        later.held.Nodup)
      (fun _ later => ∃ held, later = { noted with held := held, stranded := held }) (updateMachines manager true machines) noted := by
  induction machines generalizing noted with
  | nil => exact follows_done.mpr ⟨rfl, rfl, apart⟩
  | cons m rest ih =>
      obtain ⟨here, further⟩ := List.forall_mem_cons.mp reached
      refine follows_bind (Q := fun _ later => later = { noted with held := place m :: noted.held } ∧ place m ∉ noted.held) ?_ ?_
      · exact follows_weaken (obeys_lock made m here noted) (fun _ _ holds => holds) fun _ _ failed => ⟨noted.held, failed⟩
      · rintro _ _ ⟨rfl, new⟩
        refine follows_bind (ih further { noted with held := place m :: noted.held } (List.nodup_cons.mpr ⟨new, apart⟩)) ?_
        rintro _ _ ⟨rfl, rfl, distinct⟩
        refine follows_done.mpr ⟨rfl, ?_, distinct⟩
        rw [List.map_cons, List.reverse_cons, List.append_assoc]
        rfl

theorem obeys_unlock_machines (made : ManagerOf system toolchainLabMachines remotes manager) (machines : List Text)
    (reached : ∀ m ∈ machines, (place m).server = .nonlab → manager.localAfe = true) (apart : (machines.map place).Nodup)
    (held : List Address) (mine : ∀ m ∈ machines, place m ∈ held) :
    Obeys user experiment (fun _ later => ∃ left, later = ⟨left, [], false, false, []⟩ ∧ ∀ address ∈ left, address ∈ held)
      (fun _ later => ∃ left, later = ⟨left, [], false, false, []⟩ ∧ ∀ address ∈ left, address ∈ held)
      (updateMachines manager false machines) ⟨held, [], false, false, []⟩ := by
  induction machines generalizing held with
  | nil => exact follows_done.mpr ⟨held, rfl, fun _ member => member⟩
  | cons m rest ih =>
      obtain ⟨here, further⟩ := List.forall_mem_cons.mp reached
      obtain ⟨own, others⟩ := List.forall_mem_cons.mp mine
      obtain ⟨once, apart⟩ := List.nodup_cons.mp apart
      refine follows_bind (follows_weaken (obeys_unlock made m here ⟨held, [], false, false, []⟩ rfl (.inr own))
        (fun _ _ holds => holds) fun _ later upset => ⟨held, upset.waiting rfl, fun _ member => member⟩) ?_
      rintro _ _ rfl
      have less : ∀ address, address ∈ held.filter (fun other => other ≠ place m) → address ∈ held := fun _ member =>
        (List.mem_filter.mp member).1
      have still : ∀ other ∈ rest, place other ∈ held.filter (fun other => other ≠ place m) := fun other member =>
        List.mem_filter.mpr ⟨others other member, decide_eq_true fun same => once (same ▸ List.mem_map_of_mem member)⟩
      refine follows_bind (follows_weaken (ih further apart _ still) (fun _ later holds => holds) ?_) ?_
      · rintro _ _ ⟨left, rfl, fewer⟩
        exact ⟨left, rfl, fun address member => less address (fewer address member)⟩
      · rintro _ _ ⟨left, rfl, fewer⟩
        exact follows_done.mpr ⟨left, rfl, fun address member => less address (fewer address member)⟩

theorem obeys_nonlab_machines (localAfe : Bool) (noted : Noted) (waiting : noted.exiting = false) :
    Obeys user experiment (fun _ later => later = noted) (fun _ later => later = noted) (getAllNonlabMachines localAfe) noted := by
  cases localAfe with
  | false => exact follows_done.mpr rfl
  | true =>
      refine follows_ask trivial ?_
      rintro (text | names) _
      · exact follows_raised.mpr ((upset_failure noted).waiting waiting)
      · exact follows_done.mpr rfl

theorem obeys_add_unknown (m : Text) (noted : Noted) (waiting : noted.exiting = false) :
    Obeys user experiment (fun _ later => later = noted) (fun _ later => later = noted)
      (addUnknownMachine system manager m) noted := by
  refine follows_bind (Q := fun _ later => later = noted) ?_ ?_
  · unfold machineIsKnown
    split
    · exact follows_done.mpr rfl
    · split
      · refine follows_bind (obeys_nonlab_machines manager.localAfe noted waiting) ?_
        rintro names _ rfl
        exact follows_done.mpr rfl
      · exact follows_done.mpr rfl
  · rintro known later rfl
    cases known with
    | true => exact follows_done.mpr rfl
    | false =>
        unfold addLocalMachine
        rw [if_neg Bool.false_ne_true]
        split
        · refine follows_bind (Q := fun _ last => last = later) (follows_of_except (fun _ _ => rfl) fun _ _ => rfl) ?_
          rintro _ last rfl
          refine follows_ask trivial ?_
          rintro (text | _) _
          · exact follows_raised.mpr ((upset_failure last).waiting waiting)
          · exact follows_done.mpr rfl
        · exact follows_done.mpr rfl

end Managers

section Phases

variable (system : Python) (experiment : Experiment)

theorem obeys_lock_all : Obeys system.user experiment
    (fun locked later => locked.1 ≠ [] ∧ Pingable system.toSystem toolchainLabMachines locked.1 ∧ (locked.1.map place).Nodup ∧
      locked.2 = (Crosperf.lockAllMachines CrosMachine.name experiment.lists locked.1).1 ∧
      later = ⟨(locked.1.map place).reverse, [], false, false, []⟩)
    (fun _ later => ∃ held, later = ⟨held, [], false, false, held⟩) (lockAllMachines system.toSystem experiment) Noted.none := by
  refine follows_bind (Q := fun machines later => later = Noted.none ∧ machines = experiment.remote) ?_ ?_
  · unfold getMachineList
    split
    · exact follows_done.mpr ⟨rfl, rfl⟩
    · exact follows_raised.mpr ⟨[], rfl⟩
  rintro machines _ ⟨rfl, rfl⟩
  refine follows_bind (follows_weaken (obeys_new_manager system.toSystem system.user experiment experiment.remote experiment.given
    Noted.none) (fun _ _ holds => holds) fun _ _ failed => ⟨[], failed.1⟩) ?_
  rintro manager _ ⟨rfl, made, pinged⟩
  refine follows_bind (follows_weaken (follows_for_each (fun _ later => later = Noted.none) _ manager.machines ?_ Noted.none rfl)
    (fun _ _ holds => holds) fun _ later (failed : later = Noted.none) => ⟨[], failed⟩) ?_
  · rintro m rest _ rfl
    exact obeys_add_unknown m Noted.none rfl
  rintro _ _ rfl
  refine follows_bind (follows_weaken (obeys_states made Noted.none) (fun _ _ holds => holds)
    fun _ later upset => ⟨[], upset.waiting rfl⟩) ?_
  rintro states _ ⟨rfl, _⟩
  have checked := check_machine_locks_owned manager.user .lock (system.iteritems states) manager.machines fun _ _ notOwned =>
    nomatch notOwned.1
  rw [checked]
  generalize left : (system.iteritems states).foldl (removeDone .lock) manager.machines = free
  have inside : ∀ m ∈ free, m ∈ manager.machines := fun m member =>
    ((mem_removed .lock (system.iteritems states) manager.machines m).mp (left ▸ member)).1
  refine follows_bind (Q := fun found later => later = Noted.none ∧ found = free) (follows_done.mpr ⟨rfl, rfl⟩) ?_
  rintro _ _ ⟨rfl, rfl⟩
  refine follows_bind (follows_weaken (obeys_lock_machines made _ (fun m member => made.reached m (inside m member)) Noted.none
    List.nodup_nil) (fun _ _ holds => holds) fun _ later failed => failed) ?_
  rintro locked _ ⟨rfl, rfl, distinct⟩
  by_cases none : locked = []
  · rw [none]
    exact follows_bind (follows_of_except (fun _ returned => nomatch returned) fun _ _ => ⟨[], rfl⟩) fun _ _ impossible => impossible
  · refine follows_bind (Q := fun _ later => later = { Noted.none with held := (locked.map place).reverse ++ [] }) ?_ ?_
    · refine follows_of_except (fun _ _ => rfl) fun _ failed => ?_
      rw [Crosperf.lockAllMachines, if_neg fun empty => none (List.eq_nil_of_length_eq_zero empty)] at failed
      cases failed
    rintro _ _ rfl
    have listed : ∀ m ∈ locked, m ∈ experiment.remote := fun m member =>
      (system.list_set_mem experiment.remote m).mp (made.machines ▸ inside m member)
    have pingable := pingable_fewer system.toSystem toolchainLabMachines experiment.remote locked listed none pinged
    have once : ((locked.map place).reverse ++ []).Nodup := distinct
    rw [List.append_nil] at once
    exact follows_done.mpr ⟨none, pingable, List.nodup_reverse.mp once, rfl, congrArg
      (fun held => Noted.mk held [] false false []) (List.append_nil _)⟩

variable (lockedMachines : List Text) (given : lockedMachines ≠ [])
  (pingable : Pingable system.toSystem toolchainLabMachines lockedMachines)

theorem machines_apart (apart : (lockedMachines.map place).Nodup) : ((system.listSet lockedMachines).map place).Nodup := by
  refine List.Nodup.map_on (fun m member other otherMember same => ?_) (system.list_set_nodup lockedMachines)
  exact List.inj_on_of_nodup_map apart ((system.list_set_mem _ m).mp member) ((system.list_set_mem _ other).mp otherMember) same

-- Nothing is taken out of the list when all that was read is locked.
theorem all_locked_kept (entries : List (Text × MachineState)) (machines : List Text)
    (locked : ∀ entry ∈ entries, entry.2.locked = true) : entries.foldl (removeDone .unlock) machines = machines := by
  induction entries with
  | nil => rfl
  | cons entry rest ih =>
      obtain ⟨here, further⟩ := List.forall_mem_cons.mp locked
      have kept : removeDone .unlock machines entry = machines := by
        rw [removeDone, here]
        exact if_neg Bool.noConfusion
      rw [List.foldl_cons, kept, ih further]

include given pingable

theorem obeys_unlock_all (apart : (lockedMachines.map place).Nodup) :
    Obeys system.user experiment
      (fun _ later => ∃ left, later = ⟨left, [], false, false, []⟩ ∧ ∀ address ∈ left, address ∈ (lockedMachines.map place).reverse)
      (fun _ later => ∃ left, later = ⟨left, [], false, false, []⟩ ∧ ∀ address ∈ left, address ∈ (lockedMachines.map place).reverse)
      (unlockAllMachines system.toSystem lockedMachines) ⟨(lockedMachines.map place).reverse, [], false, false, []⟩ := by
  unfold unlockAllMachines
  rw [if_neg given]
  refine follows_bind (follows_weaken (obeys_new_manager system.toSystem system.user experiment lockedMachines given _)
    (fun _ _ holds => holds)
    fun _ _ failed => absurd pingable failed.2) ?_
  rintro manager _ ⟨rfl, made, _⟩
  refine follows_bind (follows_weaken (obeys_states made _) (fun _ _ holds => holds)
    fun _ later upset => ⟨_, upset.waiting rfl, fun _ member => member⟩) ?_
  rintro states _ ⟨rfl, reads⟩
  have own : ∀ m ∈ manager.machines, place m ∈ (lockedMachines.map place).reverse := fun m member =>
    List.mem_reverse.mpr (List.mem_map_of_mem ((system.list_set_mem lockedMachines m).mp (made.machines ▸ member)))
  have told : ∀ entry ∈ system.iteritems states, entry.2.locked = true ∧ entry.2.lockedBy = system.user := by
    intro entry member
    obtain ⟨m, listed, _, known⟩ := reads.told entry.1 entry.2
      ((states.mem_entries entry.1 entry.2).mp ((system.iteritems_mem states entry).mp member))
    exact known (own m listed)
  have checked := check_machine_locks_owned manager.user .unlock (system.iteritems states) manager.machines
    fun entry member notOwned => notOwned.2.2 ((told entry member).2.trans made.user.symm)
  rw [all_locked_kept _ _ fun entry member => (told entry member).1] at checked
  rw [checked]
  refine follows_bind (Q := fun found later => later = ⟨(lockedMachines.map place).reverse, [], false, false, []⟩ ∧
    found = manager.machines) (follows_done.mpr ⟨rfl, rfl⟩) ?_
  rintro _ _ ⟨rfl, rfl⟩
  have once : (manager.machines.map place).Nodup := made.machines ▸ machines_apart system lockedMachines apart
  refine follows_bind (obeys_unlock_machines made manager.machines made.reached once _ own) ?_
  exact fun _ _ holds => follows_done.mpr holds

omit given pingable in
-- What the exit handler has to unlock when some of the states are left.
theorem obeys_unlock_if_locked (manager : AFELockManager)
    (made : ManagerOf system.toSystem toolchainLabMachines lockedMachines manager) (entry : Text × MachineState)
    (rest : List (Text × MachineState)) (known : ∃ m ∈ manager.machines, place entry.1 = place m) (left : List Address)
    (still : ∀ address ∈ left, ∃ found ∈ entry :: rest, found.2.locked = true ∧ place found.1 = address) :
    Obeys system.user experiment
      (fun _ later => ∃ left, later = ⟨left, [], true, false, []⟩ ∧
        ∀ address ∈ left, ∃ found ∈ rest, found.2.locked = true ∧ place found.1 = address)
      (fun _ later => later.exitFailed = true) (unlockIfLocked manager entry) ⟨left, [], true, false, []⟩ := by
  unfold unlockIfLocked
  by_cases locked : entry.2.locked = true
  · rw [if_pos locked]
    obtain ⟨m, managed, same⟩ := known
    have reached : (place entry.1).server = .nonlab → manager.localAfe = true := by
      rw [same]
      exact made.reached m managed
    refine follows_weaken (obeys_unlock made entry.1 reached _ rfl (.inl rfl)) ?_ fun _ _ upset => upset.exiting rfl
    rintro _ _ rfl
    refine ⟨_, rfl, fun address member => ?_⟩
    obtain ⟨kept, other⟩ := List.mem_filter.mp member
    obtain ⟨found, listed, unlocked, named⟩ := still address kept
    rcases List.mem_cons.mp listed with here | behind
    · rw [here] at named
      exact absurd named.symm (of_decide_eq_true other)
    · exact ⟨found, behind, unlocked, named⟩
  · rw [if_neg locked]
    refine follows_done.mpr ⟨left, rfl, fun address member => ?_⟩
    obtain ⟨found, listed, unlocked, named⟩ := still address member
    rcases List.mem_cons.mp listed with here | behind
    · exact absurd (here ▸ unlocked) locked
    · exact ⟨found, behind, unlocked, named⟩

omit given pingable in
theorem obeys_unlock_left (manager : AFELockManager)
    (made : ManagerOf system.toSystem toolchainLabMachines lockedMachines manager) (entries : List (Text × MachineState))
    (known : ∀ entry ∈ entries, ∃ m ∈ manager.machines, place entry.1 = place m) (left : List Address)
    (still : ∀ address ∈ left, ∃ found ∈ entries, found.2.locked = true ∧ place found.1 = address) :
    Obeys system.user experiment (fun _ later => later = ⟨[], [], true, false, []⟩) (fun _ later => later.exitFailed = true)
      (forEach (unlockIfLocked manager) entries) ⟨left, [], true, false, []⟩ := by
  induction entries generalizing left with
  | nil =>
      have empty : left = [] := List.eq_nil_iff_forall_not_mem.mpr fun address member => by
        obtain ⟨found, none, _⟩ := still address member
        exact absurd none List.not_mem_nil
      rw [empty]
      exact follows_done.mpr rfl
  | cons entry rest ih =>
      obtain ⟨here, further⟩ := List.forall_mem_cons.mp known
      refine follows_bind (obeys_unlock_if_locked system experiment lockedMachines manager made entry rest here left still) ?_
      rintro _ _ ⟨less, rfl, stillLess⟩
      exact ih further less stillLess

-- Without an error of a server the exit handler unlocks what is left.
theorem obeys_cleanup (held : List Address) (inside : ∀ address ∈ held, address ∈ lockedMachines.map place) :
    Obeys system.user experiment (fun _ later => later = ⟨[], [], true, false, []⟩) (fun _ later => later.exitFailed = true)
      (cleanup system.toSystem lockedMachines) ⟨held, [], true, false, []⟩ := by
  unfold cleanup
  rw [if_neg given]
  refine follows_bind (follows_weaken (obeys_new_manager system.toSystem system.user experiment lockedMachines given _)
    (fun _ _ holds => holds)
    fun _ _ failed => absurd pingable failed.2) ?_
  rintro manager _ ⟨rfl, made, _⟩
  refine follows_bind (follows_weaken (obeys_states made _) (fun _ _ holds => holds) fun _ later upset => upset.exiting rfl) ?_
  rintro states _ ⟨rfl, reads⟩
  have listed : ∀ m, m ∈ lockedMachines → m ∈ manager.machines := fun m member =>
    made.machines ▸ (system.list_set_mem lockedMachines m).mpr member
  have entries : ∀ key state, (key, state) ∈ system.iteritems states ↔ states.get? key = some state := fun key state =>
    (system.iteritems_mem states (key, state)).trans (states.mem_entries key state)
  apply obeys_unlock_left system experiment lockedMachines manager made
  · rintro ⟨key, state⟩ member
    obtain ⟨m, managed, named, _⟩ := reads.told key state ((entries key state).mp member)
    have same := place_host m
    rw [named] at same
    exact ⟨m, managed, same⟩
  · intro address member
    obtain ⟨m, locked, rfl⟩ := List.mem_map.mp (inside address member)
    obtain ⟨state, found⟩ := reads.listed m (listed m locked)
    obtain ⟨other, managed, named, told⟩ := reads.told _ _ found
    have same := place_determines other m named
    rw [same] at told
    have locked_entry : ∀ key, states.get? key = some state → place key = place m →
        ∃ found ∈ system.iteritems states, found.2.locked = true ∧ place found.1 = place m :=
      fun key held named => ⟨(key, state), (entries key state).mpr held, (told member).1, named⟩
    exact locked_entry _ found (place_host m)

end Phases

theorem obeys_crosperf (system : Python) (experiment : Experiment) :
    Obeys system.user experiment (fun _ later => later.exitFailed = false → later.held = later.stranded) (fun _ _ => False)
      (crosperf system.toSystem experiment) Noted.none := by
  refine follows_bind (Q := fun locked later =>
    (locked = [] ∧ ∃ held, later = ⟨held, [], false, false, held⟩) ∨
      (locked ≠ [] ∧ Pingable system.toSystem toolchainLabMachines locked ∧ ∃ held, later = ⟨held, [], false, false, []⟩ ∧
        ∀ address ∈ held, address ∈ locked.map place)) ?_ ?_
  · refine follows_bind (follows_attempt (Q := fun ended later => match ended with
      | .ok locked => locked.1 ≠ [] ∧ Pingable system.toSystem toolchainLabMachines locked.1 ∧ (locked.1.map place).Nodup ∧
          locked.2 = (Crosperf.lockAllMachines CrosMachine.name experiment.lists locked.1).1 ∧
          later = ⟨(locked.1.map place).reverse, [], false, false, []⟩
      | .error _ => ∃ held, later = ⟨held, [], false, false, held⟩) (obeys_lock_all system experiment)) ?_
    rintro (failure | ⟨locked, left⟩) later holds
    · exact follows_done.mpr (.inl ⟨rfl, holds⟩)
    · obtain ⟨given, pingable, apart, lists, rfl⟩ := holds
      refine follows_bind (Q := fun _ later => later = ⟨(locked.map place).reverse, [], false, false, []⟩) ?_ ?_
      · refine follows_ask ⟨fun address => ?_, congrArg (MachineLists.names CrosMachine.name) lists⟩ fun _ _ => ?_
        · rw [List.mem_reverse, List.mem_map]
        exact follows_call.mpr ⟨trivial, fun _ _ => follows_done.mpr rfl⟩
      · rintro _ _ rfl
        refine follows_bind (follows_attempt (Q := fun _ later => ∃ left, later = ⟨left, [], false, false, []⟩ ∧
          ∀ address ∈ left, address ∈ (locked.map place).reverse) (obeys_unlock_all system experiment locked given pingable apart)) ?_
        rintro _ _ ⟨left, rfl, inside⟩
        exact follows_done.mpr (.inr ⟨given, pingable, left, rfl, fun address member => List.mem_reverse.mp (inside address member)⟩)
  · rintro locked later holds
    refine follows_ask trivial fun _ _ => ?_
    rcases holds with ⟨rfl, held, rfl⟩ | ⟨given, pingable, held, rfl, inside⟩
    · exact follows_done.mpr fun _ => rfl
    · refine follows_bind (follows_attempt (Q := fun _ later => later.exitFailed = false → later.held = later.stranded)
        (follows_weaken (obeys_cleanup system experiment locked given pingable held inside) ?_ ?_)) fun _ _ holds =>
          follows_done.mpr holds
      · rintro _ _ rfl _
        rfl
      · rintro _ _ failed fine
        exact absurd (failed.symm.trans fine) Bool.noConfusion

end ToolchainUtils.Crosperf.ExperimentRunner
