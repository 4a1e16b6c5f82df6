import ToolchainUtils.AfeLockMachine.LockChecks

set_option autoImplicit false

namespace ToolchainUtils.AfeLockMachine

open PyString

section Commands

variable {σ : Type} (afe : Afe σ) (system : System) (servers : Servers σ) (options : Options) (cmd : Command) (lab : List Text)

-- Without a list the command is about all the machines that the servers have.
def requested : List Text :=
  if options.remotes = [] then lab ++ getAllNonlabMachines afe servers options.useLocal else options.remotes

structure Known : Prop where
  answers : options.useLocal = true →
    system.machineIsPingable (localServerName options) = true ∨ system.machineIsPingable (localServerName options ++ dotCros) = true
  found : ∀ machine ∈ requested afe servers options lab, ∃ info, hostAt afe servers (queried lab machine) = some info
  reached : ∀ machine ∈ requested afe servers options lab, (queried lab machine).server = .nonlab → options.useLocal = true

def Asked (address : Address) : Prop := ∃ machine ∈ requested afe servers options lab, queried lab machine = address

-- Only the addresses that are meant change, and they end as they should.
structure OnlySets (meant : Address → Prop) (locked : Bool) (after : Servers σ) : Prop where
  set : ∀ address, meant address → lockedAt afe after address = some locked
  others : ∀ address, ¬ meant address → hostsAt afe after address = hostsAt afe servers address

def LockedBySomebodyElse (address : Address) : Prop :=
  ∃ info, hostAt afe servers address = some info ∧ info.locked = true ∧ info.lockedBy ≠ system.user

def LockedByUser (address : Address) : Prop :=
  ∃ info, hostAt afe servers address = some info ∧ info.locked = true ∧ info.lockedBy = system.user

def NotTheirs : Prop :=
  cmd = .unlock ∧ ∃ address, Asked afe servers options lab address ∧ LockedBySomebodyElse afe system servers address

-- What the command is to do without --force, when nobody else's lock is in its way.
def RightMachine (address : Address) : Prop :=
  Asked afe servers options lab address ∧
    match cmd with
    | .lock => lockedAt afe servers address = some false
    | .unlock => LockedByUser afe system servers address

structure Refuses (outcome : Outcome σ) : Prop where
  raised : ∃ message, outcome.raised = some (.dontOwnLock message)
  unchanged : outcome.servers = servers

structure Sets (meant : Address → Prop) (outcome : Outcome σ) : Prop where
  returned : outcome.raised = none
  sets : OnlySets afe servers meant cmd.locks outcome.servers

structure RightOutcome (outcome : Outcome σ) : Prop where
  forced : options.force = true → Sets afe servers cmd (Asked afe servers options lab) outcome
  refused : options.force = false → NotTheirs afe system servers options cmd lab → Refuses servers outcome
  done : options.force = false → ¬ NotTheirs afe system servers options cmd lab →
    Sets afe servers cmd (RightMachine afe system servers options cmd lab) outcome

-- The name of a requested machine that needs no change takes out one that does.
def TakesOut : Prop :=
  ∃ machine ∈ requested afe servers options lab, lockedAt afe servers (queried lab machine) = some cmd.locks ∧
    crosMachine machine ∈ requested afe servers options lab ∧
      lockedAt afe servers (queried lab (crosMachine machine)) = some !cmd.locks

structure Manages (manager : AFELockManager) : Prop where
  user : manager.user = system.user
  force : manager.force = options.force
  labMachines : manager.toolchainLabMachines = lab
  connected : manager.localAfe = manager.useLocal
  machines : ∀ m, m ∈ manager.machines ↔ m ∈ requested afe servers options lab
  reaches : ∀ m ∈ manager.machines, (queried lab m).server = .nonlab → options.useLocal = true → manager.localAfe = true

theorem list_set_empty_iff (remotes : List Text) : system.listSet remotes = [] ↔ remotes = [] := by
  simp only [List.eq_nil_iff_forall_not_mem, system.list_set_mem]

theorem local_server_answers
    (answers : system.machineIsPingable (localServerName options) = true ∨
      system.machineIsPingable (localServerName options ++ dotCros) = true) : checkLocalServer system options = .ok () :=
  if_pos (Bool.or_eq_true_iff.mpr answers)

theorem lock_manager_for (answers : options.useLocal = true →
    system.machineIsPingable (localServerName options) = true ∨ system.machineIsPingable (localServerName options ++ dotCros) = true) :
    ∃ manager, lockManagerFor afe system servers options lab = .ok manager ∧ Manages afe system servers options lab manager := by
  by_cases allLab : system.listSet options.remotes ≠ [] ∧ ∀ m ∈ system.listSet options.remotes, m ∈ lab
  · have unused : usesLocal options (system.listSet options.remotes) lab = false := if_pos allLab
    have given : options.remotes ≠ [] := fun none => allLab.1 ((list_set_empty_iff system _).mpr none)
    simp only [lockManagerFor, unused, if_neg Bool.false_ne_true, if_neg allLab.1]
    refine ⟨_, rfl, rfl, rfl, rfl, rfl, fun m => ?_, fun m member nonlab => ?_⟩
    · rw [requested, if_neg given]
      exact system.list_set_mem _ m
    · rw [queried_lab lab m (.inl (allLab.2 m member))] at nonlab
      cases nonlab
  · have used : usesLocal options (system.listSet options.remotes) lab = options.useLocal := if_neg allLab
    have available : (if options.useLocal = true then checkLocalServer system options else .ok ()) = .ok () := by
      by_cases needed : options.useLocal = true
      · rw [if_pos needed, local_server_answers system options (answers needed)]
      · rw [if_neg needed]
    simp only [lockManagerFor, used, available]
    refine ⟨_, rfl, rfl, rfl, rfl, rfl, fun m => ?_, fun _ _ _ needed => needed⟩
    by_cases none : options.remotes = []
    · rw [requested, if_pos none, if_pos ((list_set_empty_iff system _).mpr none)]
    · rw [requested, if_neg none, if_neg fun empty => none ((list_set_empty_iff system _).mp empty)]
      exact system.list_set_mem _ m

theorem known_locked (address : Address) (info : HostInfo) (found : hostAt afe servers address = some info) :
    lockedAt afe servers address = some info.locked := by
  rw [lockedAt, found]
  rfl

-- The item of the states that a machine makes.
def placeEntry (machine : Text) : Text × MachineState :=
  ((queried lab machine).host, machineState ((hostAt afe servers (queried lab machine)).getD unknownHost))

theorem place_entry_locked (machine : Text) (found : ∃ info, hostAt afe servers (queried lab machine) = some info) (locked : Bool) :
    (placeEntry afe servers lab machine).2.locked = locked ↔ lockedAt afe servers (queried lab machine) = some locked := by
  obtain ⟨info, found⟩ := found
  rw [known_locked afe servers _ info found, placeEntry, found, Option.some_inj]
  rfl

theorem place_entry_not_owned (machine : Text) (found : ∃ info, hostAt afe servers (queried lab machine) = some info) :
    NotOwned system.user cmd (placeEntry afe servers lab machine) ↔
      cmd = .unlock ∧ LockedBySomebodyElse afe system servers (queried lab machine) := by
  obtain ⟨info, found⟩ := found
  have read : (placeEntry afe servers lab machine).2 = machineState info := by rw [placeEntry, found, Option.getD_some]
  rw [NotOwned, read, LockedBySomebodyElse, found]
  simp only [Option.some_inj, exists_eq_left']
  apply and_congr_right
  intro _
  apply and_congr_right
  intro locked
  have owner : (machineState info).lockedBy = info.lockedBy := if_pos locked
  rw [owner]

section Run

variable (works : Works afe) (named : ∀ machine ∈ lab, LabNamed machine) (known : Known afe system servers options lab)
  (manager : AFELockManager) (manages : Manages afe system servers options lab manager)

include works named known manages

theorem states_read : ∃ states, getMachineStates afe manager servers = .ok states ∧
    ∀ entry, entry ∈ system.iteritems states ↔ ∃ m ∈ requested afe servers options lab, placeEntry afe servers lab m = entry := by
  obtain rfl := manages.labMachines
  have each : ∀ machine ∈ manager.machines, KnownMachine afe manager servers machine := by
    intro machine member
    have asked := (manages.machines machine).mp member
    exact ⟨known.found machine asked, fun nonlab => manages.reaches machine member nonlab (known.reached machine asked nonlab)⟩
  obtain ⟨states, read, entries⟩ := machine_states_read afe manager servers works named manages.connected each
  refine ⟨states, read, fun entry => ?_⟩
  rw [system.iteritems_mem, entries]
  simp only [manages.machines]
  rfl

theorem forced_run (forced : options.force = true) : runCommand afe system manager servers cmd = ⟨servers, none⟩ := by
  obtain ⟨states, read, _⟩ := states_read afe system servers options lab works named known manager manages
  rw [runCommand, read, or_raised_ok, manages.force, forced]
  rfl

theorem refused_run (free : options.force = false) (theirs : NotTheirs afe system servers options cmd lab) :
    Refuses servers (runCommand afe system manager servers cmd) := by
  obtain ⟨states, read, entries⟩ := states_read afe system servers options lab works named known manager manages
  obtain ⟨unlocks, address, ⟨machine, asked, rfl⟩, theirs⟩ := theirs
  have notOwned := (place_entry_not_owned afe system servers cmd lab machine (known.found machine asked)).mpr ⟨unlocks, theirs⟩
  obtain ⟨error, ⟨message, refused⟩, raised⟩ := check_machine_locks_raises system.user cmd (system.iteritems states) manager.machines
    _ ((entries _).mpr ⟨machine, asked, rfl⟩) notOwned
  have ran : runCommand afe system manager servers cmd = ⟨servers, some error⟩ := by
    rw [runCommand, read, or_raised_ok, manages.force, free, manages.user, if_neg Bool.false_ne_true, raised, or_raised_error]
  rw [ran]
  exact ⟨⟨message, congrArg some refused⟩, rfl⟩

-- A machine that the check leaves in the list.
def Left (machine : Text) : Prop :=
  machine ∈ requested afe servers options lab ∧ ∀ other ∈ requested afe servers options lab,
    lockedAt afe servers (queried lab other) = some cmd.locks →
      ¬ (machine = crosMachine (queried lab other).host ∨ machine = (queried lab other).host)

theorem checked_run (free : options.force = false) (owned : ¬ NotTheirs afe system servers options cmd lab) :
    ∃ changed, runCommand afe system manager servers cmd = ⟨changed, none⟩ ∧ ∀ address,
      ((∃ m, Left afe servers options cmd lab m ∧ queried lab m = address) → lockedAt afe changed address = some cmd.locks) ∧
      ((∀ m, Left afe servers options cmd lab m → queried lab m ≠ address) →
        hostsAt afe changed address = hostsAt afe servers address) := by
  obtain ⟨states, read, entries⟩ := states_read afe system servers options lab works named known manager manages
  have mine : ∀ entry ∈ system.iteritems states, ¬ NotOwned system.user cmd entry := by
    intro entry member notOwned
    obtain ⟨machine, asked, rfl⟩ := (entries entry).mp member
    have theirs := (place_entry_not_owned afe system servers cmd lab machine (known.found machine asked)).mp notOwned
    exact owned ⟨theirs.1, _, ⟨machine, asked, rfl⟩, theirs.2⟩
  have checked := check_machine_locks_owned system.user cmd (system.iteritems states) manager.machines mine
  have left : ∀ m, m ∈ (system.iteritems states).foldl (removeDone cmd) manager.machines ↔ Left afe servers options cmd lab m := by
    intro m
    rw [mem_removed, manages.machines, Left]
    apply and_congr_right
    intro _
    constructor
    · intro each other asked done
      have entry := (place_entry_locked afe servers lab other (known.found other asked) cmd.locks).mpr done
      exact each _ ((entries _).mpr ⟨other, asked, rfl⟩) entry
    · intro each entry member done
      obtain ⟨other, asked, rfl⟩ := (entries entry).mp member
      exact each other asked ((place_entry_locked afe servers lab other (known.found other asked) cmd.locks).mp done)
  obtain rfl := manages.labMachines
  obtain ⟨changed, updated, sets⟩ := update_machines_run afe works manager named cmd.locks
    ((system.iteritems states).foldl (removeDone cmd) manager.machines) servers fun m member nonlab =>
      have asked := ((left m).mp member).1
      manages.reaches m ((manages.machines m).mpr asked) nonlab (known.reached m asked nonlab)
  refine ⟨changed, ?_, fun address => ⟨fun held => ?_, fun apart => ?_⟩⟩
  · rw [runCommand, read, or_raised_ok, manages.force, free, manages.user, if_neg Bool.false_ne_true, checked, or_raised_ok, updated]
    rfl
  · obtain ⟨m, kept, rfl⟩ := held
    obtain ⟨info, found⟩ := known.found m kept.1
    obtain ⟨rest, hosts⟩ := List.head?_eq_some_iff.mp found
    have locks := (sets _).1 ⟨m, (left m).mpr kept, rfl⟩
    rw [lockedAt, hostAt, ← List.head?_map, locks, hosts]
    rfl
  · exact (sets address).2 fun m member => apart m ((left m).mp member)

end Run

section Updated

variable (named : ∀ machine ∈ lab, LabNamed machine)

-- A requested machine that is not in the requested state.
def Pending (address : Address) : Prop :=
  Asked afe servers options lab address ∧ lockedAt afe servers address = some !cmd.locks

theorem right_machine_iff (owned : ¬ NotTheirs afe system servers options cmd lab) (address : Address) :
    RightMachine afe system servers options cmd lab address ↔ Pending afe servers options cmd lab address := by
  apply and_congr_right
  intro asked
  cases cmd with
  | lock => exact Iff.rfl
  | unlock =>
      constructor
      · rintro ⟨info, found, locked, _⟩
        rw [known_locked afe servers address info found, locked]
        rfl
      · intro locked
        obtain ⟨info, found, locked⟩ := Option.map_eq_some_iff.mp locked
        refine ⟨info, found, locked, ?_⟩
        by_contra other
        exact owned ⟨rfl, address, asked, info, found, locked, other⟩

theorem lock_states_apart (address : Address) (done : lockedAt afe servers address = some cmd.locks)
    (pending : lockedAt afe servers address = some !cmd.locks) : False := by
  have same := Option.some.inj (done.symm.trans pending)
  cases cmd <;> cases same

include named

theorem left_pending
    (found : ∀ machine ∈ requested afe servers options lab, ∃ info, hostAt afe servers (queried lab machine) = some info)
    (machine : Text) (left : Left afe servers options cmd lab machine) :
    Pending afe servers options cmd lab (queried lab machine) := by
  refine ⟨⟨machine, left.1, rfl⟩, ?_⟩
  obtain ⟨info, known⟩ := found machine left.1
  have locked := known_locked afe servers _ info known
  by_cases done : info.locked = cmd.locks
  · rw [done] at locked
    exact absurd (removed_by_own_key lab named machine) (left.2 machine left.1 locked)
  · rw [locked, Bool.eq_not_of_ne done]

theorem pending_left (kept : ¬ TakesOut afe servers options cmd lab) (machine : Text)
    (asked : machine ∈ requested afe servers options lab)
    (pending : lockedAt afe servers (queried lab machine) = some !cmd.locks) : Left afe servers options cmd lab machine := by
  refine ⟨asked, fun other otherAsked done removed => ?_⟩
  cases removed_by_key lab named machine other removed with
  | inl same => exact lock_states_apart afe servers cmd _ done (same ▸ pending)
  | inr suffixed =>
      rw [suffixed] at asked pending
      exact kept ⟨other, otherAsked, done, asked, pending⟩

theorem taken_out (takes : TakesOut afe servers options cmd lab) :
    ∃ address, Pending afe servers options cmd lab address ∧ ∀ m, Left afe servers options cmd lab m → queried lab m ≠ address := by
  obtain ⟨other, otherAsked, done, asked, pending⟩ := takes
  refine ⟨queried lab (crosMachine other), ⟨⟨_, asked, rfl⟩, pending⟩, fun m left same => ?_⟩
  by_cases listed : other ∈ lab ∨ other ++ dotCros ∈ lab
  · rw [queried_cros_machine lab named other listed] at pending
    exact lock_states_apart afe servers cmd _ done pending
  · have outside := queried_nonlab lab _ (cros_machine_nonlab lab named other listed)
    have nonlab : ¬ (m ∈ lab ∨ m ++ dotCros ∈ lab) := by
      intro inside
      rw [queried_lab lab m inside, outside] at same
      cases same
    rw [queried_nonlab lab m nonlab, outside] at same
    have here : m = crosMachine other := congrArg Address.host same
    apply left.2 other otherAsked done
    rw [queried_nonlab lab other listed]
    exact .inl here

end Updated

-- What a run does against what it should do.
theorem command_right_iff (works : Works afe) (named : ∀ machine ∈ lab, LabNamed machine)
    (known : Known afe system servers options lab) (manager : AFELockManager)
    (manages : Manages afe system servers options lab manager) :
    RightOutcome afe system servers options cmd lab (runCommand afe system manager servers cmd) ↔
      (options.force = true → ∀ address, Asked afe servers options lab address → lockedAt afe servers address = some cmd.locks) ∧
        (options.force = false → ¬ NotTheirs afe system servers options cmd lab → ¬ TakesOut afe servers options cmd lab) := by
  constructor
  · intro right
    refine ⟨fun forced address asked => ?_, fun free owned takes => ?_⟩
    · have set := (right.forced forced).sets.set address asked
      rwa [forced_run afe system servers options cmd lab works named known manager manages forced] at set
    · obtain ⟨changed, ran, each⟩ := checked_run afe system servers options cmd lab works named known manager manages free owned
      obtain ⟨address, pending, apart⟩ := taken_out afe servers options cmd lab named takes
      have sets := (right.done free owned).sets
      rw [ran] at sets
      have locked := sets.set address ((right_machine_iff afe system servers options cmd lab owned address).mpr pending)
      rw [lockedAt, hostAt, (each address).2 apart] at locked
      exact lock_states_apart afe servers cmd address locked pending.2
  · intro condition
    refine ⟨fun forced => ?_, fun free theirs => ?_, fun free owned => ?_⟩
    · rw [forced_run afe system servers options cmd lab works named known manager manages forced]
      exact ⟨rfl, condition.1 forced, fun _ _ => rfl⟩
    · exact refused_run afe system servers options cmd lab works named known manager manages free theirs
    · obtain ⟨changed, ran, each⟩ := checked_run afe system servers options cmd lab works named known manager manages free owned
      rw [ran]
      refine ⟨rfl, fun address meant => ?_, fun address other => ?_⟩
      · obtain ⟨⟨m, asked, rfl⟩, pending⟩ := (right_machine_iff afe system servers options cmd lab owned address).mp meant
        exact (each _).1 ⟨m, pending_left afe servers options cmd lab named (condition.2 free owned) m asked pending, rfl⟩
      · apply (each address).2
        intro m left same
        have pending := left_pending afe servers options cmd lab named known.found m left
        exact other ((right_machine_iff afe system servers options cmd lab owned address).mpr (same ▸ pending))

theorem main_runs (answers : options.useLocal = true →
    system.machineIsPingable (localServerName options) = true ∨ system.machineIsPingable (localServerName options ++ dotCros) = true) :
    ∃ manager, Manages afe system servers options toolchainLabMachines manager ∧
      main afe system servers options cmd = runCommand afe system manager servers cmd := by
  obtain ⟨manager, made, manages⟩ := lock_manager_for afe system servers options toolchainLabMachines answers
  have found : newLockManager afe system servers options = .ok manager := by
    unfold newLockManager
    rw [lab_machines_read, Option.elim_some]
    exact made
  refine ⟨manager, manages, ?_⟩
  unfold main
  rw [found]
  exact or_raised_ok _ _ _

theorem lock_command_right_iff (works : Works afe) (known : Known afe system servers options toolchainLabMachines) :
    RightOutcome afe system servers options cmd toolchainLabMachines (main afe system servers options cmd) ↔
      (options.force = true →
        ∀ address, Asked afe servers options toolchainLabMachines address → lockedAt afe servers address = some cmd.locks) ∧
        (options.force = false → ¬ NotTheirs afe system servers options cmd toolchainLabMachines →
          ¬ TakesOut afe servers options cmd toolchainLabMachines) := by
  obtain ⟨manager, manages, ran⟩ := main_runs afe system servers options cmd known.answers
  rw [ran]
  exact command_right_iff afe system servers options cmd toolchainLabMachines works lab_machines_named known manager manages

end Commands

section Examples

def setLock (names : List Text) (data : UpdateData) (info : HostInfo) : HostInfo :=
  if info.hostname ∈ names then { info with locked := data.locked } else info

-- Servers that keep their hosts in a list.
def listAfe : Afe (List HostInfo) where
  getHostnames hosts := hosts.map HostInfo.hostname
  getHosts hosts hostname := hosts.filter fun info => decide (info.hostname = hostname)
  modifyHosts hosts names data := .ok (hosts.map (setLock names data))

theorem set_lock_hosts (names : List Text) (data : UpdateData) (hosts : List HostInfo) (host : Text) :
    listAfe.getHosts (hosts.map (setLock names data)) host = (listAfe.getHosts hosts host).map (setLock names data) := by
  have named : ∀ info, (setLock names data info).hostname = info.hostname := by
    intro info
    unfold setLock
    split <;> rfl
  simp only [listAfe, List.filter_map, Function.comp_def, named]

theorem list_afe_works : Works listAfe where
  named := fun _ _ info member => of_decide_eq_true (List.mem_filter.mp member).2
  succeeds := fun _ _ _ => ⟨_, rfl⟩
  sets := by
    intro server hosts data changed ran host member
    obtain rfl := Except.ok.inj ran
    rw [set_lock_hosts, List.map_map]
    apply List.map_congr_left
    intro info found
    have here : info.hostname = host := of_decide_eq_true (List.mem_filter.mp found).2
    rw [Function.comp_apply, setLock, here, if_pos member]
  keeps := by
    intro server hosts data changed ran host outside
    obtain rfl := Except.ok.inj ran
    have same : ∀ info ∈ listAfe.getHosts server host, setLock hosts data info = id info := by
      intro info found
      have here : info.hostname = host := of_decide_eq_true (List.mem_filter.mp found).2
      rw [setLock, here, if_neg outside]
      rfl
    rw [set_lock_hosts, List.map_congr_left same, List.map_id]

def exampleSystem : System where
  user := "user".toList
  machineIsPingable := fun _ => true
  listSet := id
  list_set_mem := fun _ _ => Iff.rfl
  iteritems := SortedDict.entries
  iteritems_mem := fun _ _ => Iff.rfl

def lockedInfo : HostInfo := ⟨"dut-row1-rack2.mtv".toList, none, true, "user".toList, []⟩

def freeInfo : HostInfo := ⟨"dut-row1-rack2.mtv.cros".toList, none, false, [], []⟩

def exampleServers : Servers (List HostInfo) := ⟨[], [lockedInfo, freeInfo]⟩

def exampleOptions (force : Bool) : Options := ⟨[lockedInfo.hostname, freeInfo.hostname], force, none, true⟩

theorem example_place (machine : Text) (unnamed : ¬ LabNamed machine ∧ ¬ LabNamed (machine ++ dotCros)) :
    queried toolchainLabMachines machine = ⟨.nonlab, machine⟩ :=
  queried_nonlab _ machine fun listed => listed.elim (fun full => unnamed.1 (lab_machines_named _ full))
    fun short => unnamed.2 (lab_machines_named _ short)

theorem locked_place : queried toolchainLabMachines lockedInfo.hostname = ⟨.nonlab, lockedInfo.hostname⟩ :=
  example_place _ (by decide)

theorem free_place : queried toolchainLabMachines freeInfo.hostname = ⟨.nonlab, freeInfo.hostname⟩ :=
  example_place _ (by decide)

theorem locked_host : hostAt listAfe exampleServers (queried toolchainLabMachines lockedInfo.hostname) = some lockedInfo := by
  rw [locked_place]
  rfl

theorem free_host : hostAt listAfe exampleServers (queried toolchainLabMachines freeInfo.hostname) = some freeInfo := by
  rw [free_place]
  rfl

theorem locked_suffixed : crosMachine lockedInfo.hostname = freeInfo.hostname := rfl

theorem free_kept : crosMachine freeInfo.hostname = freeInfo.hostname := rfl

theorem example_known (force : Bool) : Known listAfe exampleSystem exampleServers (exampleOptions force) toolchainLabMachines where
  answers := fun _ => .inl rfl
  found := List.forall_mem_cons.mpr ⟨⟨_, locked_host⟩, List.forall_mem_singleton.mpr ⟨_, free_host⟩⟩
  reached := fun _ _ _ => rfl

-- The unlocked machine needs nothing, and its name takes out no other one.
theorem unlock_example : RightOutcome listAfe exampleSystem exampleServers (exampleOptions false) .unlock toolchainLabMachines
    (main listAfe exampleSystem exampleServers (exampleOptions false) .unlock) := by
  apply (lock_command_right_iff _ _ _ _ _ list_afe_works (example_known false)).mpr
  refine ⟨fun forced => absurd forced Bool.false_ne_true, fun _ _ takes => ?_⟩
  obtain ⟨machine, asked, done, _, pending⟩ := takes
  cases List.mem_pair.mp asked with
  | inl first =>
      rw [first, known_locked _ _ _ _ locked_host] at done
      cases Option.some.inj done
  | inr second =>
      rw [second, free_kept, known_locked _ _ _ _ free_host] at pending
      cases Option.some.inj pending

-- With --force nothing is locked, and without it the locked machine takes out the other one.
theorem lock_example_wrong (force : Bool) : ¬ RightOutcome listAfe exampleSystem exampleServers (exampleOptions force) .lock
    toolchainLabMachines (main listAfe exampleSystem exampleServers (exampleOptions force) .lock) := by
  intro right
  obtain ⟨manager, manages, ran⟩ :=
    main_runs listAfe exampleSystem exampleServers (exampleOptions force) .lock (example_known force).answers
  rw [ran] at right
  have condition := (command_right_iff _ _ _ _ _ _ list_afe_works lab_machines_named (example_known force) manager manages).mp right
  cases force with
  | true =>
      have set := condition.1 rfl _ ⟨freeInfo.hostname, List.mem_cons_of_mem _ List.mem_cons_self, rfl⟩
      rw [known_locked _ _ _ _ free_host] at set
      cases Option.some.inj set
  | false =>
      refine condition.2 rfl (fun theirs => absurd theirs.1 (by decide)) ⟨lockedInfo.hostname, List.mem_cons_self, ?_⟩
      rw [locked_suffixed, known_locked _ _ _ _ locked_host, known_locked _ _ _ _ free_host]
      exact ⟨rfl, List.mem_cons_of_mem _ List.mem_cons_self, rfl⟩

theorem lock_example :
    (¬ RightOutcome listAfe exampleSystem exampleServers (exampleOptions true) .lock toolchainLabMachines
      (main listAfe exampleSystem exampleServers (exampleOptions true) .lock)) ∧
    ¬ RightOutcome listAfe exampleSystem exampleServers (exampleOptions false) .lock toolchainLabMachines
      (main listAfe exampleSystem exampleServers (exampleOptions false) .lock) :=
  ⟨lock_example_wrong true, lock_example_wrong false⟩

end Examples

end ToolchainUtils.AfeLockMachine
