import ToolchainUtils.AfeLockMachine.LockUpdates

set_option autoImplicit false

namespace ToolchainUtils.AfeLockMachine

open PyString

section States

variable {σ : Type} (afe : Afe σ) (manager : AFELockManager) (servers : Servers σ)

-- The server that keeps the machine is at hand and knows it.
structure KnownMachine (machine : Text) : Prop where
  found : ∃ info, hostAt afe servers (queried manager.toolchainLabMachines machine) = some info
  reached : (queried manager.toolchainLabMachines machine).server = .nonlab → manager.localAfe = true

def unknownHost : HostInfo := ⟨[], none, false, [], []⟩

-- The item of the dictionary of the states that a machine makes.
def stateEntry (machine : Text) : Text × MachineState :=
  ((queried manager.toolchainLabMachines machine).host,
    machineState ((hostAt afe servers (queried manager.toolchainLabMachines machine)).getD unknownHost))

theorem host_info_read (machine : Text) (info : HostInfo)
    (found : hostAt afe servers (queried manager.toolchainLabMachines machine) = some info)
    (reached : (queried manager.toolchainLabMachines machine).server = .nonlab → manager.localAfe = true) :
    getHostInfo afe manager servers machine = .ok info := by
  rw [getHostInfo]
  by_cases listed : machine ∈ manager.toolchainLabMachines ∨ machine ++ dotCros ∈ manager.toolchainLabMachines
  · rw [queried_lab _ machine listed] at found
    obtain ⟨rest, answer⟩ := List.head?_eq_some_iff.mp found
    rw [if_pos listed, show afe.getHosts servers.afe (hostPart machine) = info :: rest from answer]
  · rw [queried_nonlab _ machine listed] at found reached
    obtain ⟨rest, answer⟩ := List.head?_eq_some_iff.mp found
    rw [if_neg listed, if_pos (reached rfl), show afe.getHosts servers.localAfe machine = info :: rest from answer]

variable (works : Works afe)

include works

theorem host_named (address : Address) (info : HostInfo) (found : hostAt afe servers address = some info) :
    info.hostname = address.host := by
  have member := List.mem_of_head? found
  obtain ⟨server, host⟩ := address
  cases server with
  | main => exact works.named servers.afe host info member
  | nonlab => exact works.named servers.localAfe host info member

variable (named : ∀ machine ∈ manager.toolchainLabMachines, LabNamed machine)

include named

theorem machine_states_read (connected : manager.localAfe = manager.useLocal)
    (known : ∀ machine ∈ manager.machines, KnownMachine afe manager servers machine) :
    ∃ states, getMachineStates afe manager servers = .ok states ∧
      ∀ entry, entry ∈ states.entries ↔ ∃ machine ∈ manager.machines, stateEntry afe manager servers machine = entry := by
  refine ⟨SortedDict.ofItems (manager.machines.map (stateEntry afe manager servers)), ?_, fun entry => ?_⟩
  · have available : (manager.useLocal && !manager.localAfe) = false := by rw [connected, Bool.and_not_self]
    rw [getMachineStates, available, if_neg Bool.false_ne_true, SortedDict.ofItems, List.foldl_map]
    apply FailingFold.fold_never_raises
    intro machine member states
    obtain ⟨info, found⟩ := (known machine member).found
    rw [host_info_read afe manager servers machine info found (known machine member).reached, stateEntry, found,
      ← host_named afe servers works _ info found]
    rfl
  · have agree : ∀ first ∈ manager.machines.map (stateEntry afe manager servers),
        ∀ second ∈ manager.machines.map (stateEntry afe manager servers), first.1 = second.1 → first.2 = second.2 := by
      intro first firstMember second secondMember same
      obtain ⟨one, _, rfl⟩ := List.mem_map.mp firstMember
      obtain ⟨other, _, rfl⟩ := List.mem_map.mp secondMember
      rw [stateEntry, stateEntry, host_determines _ named one other same]
    rw [← List.mem_map, ← SortedDict.of_items_agree _ agree entry.1 entry.2, ← SortedDict.mem_entries]

end States

section Checks

variable (user : Text) (cmd : Command)

def NotOwned (entry : Text × MachineState) : Prop := cmd = .unlock ∧ entry.2.locked = true ∧ entry.2.lockedBy ≠ user

-- What is in the requested state already is taken out.
def removeDone (machines : List Text) (entry : Text × MachineState) : List Text :=
  if entry.2.locked = cmd.locks then internalRemoveMachine machines entry.1 else machines

theorem check_machine_lock_owned (machines : List Text) (entry : Text × MachineState) (owned : ¬ NotOwned user cmd entry) :
    checkMachineLock user cmd machines entry = .ok (removeDone cmd machines entry) := by
  cases cmd with
  | lock => rfl
  | unlock =>
      have mine : ¬ (entry.2.locked = true ∧ entry.2.lockedBy ≠ user) := fun others => owned ⟨rfl, others⟩
      rw [checkMachineLock, if_neg mine, removeDone]
      cases entry.2.locked <;> rfl

theorem check_machine_lock_raises (machines : List Text) (entry : Text × MachineState) (others : NotOwned user cmd entry) :
    ∃ error, (∃ message, error = .dontOwnLock message) ∧ checkMachineLock user cmd machines entry = .error error := by
  obtain ⟨rfl, others⟩ := others
  rw [checkMachineLock, if_pos others]
  exact ⟨_, ⟨_, rfl⟩, rfl⟩

theorem mem_remove_done (machines : List Text) (entry : Text × MachineState) (m : Text) :
    m ∈ removeDone cmd machines entry ↔
      m ∈ machines ∧ (entry.2.locked = cmd.locks → ¬ (m = crosMachine entry.1 ∨ m = entry.1)) := by
  rw [removeDone]
  by_cases done : entry.2.locked = cmd.locks
  · rw [if_pos done, internalRemoveMachine, List.mem_filter, decide_eq_true_iff, forall_prop_of_true done, not_or]
  · rw [if_neg done, forall_prop_of_false done, and_true]

theorem mem_removed (entries : List (Text × MachineState)) (machines : List Text) (m : Text) :
    m ∈ entries.foldl (removeDone cmd) machines ↔
      m ∈ machines ∧ ∀ entry ∈ entries, entry.2.locked = cmd.locks → ¬ (m = crosMachine entry.1 ∨ m = entry.1) := by
  induction entries generalizing machines with
  | nil => simp
  | cons entry rest ih => rw [List.foldl_cons, ih, mem_remove_done, List.forall_mem_cons, and_assoc]

theorem check_machine_locks_owned (entries : List (Text × MachineState)) (machines : List Text)
    (owned : ∀ entry ∈ entries, ¬ NotOwned user cmd entry) :
    checkMachineLocks user cmd entries machines = .ok (entries.foldl (removeDone cmd) machines) :=
  FailingFold.fold_never_raises _ _ entries machines fun entry member machines =>
    check_machine_lock_owned user cmd machines entry (owned entry member)

theorem check_machine_locks_raises (entries : List (Text × MachineState)) (machines : List Text) (entry : Text × MachineState)
    (member : entry ∈ entries) (others : NotOwned user cmd entry) :
    ∃ error, (∃ message, error = .dontOwnLock message) ∧ checkMachineLocks user cmd entries machines = .error error := by
  apply FailingFold.fold_raises (checkMachineLock user cmd) _ entries entry member machines
  · exact fun left => check_machine_lock_raises user cmd left entry others
  · intro other _ left error raised
    by_cases otherOwned : NotOwned user cmd other
    · obtain ⟨found, expected, again⟩ := check_machine_lock_raises user cmd left other otherOwned
      rw [again] at raised
      cases raised
      exact expected
    · rw [check_machine_lock_owned user cmd left other otherOwned] at raised
      cases raised

end Checks

end ToolchainUtils.AfeLockMachine
