import ToolchainUtils.AfeLockMachine.MachineNames
import ToolchainUtils.FailingFold

set_option autoImplicit false

namespace ToolchainUtils.AfeLockMachine

open PyString

section Servers

variable {σ : Type} (afe : Afe σ)

def hostsAt (servers : Servers σ) (address : Address) : List HostInfo :=
  match address.server with
  | .main => afe.getHosts servers.afe address.host
  | .nonlab => afe.getHosts servers.localAfe address.host

def hostAt (servers : Servers σ) (address : Address) : Option HostInfo := (hostsAt afe servers address).head?

def lockedAt (servers : Servers σ) (address : Address) : Option Bool := (hostAt afe servers address).map HostInfo.locked

-- A server answers with hosts of the name that it is asked for. A call of modify_hosts does
-- not fail, sets the lock of the hosts that it names and leaves the others.
structure Works : Prop where
  named : ∀ server host info, info ∈ afe.getHosts server host → info.hostname = host
  succeeds : ∀ server hosts data, ∃ changed, afe.modifyHosts server hosts data = .ok changed
  sets : ∀ server hosts data changed, afe.modifyHosts server hosts data = .ok changed → ∀ host ∈ hosts,
    (afe.getHosts changed host).map HostInfo.locked = (afe.getHosts server host).map fun _ => data.locked
  keeps : ∀ server hosts data changed, afe.modifyHosts server hosts data = .ok changed → ∀ host, host ∉ hosts →
    afe.getHosts changed host = afe.getHosts server host

-- What a call about one address leaves behind.
structure SetsAt (locked : Bool) (servers changed : Servers σ) (address : Address) : Prop where
  set : (hostsAt afe changed address).map HostInfo.locked = (hostsAt afe servers address).map fun _ => locked
  others : ∀ other, other ≠ address → hostsAt afe changed other = hostsAt afe servers other

variable (works : Works afe) (manager : AFELockManager)

include works

theorem modify_hosts_run (servers : Servers σ) (address : Address) (data : UpdateData)
    (reached : address.server = .nonlab → manager.localAfe = true) :
    ∃ changed, modifyHosts afe manager servers (decide (address.server = .main)) address.host data = .ok changed ∧
      SetsAt afe data.locked servers changed address := by
  obtain ⟨server, host⟩ := address
  cases server with
  | main =>
      obtain ⟨changed, ran⟩ := works.succeeds servers.afe [host] data
      refine ⟨{ servers with afe := changed }, ?_, works.sets _ _ _ _ ran host List.mem_cons_self, fun other apart => ?_⟩
      · rw [modifyHosts, decide_eq_true rfl, if_pos rfl, ran]
        rfl
      · obtain ⟨otherServer, otherHost⟩ := other
        cases otherServer with
        | main =>
            have different : otherHost ∉ [host] := fun member => apart (by rw [List.mem_singleton.mp member])
            exact works.keeps _ _ _ _ ran otherHost different
        | nonlab => rfl
  | nonlab =>
      obtain ⟨changed, ran⟩ := works.succeeds servers.localAfe [host] data
      refine ⟨{ servers with localAfe := changed }, ?_, works.sets _ _ _ _ ran host List.mem_cons_self, fun other apart => ?_⟩
      · rw [modifyHosts, decide_eq_false (by decide : Server.nonlab ≠ .main), if_neg Bool.false_ne_true, if_pos (reached rfl), ran]
        rfl
      · obtain ⟨otherServer, otherHost⟩ := other
        cases otherServer with
        | main => rfl
        | nonlab =>
            have different : otherHost ∉ [host] := fun member => apart (by rw [List.mem_singleton.mp member])
            exact works.keeps _ _ _ _ ran otherHost different

variable (named : ∀ machine ∈ manager.toolchainLabMachines, LabNamed machine)

include named

theorem update_lock_run (lockMachine : Bool) (machine : Text) (servers : Servers σ)
    (reached : (queried manager.toolchainLabMachines machine).server = .nonlab → manager.localAfe = true) :
    ∃ changed, updateLockInAFE afe manager lockMachine machine servers = .ok changed ∧
      SetsAt afe lockMachine servers changed (queried manager.toolchainLabMachines machine) := by
  rw [← modified_queried _ named] at reached ⊢
  obtain ⟨changed, ran, sets⟩ := modify_hosts_run afe works manager servers (modified manager.toolchainLabMachines machine)
    ⟨lockMachine, "toolchain user request (".toList ++ manager.user ++ ")".toList⟩ reached
  refine ⟨changed, ?_, sets⟩
  unfold updateLockInAFE
  unfold modified at ran
  generalize (if machine ++ dotCros ∈ manager.toolchainLabMachines then machine ++ dotCros else machine) = name at ran ⊢
  by_cases listed : name ∈ manager.toolchainLabMachines
  · rw [if_pos listed] at ran
    simp only [decide_eq_true listed, if_pos]
    rw [show modifyHosts afe manager servers true (hostPart name) _ = .ok changed from ran]
    rfl
  · rw [if_neg listed] at ran
    simp only [decide_eq_false listed, if_neg Bool.false_ne_true]
    rw [show modifyHosts afe manager servers false name _ = .ok changed from ran]
    rfl

-- Each machine of the list is set, and no other.
theorem update_machines_run (lockMachines : Bool) (machines : List Text) (servers : Servers σ)
    (reached : ∀ m ∈ machines, (queried manager.toolchainLabMachines m).server = .nonlab → manager.localAfe = true) :
    ∃ changed, updateMachines afe manager lockMachines machines servers = (changed, .ok machines) ∧ ∀ address,
      ((∃ m ∈ machines, queried manager.toolchainLabMachines m = address) →
        (hostsAt afe changed address).map HostInfo.locked = (hostsAt afe servers address).map fun _ => lockMachines) ∧
      ((∀ m ∈ machines, queried manager.toolchainLabMachines m ≠ address) →
        hostsAt afe changed address = hostsAt afe servers address) := by
  induction machines generalizing servers with
  | nil =>
      refine ⟨servers, rfl, fun address => ⟨fun held => ?_, fun _ => rfl⟩⟩
      obtain ⟨m, member, _⟩ := held
      exact absurd member List.not_mem_nil
  | cons m rest ih =>
      obtain ⟨first, ran, sets⟩ := update_lock_run afe works manager named lockMachines m servers (reached m List.mem_cons_self)
      obtain ⟨changed, later, each⟩ := ih first fun other member => reached other (List.mem_cons_of_mem _ member)
      refine ⟨changed, ?_, fun address => ⟨fun held => ?_, fun apart => ?_⟩⟩
      · rw [updateMachines, ran]
        simp only [later]
        rfl
      · by_cases again : ∃ other ∈ rest, queried manager.toolchainLabMachines other = address
        · rw [(each address).1 again]
          by_cases same : address = queried manager.toolchainLabMachines m
          · have lengths := congrArg List.length (same ▸ sets.set)
            rw [List.length_map, List.length_map] at lengths
            rw [List.map_const', List.map_const', lengths]
          · rw [sets.others address same]
        · have here : queried manager.toolchainLabMachines m = address := by
            obtain ⟨other, member, found⟩ := held
            cases List.mem_cons.mp member with
            | inl same => exact same ▸ found
            | inr further => exact absurd ⟨other, further, found⟩ again
          rw [(each address).2 fun other member found => again ⟨other, member, found⟩, ← here, sets.set]
      · obtain ⟨here, further⟩ := List.forall_mem_cons.mp apart
        rw [(each address).2 further, sets.others address here.symm]

end Servers

end ToolchainUtils.AfeLockMachine
