import ToolchainUtils.AfeLockMachine.LockManager

set_option autoImplicit false

namespace ToolchainUtils.AfeLockMachine

open PyString

-- The place of a machine: one of the two servers, and the name that it has there.
inductive Server where
  | main
  | nonlab
deriving DecidableEq, Repr

structure Address where
  server : Server
  host : Text
deriving DecidableEq, Repr

-- A lab machine has a name with a rack and a row, without a dot in front of the last part.
def LabNamed (machine : Text) : Prop := machine = hostPart machine ++ dotCros ∧ crosMachine (hostPart machine) = machine

instance decidableLabNamed (machine : Text) : Decidable (LabNamed machine) := inferInstanceAs (Decidable (_ ∧ _))

def toolchainLabMachines : List Text := (getAllToolchainLabMachines defaultRemotes).getD []

def wellNamed (machinesFile : Text) : Bool :=
  (getAllToolchainLabMachines machinesFile).any fun machines => machines.all fun machine => decide (LabNamed machine)

theorem literal_append (front found characters : Text) (read : front = found) :
    front ++ (String.ofList characters).toList = found ++ characters := by
  rw [read, String.toList_ofList]

set_option maxRecDepth 20000 in
theorem default_remotes_named : wellNamed defaultRemotes = true := by
  have named : ∃ characters, defaultRemotes = characters ∧ wellNamed characters = true :=
    ⟨_, literal_append _ _ _ <| literal_append _ _ _ <| literal_append _ _ _ <| literal_append _ _ _ <| literal_append _ _ _ <|
      literal_append _ _ _ <| literal_append _ _ _ String.toList_ofList, by decide +kernel⟩
  obtain ⟨characters, same, good⟩ := named
  rw [same, good]

theorem well_named_read (machinesFile : Text) (good : wellNamed machinesFile = true) :
    ∃ machines, getAllToolchainLabMachines machinesFile = some machines ∧ ∀ machine ∈ machines, LabNamed machine := by
  obtain ⟨machines, read, each⟩ := (Option.any_eq_true _ _).mp good
  exact ⟨machines, read, fun machine listed => of_decide_eq_true (List.all_eq_true.mp each machine listed)⟩

theorem lab_machines_read : getAllToolchainLabMachines defaultRemotes = some toolchainLabMachines := by
  obtain ⟨machines, read, _⟩ := well_named_read defaultRemotes default_remotes_named
  rw [toolchainLabMachines, read]
  rfl

theorem lab_machines_named (machine : Text) (listed : machine ∈ toolchainLabMachines) : LabNamed machine := by
  obtain ⟨machines, read, named⟩ := well_named_read defaultRemotes default_remotes_named
  rw [toolchainLabMachines, read] at listed
  exact named machine listed

theorem host_part_dotless (machine : Text) : '.' ∉ hostPart machine := by
  intro member
  simpa using List.mem_takeWhile_imp member

theorem host_part_dotless_eq (host : Text) (dotless : '.' ∉ host) : hostPart host = host := by
  apply List.takeWhile_eq_self_iff.mpr
  intro c member
  simpa using fun same : c = '.' => dotless (same ▸ member)

theorem host_part_cros (host : Text) (dotless : '.' ∉ host) : hostPart (host ++ dotCros) = host := by
  rw [hostPart, List.takeWhile_append_of_pos, show dotCros.takeWhile (· != '.') = [] from rfl, List.append_nil]
  intro c member
  simpa using fun same : c = '.' => dotless (same ▸ member)

theorem dot_in_cros (machine : Text) : '.' ∈ machine ++ dotCros :=
  List.mem_append_right machine (by decide)

theorem cros_machine_cases (machine : Text) : crosMachine machine = machine ∨ crosMachine machine = machine ++ dotCros := by
  rw [crosMachine]
  split
  · exact .inr rfl
  · exact .inl rfl

theorem cros_machine_suffixed (host : Text) : crosMachine (host ++ dotCros) = host ++ dotCros := by
  have found : (find dotCros (host ++ dotCros)).isSome := (find_is_some_iff _ _).mpr (List.suffix_append host dotCros).isInfix
  rw [crosMachine, Option.isNone_eq_false_iff.mpr found, Bool.and_false]
  rfl

section Lab

variable (lab : List Text)

-- GetMachineStates asks this server for the machine.
def queried (machine : Text) : Address :=
  if machine ∈ lab ∨ machine ++ dotCros ∈ lab then ⟨.main, hostPart machine⟩ else ⟨.nonlab, machine⟩

-- UpdateLockInAFE modifies the machine on this server.
def modified (machine : Text) : Address :=
  let name := if machine ++ dotCros ∈ lab then machine ++ dotCros else machine
  if name ∈ lab then ⟨.main, hostPart name⟩ else ⟨.nonlab, name⟩

theorem queried_lab (machine : Text) (listed : machine ∈ lab ∨ machine ++ dotCros ∈ lab) :
    queried lab machine = ⟨.main, hostPart machine⟩ := if_pos listed

theorem queried_nonlab (machine : Text) (other : ¬ (machine ∈ lab ∨ machine ++ dotCros ∈ lab)) :
    queried lab machine = ⟨.nonlab, machine⟩ := if_neg other

variable (named : ∀ machine ∈ lab, LabNamed machine)

include named

theorem cros_dotless (machine : Text) (listed : machine ++ dotCros ∈ lab) : '.' ∉ machine := by
  have parts := (named _ listed).1
  rw [List.append_cancel_right parts]
  exact host_part_dotless _

theorem lab_forms (machine : Text) (listed : machine ∈ lab ∨ machine ++ dotCros ∈ lab) :
    hostPart machine ++ dotCros ∈ lab ∧ (machine = hostPart machine ∨ machine = hostPart machine ++ dotCros) := by
  cases listed with
  | inl full =>
      have parts := (named machine full).1
      exact ⟨parts ▸ full, .inr parts⟩
  | inr short =>
      have same := host_part_dotless_eq machine (cros_dotless lab named machine short)
      exact ⟨by rwa [same], .inl same.symm⟩

-- The check and the update of a machine are about the same host.
theorem modified_queried (machine : Text) : modified lab machine = queried lab machine := by
  rw [modified, queried]
  by_cases short : machine ++ dotCros ∈ lab
  · have dotless := cros_dotless lab named machine short
    rw [if_pos short, if_pos short, if_pos (.inr short), host_part_cros machine dotless, host_part_dotless_eq machine dotless]
  · by_cases full : machine ∈ lab
    · rw [if_neg short, if_pos full, if_pos (.inl full)]
    · rw [if_neg short, if_neg full, if_neg (not_or.mpr ⟨full, short⟩)]

theorem nonlab_cros (machine : Text) (other : ¬ (machine ∈ lab ∨ machine ++ dotCros ∈ lab)) :
    ¬ (machine ++ dotCros ∈ lab ∨ machine ++ dotCros ++ dotCros ∈ lab) := by
  intro listed
  cases listed with
  | inl full => exact other (.inr full)
  | inr short => exact cros_dotless lab named _ short (dot_in_cros machine)

-- The states are kept under the names of the hosts, which tell the machines apart.
theorem host_determines (first second : Text) (same : (queried lab first).host = (queried lab second).host) :
    queried lab first = queried lab second := by
  by_cases firstLab : first ∈ lab ∨ first ++ dotCros ∈ lab
  · by_cases secondLab : second ∈ lab ∨ second ++ dotCros ∈ lab
    · rw [queried_lab lab first firstLab, queried_lab lab second secondLab] at same ⊢
      exact congrArg (Address.mk .main) same
    · rw [queried_lab lab first firstLab, queried_nonlab lab second secondLab] at same
      have full := (lab_forms lab named first firstLab).1
      rw [show hostPart first = second from same] at full
      exact absurd (.inr full) secondLab
  · by_cases secondLab : second ∈ lab ∨ second ++ dotCros ∈ lab
    · rw [queried_nonlab lab first firstLab, queried_lab lab second secondLab] at same
      have full := (lab_forms lab named second secondLab).1
      rw [show hostPart second = first from same.symm] at full
      exact absurd (.inr full) firstLab
    · rw [queried_nonlab lab first firstLab, queried_nonlab lab second secondLab] at same ⊢
      exact congrArg (Address.mk .nonlab) same

theorem lab_cros_machine (machine : Text) (listed : machine ∈ lab ∨ machine ++ dotCros ∈ lab) :
    crosMachine (hostPart machine) = hostPart machine ++ dotCros := by
  have full := (lab_forms lab named machine listed).1
  have read := (named _ full).2
  rwa [host_part_cros _ (host_part_dotless machine)] at read

theorem removed_by_own_key (machine : Text) :
    machine = crosMachine (queried lab machine).host ∨ machine = (queried lab machine).host := by
  by_cases listed : machine ∈ lab ∨ machine ++ dotCros ∈ lab
  · rw [queried_lab lab machine listed, lab_cros_machine lab named machine listed]
    exact (lab_forms lab named machine listed).2.symm
  · rw [queried_nonlab lab machine listed]
    exact .inr rfl

-- A key takes out the machine that it stands for, or the one that has its name with .cros.
theorem removed_by_key (machine other : Text)
    (removed : machine = crosMachine (queried lab other).host ∨ machine = (queried lab other).host) :
    queried lab machine = queried lab other ∨ machine = crosMachine other := by
  by_cases listed : other ∈ lab ∨ other ++ dotCros ∈ lab
  · have full := (lab_forms lab named other listed).1
    have dotless := host_part_dotless other
    rw [queried_lab lab other listed, lab_cros_machine lab named other listed] at removed
    rw [queried_lab lab other listed]
    cases removed with
    | inl suffixed =>
        rw [suffixed, queried_lab lab _ (.inl full), host_part_cros _ dotless]
        exact .inl rfl
    | inr plain =>
        rw [plain, queried_lab lab _ (.inr full), host_part_dotless_eq _ dotless]
        exact .inl rfl
  · rw [queried_nonlab lab other listed] at removed
    exact removed.symm.imp_left fun same => by rw [same]

-- What stands under the other name of a lab machine is that very machine.
theorem queried_cros_machine (machine : Text) (listed : machine ∈ lab ∨ machine ++ dotCros ∈ lab) :
    queried lab (crosMachine machine) = queried lab machine := by
  obtain ⟨full, form⟩ := lab_forms lab named machine listed
  cases form with
  | inl plain =>
      have renamed : crosMachine machine = hostPart machine ++ dotCros :=
        (congrArg crosMachine plain).trans (lab_cros_machine lab named machine listed)
      rw [renamed, queried_lab lab machine listed, queried_lab lab _ (.inl full), host_part_cros _ (host_part_dotless machine)]
  | inr suffixed => rw [suffixed, cros_machine_suffixed]

theorem cros_machine_nonlab (machine : Text) (other : ¬ (machine ∈ lab ∨ machine ++ dotCros ∈ lab)) :
    ¬ (crosMachine machine ∈ lab ∨ crosMachine machine ++ dotCros ∈ lab) := by
  cases cros_machine_cases machine with
  | inl same => rwa [same]
  | inr suffixed =>
      rw [suffixed]
      exact nonlab_cros lab named machine other

end Lab

end ToolchainUtils.AfeLockMachine
