import Mathlib.Logic.Function.Basic
import ToolchainUtils.Crosperf.MachineImageManager
import ToolchainUtils.PyString

set_option autoImplicit false

namespace ToolchainUtils.Crosperf.CommonChecksum

open PyString

-- What the commands of one SetUpChecksumInfo find on a DUT. failed is one that answers
-- ls and then fails an assertion, as when its memory cannot be read.
inductive DutAnswer where
  | unreachable
  | failed (error : Text)
  | info (cpuinfo : Text) (physKbytes : Nat)
deriving DecidableEq, Repr

inductive ChecksumError where
  | assertion (error : Text)
  | badChecksum
deriving DecidableEq, Repr

structure CrosMachine where
  name : String
  machineChecksum : Option Text
  checksumString : Option Text
deriving DecidableEq, Repr

-- machineChecksum is a dict by the label's name, whose values may be None.
structure MachineManager where
  allMachines : List CrosMachine
  machineChecksum : String → Option (Option Text)

def truthy (checksum : Option Text) : Bool := checksum.any (· ≠ [])

def excludeLinesList : List Text := ["MHz".toList, "BogoMIPS".toList, "bogomips".toList]

def computeMachineChecksumString (cpuinfo : Text) (physKbytes : Nat) : Text :=
  ((splitlines cpuinfo).filter fun line => !excludeLinesList.any fun e => (find e line).isSome).flatten ++
    ' ' :: str physKbytes

def getMD5Checksum (md5 : Text → Text) (ss : Text) : Text := if ss = [] then [] else md5 ss

section Checksums

variable (md5 : Text → Text)

def CrosMachine.setUpChecksumInfo (machine : CrosMachine) : DutAnswer → Except ChecksumError CrosMachine
  | .unreachable => .ok { machine with machineChecksum := none }
  | .failed error => .error (.assertion error)
  | .info cpuinfo physKbytes =>
      let checksumString := computeMachineChecksumString cpuinfo physKbytes
      .ok { machine with
        checksumString := some checksumString
        machineChecksum := some (getMD5Checksum md5 checksumString) }

-- The machine as the comparison sees it; answers are those of the DUTs during the call.
def CrosMachine.refresh (answers : String → DutAnswer) (machine : CrosMachine) : Except ChecksumError CrosMachine :=
  if truthy machine.machineChecksum then .ok machine else machine.setUpChecksumInfo md5 (answers machine.name)

-- The loop of ComputeCommonCheckSum, with the machines as it leaves them.
def compareMachines (answers : String → DutAnswer) :
    Option Text → List CrosMachine → List CrosMachine × Except ChecksumError (Option Text)
  | commonChecksum, [] => ([], .ok commonChecksum)
  | commonChecksum, machine :: rest => match machine.refresh md5 answers with
      | .error error => (machine :: rest, .error error)
      | .ok machine =>
          let cs := machine.machineChecksum
          let commonChecksum := if truthy commonChecksum then commonChecksum else cs
          if cs ≠ commonChecksum then (machine :: rest, .error .badChecksum)
          else
            let (compared, outcome) := compareMachines answers commonChecksum rest
            (machine :: compared, outcome)

def MachineManager.getMachines (manager : MachineManager) (label : Label) : List CrosMachine :=
  manager.allMachines.filter fun m => label.remote.contains m.name

def MachineManager.setMachines (manager : MachineManager) (machines : List CrosMachine) : MachineManager :=
  { manager with
    allMachines := manager.allMachines.map fun m => (machines.find? fun changed => changed.name == m.name).getD m }

def MachineManager.computeCommonCheckSum (manager : MachineManager) (answers : String → DutAnswer) (label : Label) :
    MachineManager × Option ChecksumError :=
  match compareMachines md5 answers none (manager.getMachines label) with
  | (machines, .error error) => (manager.setMachines machines, some error)
  | (machines, .ok commonChecksum) =>
      ({ manager.setMachines machines with
          machineChecksum := Function.update manager.machineChecksum label.name (some commonChecksum) }, none)

-- Every two machines have one checksum.
def AllEqual (machines : List CrosMachine) : Prop :=
  ∀ first ∈ machines, ∀ second ∈ machines, first.machineChecksum = second.machineChecksum

-- The first machines without a checksum set no reference value.
def present (machines : List CrosMachine) : List CrosMachine := machines.dropWhile fun m => !truthy m.machineChecksum

-- ComputeCommonCheckSum, with the label's machines as they are after refreshing.
structure ExactlyCommon (label : Label) (refreshed : List CrosMachine) (result : MachineManager × Option ChecksumError) :
    Prop where
  raises : result.2 = some .badChecksum ↔
    ∃ first ∈ refreshed, ∃ second ∈ refreshed, first.machineChecksum ≠ second.machineChecksum
  stores : AllEqual refreshed → ∃ common, result.1.machineChecksum label.name = some common ∧
    ∀ machine ∈ refreshed, machine.machineChecksum = common

end Checksums

section Comparing

variable {md5 : Text → Text} {answers : String → DutAnswer}

theorem compare_refreshed (commonChecksum : Option Text) (machine changed : CrosMachine) (rest : List CrosMachine)
    (refreshes : machine.refresh md5 answers = .ok changed) :
    (compareMachines md5 answers commonChecksum (machine :: rest)).2 =
      if changed.machineChecksum ≠ (if truthy commonChecksum then commonChecksum else changed.machineChecksum) then
        .error .badChecksum
      else (compareMachines md5 answers (if truthy commonChecksum then commonChecksum else changed.machineChecksum) rest).2 := by
  rw [compareMachines, refreshes]
  exact apply_ite Prod.snd _ _ _

theorem compare_with_reference (commonChecksum : Option Text) (reference : truthy commonChecksum = true)
    (machines refreshed : List CrosMachine)
    (refreshes : List.Forall₂ (fun machine changed => machine.refresh md5 answers = .ok changed) machines refreshed) :
    (compareMachines md5 answers commonChecksum machines).2 = .ok commonChecksum ∧
        (∀ machine ∈ refreshed, machine.machineChecksum = commonChecksum) ∨
      (compareMachines md5 answers commonChecksum machines).2 = .error .badChecksum ∧
        ∃ machine ∈ refreshed, machine.machineChecksum ≠ commonChecksum := by
  induction refreshes with
  | nil => exact Or.inl ⟨rfl, List.forall_mem_nil _⟩
  | @cons machine changed machines refreshed first others ih =>
      rw [compare_refreshed commonChecksum machine changed machines first, if_pos reference]
      by_cases same : changed.machineChecksum = commonChecksum
      · rw [if_neg (not_not.mpr same)]
        rcases ih with ⟨passes, equal⟩ | ⟨raises, other, member, differs⟩
        · exact Or.inl ⟨passes, List.forall_mem_cons.mpr ⟨same, equal⟩⟩
        · exact Or.inr ⟨raises, other, List.mem_cons_of_mem _ member, differs⟩
      · rw [if_pos same]
        exact Or.inr ⟨rfl, changed, List.mem_cons_self, same⟩

-- Up to the first checksum that is present every comparison is of a checksum with itself.
theorem compare_without_reference (commonChecksum : Option Text) (unset : truthy commonChecksum = false)
    (machines refreshed : List CrosMachine)
    (refreshes : List.Forall₂ (fun machine changed => machine.refresh md5 answers = .ok changed) machines refreshed) :
    (∃ common, (compareMachines md5 answers commonChecksum machines).2 = .ok common ∧ AllEqual (present refreshed) ∧
        (refreshed = [] ∨ ∃ machine ∈ refreshed, machine.machineChecksum = common)) ∨
      (compareMachines md5 answers commonChecksum machines).2 = .error .badChecksum ∧ ¬ AllEqual (present refreshed) := by
  induction refreshes generalizing commonChecksum with
  | nil => exact Or.inl ⟨commonChecksum, rfl, List.forall_mem_nil _, Or.inl rfl⟩
  | @cons machine changed machines refreshed first others ih =>
      rw [compare_refreshed commonChecksum machine changed machines first, unset]
      simp only [Bool.false_eq_true, if_false, ne_eq, not_true_eq_false]
      by_cases found : truthy changed.machineChecksum = true
      · have starts : present (changed :: refreshed) = changed :: refreshed := by
          rw [present, List.dropWhile_cons_of_neg (by simp [found])]
        rw [starts]
        rcases compare_with_reference changed.machineChecksum found machines refreshed others with
          ⟨passes, equal⟩ | ⟨raises, other, member, differs⟩
        · have common : ∀ m ∈ changed :: refreshed, m.machineChecksum = changed.machineChecksum :=
            List.forall_mem_cons.mpr ⟨rfl, equal⟩
          exact Or.inl ⟨changed.machineChecksum, passes, fun a left b right => (common a left).trans (common b right).symm,
            Or.inr ⟨changed, List.mem_cons_self, rfl⟩⟩
        · exact Or.inr ⟨raises, fun equal => differs (equal other (List.mem_cons_of_mem _ member) changed List.mem_cons_self)⟩
      · have missing : truthy changed.machineChecksum = false := Bool.eq_false_iff.mpr found
        have skips : present (changed :: refreshed) = present refreshed := by
          rw [present, List.dropWhile_cons_of_pos (by simp [missing]), present]
        rw [skips]
        rcases ih changed.machineChecksum missing with ⟨common, passes, equal, stored⟩ | raises
        · refine Or.inl ⟨common, passes, equal, Or.inr ?_⟩
          rcases stored with none | ⟨other, member, same⟩
          · subst none
            cases others
            exact ⟨changed, List.mem_cons_self, by simpa [compareMachines] using passes⟩
          · exact ⟨other, List.mem_cons_of_mem _ member, same⟩
        · exact Or.inr raises

theorem all_equal_present (machines : List CrosMachine) (equal : AllEqual machines) : AllEqual (present machines) :=
  fun first left second right => equal first ((List.dropWhile_sublist _).subset left) second
    ((List.dropWhile_sublist _).subset right)

theorem two_differ_iff (machines : List CrosMachine) :
    (∃ first ∈ machines, ∃ second ∈ machines, first.machineChecksum ≠ second.machineChecksum) ↔ ¬ AllEqual machines := by
  simp only [AllEqual, not_forall, exists_prop]

theorem compute_common_check_sum_exact_iff (manager : MachineManager) (label : Label) (refreshed : List CrosMachine)
    (refreshes : List.Forall₂ (fun machine changed => machine.refresh md5 answers = .ok changed) (manager.getMachines label)
      refreshed) :
    ExactlyCommon label refreshed (manager.computeCommonCheckSum md5 answers label) ↔
      AllEqual refreshed ∨ ¬ AllEqual (present refreshed) := by
  rw [MachineManager.computeCommonCheckSum]
  rcases compare_without_reference none rfl (manager.getMachines label) refreshed refreshes with
    ⟨common, passes, equal, stored⟩ | ⟨raises, differ⟩
  · split
    next machines error compared => rw [compared] at passes; cases passes
    next machines commonChecksum compared =>
      rw [compared] at passes
      obtain rfl : commonChecksum = common := by simpa using passes
      refine ⟨fun exactly => ?_, fun condition => ?_⟩
      · by_contra neither
        cases exactly.raises.mpr ((two_differ_iff refreshed).mpr fun all => neither (Or.inl all))
      · have all : AllEqual refreshed := condition.resolve_right fun differ => differ equal
        refine ⟨?_, fun _ => ⟨commonChecksum, Function.update_self .., fun machine member => ?_⟩⟩
        · rw [two_differ_iff]
          exact iff_of_false (Option.some_ne_none _).symm fun differ => differ all
        · rcases stored with none | ⟨other, belongs, same⟩
          · rw [none] at member
            cases member
          · exact (all machine member other belongs).trans same
  · have unequal : ¬ AllEqual refreshed := fun all => differ (all_equal_present refreshed all)
    split
    next machines error compared =>
      rw [compared] at raises
      obtain rfl : error = .badChecksum := by simpa using raises
      exact iff_of_true ⟨iff_of_true rfl ((two_differ_iff refreshed).mpr unequal), fun all => absurd all unequal⟩
        (Or.inr differ)
    next machines commonChecksum compared => rw [compared] at raises; cases raises

-- The first machine stays unreachable after its image was changed, the second answers.
def halfReachable : MachineManager where
  allMachines := [{ name := "first", machineChecksum := none, checksumString := none },
    { name := "second", machineChecksum := some ['a'], checksumString := none }]
  machineChecksum _ := none

def bothLabel : Label where
  name := "label"
  remote := ["first", "second"]
  checksum := none

theorem leading_unreachable_machine_passes :
    List.Forall₂ (fun machine changed => machine.refresh id (fun _ => .unreachable) = .ok changed)
        (halfReachable.getMachines bothLabel) halfReachable.allMachines ∧
      ¬ ExactlyCommon bothLabel halfReachable.allMachines
        (halfReachable.computeCommonCheckSum id (fun _ => .unreachable) bothLabel) := by
  refine ⟨.cons rfl (.cons rfl .nil), fun exactly => ?_⟩
  have raised : (none : Option ChecksumError) = some .badChecksum :=
    exactly.raises.mpr ⟨_, List.mem_cons_self, _, List.mem_cons_of_mem _ List.mem_cons_self, by decide⟩
  cases raised

def answering : CrosMachine where
  name := "first"
  machineChecksum := some " 8".toList
  checksumString := some " 8".toList

theorem differing_machines_raise :
    ExactlyCommon bothLabel (answering :: halfReachable.allMachines.tail)
      (halfReachable.computeCommonCheckSum id (fun _ => .info [] 8) bothLabel) := by
  refine (compute_common_check_sum_exact_iff halfReachable bothLabel _ (.cons (by decide) (.cons rfl .nil))).mpr (Or.inr ?_)
  intro equal
  exact absurd (equal _ List.mem_cons_self _ (List.mem_cons_of_mem _ List.mem_cons_self)) (by decide)

end Comparing

end ToolchainUtils.Crosperf.CommonChecksum
