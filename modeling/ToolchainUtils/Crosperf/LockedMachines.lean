import ToolchainUtils.PyString
import ToolchainUtils.RemovingLoop

set_option autoImplicit false

namespace ToolchainUtils.Crosperf

open PyString RemovingLoop

-- experiment.remote, the remotes of its labels, and _all_machines and _machines of its
-- MachineManager; a machine is an object, equal to itself only.
structure MachineLists (labels : Nat) (μ : Type) where
  remote : List Text
  labelRemote : Fin labels → List Text
  allMachines : List μ
  machines : List μ

variable {labels : Nat} {μ : Type} [DecidableEq μ]

def notLocked (lockedMachines : List Text) (name : Text) : Bool := !lockedMachines.contains name

omit [DecidableEq μ] in
def updateMachineList (lists : MachineLists labels μ) (lockedMachines : List Text) : MachineLists labels μ :=
  { lists with
    remote := removeUnwanted (notLocked lockedMachines) lists.remote
    labelRemote := fun i => removeUnwanted (notLocked lockedMachines) (lists.labelRemote i) }

def removeNonLockedMachines (name : μ → Text) (lists : MachineLists labels μ) (lockedMachines : List Text) :
    MachineLists labels μ :=
  { lists with
    allMachines := removeUnwanted (fun m => notLocked lockedMachines (name m)) lists.allMachines
    machines := removeUnwanted (fun m => notLocked lockedMachines (name m)) lists.machines }

-- _LockAllMachines once UpdateMachines has returned lockedMachines.
def lockAllMachines (name : μ → Text) (lists : MachineLists labels μ) (lockedMachines : List Text) :
    MachineLists labels μ × Except Text Unit :=
  (removeNonLockedMachines name (updateMachineList lists lockedMachines) lockedMachines,
    if lockedMachines.length = 0 then .error "Unable to lock any machines.".toList else .ok ())

def restrict {β : Type} (name : β → Text) (lockedMachines : List Text) (items : List β) : List β :=
  items.filter fun item => lockedMachines.contains (name item)

structure ExactlyLocked (name : μ → Text) (lockedMachines : List Text) (before after : MachineLists labels μ) : Prop where
  remote : after.remote = restrict id lockedMachines before.remote
  labelRemote : ∀ i, after.labelRemote i = restrict id lockedMachines (before.labelRemote i)
  allMachines : after.allMachines = restrict name lockedMachines before.allMachines
  machines : after.machines = restrict name lockedMachines before.machines

-- No list has two neighbours that are not locked.
structure UnlockedApart (name : μ → Text) (lockedMachines : List Text) (lists : MachineLists labels μ) : Prop where
  remote : Apart (notLocked lockedMachines) lists.remote
  labelRemote : ∀ i, Apart (notLocked lockedMachines) (lists.labelRemote i)
  allMachines : Apart (fun m => notLocked lockedMachines (name m)) lists.allMachines
  machines : Apart (fun m => notLocked lockedMachines (name m)) lists.machines

theorem restricted_iff {β : Type} [DecidableEq β] (name : β → Text) (lockedMachines : List Text) (items : List β) :
    removeUnwanted (fun item => notLocked lockedMachines (name item)) items = restrict name lockedMachines items ↔
      Apart (fun item => notLocked lockedMachines (name item)) items := by
  rw [← remove_unwanted_iff]
  simp [restrict, notLocked]

theorem locked_machines_exact_iff (name : μ → Text) (lists : MachineLists labels μ) (lockedMachines : List Text) :
    ExactlyLocked name lockedMachines lists (lockAllMachines name lists lockedMachines).1 ↔
      UnlockedApart name lockedMachines lists := by
  have names := restricted_iff id lockedMachines
  have machines := restricted_iff name lockedMachines
  constructor
  · rintro ⟨remote, labelRemote, allMachines, known⟩
    exact ⟨(names _).mp remote, fun i => (names _).mp (labelRemote i), (machines _).mp allMachines, (machines _).mp known⟩
  · rintro ⟨remote, labelRemote, allMachines, known⟩
    exact ⟨(names _).mpr remote, fun i => (names _).mpr (labelRemote i), (machines _).mpr allMachines,
      (machines _).mpr known⟩

omit [DecidableEq μ] in
-- The machines that the lists name.
def MachineLists.names (name : μ → Text) (lists : MachineLists labels μ) : List Text :=
  lists.remote ++ ((List.ofFn lists.labelRemote).flatten ++ (lists.allMachines.map name ++ lists.machines.map name))

omit [DecidableEq μ] in
-- What is not locked and is never looked at by the loops.
def MachineLists.passedOver (name : μ → Text) (lists : MachineLists labels μ)
    (lockedMachines : List Text) : MachineLists labels μ where
  remote := RemovingLoop.passedOver (notLocked lockedMachines) lists.remote
  labelRemote i := RemovingLoop.passedOver (notLocked lockedMachines) (lists.labelRemote i)
  allMachines := RemovingLoop.passedOver (fun m => notLocked lockedMachines (name m)) lists.allMachines
  machines := RemovingLoop.passedOver (fun m => notLocked lockedMachines (name m)) lists.machines

omit [DecidableEq μ] in
theorem mem_names (name : μ → Text) (lists : MachineLists labels μ) (m : Text) : m ∈ lists.names name ↔
    m ∈ lists.remote ∨ (∃ i, m ∈ lists.labelRemote i) ∨ m ∈ lists.allMachines.map name ∨ m ∈ lists.machines.map name := by
  simp only [MachineLists.names, List.mem_append, List.mem_flatten, List.mem_ofFn]
  refine or_congr_right (or_congr_left ⟨?_, ?_⟩)
  · rintro ⟨_, ⟨i, rfl⟩, member⟩
    exact ⟨i, member⟩
  · rintro ⟨i, member⟩
    exact ⟨_, ⟨i, rfl⟩, member⟩

theorem mem_left {β : Type} [DecidableEq β] (name : β → Text) (lockedMachines : List Text) (items : List β) (m : Text) :
    m ∈ (removeUnwanted (fun item => notLocked lockedMachines (name item)) items).map name ↔
      m ∈ items.map name ∧ m ∈ lockedMachines ∨
        m ∈ (RemovingLoop.passedOver (fun item => notLocked lockedMachines (name item)) items).map name := by
  simp only [List.mem_map, mem_remove_unwanted, notLocked]
  constructor
  · rintro ⟨item, ⟨member, locked⟩ | member, rfl⟩
    · exact .inl ⟨⟨item, member, rfl⟩, by simpa using locked⟩
    · exact .inr ⟨item, member, rfl⟩
  · rintro (⟨⟨item, member, rfl⟩, locked⟩ | ⟨item, member, rfl⟩)
    · exact ⟨item, .inl ⟨member, by simpa using locked⟩, rfl⟩
    · exact ⟨item, .inr member, rfl⟩

-- What is left are the locked machines and what has been passed over.
theorem mem_names_left (name : μ → Text) (lists : MachineLists labels μ) (lockedMachines : List Text) (m : Text) :
    m ∈ (lockAllMachines name lists lockedMachines).1.names name ↔
      m ∈ lists.names name ∧ m ∈ lockedMachines ∨ m ∈ (lists.passedOver name lockedMachines).names name := by
  have texts : ∀ items : List Text, m ∈ removeUnwanted (notLocked lockedMachines) items ↔
      m ∈ items ∧ m ∈ lockedMachines ∨ m ∈ RemovingLoop.passedOver (notLocked lockedMachines) items := by
    intro items
    have left := mem_left id lockedMachines items m
    rwa [List.map_id, List.map_id, List.map_id] at left
  simp only [mem_names, lockAllMachines, removeNonLockedMachines, updateMachineList, MachineLists.passedOver, texts,
    mem_left name lockedMachines, exists_or, exists_and_right]
  tauto

omit [DecidableEq μ] in
-- Nothing is passed over where the lists come out right.
theorem none_passed_over_iff (name : μ → Text) (lists : MachineLists labels μ) (lockedMachines : List Text) :
    (lists.passedOver name lockedMachines).names name = [] ↔ UnlockedApart name lockedMachines lists := by
  have remotes : (List.ofFn (lists.passedOver name lockedMachines).labelRemote).flatten = [] ↔
      ∀ i, RemovingLoop.passedOver (notLocked lockedMachines) (lists.labelRemote i) = [] := by
    rw [List.flatten_eq_nil_iff]
    refine ⟨fun empty i => empty _ (List.mem_ofFn.mpr ⟨i, rfl⟩), fun empty list member => ?_⟩
    obtain ⟨i, rfl⟩ := List.mem_ofFn.mp member
    exact empty i
  rw [MachineLists.names, List.append_eq_nil_iff, List.append_eq_nil_iff, List.append_eq_nil_iff, List.map_eq_nil_iff,
    List.map_eq_nil_iff, remotes]
  simp only [MachineLists.passedOver, passed_over_none_iff]
  exact ⟨fun ⟨remote, labels, all, known⟩ => ⟨remote, labels, all, known⟩, fun ⟨remote, labels, all, known⟩ =>
    ⟨remote, labels, all, known⟩⟩

def threeMachines : MachineLists 1 Text where
  remote := ["lumpy".toList, "stumpy".toList, "bumpy".toList]
  labelRemote _ := ["lumpy".toList, "stumpy".toList]
  allMachines := ["lumpy".toList, "stumpy".toList, "bumpy".toList]
  machines := []

-- Two machines of three could not be locked, and the second one stays.
theorem unlocked_machine_stays :
    (lockAllMachines id threeMachines ["bumpy".toList]).1.remote = ["stumpy".toList, "bumpy".toList] ∧
      ¬ ExactlyLocked id ["bumpy".toList] threeMachines (lockAllMachines id threeMachines ["bumpy".toList]).1 := by
  have left : removeUnwanted (notLocked ["bumpy".toList]) threeMachines.remote = ["stumpy".toList, "bumpy".toList] := by
    simp [threeMachines, removeUnwanted, removeLoop, removeIf, notLocked]
  refine ⟨left, fun exact => ?_⟩
  have wrong := left.symm.trans exact.remote
  simp [threeMachines, restrict] at wrong

end ToolchainUtils.Crosperf
