import Mathlib.Data.List.Count
import Mathlib.Data.List.Perm.Basic
import ToolchainUtils.Transition
import ToolchainUtils.Automation.MachineManager

set_option autoImplicit false

namespace ToolchainUtils.Automation

open Transition

variable {machines : Nat}

-- A machine that a call acquired, and whether exclusively.
abbrev Acquisition (machines : Nat) := Fin machines × Bool

-- `outstanding` has the acquired lists that are not returned yet. The code leaves
-- it to the callers of GetMachines.
structure Manager (machines : Nat) where
  pool : Pool machines
  outstanding : List (List (Acquisition machines))

inductive Request where
  | getMachines (specs : List MachineSpecification)
  | returnMachines (call : Nat)

def acquisitions (chosen : List (Fin machines)) (specs : List MachineSpecification) : List (Acquisition machines) :=
  chosen.zip (specs.map (·.lockRequired))

def returnable (acquired : List (Acquisition machines)) : List (Fin machines) := acquired.map Prod.fst

-- Successful calls only: a refused one returns fewer machines than specifications.
def Manager.step (manager : Manager machines) : Request → Option (Manager machines)
  | .getMachines specs => match Automation.getMachines manager.pool specs with
      | .ok (after, chosen) =>
          if chosen.length = specs.length then
            some { pool := after, outstanding := acquisitions chosen specs :: manager.outstanding }
          else none
      | .error _ => none
  | .returnMachines call => match manager.outstanding[call]? with
      | none => none
      | some held => match Automation.returnMachines manager.pool (returnable held) with
          | .ok after => some { pool := after, outstanding := manager.outstanding.eraseIdx call }
          | .error _ => none

def Manager.held (manager : Manager machines) : List (Acquisition machines) := manager.outstanding.flatten

structure UsesExact (pool : Pool machines) (held : List (Acquisition machines)) : Prop where
  uses : ∀ i, (pool i).uses = (returnable held).count i

structure LocksExact (pool : Pool machines) (held : List (Acquisition machines)) : Prop where
  alone : ∀ i, (i, true) ∈ held → (pool i).uses = 1
  locked : ∀ i, (pool i).locked = true ↔ (i, true) ∈ held

structure NoAssertionFails (manager : Manager machines) : Prop where
  getMachines : ∀ specs, ∃ result, Automation.getMachines manager.pool specs = .ok result
  returnMachines : ∀ held ∈ manager.outstanding, ∃ after, Automation.returnMachines manager.pool (returnable held) = .ok after

-- A specification with lock_required always finds some machine that nobody uses
-- among those it chooses from.
def LocksOnlyIdle : Pool machines → List MachineSpecification → Prop
  | _, [] => True
  | pool, spec :: rest =>
      (spec.lockRequired = true → candidates pool spec ≠ [] → ∃ i ∈ candidates pool spec, (pool i).uses = 0) ∧
        LocksOnlyIdle (served pool spec) rest

theorem uses_exact_perm (pool : Pool machines) (first second : List (Acquisition machines)) (same : first.Perm second)
    (exact_uses : UsesExact pool first) : UsesExact pool second :=
  ⟨fun i => (exact_uses.uses i).trans ((same.map Prod.fst).count_eq i)⟩

theorem locks_exact_perm (pool : Pool machines) (first second : List (Acquisition machines)) (same : first.Perm second)
    (exact_locks : LocksExact pool first) : LocksExact pool second :=
  ⟨fun i member => exact_locks.alone i (same.mem_iff.mpr member), fun i => (exact_locks.locked i).trans same.mem_iff⟩

theorem uses_exact_acquired (pool : Pool machines) (held : List (Acquisition machines)) (i : Fin machines) (exclusively : Bool)
    (exact_uses : UsesExact pool held) : UsesExact (acquired pool i exclusively) ((i, exclusively) :: held) := by
  constructor
  intro j
  by_cases same : j = i
  · subst same
    simp [returnable, exact_uses.uses]
  · rw [acquired_other _ _ _ _ same, exact_uses.uses j]
    simp [returnable, Ne.symm same]

theorem locks_exact_acquired (pool : Pool machines) (held : List (Acquisition machines)) (i : Fin machines) (exclusively : Bool)
    (exact_locks : LocksExact pool held) (unlocked : (pool i).locked = false)
    (idle : exclusively = true → (pool i).uses = 0) : LocksExact (acquired pool i exclusively) ((i, exclusively) :: held) := by
  have unheld : (i, true) ∉ held := fun member => by
    rw [(exact_locks.locked i).mpr member] at unlocked
    cases unlocked
  constructor
  · intro j member
    by_cases same : j = i
    · subst same
      have exclusive : exclusively = true := by simpa [unheld, eq_comm] using member
      simp [idle exclusive]
    · rw [acquired_other _ _ _ _ same]
      exact exact_locks.alone j (by simpa [same] using member)
  · intro j
    by_cases same : j = i
    · subst same
      simp [unheld, eq_comm]
    · rw [acquired_other _ _ _ _ same, exact_locks.locked j]
      simp [same]

theorem uses_exact_released (pool : Pool machines) (held : List (Acquisition machines)) (i : Fin machines) (exclusively : Bool)
    (exact_uses : UsesExact pool ((i, exclusively) :: held)) : UsesExact (released pool i) held := by
  constructor
  intro j
  have before := exact_uses.uses j
  by_cases same : j = i
  · subst same
    simp [before, returnable]
  · rw [released_other _ _ _ same, before]
    simp [returnable, Ne.symm same]

theorem locks_exact_released (pool : Pool machines) (held : List (Acquisition machines)) (i : Fin machines) (exclusively : Bool)
    (exact_uses : UsesExact pool ((i, exclusively) :: held)) (exact_locks : LocksExact pool ((i, exclusively) :: held)) :
    LocksExact (released pool i) held := by
  have uses : (pool i).uses = (returnable held).count i + 1 := by simp [exact_uses.uses, returnable]
  -- An exclusive holder is alone, so none is left when somebody else lets go.
  have none_left : (i, true) ∉ held := by
    intro member
    have alone := exact_locks.alone i (List.mem_cons_of_mem _ member)
    have counted : 0 < (returnable held).count i := List.count_pos_iff.mpr (List.mem_map.mpr ⟨_, member, rfl⟩)
    omega
  constructor
  · intro j member
    have different : j ≠ i := by
      rintro rfl
      exact none_left member
    rw [released_other _ _ _ different]
    exact exact_locks.alone j (List.mem_cons_of_mem _ member)
  · intro j
    by_cases same : j = i
    · subst same
      simp only [released_same, Bool.and_eq_true, none_left, iff_false, not_and]
      intro locked
      have alone := exact_locks.alone j ((exact_locks.locked j).mp locked)
      simp [alone]
    · rw [released_other _ _ _ same, exact_locks.locked j]
      simp [same]

theorem return_machines_exact (pool : Pool machines) (call rest : List (Acquisition machines))
    (exact_uses : UsesExact pool (call ++ rest)) :
    ∃ after, returnMachines pool (returnable call) = .ok after ∧ UsesExact after rest ∧
      (LocksExact pool (call ++ rest) → LocksExact after rest) := by
  induction call generalizing pool with
  | nil => exact ⟨pool, rfl, exact_uses, id⟩
  | cons acquisition others ih =>
      obtain ⟨i, exclusively⟩ := acquisition
      have used : (pool i).uses ≠ 0 := by
        rw [exact_uses.uses i]
        simp [returnable]
      obtain ⟨after, done, usesAfter, locksAfter⟩ := ih (released pool i) (uses_exact_released pool _ i exclusively exact_uses)
      refine ⟨after, ?_, usesAfter, fun exact_locks => locksAfter (locks_exact_released pool _ i exclusively exact_uses exact_locks)⟩
      exact (return_machines_cons pool i (returnable others) used).trans done

theorem served_some (pool : Pool machines) (spec : MachineSpecification) (i : Fin machines)
    (chosen : chooseMachine pool spec = some i) : served pool spec = acquired pool i spec.lockRequired := by
  simp only [served, chosen]

theorem served_uses_le (pool : Pool machines) (spec : MachineSpecification) (i : Fin machines) :
    (pool i).uses ≤ (served pool spec i).uses := by
  cases chosen : chooseMachine pool spec with
  | none => simp only [served, chosen, Nat.le_refl]
  | some j =>
      rw [served_some pool spec j chosen]
      by_cases same : i = j
      · subst same
        simp
      · rw [acquired_other _ _ _ _ same]

theorem served_all_uses_le (pool : Pool machines) (specs : List MachineSpecification) (i : Fin machines) :
    (pool i).uses ≤ (servedAll pool specs i).uses := by
  induction specs generalizing pool with
  | nil => exact Nat.le_refl _
  | cons spec rest ih => exact Nat.le_trans (served_uses_le pool spec i) (ih (served pool spec))

theorem served_exact (pool : Pool machines) (specs : List MachineSpecification) (held : List (Acquisition machines))
    (all : AllServed pool specs) (exact_uses : UsesExact pool held) :
    UsesExact (servedAll pool specs) (acquisitions (choices pool specs).reduceOption specs ++ held) ∧
      (LocksExact pool held → LocksOnlyIdle pool specs →
        LocksExact (servedAll pool specs) (acquisitions (choices pool specs).reduceOption specs ++ held)) := by
  induction specs generalizing pool held with
  | nil => exact ⟨exact_uses, fun exact_locks _ => exact_locks⟩
  | cons spec rest ih =>
      obtain ⟨here, later⟩ := all
      obtain ⟨i, chosen⟩ := Option.ne_none_iff_exists'.mp here
      obtain ⟨candidate, least, _, unlocked⟩ := choose_machine_spec pool spec i chosen
      have taken := served_some pool spec i chosen
      have grown := uses_exact_acquired pool held i spec.lockRequired exact_uses
      rw [← taken] at grown
      obtain ⟨uses, locks⟩ := ih (served pool spec) _ later grown
      have order : (acquisitions (choices (served pool spec) rest).reduceOption rest ++ (i, spec.lockRequired) :: held).Perm
          (acquisitions (choices pool (spec :: rest)).reduceOption (spec :: rest) ++ held) := by
        simp only [choices, chosen, List.reduceOption_cons_of_some, acquisitions, List.map_cons, List.zip_cons_cons, List.cons_append]
        exact List.perm_middle
      refine ⟨uses_exact_perm _ _ _ order uses, fun exact_locks idle => locks_exact_perm _ _ _ order (locks ?_ idle.2)⟩
      rw [taken]
      refine locks_exact_acquired pool held i spec.lockRequired exact_locks unlocked fun exclusive => ?_
      obtain ⟨j, other, unused⟩ := idle.1 exclusive (List.ne_nil_of_mem candidate)
      have bound := least j other
      omega

-- The other direction: a machine locked while in use still has two uses at the end.
theorem locks_only_idle (pool : Pool machines) (specs : List MachineSpecification) (all : AllServed pool specs)
    (alone : ∀ i, (i, true) ∈ acquisitions (choices pool specs).reduceOption specs → (servedAll pool specs i).uses = 1) :
    LocksOnlyIdle pool specs := by
  induction specs generalizing pool with
  | nil => trivial
  | cons spec rest ih =>
      obtain ⟨here, later⟩ := all
      obtain ⟨i, chosen⟩ := Option.ne_none_iff_exists'.mp here
      obtain ⟨candidate, _, _, _⟩ := choose_machine_spec pool spec i chosen
      have listed : acquisitions (choices pool (spec :: rest)).reduceOption (spec :: rest) =
          (i, spec.lockRequired) :: acquisitions (choices (served pool spec) rest).reduceOption rest := by
        simp only [choices, chosen, List.reduceOption_cons_of_some, acquisitions, List.map_cons, List.zip_cons_cons]
      refine ⟨fun exclusive _ => ⟨i, candidate, ?_⟩, ih (served pool spec) later fun j member => alone j ?_⟩
      · have single := alone i (by rw [listed, exclusive]; exact List.mem_cons_self)
        have grown := served_all_uses_le (served pool spec) rest i
        rw [served_some pool spec i chosen, acquired_same] at grown
        simp only [servedAll, List.foldl_cons, served_some pool spec i chosen] at single grown
        omega
      · rw [listed]
        exact List.mem_cons_of_mem _ member

theorem all_served_length (pool : Pool machines) (specs : List MachineSpecification) (all : AllServed pool specs) :
    (choices pool specs).reduceOption.length = specs.length := by
  induction specs generalizing pool with
  | nil => rfl
  | cons spec rest ih =>
      obtain ⟨i, chosen⟩ := Option.ne_none_iff_exists'.mp all.1
      simp [choices, chosen, List.reduceOption_cons_of_some, ih _ all.2]

-- What a successful call is, seen from the manager.
theorem get_machines_step (manager next : Manager machines) (specs : List MachineSpecification)
    (taken : manager.step (.getMachines specs) = some next) :
    AllServed manager.pool specs ∧ next = {
      pool := servedAll manager.pool specs
      outstanding := acquisitions (choices manager.pool specs).reduceOption specs :: manager.outstanding } := by
  by_cases all : AllServed manager.pool specs
  · simp only [Manager.step, get_machines_served _ _ all, all_served_length _ _ all, if_true, Option.some.injEq] at taken
    exact ⟨all, taken.symm⟩
  · obtain ⟨after, refused, _⟩ := get_machines_refused manager.pool specs all
    simp only [Manager.step, refused, List.length_nil] at taken
    split at taken
    · next empty =>
        have nothing : specs = [] := List.length_eq_zero_iff.mp empty.symm
        subst nothing
        exact absurd trivial all
    · cases taken

theorem return_machines_step (manager next : Manager machines) (call : Nat)
    (taken : manager.step (.returnMachines call) = some next) :
    ∃ held, manager.held.Perm (held ++ next.held) ∧ returnMachines manager.pool (returnable held) = .ok next.pool := by
  cases listed : manager.outstanding[call]? with
  | none => simp [Manager.step, listed] at taken
  | some held =>
      cases returned : returnMachines manager.pool (returnable held) with
      | error failure => simp [Manager.step, listed, returned] at taken
      | ok after =>
          simp only [Manager.step, listed, returned, Option.some.injEq] at taken
          subst taken
          obtain ⟨within, same⟩ := List.getElem?_eq_some_iff.mp listed
          refine ⟨held, ?_, returned⟩
          have order := (List.getElem_cons_eraseIdx_perm within).symm.flatten
          rw [same] at order
          exact order

theorem step_uses_exact (manager : Manager machines) (request : Request) (next : Manager machines)
    (exact_uses : UsesExact manager.pool manager.held) (taken : manager.step request = some next) :
    UsesExact next.pool next.held := by
  cases request with
  | getMachines specs =>
      obtain ⟨all, rfl⟩ := get_machines_step manager next specs taken
      exact (served_exact manager.pool specs manager.held all exact_uses).1
  | returnMachines call =>
      obtain ⟨held, order, returned⟩ := return_machines_step manager next call taken
      obtain ⟨after, done, uses, _⟩ := return_machines_exact manager.pool held next.held
        (uses_exact_perm _ _ _ order exact_uses)
      rw [done] at returned
      cases returned
      exact uses

theorem no_assertion_fails (manager : Manager machines) (exact_uses : UsesExact manager.pool manager.held) :
    NoAssertionFails manager := by
  constructor
  · intro specs
    by_cases all : AllServed manager.pool specs
    · exact ⟨_, get_machines_served manager.pool specs all⟩
    · obtain ⟨after, refused, _⟩ := get_machines_refused manager.pool specs all
      exact ⟨_, refused⟩
  · intro held member
    obtain ⟨before, after, split⟩ := List.append_of_mem member
    have order : manager.held.Perm (held ++ (before ++ after).flatten) := by
      rw [Manager.held, split]
      simp only [List.flatten_append, List.flatten_cons]
      exact List.perm_append_comm_assoc _ _ _
    obtain ⟨pool, done, _⟩ := return_machines_exact manager.pool held _ (uses_exact_perm _ _ _ order exact_uses)
    exact ⟨pool, done⟩

-- The same for callers that do not note what they hold exclusively.
theorem get_machines_uses_exact (pool after : Pool machines) (specs : List MachineSpecification) (chosen : List (Fin machines))
    (held : List (Acquisition machines)) (exact_uses : UsesExact pool held)
    (result : getMachines pool specs = .ok (after, chosen)) :
    UsesExact after (chosen.map (·, false) ++ held) := by
  by_cases all : AllServed pool specs
  · rw [get_machines_served pool specs all] at result
    obtain ⟨rfl, rfl⟩ : servedAll pool specs = after ∧ (choices pool specs).reduceOption = chosen := by simpa using result
    have counted := (served_exact pool specs held all exact_uses).1
    have length := all_served_length pool specs all
    constructor
    intro i
    rw [counted.uses i]
    simp only [returnable, acquisitions, List.map_append, List.map_map]
    rw [List.map_fst_zip (by simp [length])]
    simp [Function.comp_def]
  · obtain ⟨refused, is, rolled⟩ := get_machines_refused pool specs all
    rw [is] at result
    obtain ⟨rfl, rfl⟩ : refused = after ∧ [] = chosen := by simpa using result
    exact ⟨fun i => (rolled.uses i).trans (exact_uses.uses i)⟩

theorem refused_unused_same (pool after : Pool machines) (specs : List MachineSpecification)
    (result : getMachines pool specs = .ok (after, [])) (unused : ∀ i, (pool i).uses = 0) : after = pool := by
  by_cases all : AllServed pool specs
  · have length := all_served_length pool specs all
    rw [get_machines_served pool specs all] at result
    obtain ⟨rfl, nothing⟩ : servedAll pool specs = after ∧ (choices pool specs).reduceOption = [] := by simpa using result
    rw [nothing] at length
    rw [List.length_eq_zero_iff.mp length.symm]
    rfl
  · obtain ⟨refused, is, rolled⟩ := get_machines_refused pool specs all
    rw [is] at result
    obtain rfl : refused = after := by simpa using result
    funext i
    have locked : (refused i).locked = (pool i).locked := by
      rw [Bool.eq_iff_iff, rolled.locked i]
      simp [unused i]
    rw [rolled.others i, rolled.uses i, locked]

-- The bookkeeping that is wanted of the pool.
structure Exact (manager : Manager machines) : Prop where
  uses : UsesExact manager.pool manager.held
  locks : LocksExact manager.pool manager.held
  assertions : NoAssertionFails manager

def LockRequestsFindIdle (manager : Manager machines) (request : Request) : Prop :=
  ∀ specs, request = .getMachines specs → LocksOnlyIdle manager.pool specs

theorem step_exact (manager : Manager machines) (request : Request) (next : Manager machines) (holds : Exact manager)
    (idle : LockRequestsFindIdle manager request) (taken : manager.step request = some next) : Exact next := by
  have uses := step_uses_exact manager request next holds.uses taken
  refine ⟨uses, ?_, no_assertion_fails next uses⟩
  cases request with
  | getMachines specs =>
      obtain ⟨all, rfl⟩ := get_machines_step manager next specs taken
      exact (served_exact manager.pool specs manager.held all holds.uses).2 holds.locks (idle specs rfl)
  | returnMachines call =>
      obtain ⟨held, order, returned⟩ := return_machines_step manager next call taken
      obtain ⟨after, done, _, locks⟩ := return_machines_exact manager.pool held next.held
        (uses_exact_perm _ _ _ order holds.uses)
      rw [done] at returned
      cases returned
      exact locks (locks_exact_perm _ _ _ order holds.locks)

theorem exact_step_idle (manager : Manager machines) (request : Request) (next : Manager machines)
    (taken : manager.step request = some next) (holds : Exact next) : LockRequestsFindIdle manager request := by
  rintro specs rfl
  obtain ⟨all, rfl⟩ := get_machines_step manager next specs taken
  refine locks_only_idle manager.pool specs all fun i member => holds.locks.alone i ?_
  exact List.mem_append_left _ member

def idleManager (pool : Pool machines) : Manager machines := { pool := pool, outstanding := [] }

theorem idle_manager_exact (pool : Pool machines) (idle : ∀ i, (pool i).idle) : Exact (idleManager pool) := by
  have uses : UsesExact (idleManager pool).pool (idleManager pool).held := ⟨fun i => (idle i).1⟩
  refine ⟨uses, ⟨fun i member => ?_, fun i => ?_⟩, no_assertion_fails _ uses⟩
  · simp [idleManager, Manager.held] at member
  · have unlocked : (pool i).locked = false := (idle i).2
    simp [idleManager, Manager.held, unlocked]

theorem bookkeeping_exact_iff (pool : Pool machines) (idle : ∀ i, (pool i).idle) (requests : List Request)
    (finish : Manager machines) (run : exec Manager.step (idleManager pool) requests = some finish) :
    (Throughout Manager.step Exact (idleManager pool) requests ↔
      Along Manager.step LockRequestsFindIdle (idleManager pool) requests) ∧
    Throughout Manager.step (fun manager => UsesExact manager.pool manager.held ∧ NoAssertionFails manager)
      (idleManager pool) requests := by
  have start := idle_manager_exact pool idle
  constructor
  · refine throughout_iff_along Manager.step LockRequestsFindIdle Exact Exact ?_ (fun _ => id) ?_ requests _ finish start run
    · intro manager request next holds allowed taken
      exact step_exact manager request next holds allowed taken
    · intro manager request next _ taken holds
      exact exact_step_idle manager request next taken holds
  · refine throughout_mono Manager.step _ _ (fun manager uses => ⟨uses, no_assertion_fails manager uses⟩) _ requests ?_
    exact throughout_invariant Manager.step (fun manager => UsesExact manager.pool manager.held)
      (fun manager request next uses taken => step_uses_exact manager request next uses taken) requests _ start.uses

-- A shared machine is given to an exclusive holder, and stays locked when that one leaves.
theorem exclusive_holder_not_alone : ∃ manager next : Manager 1,
    exec Manager.step (idleManager linuxBox) [.getMachines [anyMachine false], .getMachines [anyMachine true]] = some manager ∧
    (0, true) ∈ manager.held ∧ (manager.pool 0).uses = 2 ∧ ¬ Exact manager ∧
    manager.step (.returnMachines 0) = some next ∧ (next.pool 0).locked = true ∧ (0, true) ∉ next.held := by
  refine ⟨_, _, rfl, by decide, by decide, fun holds => ?_, rfl, by decide, by decide⟩
  exact absurd (holds.locks.alone 0 (by decide)) (by decide)

theorem bookkeeping_exact_one_exclusive : ∃ finish : Manager 1,
    (Throughout Manager.step Exact (idleManager linuxBox) [.getMachines [anyMachine true], .returnMachines 0] ↔
      Along Manager.step LockRequestsFindIdle (idleManager linuxBox) [.getMachines [anyMachine true], .returnMachines 0]) ∧
    exec Manager.step (idleManager linuxBox) [.getMachines [anyMachine true], .returnMachines 0] = some finish :=
  ⟨_, (bookkeeping_exact_iff linuxBox (fun i => by simp [linuxBox, Machine.idle])
    [.getMachines [anyMachine true], .returnMachines 0] _ rfl).1, rfl⟩

end ToolchainUtils.Automation
