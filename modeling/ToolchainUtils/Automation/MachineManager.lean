import Mathlib.Data.List.FinRange
import Mathlib.Data.List.ReduceOption
import Mathlib.Logic.Function.Basic
import ToolchainUtils.Automation.Machine

set_option autoImplicit false

namespace ToolchainUtils.Automation

variable {machines : Nat}

-- The machine objects of the pool, named by their position in it.
abbrev Pool (machines : Nat) := Fin machines → Machine

def availablePool (pool : Pool machines) (spec : MachineSpecification) : List (Fin machines) :=
  (List.finRange machines).filter fun i => spec.isMatch (pool i)

def preferredPool (pool : Pool machines) (spec : MachineSpecification) : List (Fin machines) :=
  (availablePool pool spec).filter fun i => (pool i).hostname ∈ spec.preferredMachines

def candidates (pool : Pool machines) (spec : MachineSpecification) : List (Fin machines) :=
  if preferredPool pool spec = [] then availablePool pool spec else preferredPool pool spec

-- min(candidates, key=uses): the first of the least used.
def minByUses (pool : Pool machines) : List (Fin machines) → Option (Fin machines)
  | [] => none
  | i :: rest => match minByUses pool rest with
      | none => some i
      | some j => if (pool j).uses < (pool i).uses then some j else some i

def chooseMachine (pool : Pool machines) (spec : MachineSpecification) : Option (Fin machines) :=
  minByUses pool (candidates pool spec)

def getMachine (pool : Pool machines) (spec : MachineSpecification) :
    Except AssertionFailed (Pool machines × Option (Fin machines)) :=
  match chooseMachine pool spec with
  | none => .ok (pool, none)
  | some mach => do
      let acquired ← (pool mach).acquire spec.lockRequired
      return (Function.update pool mach acquired, some mach)

def getEach (pool : Pool machines) : List MachineSpecification →
    Except AssertionFailed (Pool machines × List (Option (Fin machines)))
  | [] => .ok (pool, [])
  | spec :: rest => do
      let first ← getMachine pool spec
      let others ← getEach first.1 rest
      return (others.1, first.2 :: others.2)

def returnMachines (pool : Pool machines) : List (Fin machines) → Except AssertionFailed (Pool machines)
  | [] => .ok pool
  | mach :: rest => do
      let released ← (pool mach).release
      returnMachines (Function.update pool mach released) rest

-- The roll back pops from the end of the list and skips every None.
def getMachines (pool : Pool machines) (requiredMachines : List MachineSpecification) :
    Except AssertionFailed (Pool machines × List (Fin machines)) := do
  let acquired ← getEach pool requiredMachines
  if acquired.2.all Option.isSome then return (acquired.1, acquired.2.reduceOption)
  else
    let rolledBack ← returnMachines acquired.1 acquired.2.reverse.reduceOption
    return (rolledBack, [])

theorem min_by_uses_some (pool : Pool machines) (list : List (Fin machines)) (nonempty : list ≠ []) :
    ∃ i, minByUses pool list = some i := by
  cases list with
  | nil => exact absurd rfl nonempty
  | cons first rest =>
      simp only [minByUses]
      cases minByUses pool rest with
      | none => exact ⟨first, rfl⟩
      | some other =>
          by_cases less : (pool other).uses < (pool first).uses
          · exact ⟨other, if_pos less⟩
          · exact ⟨first, if_neg less⟩

theorem min_by_uses_least (pool : Pool machines) (list : List (Fin machines)) (i : Fin machines)
    (chosen : minByUses pool list = some i) : i ∈ list ∧ ∀ j ∈ list, (pool i).uses ≤ (pool j).uses := by
  induction list generalizing i with
  | nil => cases chosen
  | cons first rest ih =>
      cases least : minByUses pool rest with
      | none =>
          have only : rest = [] := by
            by_contra more
            obtain ⟨other, found⟩ := min_by_uses_some pool rest more
            simp [found] at least
          simp only [minByUses, least, Option.some.injEq] at chosen
          subst chosen
          simp [only]
      | some other =>
          obtain ⟨member, bound⟩ := ih other least
          simp only [minByUses, least] at chosen
          by_cases less : (pool other).uses < (pool first).uses
          · simp only [less, if_true, Option.some.injEq] at chosen
            subst chosen
            refine ⟨List.mem_cons_of_mem first member, fun j inside => ?_⟩
            rcases List.mem_cons.mp inside with rfl | later
            · exact Nat.le_of_lt less
            · exact bound j later
          · simp only [less, if_false, Option.some.injEq] at chosen
            subst chosen
            refine ⟨List.mem_cons_self, fun j inside => ?_⟩
            rcases List.mem_cons.mp inside with rfl | later
            · exact Nat.le_refl _
            · exact Nat.le_trans (Nat.le_of_not_lt less) (bound j later)

theorem candidates_match (pool : Pool machines) (spec : MachineSpecification) (i : Fin machines)
    (candidate : i ∈ candidates pool spec) : spec.isMatch (pool i) = true := by
  have available : i ∈ availablePool pool spec := by
    unfold candidates at candidate
    split at candidate
    · exact candidate
    · exact (List.mem_filter.mp candidate).1
  exact (List.mem_filter.mp available).2

theorem choose_machine_spec (pool : Pool machines) (spec : MachineSpecification) (i : Fin machines)
    (chosen : chooseMachine pool spec = some i) :
    i ∈ candidates pool spec ∧ (∀ j ∈ candidates pool spec, (pool i).uses ≤ (pool j).uses) ∧
      spec.isMatch (pool i) = true ∧ (pool i).locked = false := by
  obtain ⟨member, least⟩ := min_by_uses_least pool _ i chosen
  have matched := candidates_match pool spec i member
  exact ⟨member, least, matched, is_match_unlocked spec (pool i) matched⟩

def acquired (pool : Pool machines) (i : Fin machines) (exclusively : Bool) : Pool machines :=
  Function.update pool i { pool i with locked := exclusively, uses := (pool i).uses + 1 }

def released (pool : Pool machines) (i : Fin machines) : Pool machines :=
  Function.update pool i { pool i with uses := (pool i).uses - 1, locked := (pool i).locked && (pool i).uses - 1 != 0 }

-- The pool after one specification was served, or found nothing.
def served (pool : Pool machines) (spec : MachineSpecification) : Pool machines :=
  match chooseMachine pool spec with
  | none => pool
  | some i => acquired pool i spec.lockRequired

def servedAll (pool : Pool machines) (specs : List MachineSpecification) : Pool machines := specs.foldl served pool

def choices : Pool machines → List MachineSpecification → List (Option (Fin machines))
  | _, [] => []
  | pool, spec :: rest => chooseMachine pool spec :: choices (served pool spec) rest

theorem get_machine_spec (pool : Pool machines) (spec : MachineSpecification) :
    getMachine pool spec = .ok (served pool spec, chooseMachine pool spec) := by
  cases chosen : chooseMachine pool spec with
  | none => simp only [getMachine, served, chosen]
  | some i =>
      have unlocked := (choose_machine_spec pool spec i chosen).2.2.2
      simp only [getMachine, served, chosen, Machine.acquire, unlocked, Bool.false_eq_true, if_false]
      rfl

theorem get_each_spec (pool : Pool machines) (specs : List MachineSpecification) :
    getEach pool specs = .ok (servedAll pool specs, choices pool specs) := by
  induction specs generalizing pool with
  | nil => rfl
  | cons spec rest ih =>
      simp only [getEach, get_machine_spec, ih, bind, Except.bind]
      rfl

theorem return_machines_cons (pool : Pool machines) (i : Fin machines) (rest : List (Fin machines))
    (used : (pool i).uses ≠ 0) : returnMachines pool (i :: rest) = returnMachines (released pool i) rest := by
  simp only [returnMachines, Machine.release, used, if_false]
  rfl

theorem return_machines_append (pool middle : Pool machines) (first second : List (Fin machines))
    (done : returnMachines pool first = .ok middle) : returnMachines pool (first ++ second) = returnMachines middle second := by
  induction first generalizing pool with
  | nil =>
      cases done
      rfl
  | cons i rest ih =>
      simp only [List.cons_append, returnMachines] at done ⊢
      cases release : (pool i).release with
      | error failure => simp [release, bind, Except.bind] at done
      | ok machine =>
          simp only [release, bind, Except.bind] at done ⊢
          exact ih _ done

@[simp] theorem acquired_same (pool : Pool machines) (i : Fin machines) (exclusively : Bool) :
    acquired pool i exclusively i = { pool i with locked := exclusively, uses := (pool i).uses + 1 } := by
  rw [acquired, Function.update_self]

@[simp] theorem acquired_other (pool : Pool machines) (i j : Fin machines) (exclusively : Bool) (different : j ≠ i) :
    acquired pool i exclusively j = pool j := by
  rw [acquired, Function.update_of_ne different]

@[simp] theorem released_same (pool : Pool machines) (i : Fin machines) :
    released pool i i =
      { pool i with uses := (pool i).uses - 1, locked := (pool i).locked && (pool i).uses - 1 != 0 } := by
  rw [released, Function.update_self]

@[simp] theorem released_other (pool : Pool machines) (i j : Fin machines) (different : j ≠ i) :
    released pool i j = pool j := by
  rw [released, Function.update_of_ne different]

-- Every specification finds a machine when its turn comes.
def AllServed : Pool machines → List MachineSpecification → Prop
  | _, [] => True
  | pool, spec :: rest => chooseMachine pool spec ≠ none ∧ AllServed (served pool spec) rest

-- Machine i is picked for a specification with lock_required.
def Locks (i : Fin machines) : Pool machines → List MachineSpecification → Prop
  | _, [] => False
  | pool, spec :: rest => (spec.lockRequired = true ∧ chooseMachine pool spec = some i) ∨ Locks i (served pool spec) rest

theorem all_served_choices (pool : Pool machines) (specs : List MachineSpecification) :
    (choices pool specs).all Option.isSome = true ↔ AllServed pool specs := by
  induction specs generalizing pool with
  | nil => simp [choices, AllServed]
  | cons spec rest ih => simp [choices, AllServed, ← ih, Option.isSome_iff_ne_none]

-- What rolling back a whole call leaves: the uses are undone, and so are the locks
-- of the machines that nobody used before.
structure RolledBack (pool : Pool machines) (specs : List MachineSpecification) (after : Pool machines) : Prop where
  uses : ∀ i, (after i).uses = (pool i).uses
  locked : ∀ i, (after i).locked = true ↔ (pool i).locked = true ∨ (Locks i pool specs ∧ (pool i).uses ≠ 0)
  others : ∀ i, after i = { pool i with uses := (after i).uses, locked := (after i).locked }

theorem rolled_back_same (pool : Pool machines) (specs : List MachineSpecification) (spec : MachineSpecification)
    (nothing : chooseMachine pool spec = none) (after : Pool machines) (rolled : RolledBack pool specs after) :
    RolledBack pool (spec :: specs) after := by
  have unserved : served pool spec = pool := by simp only [served, nothing]
  refine ⟨rolled.uses, fun i => ?_, rolled.others⟩
  simp only [Locks, nothing, unserved, reduceCtorEq, and_false, false_or]
  exact rolled.locked i

theorem rolled_back_released (pool : Pool machines) (specs : List MachineSpecification) (spec : MachineSpecification)
    (i : Fin machines) (chosen : chooseMachine pool spec = some i) (after : Pool machines)
    (rolled : RolledBack (served pool spec) specs after) : RolledBack pool (spec :: specs) (released after i) := by
  have unlocked := (choose_machine_spec pool spec i chosen).2.2.2
  have taken : served pool spec = acquired pool i spec.lockRequired := by simp only [served, chosen]
  have uses := rolled.uses
  have locked := rolled.locked
  rw [taken] at uses locked
  constructor
  · intro j
    by_cases same : j = i
    · subst same
      simp [uses]
    · simp [same, uses]
  · intro j
    simp only [Locks, chosen, taken, Option.some.injEq]
    by_cases same : j = i
    · subst same
      have lockedHere := locked j
      have usesHere := uses j
      simp only [acquired_same] at lockedHere usesHere
      simp only [released_same, usesHere, unlocked, Bool.and_eq_true, lockedHere]
      simp
    · have lockedHere := locked j
      simp only [acquired_other _ _ _ _ same] at lockedHere
      simp only [released_other _ _ _ same, lockedHere, Ne.symm same, and_false, false_or]
  · intro j
    have others := rolled.others j
    rw [taken] at others
    by_cases same : j = i
    · subst same
      rw [acquired_same] at others
      rw [released_same, others]
    · rw [acquired_other _ _ _ _ same] at others
      rw [released_other _ _ _ same]
      exact others

-- The roll back is last in, first out, so it follows the recursion of the call.
theorem roll_back_spec (pool : Pool machines) (specs : List MachineSpecification) :
    ∃ after, returnMachines (servedAll pool specs) (choices pool specs).reverse.reduceOption = .ok after ∧
      RolledBack pool specs after := by
  induction specs generalizing pool with
  | nil => exact ⟨pool, rfl, fun i => rfl, fun i => by simp [Locks], fun i => rfl⟩
  | cons spec rest ih =>
      obtain ⟨after, undone, rolled⟩ := ih (served pool spec)
      simp only [choices, servedAll, List.foldl_cons, List.reverse_cons, List.reduceOption_append] at undone ⊢
      rw [return_machines_append _ after _ _ undone]
      cases chosen : chooseMachine pool spec with
      | none =>
          have unserved : served pool spec = pool := by simp only [served, chosen]
          rw [unserved] at rolled
          exact ⟨after, rfl, rolled_back_same pool rest spec chosen after rolled⟩
      | some i =>
          have taken : served pool spec = acquired pool i spec.lockRequired := by simp only [served, chosen]
          have used : (after i).uses ≠ 0 := by
            rw [rolled.uses i, taken]
            simp
          refine ⟨released after i, ?_, rolled_back_released pool rest spec i chosen after rolled⟩
          change returnMachines after [i] = _
          rw [return_machines_cons after i [] used]
          rfl

theorem get_machines_served (pool : Pool machines) (specs : List MachineSpecification) (all : AllServed pool specs) :
    getMachines pool specs = .ok (servedAll pool specs, (choices pool specs).reduceOption) := by
  simp only [getMachines, get_each_spec, bind, Except.bind, (all_served_choices pool specs).mpr all, if_true]
  rfl

theorem get_machines_refused (pool : Pool machines) (specs : List MachineSpecification) (none : ¬ AllServed pool specs) :
    ∃ after, getMachines pool specs = .ok (after, []) ∧ RolledBack pool specs after := by
  obtain ⟨after, undone, rolled⟩ := roll_back_spec pool specs
  refine ⟨after, ?_, rolled⟩
  have refused : ¬ (choices pool specs).all Option.isSome = true := fun every => none ((all_served_choices pool specs).mp every)
  simp only [getMachines, get_each_spec, bind, Except.bind, refused, undone]
  rfl

-- One acquisition for each specification, of a machine that matches it at that time.
inductive Acquires : Pool machines → List MachineSpecification → List (Fin machines) → Pool machines → Prop where
  | nil (pool : Pool machines) : Acquires pool [] [] pool
  | cons (pool after : Pool machines) (spec : MachineSpecification) (specs : List MachineSpecification) (i : Fin machines)
      (rest : List (Fin machines)) (matched : spec.isMatch (pool i) = true)
      (others : Acquires (acquired pool i spec.lockRequired) specs rest after) :
      Acquires pool (spec :: specs) (i :: rest) after

theorem all_served_acquires (pool : Pool machines) (specs : List MachineSpecification) (all : AllServed pool specs) :
    Acquires pool specs (choices pool specs).reduceOption (servedAll pool specs) := by
  induction specs generalizing pool with
  | nil => exact .nil pool
  | cons spec rest ih =>
      obtain ⟨here, later⟩ := all
      obtain ⟨i, chosen⟩ := Option.ne_none_iff_exists'.mp here
      have taken : served pool spec = acquired pool i spec.lockRequired := by simp only [served, chosen]
      have others := ih (served pool spec) later
      simp only [choices, chosen, List.reduceOption_cons_of_some, servedAll, List.foldl_cons]
      rw [taken] at others ⊢
      exact .cons pool _ spec rest i _ (choose_machine_spec pool spec i chosen).2.2.1 others

def AllOrNothing (pool : Pool machines) (specs : List MachineSpecification) : Prop :=
  ∃ after acquisitions, getMachines pool specs = .ok (after, acquisitions) ∧
    (Acquires pool specs acquisitions after ∨
      acquisitions = [] ∧ ∀ i, (after i).uses = (pool i).uses ∧ (after i).locked = (pool i).locked)

theorem locks_unlocked (i : Fin machines) (pool : Pool machines) (specs : List MachineSpecification)
    (locks : Locks i pool specs) : (pool i).locked = false := by
  induction specs generalizing pool with
  | nil => exact locks.elim
  | cons spec rest ih =>
      rcases locks with ⟨_, chosen⟩ | later
      · exact (choose_machine_spec pool spec i chosen).2.2.2
      · cases chosen : chooseMachine pool spec with
        | none =>
            have unserved : served pool spec = pool := by simp only [served, chosen]
            rw [unserved] at later
            exact ih pool later
        | some j =>
            have taken : served pool spec = acquired pool j spec.lockRequired := by simp only [served, chosen]
            have unlocked := ih _ later
            by_cases same : i = j
            · subst same
              exact (choose_machine_spec pool spec i chosen).2.2.2
            · rw [taken, acquired_other _ _ _ _ same] at unlocked
              exact unlocked

theorem refused_all_or_nothing (pool : Pool machines) (specs : List MachineSpecification) (unserved : ¬ AllServed pool specs) :
    AllOrNothing pool specs ↔ ∀ i, Locks i pool specs → (pool i).uses = 0 := by
  obtain ⟨after, refused, rolled⟩ := get_machines_refused pool specs unserved
  constructor
  · rintro ⟨other, acquisitions, result, outcome⟩ i locks
    obtain ⟨rfl, rfl⟩ : after = other ∧ [] = acquisitions := by simpa [refused] using result
    rcases outcome with acquires | ⟨_, same⟩
    · cases acquires
      exact locks.elim
    · by_contra used
      have nowLocked := (rolled.locked i).mpr (.inr ⟨locks, used⟩)
      rw [(same i).2, locks_unlocked i pool specs locks] at nowLocked
      cases nowLocked
  · intro idle
    refine ⟨after, [], refused, .inr ⟨rfl, fun i => ⟨rolled.uses i, ?_⟩⟩⟩
    rw [Bool.eq_iff_iff, rolled.locked i]
    constructor
    · rintro (locked | ⟨locks, used⟩)
      · exact locked
      · exact absurd (idle i locks) used
    · exact .inl

theorem get_machines_all_or_nothing_iff (pool : Pool machines) (specs : List MachineSpecification) :
    AllOrNothing pool specs ↔ AllServed pool specs ∨ ∀ i, Locks i pool specs → (pool i).uses = 0 := by
  by_cases all : AllServed pool specs
  · exact ⟨fun _ => .inl all, fun _ => ⟨_, _, get_machines_served pool specs all, .inl (all_served_acquires pool specs all)⟩⟩
  · rw [refused_all_or_nothing pool specs all]
    exact ⟨.inr, fun condition => condition.resolve_left all⟩

def linuxBox : Pool 1 := fun _ => { hostname := "box", label := "pc", os := "linux", uses := 0, locked := false }

def anyMachine (lockRequired : Bool) : MachineSpecification :=
  { hostname := "*", label := "*", os := "*", lockRequired := lockRequired, preferredMachines := [] }

-- A call that also asks for a machine that does not exist leaves the shared machine locked.
theorem refused_call_keeps_lock : ∃ shared, getMachines linuxBox [anyMachine false] = .ok (shared, [0]) ∧
    ¬ AllOrNothing shared [anyMachine true, { anyMachine false with os := "chromeos" }] := by
  refine ⟨acquired linuxBox 0 false, rfl, ?_⟩
  rw [refused_all_or_nothing _ _ (by simp [AllServed]; decide)]
  intro idle
  have unused := idle 0 (.inl ⟨rfl, by decide⟩)
  simp at unused

end ToolchainUtils.Automation
