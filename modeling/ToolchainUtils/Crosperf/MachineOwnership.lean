import ToolchainUtils.Crosperf.ImagedMachines

set_option autoImplicit false

namespace ToolchainUtils.Crosperf.LocalMachines

open Transition

section Ownership

variable {ρ ι : Type} {imageOf : String → ι}

def HeldBy (manager : MachineManager ρ ι) (m : String) (run : ρ) : Prop := (manager.point run).machine = some m

-- The lock of a listed machine says whether a run has it, so that a release never finds
-- it open; a machine that nobody has any more, listed or not, is open.
structure Owned (manager : MachineManager ρ ι) : Prop where
  listed : ∀ m ∈ manager.machines, (manager.machine m).locked = true ↔ ∃ run, HeldBy manager m run
  unique : ∀ m run other, HeldBy manager m run → HeldBy manager m other → run = other
  ended : ∀ m, (manager.machine m).locked = true → ∃ run, HeldBy manager m run

-- Held machines are locked even while RemoveMachine has them off the list.
structure OwnedMachines (manager : MachineManager ρ ι) : Prop where
  exclusive : Exclusive manager
  ended : ∀ m, (manager.machine m).locked = true → ∃ run, HeldBy manager m run

theorem owned_machines_owned (manager : MachineManager ρ ι) (owned : OwnedMachines manager) : Owned manager where
  listed m _ := ⟨owned.ended m, fun ⟨run, held⟩ => owned.exclusive.locked run m held⟩
  unique m run other := owned.exclusive.unique run other m
  ended := owned.ended

structure Unused (manager : MachineManager ρ ι) : Prop where
  unlocked : ∀ m, (manager.machine m).locked = false
  idle : ∀ run, manager.point run = .idle

theorem unused_owned (manager : MachineManager ρ ι) (unused : Unused manager) : OwnedMachines manager := by
  have nobody : ∀ run m, (manager.point run).machine ≠ some m := fun run m held => by
    rw [unused.idle run] at held
    exact absurd held nofun
  refine ⟨⟨fun run m held => absurd held (nobody run m), fun run _ m held => absurd held (nobody run m)⟩, fun m locked => ?_⟩
  exact absurd locked (by simp [unused.unlocked m])

-- RemoveMachine has not taken the machine off the list, or another run has put it back.
def ReleasesListed (manager : MachineManager ρ ι) : Call ρ ι → Prop
  | .releaseMachine run _ => ∀ m ∈ (manager.point run).machine, m ∈ manager.machines
  | _ => True

instance decidableReleasesListed (manager : MachineManager ρ ι) : ∀ call, Decidable (ReleasesListed manager call)
  | .releaseMachine run _ => inferInstanceAs (Decidable (∀ m ∈ (manager.point run).machine, m ∈ manager.machines))
  | .acquireMachine _ | .tryToLockMachine _ _ _ | .endRound _ _ | .imageMachine _ _ _ _ | .removeMachine _ => isTrue trivial

variable [DecidableEq ρ]

theorem owned_step (label : ρ → ImageLabel ι imageOf) (locksDir : Bool) (manager : MachineManager ρ ι) (call : Call ρ ι)
    (next : MachineManager ρ ι) (owned : OwnedMachines manager) (allowed : ReleasesListed manager call)
    (taken : step label locksDir manager call = some next) : OwnedMachines next := by
  refine ⟨exclusive_step label locksDir manager call next owned.exclusive taken, fun name locked => ?_⟩
  obtain ⟨run, point, points, move⟩ := step_moves label locksDir manager call next taken
  -- A run other than the one that moves still has what it had.
  have keeps : ∀ other, other ≠ run → HeldBy manager name other → HeldBy next name other := by
    intro other apart held
    rw [HeldBy, points, Function.update_of_ne apart]
    exact held
  have own : point.machine = some name → HeldBy next name run := by
    intro holds
    rw [HeldBy, points, Function.update_self]
    exact holds
  cases move with
  | kept same locks =>
      obtain ⟨other, held⟩ := owned.ended name ((locks name).symm.trans locked)
      by_cases mine : other = run
      · subst mine
        exact ⟨other, own (same.trans held)⟩
      · exact ⟨other, keeps other mine held⟩
  | taken m holds empty free locks =>
      by_cases same : name = m
      · exact ⟨run, own (same ▸ holds)⟩
      · rw [locks, if_neg same] at locked
        obtain ⟨other, held⟩ := owned.ended name locked
        refine ⟨other, keeps other (fun mine => ?_) held⟩
        rw [HeldBy, mine, empty] at held
        exact absurd held nofun
  | released m now called held gone listed locks =>
      have apart : name ≠ m := by
        rintro rfl
        rw [locks, if_pos rfl] at locked
        exact absurd locked nofun
      rw [locks, if_neg apart] at locked
      obtain ⟨other, has⟩ := owned.ended name locked
      refine ⟨other, keeps other (fun mine => ?_) has⟩
      exact apart (Option.some.inj ((mine ▸ has : HeldBy manager name run).symm.trans held))
  | left m now called held gone missed locks =>
      subst called
      exact absurd ⟨allowed m held, owned.exclusive.locked run m held⟩ missed

-- A machine released off the list stays locked, and nobody has it.
theorem unlisted_release_shows (label : ρ → ImageLabel ι imageOf) (locksDir : Bool) (manager : MachineManager ρ ι)
    (call : Call ρ ι) (next : MachineManager ρ ι) (owned : OwnedMachines manager)
    (taken : step label locksDir manager call = some next) (after : Owned next) : ReleasesListed manager call := by
  cases call with
  | releaseMachine run now =>
      intro m held
      by_contra unlisted
      simp only [step, show (manager.point run).machine = some m from held] at taken
      split at taken
      · rw [MachineManager.releaseMachine, if_neg fun found => unlisted found.1] at taken
        obtain rfl := Option.some.inj taken
        obtain ⟨other, has⟩ := after.ended m (owned.exclusive.locked run m held)
        obtain ⟨had, apart⟩ := given_up manager _ run .idle m owned.exclusive rfl held rfl other m has
        exact apart rfl
      · cases taken
  | acquireMachine _ => trivial
  | tryToLockMachine _ _ _ => trivial
  | endRound _ _ => trivial
  | imageMachine _ _ _ _ => trivial
  | removeMachine _ => trivial

theorem machines_owned_iff (label : ρ → ImageLabel ι imageOf) (locksDir : Bool) (start finish : MachineManager ρ ι)
    (calls : List (Call ρ ι)) (unused : Unused start) (run : exec (step label locksDir) start calls = some finish) :
    Throughout (step label locksDir) Owned start calls ↔ Along (step label locksDir) ReleasesListed start calls :=
  throughout_iff_along (step label locksDir) ReleasesListed OwnedMachines Owned (owned_step label locksDir)
    owned_machines_owned (unlisted_release_shows label locksDir) calls start finish (unused_owned start unused) run

end Ownership

-- The first run finds its machine unreachable; the second run wants it next.
def unreachable : List (Call Nat String) :=
  acquireCalls 0 0 ++ [.removeMachine 0]

def reAddedFirst : List (Call Nat String) :=
  unreachable ++ [.acquireMachine 1, .tryToLockMachine 1 true none, .endRound 1 fun _ => (0, 0), .releaseMachine 0 0]

def releasedFirst : List (Call Nat String) := unreachable ++ [.releaseMachine 0 0] ++ acquireCalls 1 0

theorem one_machine_unused : Unused oneMachine := ⟨fun _ => rfl, fun _ => rfl⟩

theorem re_added_machine_is_owned : Throughout (step twoLabels true) Owned oneMachine reAddedFirst ∧
    ∃ manager, exec (step twoLabels true) oneMachine reAddedFirst = some manager ∧
      manager.machines = ["lumpy"] ∧ (manager.machine "lumpy").locked = false :=
  ⟨(machines_owned_iff twoLabels true oneMachine _ reAddedFirst one_machine_unused rfl).mpr (by decide),
    _, rfl, by decide, by decide⟩

theorem removed_machine_stays_locked : Unused oneMachine ∧
    ∃ manager, exec (step twoLabels true) oneMachine releasedFirst = some manager ∧
      manager.machines = ["lumpy"] ∧ (manager.machine "lumpy").locked = true ∧
      (∀ run, manager.point run = .idle) ∧ ¬ Owned manager := by
  refine ⟨one_machine_unused, _, rfl, by decide, by decide, ?idle, ?notOwned⟩
  case idle => exact fun run => match run with | 0 => rfl | 1 => rfl | _ + 2 => rfl
  case notOwned =>
    intro owned
    obtain ⟨run, held⟩ := owned.ended "lumpy" (by decide)
    exact absurd held (match run with | 0 => nofun | 1 => nofun | _ + 2 => nofun)

end ToolchainUtils.Crosperf.LocalMachines
