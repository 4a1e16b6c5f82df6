import ToolchainUtils.Transition
import ToolchainUtils.Crosperf.InitialAllocation
import ToolchainUtils.Crosperf.TerminatedRuns

set_option autoImplicit false

namespace ToolchainUtils.Crosperf

open Transition

variable {labels duts runs : Nat}

-- GetAllMachines after AddMachine was called for every remote: only the reachable ones.
def reachableMachines (remote : List String) (reachable : String → Bool) : List String := remote.filter reachable

def filterRemote (label : Label) (machines : List String) : Label :=
  { label with remote := label.remote.filter fun name => name ∈ machines }

-- What is left of Experiment.__init__ for the scheduler; it raises when no machine is left.
-- The names of remote are distinct because ExperimentFactory makes a set of them.
def newExperiment (configured : Fin labels → Label) (remote : List String) (distinct : remote.Nodup)
    (reachable : String → Bool) (brLabel : Fin runs → Fin labels) (cacheHit : Fin runs → Bool) :
    Experiment labels (reachableMachines remote reachable).length runs where
  label i := filterRemote (configured i) (reachableMachines remote reachable)
  dut j := (reachableMachines remote reachable).get j
  brLabel := brLabel
  cacheHit := cacheHit
  distinct := (distinct.filter reachable).injective_get

-- ForceSameImageToAllMachines, for the labels whose machines' checksums differed: every
-- ImageMachine that does not return early leaves its label on the dut.
def forcedLabel (experiment : Experiment labels duts runs) (imaged : Fin labels → Fin duts → Bool) (dut : Fin duts) :
    Option (Fin labels) :=
  ((List.finRange labels).filter fun i => imaged i dut && experiment.dut dut ∈ (experiment.label i).remote).getLast?

section Machines

variable (configured : Fin labels → Label) (experiment : Experiment labels duts runs)

-- The experiment file lets the label run on the dut.
def MayRunOn (dut : Fin duts) (i : Fin labels) : Prop :=
  (configured i).remote = [] ∨ experiment.dut dut ∈ (configured i).remote

def NoRunsLeft (labelBrlMap : String → List (Fin runs)) (i : Fin labels) : Prop :=
  labelBrlMap (experiment.labelName i) = []

def Serves (labelBrlMap : String → List (Fin runs)) (dut : Fin duts) (i : Fin labels) : Prop :=
  MayRunOn configured experiment dut i ∨ NoRunsLeft experiment labelBrlMap i

-- A label that the experiment file gave machines keeps a reachable one, or has nothing to run.
def MachinesLeft (labelBrlMap : String → List (Fin runs)) : Prop :=
  ∀ i, (configured i).remote ≠ [] → (experiment.label i).remote = [] → NoRunsLeft experiment labelBrlMap i

-- The label that a dut turns out to carry may run on the dut, or has nothing to run.
def CarriesOwnLabel (sched : Schedv2 labels duts runs) : SchedAction duts → Prop
  | .work dut (.read checksum) _ => (sched.workers dut).point = .settingUp →
      ∀ i ∈ (List.finRange labels).find? fun i => (experiment.label i).checksum = some checksum,
        Serves configured experiment sched.labelBrlMap dut i
  | _ => True

structure OnOwnMachines (sched : Schedv2 labels duts runs) : Prop where
  executed : ∀ execution ∈ sched.executed, execution.cached = false →
    (configured (experiment.brLabel execution.br)).remote ≠ [] →
    experiment.dut execution.dut ∈ (configured (experiment.brLabel execution.br)).remote
  running : ∀ dut br, (sched.workers dut).point = .running br → (configured (experiment.brLabel br)).remote ≠ [] →
    experiment.dut dut ∈ (configured (experiment.brLabel br)).remote

def PointFits (labelBrlMap : String → List (Fin runs)) (dut : Fin duts) : WorkerPoint labels runs → Prop
  | .popping label => Serves configured experiment labelBrlMap dut label
  | .considering candidate _ => ∀ best ∈ candidate, Serves configured experiment labelBrlMap dut best.label
  | .reimaging label => Serves configured experiment labelBrlMap dut label
  | .imaging label => Serves configured experiment labelBrlMap dut label
  | .starting br => MayRunOn configured experiment dut (experiment.brLabel br)
  | .owning br => MayRunOn configured experiment dut (experiment.brLabel br)
  | .running br => MayRunOn configured experiment dut (experiment.brLabel br)
  | _ => True

structure FitsInvariant (sched : Schedv2 labels duts runs) : Prop where
  listed : ∀ name, ∀ br ∈ sched.labelBrlMap name, experiment.brLabelName br = name
  cells : ∀ i dut, sched.mim.matrix i dut ≠ .incompatible → Serves configured experiment sched.labelBrlMap dut i
  carried : ∀ dut i, sched.dutLabel dut = some i → Serves configured experiment sched.labelBrlMap dut i
  points : ∀ dut, PointFits configured experiment sched.labelBrlMap dut (sched.workers dut).point
  executed : ∀ execution ∈ sched.executed, execution.cached = false →
    MayRunOn configured experiment execution.dut (experiment.brLabel execution.br)

end Machines

section Steps

variable {configured : Fin labels → Label} {experiment : Experiment labels duts runs} {sched next : Schedv2 labels duts runs}

theorem serves_shrinks (before after : String → List (Fin runs)) (shrinks : ∀ name, before name = [] → after name = [])
    (dut : Fin duts) (i : Fin labels) (serves : Serves configured experiment before dut i) :
    Serves configured experiment after dut i :=
  serves.imp id (shrinks _)

theorem point_fits_shrinks (before after : String → List (Fin runs)) (shrinks : ∀ name, before name = [] → after name = [])
    (dut : Fin duts) (point : WorkerPoint labels runs) (fits : PointFits configured experiment before dut point) :
    PointFits configured experiment after dut point := by
  cases point with
  | popping label | reimaging label | imaging label => exact serves_shrinks before after shrinks dut label fits
  | considering candidate rest => exact fun best member => serves_shrinks before after shrinks dut _ (fits best member)
  | starting br | owning br | running br => exact fits
  | _ => trivial

theorem fits_moved (dut : Fin duts) (worker : Worker labels runs) (inv : FitsInvariant configured experiment sched)
    (moved : next.workers = Function.update sched.workers dut worker)
    (shrinks : ∀ name, next.labelBrlMap name ⊆ sched.labelBrlMap name)
    (point : PointFits configured experiment next.labelBrlMap dut worker.point)
    (cells : ∀ i other, next.mim.matrix i other ≠ .incompatible → sched.mim.matrix i other ≠ .incompatible ∨
      Serves configured experiment next.labelBrlMap other i)
    (carried : ∀ other i, next.dutLabel other = some i → sched.dutLabel other = some i ∨
      Serves configured experiment next.labelBrlMap other i)
    (executed : ∀ execution ∈ next.executed, execution ∈ sched.executed ∨ execution.cached = true ∨
      MayRunOn configured experiment execution.dut (experiment.brLabel execution.br)) :
    FitsInvariant configured experiment next := by
  have empties : ∀ name, sched.labelBrlMap name = [] → next.labelBrlMap name = [] := fun name empty =>
    List.subset_nil.mp (empty ▸ shrinks name)
  refine ⟨fun name br member => inv.listed name br (shrinks name member), fun i other marked => ?_,
    fun other i label => ?_, fun other => ?_, fun execution member fresh => ?_⟩
  · rcases cells i other marked with before | serves
    · exact serves_shrinks _ _ empties other i (inv.cells i other before)
    · exact serves
  · rcases carried other i label with before | serves
    · exact serves_shrinks _ _ empties other i (inv.carried other i before)
    · exact serves
  · by_cases same : other = dut
    · subst same
      rw [moved, Function.update_self]
      exact point
    · rw [moved, Function.update_of_ne same]
      exact point_fits_shrinks _ _ empties other _ (inv.points other)
  · rcases executed execution member with before | cached | may
    · exact inv.executed execution before fresh
    · rw [cached] at fresh
      cases fresh
    · exact may

-- Most steps of a worker change nothing else that the invariant reads.
theorem worker_fits (dut : Fin duts) (worker : Worker labels runs) (inv : FitsInvariant configured experiment sched)
    (moved : next.workers = Function.update sched.workers dut worker) (lists : next.labelBrlMap = sched.labelBrlMap)
    (mim : next.mim = sched.mim) (dutLabel : next.dutLabel = sched.dutLabel) (executed : next.executed = sched.executed)
    (point : PointFits configured experiment sched.labelBrlMap dut worker.point) :
    FitsInvariant configured experiment next := by
  refine fits_moved dut worker inv moved (fun name => ?_) (lists ▸ point) (fun i other marked => ?_) (fun other i label => ?_)
    (fun execution member => ?_)
  · rw [lists]
    exact List.Subset.refl _
  · exact Or.inl (mim ▸ marked)
  · exact Or.inl (dutLabel ▸ label)
  · exact Or.inl (executed ▸ member)

theorem go_to_fits (dut : Fin duts) (point : WorkerPoint labels runs) (inv : FitsInvariant configured experiment sched)
    (fits : PointFits configured experiment sched.labelBrlMap dut point) :
    FitsInvariant configured experiment (sched.goTo dut point) :=
  worker_fits dut { sched.workers dut with point := point } inv rfl rfl rfl rfl rfl fits

theorem relabel_fits (dut : Fin duts) (label : Option (Fin labels)) (inv : FitsInvariant configured experiment sched)
    (serves : ∀ i ∈ label, Serves configured experiment sched.labelBrlMap dut i) :
    FitsInvariant configured experiment
      { sched.goTo dut .testing with dutLabel := Function.update sched.dutLabel dut label } := by
  refine fits_moved dut { sched.workers dut with point := .testing } inv rfl (fun _ => List.Subset.refl _) trivial
    (fun _ _ marked => Or.inl marked) (fun other i carried => ?_) (fun _ member => Or.inl member)
  by_cases same : other = dut
  · subst same
    simp only [Function.update_self] at carried
    exact Or.inr (serves i carried)
  · simp only [Function.update_of_ne same] at carried
    exact Or.inl carried

theorem record_allocate_fits (dut : Fin duts) (label : Fin labels) (inv : FitsInvariant configured experiment sched)
    (serves : Serves configured experiment sched.labelBrlMap dut label) :
    FitsInvariant configured experiment
      { sched.goTo dut (.reimaging label) with mim := sched.mim.recordAllocate label dut } := by
  refine fits_moved dut { sched.workers dut with point := .reimaging label } inv rfl (fun _ => List.Subset.refl _) serves
    (fun i other marked => ?_) (fun _ _ carried => Or.inl carried) (fun _ member => Or.inl member)
  by_cases same : i = label ∧ other = dut
  · obtain ⟨rfl, rfl⟩ := same
    exact Or.inr serves
  · exact Or.inl ((set_cell_other _ _ _ _ _ _ (not_and_or.mp same)).symm.trans_ne marked)

-- Where the label that allocate goes on with comes from.
theorem consider_label_cases (manager : MachineImageManager labels duts) (dut : Fin duts) (pending : Option Nat)
    (candidate : Option (Candidate labels)) (i : Fin labels) :
    (manager.considerLabel dut pending candidate i = .take ∧ manager.matrix i dut = .allotted) ∨
      manager.considerLabel dut pending candidate i = .goOn candidate ∨
      ∃ offer : Candidate labels, manager.considerLabel dut pending candidate i = .goOn (some offer) ∧ offer.label = i ∧
        manager.matrix i dut = .blank := by
  unfold MachineImageManager.considerLabel
  by_cases none_left : pending = some 0
  · exact Or.inr (Or.inl (if_pos none_left))
  · rw [if_neg none_left]
    dsimp only
    cases cell : manager.matrix i dut with
    | allotted => exact Or.inl ⟨rfl, rfl⟩
    | blank =>
        cases candidate with
        | none => exact Or.inr (Or.inr ⟨_, rfl, rfl, rfl⟩)
        | some best =>
            dsimp only
            split
            · exact Or.inr (Or.inr ⟨_, rfl, rfl, rfl⟩)
            · exact Or.inr (Or.inl rfl)
    | incompatible => exact Or.inr (Or.inl rfl)
    | taken => exact Or.inr (Or.inl rfl)

theorem consider_next_fits (dut : Fin duts) (candidate : Option (Candidate labels)) (rest : List (Fin labels))
    (inv : FitsInvariant configured experiment sched)
    (fits : ∀ best ∈ candidate, Serves configured experiment sched.labelBrlMap dut best.label) :
    FitsInvariant configured experiment (sched.considerNext experiment dut candidate rest) := by
  cases rest with
  | nil =>
      cases candidate with
      | none => exact go_to_fits dut .leaving inv trivial
      | some best => exact record_allocate_fits dut best.label inv (fits best rfl)
  | cons i others =>
      rcases consider_label_cases sched.mim dut (some (sched.labelBrlMap (experiment.labelName i)).length) candidate i with
        ⟨takes, cell⟩ | goes | ⟨offer, goes, here, cell⟩
      · rw [consider_next_take experiment sched dut candidate i others takes]
        exact record_allocate_fits dut i inv (inv.cells i dut (by rw [cell]; nofun))
      · rw [consider_next_go_on experiment sched dut candidate candidate i others goes]
        exact go_to_fits dut _ inv fits
      · rw [consider_next_go_on experiment sched dut candidate (some offer) i others goes]
        refine go_to_fits dut _ inv fun best member => ?_
        rw [← Option.some.inj member, here]
        exact inv.cells i dut (by rw [cell]; nofun)

theorem get_cached_benchmark_run_fits (dut : Fin duts) (inv : FitsInvariant configured experiment sched) :
    FitsInvariant configured experiment (sched.getCachedBenchmarkRun dut) := by
  rw [Schedv2.getCachedBenchmarkRun]
  split
  · exact go_to_fits dut .settingUp inv trivial
  · exact worker_fits dut { sched.workers dut with point := .runningCached _ } inv rfl rfl rfl rfl rfl trivial

theorem get_benchmark_run_fits (dut : Fin duts) (inv : FitsInvariant configured experiment sched) :
    FitsInvariant configured experiment (sched.getBenchmarkRun dut) := by
  rw [Schedv2.getBenchmarkRun]
  split
  · exact go_to_fits dut .allocating inv trivial
  · split
    · exact go_to_fits dut .allocating inv trivial
    · next label carried => exact go_to_fits dut (.popping label) inv (inv.carried dut label carried)

theorem allocate_label_fits (dut : Fin duts) (inv : FitsInvariant configured experiment sched) :
    FitsInvariant configured experiment (sched.allocateLabel dut) := by
  rw [Schedv2.allocateLabel]
  split
  · exact go_to_fits dut .leaving inv trivial
  · exact go_to_fits dut _ inv fun best member => absurd member (Option.not_mem_none best)

theorem image_machine_fits (dut : Fin duts) (label : Fin labels) (imaged : Bool)
    (inv : FitsInvariant configured experiment sched) (serves : Serves configured experiment sched.labelBrlMap dut label) :
    FitsInvariant configured experiment (sched.imageMachine dut label imaged) := by
  rw [Schedv2.imageMachine]
  split
  · exact relabel_fits dut (some label) inv fun other same => Option.some.inj same ▸ serves
  · exact go_to_fits dut .leaving inv trivial

theorem pop_benchmark_run_fits (names : Function.Injective experiment.labelName) (dut : Fin duts) (label : Fin labels)
    (inv : FitsInvariant configured experiment sched) (serves : Serves configured experiment sched.labelBrlMap dut label) :
    FitsInvariant configured experiment (sched.popBenchmarkRun experiment dut label) := by
  unfold Schedv2.popBenchmarkRun
  split
  · exact go_to_fits dut .allocating inv trivial
  · rename_i br rest list
    have own : experiment.brLabel br = label :=
      names (inv.listed (experiment.labelName label) br (by rw [list]; exact List.mem_cons_self))
    have may : MayRunOn configured experiment dut (experiment.brLabel br) := by
      rw [own]
      exact serves.resolve_right fun empty => List.cons_ne_nil br rest (list.symm.trans empty)
    refine fits_moved dut { sched.workers dut with point := .starting br } inv rfl (fun name other member => ?_) may
      (fun _ _ marked => Or.inl marked) (fun _ _ carried => Or.inl carried) (fun _ member => Or.inl member)
    by_cases same : name = experiment.labelName label
    · subst same
      simp only [Function.update_self] at member
      rw [list]
      exact List.mem_cons_of_mem br member
    · simpa only [Function.update_of_ne same] using member

theorem setup_dut_label_fits (dut : Fin duts) (read : ChecksumRead) (inv : FitsInvariant configured experiment sched)
    (own : ∀ checksum, read = .read checksum →
      ∀ i ∈ (List.finRange labels).find? fun i => (experiment.label i).checksum = some checksum,
        Serves configured experiment sched.labelBrlMap dut i) :
    FitsInvariant configured experiment (sched.setupDutLabel experiment dut read) := by
  cases read with
  | raised => exact relabel_fits dut none inv nofun
  | failed => exact go_to_fits dut .testing inv trivial
  | read checksum =>
      unfold Schedv2.setupDutLabel
      dsimp only
      split
      · exact go_to_fits dut .testing inv trivial
      · rename_i i found
        exact relabel_fits dut (some i) inv fun other same => by
          rw [← Option.some.inj same]
          exact own checksum rfl i found

theorem own_benchmark_run_fits (dut : Fin duts) (br : Fin runs) (inv : FitsInvariant configured experiment sched)
    (may : MayRunOn configured experiment dut (experiment.brLabel br)) :
    FitsInvariant configured experiment (sched.ownBenchmarkRun experiment dut br) := by
  unfold Schedv2.ownBenchmarkRun
  split
  · exact worker_fits dut { sched.workers dut with point := .leaving, activeBr := none } inv rfl rfl rfl rfl rfl trivial
  · exact worker_fits dut { sched.workers dut with point := .running br, activeBr := some br } inv rfl rfl rfl rfl rfl may

theorem executed_fits (dut : Fin duts) (point : WorkerPoint labels runs) (execution : Execution labels duts runs)
    (inv : FitsInvariant configured experiment sched) (fits : PointFits configured experiment sched.labelBrlMap dut point)
    (may : execution.cached = true ∨ MayRunOn configured experiment execution.dut (experiment.brLabel execution.br)) :
    FitsInvariant configured experiment { sched.goTo dut point with executed := sched.executed ++ [execution] } := by
  refine fits_moved dut { sched.workers dut with point := point } inv rfl (fun _ => List.Subset.refl _) fits
    (fun _ _ marked => Or.inl marked) (fun _ _ carried => Or.inl carried) fun other member => ?_
  rcases List.mem_append.mp member with old | new
  · exact Or.inl old
  · rw [List.mem_singleton.mp new]
    exact Or.inr may

theorem work_fits (names : Function.Injective experiment.labelName) (dut : Fin duts) (read : ChecksumRead) (imaged : Bool)
    (inv : FitsInvariant configured experiment sched)
    (own : CarriesOwnLabel configured experiment sched (.work dut read imaged))
    (taken : sched.work experiment dut read imaged = some next) : FitsInvariant configured experiment next := by
  have here := inv.points dut
  cases work_cases experiment sched next dut read imaged taken with
  | takingCached point => exact get_cached_benchmark_run_fits dut inv
  | runningCached br point => exact executed_fits dut .takingCached _ inv trivial (Or.inl rfl)
  | settingUp point =>
      refine setup_dut_label_fits dut read inv fun checksum same => ?_
      rw [same] at own
      exact own point
  | testing point =>
      refine go_to_fits dut _ inv ?_
      split <;> trivial
  | asking point => exact get_benchmark_run_fits dut inv
  | popping label point =>
      rw [point] at here
      exact pop_benchmark_run_fits names dut label inv here
  | allocating point => exact allocate_label_fits dut inv
  | considering candidate rest point =>
      rw [point] at here
      exact consider_next_fits dut candidate rest inv here
  | reimaging label point =>
      rw [point] at here
      refine go_to_fits dut _ inv ?_
      split
      · trivial
      · exact here
  | imaging label point =>
      rw [point] at here
      exact image_machine_fits dut label imaged inv here
  | starting br point =>
      rw [point] at here
      refine go_to_fits dut _ inv ?_
      split
      · trivial
      · exact here
  | owning br point =>
      rw [point] at here
      exact own_benchmark_run_fits dut br inv here
  | running br point =>
      rw [point] at here
      exact executed_fits dut (.finishing br) _ inv trivial (Or.inr here)
  | finishing br point =>
      exact worker_fits dut { sched.workers dut with point := .testing, activeBr := none } inv rfl rfl rfl rfl rfl trivial
  | leaving point => exact worker_fits dut { sched.workers dut with point := .stopped } inv rfl rfl rfl rfl rfl trivial

theorem terminate_fits (inv : FitsInvariant configured experiment sched) (taken : sched.terminate = some next) :
    FitsInvariant configured experiment next := by
  cases terminate_cases sched next taken with
  | begins idle after =>
      subst after
      exact ⟨inv.listed, inv.cells, inv.carried, inv.points, inv.executed⟩
  | ends index walk beyond after =>
      subst after
      exact ⟨inv.listed, inv.cells, inv.carried, inv.points, inv.executed⟩
  | flags index dut walk found after =>
      subst after
      exact worker_fits dut { sched.workers dut with terminated := true } inv rfl rfl rfl rfl rfl (inv.points dut)
  | passes index dut walk idle after =>
      subst after
      exact ⟨inv.listed, inv.cells, inv.carried, inv.points, inv.executed⟩
  | stops index dut br walk active after =>
      subst after
      exact ⟨inv.listed, inv.cells, inv.carried, inv.points, inv.executed⟩

theorem fits_on_own_machines (inv : FitsInvariant configured experiment sched) : OnOwnMachines configured experiment sched where
  executed := fun execution member fresh some_machines => (inv.executed execution member fresh).resolve_left some_machines
  running := fun dut br here some_machines => by
    have fits := inv.points dut
    rw [here] at fits
    exact fits.resolve_left some_machines

end Steps

theorem step_fits (configured : Fin labels → Label) (experiment : Experiment labels duts runs)
    (names : Function.Injective experiment.labelName) (sched : Schedv2 labels duts runs) (action : SchedAction duts)
    (next : Schedv2 labels duts runs) (inv : FitsInvariant configured experiment sched)
    (own : CarriesOwnLabel configured experiment sched action) (taken : sched.step experiment action = some next) :
    FitsInvariant configured experiment next := by
  cases action with
  | work dut read imaged => exact work_fits names dut read imaged inv own taken
  | terminate => exact terminate_fits inv taken

theorem first_schedv2_fits (configured : Fin labels → Label) (experiment : Experiment labels duts runs)
    (kept : ∀ i, (experiment.label i).remote ⊆ (configured i).remote) (cached : List (Fin runs))
    (imaged : Fin labels → Fin duts → Bool)
    (left : MachinesLeft configured experiment (firstSchedv2 experiment cached (forcedLabel experiment imaged)).labelBrlMap) :
    FitsInvariant configured experiment (firstSchedv2 experiment cached (forcedLabel experiment imaged)) := by
  refine ⟨fun name br member => ?_, fun i dut marked => ?_, fun dut i carried => ?_, fun _ => trivial, nofun⟩
  · simp only [firstSchedv2, startSchedv2, List.mem_filter, decide_eq_true_eq] at member
    exact member.2.1
  · have unmarked : (newMachineImageManager experiment.label experiment.dut).matrix i dut ≠ .incompatible := fun crossed =>
      marked ((compute_initial_allocation_marks _ i dut).1.mpr crossed)
    have fits : compatible experiment.label experiment.dut i dut = true := by
      by_contra unfit
      exact unmarked (if_neg unfit)
    rcases of_decide_eq_true fits with empty | member
    · by_cases universal : (configured i).remote = []
      · exact Or.inl (Or.inl universal)
      · exact Or.inr (left i universal empty)
    · exact Or.inl (Or.inr (kept i member))
  · have member := List.mem_of_getLast? carried
    simp only [List.mem_filter, Bool.and_eq_true, decide_eq_true_eq] at member
    exact Or.inl (Or.inr (kept i member.2.2))

theorem filter_remote_kept (configured : Fin labels → Label) (remote : List String) (distinct : remote.Nodup)
    (reachable : String → Bool) (brLabel : Fin runs → Fin labels) (cacheHit : Fin runs → Bool) (i : Fin labels) :
    ((newExperiment configured remote distinct reachable brLabel cacheHit).label i).remote ⊆ (configured i).remote :=
  fun _ member => List.mem_of_mem_filter member

-- Experiment.__init__ leaves a label only names that are duts.
theorem new_experiment_listed (configured : Fin labels → Label) (remote : List String) (distinct : remote.Nodup)
    (reachable : String → Bool) (brLabel : Fin runs → Fin labels) (cacheHit : Fin runs → Bool) :
    RemotesListed (newExperiment configured remote distinct reachable brLabel cacheHit).label
      (newExperiment configured remote distinct reachable brLabel cacheHit).dut := fun _ _ member =>
  List.get_of_mem (of_decide_eq_true (List.mem_filter.mp member).2)

-- The names of the labels are distinct: the parser refuses an experiment file that uses one twice.
theorem labels_run_on_own_machines (configured : Fin labels → Label)
    (names : Function.Injective fun i => (configured i).name) (remote : List String) (distinct : remote.Nodup)
    (reachable : String → Bool) (brLabel : Fin runs → Fin labels) (cacheHit : Fin runs → Bool) (cached : List (Fin runs))
    (imaged : Fin labels → Fin (reachableMachines remote reachable).length → Bool) :
    let experiment := newExperiment configured remote distinct reachable brLabel cacheHit
    ∃ start, newSchedv2 experiment cached (forcedLabel experiment imaged) = .ok start ∧
      ∀ actions, MachinesLeft configured experiment start.labelBrlMap →
        Along (Schedv2.step experiment) (CarriesOwnLabel configured experiment) start actions →
          Throughout (Schedv2.step experiment) (OnOwnMachines configured experiment) start actions := by
  intro experiment
  have listed := new_experiment_listed configured remote distinct reachable brLabel cacheHit
  have kept := filter_remote_kept configured remote distinct reachable brLabel cacheHit
  refine ⟨_, (new_schedv2_iff experiment cached (forcedLabel experiment imaged) _).mpr ⟨listed, rfl⟩, fun actions left own => ?_⟩
  exact throughout_mono _ _ _ (fun _ => fits_on_own_machines) _ actions
    (throughout_of_along _ _ _ (step_fits configured experiment names) actions _
      (first_schedv2_fits configured experiment kept cached imaged left) own)

def lumpyOnly : Fin 1 → Label := fun _ => { name := "image1", remote := ["lumpy"], checksum := some "5f3e" }

def lumpyExperiment (reachable : String → Bool) :
    Experiment 1 (reachableMachines ["lumpy", "stumpy"] reachable).length 1 :=
  newExperiment lumpyOnly ["lumpy", "stumpy"] (by decide) reachable (fun _ => ⟨0, Nat.one_pos⟩) fun _ => false

def lumpySched (reachable : String → Bool) :
    Except String (Schedv2 1 (reachableMachines ["lumpy", "stumpy"] reachable).length 1) :=
  newSchedv2 (lumpyExperiment reachable) [] (forcedLabel (lumpyExperiment reachable) fun _ _ => false)

-- A dut with a foreign image is reimaged and executes the run.
def imageAndRun {duts : Nat} (dut : Fin duts) : List (SchedAction duts) := List.replicate 14 (.work dut .failed true)

theorem lumpy_runs_its_label : ∃ start, lumpySched (fun _ => true) = .ok start ∧
    (((exec (Schedv2.step (lumpyExperiment fun _ => true)) start (imageAndRun ⟨0, by decide⟩)).map
      fun sched => sched.executed.map fun execution => (execution.dut.val, execution.br.val)) = some [(0, 0)]) ∧
      Throughout (Schedv2.step (lumpyExperiment fun _ => true)) (OnOwnMachines lumpyOnly (lumpyExperiment fun _ => true))
        start (imageAndRun ⟨0, by decide⟩) := by
  obtain ⟨start, made, own⟩ := labels_run_on_own_machines lumpyOnly (fun _ _ _ => Subsingleton.elim _ _) ["lumpy", "stumpy"]
    (by decide) (fun _ => true) (fun _ => ⟨0, Nat.one_pos⟩) (fun _ => false) [] fun _ _ => false
  refine ⟨start, made, ?_, own (imageAndRun ⟨0, by decide⟩) (fun i _ empty => ?_) ?_⟩
  · rw [((new_schedv2_iff (lumpyExperiment fun _ => true) [] _ start).mp made).2]
    decide
  · exact absurd empty (by revert i; decide)
  · exact along_of_forall _ _ _ _ fun action member sched => by
      rw [List.eq_of_mem_replicate member]
      trivial

-- Without lumpy the label is left without machines, and goes to stumpy.
theorem label_runs_on_foreign_machine :
    ∃ start sched, lumpySched (fun name => name != "lumpy") = .ok start ∧
      exec (Schedv2.step (lumpyExperiment fun name => name != "lumpy")) start (imageAndRun ⟨0, by decide⟩) = some sched ∧
      (sched.executed.map fun execution => (lumpyExperiment fun name => name != "lumpy").dut execution.dut) = ["stumpy"] ∧
      ¬ OnOwnMachines lumpyOnly (lumpyExperiment fun name => name != "lumpy") sched := by
  have made := (new_schedv2_iff (lumpyExperiment fun name => name != "lumpy") []
    (forcedLabel (lumpyExperiment fun name => name != "lumpy") fun _ _ => false) _).mpr ⟨by decide, rfl⟩
  refine ⟨_, _, made, rfl, by decide, fun own => ?_⟩
  have misplaced := own.executed ⟨⟨0, by decide⟩, ⟨0, by decide⟩, false, some ⟨0, by decide⟩⟩ (by decide) rfl (by decide)
  exact absurd misplaced (by decide)

end ToolchainUtils.Crosperf
