import Mathlib.Algebra.BigOperators.Group.Finset.Basic
import Mathlib.Data.Fintype.Basic
import ToolchainUtils.Transition
import ToolchainUtils.Crosperf.CacheReaders
import ToolchainUtils.Crosperf.InitialAllocation
import ToolchainUtils.Crosperf.Schedv2

set_option autoImplicit false

namespace ToolchainUtils.Crosperf

open Transition

variable {labels duts runs : Nat}

-- The run that a worker was handed and has not begun, and the one it is running.
def WorkerPoint.waiting : WorkerPoint labels runs → Option (Fin runs)
  | .runningCached br => some br
  | .starting br => some br
  | .owning br => some br
  | _ => none

def WorkerPoint.busy : WorkerPoint labels runs → Option (Fin runs)
  | .running br => some br
  | _ => none

def one (held : Option (Fin runs)) (br : Fin runs) : Nat := if held = some br then 1 else 0

def Schedv2.holders (sched : Schedv2 labels duts runs) (holding : WorkerPoint labels runs → Option (Fin runs)) (br : Fin runs) : Nat :=
  ∑ dut, one (holding (sched.workers dut).point) br

def Schedv2.executedBrs (sched : Schedv2 labels duts runs) : List (Fin runs) := sched.executed.map Execution.br

def Schedv2.queued (experiment : Experiment labels duts runs) (sched : Schedv2 labels duts runs) (br : Fin runs) : Nat :=
  sched.cachedBrList.count br + (sched.labelBrlMap (experiment.brLabelName br)).count br

-- Every run is in exactly one place.
structure Accounted (experiment : Experiment labels duts runs) (sched : Schedv2 labels duts runs) : Prop where
  somewhere : ∀ br, sched.queued experiment br + sched.holders WorkerPoint.waiting br + sched.holders WorkerPoint.busy br +
    sched.executedBrs.count br = 1
  handed : ∀ br, sched.handedOut.count br =
    sched.holders WorkerPoint.waiting br + sched.holders WorkerPoint.busy br + sched.executedBrs.count br
  labelled : ∀ name, ∀ br ∈ sched.labelBrlMap name, experiment.brLabelName br = name
  unowned : ∀ br, sched.ownerThread br = none ∨ sched.queued experiment br + sched.holders WorkerPoint.waiting br = 0

theorem holders_update (sched next : Schedv2 labels duts runs) (holding : WorkerPoint labels runs → Option (Fin runs))
    (dut : Fin duts) (worker : Worker labels runs) (br : Fin runs) (moved : next.workers = Function.update sched.workers dut worker) :
    next.holders holding br + one (holding (sched.workers dut).point) br =
      sched.holders holding br + one (holding worker.point) br := by
  have others : ∑ other ∈ Finset.univ.erase dut, one (holding (next.workers other).point) br =
      ∑ other ∈ Finset.univ.erase dut, one (holding (sched.workers other).point) br := by
    refine Finset.sum_congr rfl fun other member => ?_
    rw [moved, Function.update_of_ne (Finset.ne_of_mem_erase member)]
  have after := Finset.add_sum_erase Finset.univ (fun other => one (holding (next.workers other).point) br) (Finset.mem_univ dut)
  have before := Finset.add_sum_erase Finset.univ (fun other => one (holding (sched.workers other).point) br) (Finset.mem_univ dut)
  simp only [moved, Function.update_self] at after
  simp only [moved] at others
  simp only [Schedv2.holders, moved]
  omega

-- A worker that goes on without a run changing hands.
theorem accounted_still (experiment : Experiment labels duts runs) (sched next : Schedv2 labels duts runs) (dut : Fin duts)
    (worker : Worker labels runs) (inv : Accounted experiment sched) (moved : next.workers = Function.update sched.workers dut worker)
    (waiting : worker.point.waiting = (sched.workers dut).point.waiting) (busy : worker.point.busy = (sched.workers dut).point.busy)
    (cached : next.cachedBrList = sched.cachedBrList) (lists : next.labelBrlMap = sched.labelBrlMap)
    (handed : next.handedOut = sched.handedOut) (executed : next.executed = sched.executed)
    (owner : next.ownerThread = sched.ownerThread) : Accounted experiment next := by
  have waits : ∀ br, next.holders WorkerPoint.waiting br = sched.holders WorkerPoint.waiting br := by
    intro br
    have counted := holders_update sched next WorkerPoint.waiting dut worker br moved
    rw [waiting] at counted
    omega
  have runs : ∀ br, next.holders WorkerPoint.busy br = sched.holders WorkerPoint.busy br := by
    intro br
    have counted := holders_update sched next WorkerPoint.busy dut worker br moved
    rw [busy] at counted
    omega
  have queued : ∀ br, next.queued experiment br = sched.queued experiment br := fun br => by
    rw [Schedv2.queued, cached, lists, Schedv2.queued]
  refine ⟨fun br => ?_, fun br => ?_, by rw [lists]; exact inv.labelled, fun br => ?_⟩
  · rw [waits, runs, queued, Schedv2.executedBrs, executed]
    exact inv.somewhere br
  · rw [waits, runs, handed, Schedv2.executedBrs, executed]
    exact inv.handed br
  · rw [waits, queued, owner]
    exact inv.unowned br

-- A worker takes a queued run.
theorem accounted_taken (experiment : Experiment labels duts runs) (sched next : Schedv2 labels duts runs) (dut : Fin duts)
    (worker : Worker labels runs) (taken : Fin runs) (inv : Accounted experiment sched)
    (moved : next.workers = Function.update sched.workers dut worker) (idle : (sched.workers dut).point.waiting = none)
    (still : (sched.workers dut).point.busy = none) (waiting : worker.point.waiting = some taken) (busy : worker.point.busy = none)
    (queued : ∀ br, next.queued experiment br + one (some taken) br = sched.queued experiment br)
    (labelled : ∀ name, ∀ br ∈ next.labelBrlMap name, experiment.brLabelName br = name)
    (handed : next.handedOut = sched.handedOut ++ [taken]) (executed : next.executed = sched.executed)
    (owner : next.ownerThread = sched.ownerThread) : Accounted experiment next := by
  have waits : ∀ br, next.holders WorkerPoint.waiting br = sched.holders WorkerPoint.waiting br + one (some taken) br := by
    intro br
    have counted := holders_update sched next WorkerPoint.waiting dut worker br moved
    rw [waiting, idle] at counted
    simpa [one] using counted
  have runs : ∀ br, next.holders WorkerPoint.busy br = sched.holders WorkerPoint.busy br := by
    intro br
    have counted := holders_update sched next WorkerPoint.busy dut worker br moved
    rw [busy, still] at counted
    omega
  refine ⟨fun br => ?_, fun br => ?_, labelled, fun br => ?_⟩
  · have before := inv.somewhere br
    have moves := queued br
    rw [waits, runs, Schedv2.executedBrs, executed, ← Schedv2.executedBrs]
    omega
  · have before := inv.handed br
    have new : [taken].count br = one (some taken) br := by simp [one, List.count_singleton]
    rw [waits, runs, handed, List.count_append, new, Schedv2.executedBrs, executed, ← Schedv2.executedBrs]
    omega
  · have moves := queued br
    rw [waits, owner]
    exact (inv.unowned br).imp id fun nothing => by omega

-- A worker is done with its run.
theorem accounted_executed (experiment : Experiment labels duts runs) (sched next : Schedv2 labels duts runs) (dut : Fin duts)
    (worker : Worker labels runs) (execution : Execution labels duts runs) (inv : Accounted experiment sched)
    (moved : next.workers = Function.update sched.workers dut worker)
    (held : ∀ br, one (sched.workers dut).point.waiting br + one (sched.workers dut).point.busy br = one (some execution.br) br)
    (waiting : worker.point.waiting = none) (busy : worker.point.busy = none) (cached : next.cachedBrList = sched.cachedBrList)
    (lists : next.labelBrlMap = sched.labelBrlMap) (handed : next.handedOut = sched.handedOut)
    (executed : next.executed = sched.executed ++ [execution]) (owner : next.ownerThread = sched.ownerThread) :
    Accounted experiment next := by
  have counts : ∀ br, next.executedBrs.count br = sched.executedBrs.count br + one (some execution.br) br := by
    intro br
    rw [Schedv2.executedBrs, executed, List.map_append, List.count_append]
    simp [one, List.count_singleton, Schedv2.executedBrs]
  have waits : ∀ br, next.holders WorkerPoint.waiting br + one (sched.workers dut).point.waiting br =
      sched.holders WorkerPoint.waiting br := by
    intro br
    have counted := holders_update sched next WorkerPoint.waiting dut worker br moved
    rw [waiting] at counted
    simpa [one] using counted
  have runs : ∀ br, next.holders WorkerPoint.busy br + one (sched.workers dut).point.busy br = sched.holders WorkerPoint.busy br := by
    intro br
    have counted := holders_update sched next WorkerPoint.busy dut worker br moved
    rw [busy] at counted
    simpa [one] using counted
  have queued : ∀ br, next.queued experiment br = sched.queued experiment br := fun br => by
    rw [Schedv2.queued, cached, lists, Schedv2.queued]
  refine ⟨fun br => ?_, fun br => ?_, by rw [lists]; exact inv.labelled, fun br => ?_⟩
  · have before := inv.somewhere br
    have leaves := held br
    have less := waits br
    have fewer := runs br
    rw [counts, queued]
    omega
  · have before := inv.handed br
    have leaves := held br
    have less := waits br
    have fewer := runs br
    rw [handed, counts]
    omega
  · have less := waits br
    rw [queued, owner]
    exact (inv.unowned br).imp id fun nothing => by omega

-- A worker begins its run and becomes the run's owner.
theorem accounted_owned (experiment : Experiment labels duts runs) (sched next : Schedv2 labels duts runs) (dut : Fin duts)
    (worker : Worker labels runs) (begun : Fin runs) (inv : Accounted experiment sched)
    (moved : next.workers = Function.update sched.workers dut worker) (waited : (sched.workers dut).point.waiting = some begun)
    (idle : (sched.workers dut).point.busy = none) (waiting : worker.point.waiting = none) (busy : worker.point.busy = some begun)
    (cached : next.cachedBrList = sched.cachedBrList) (lists : next.labelBrlMap = sched.labelBrlMap)
    (handed : next.handedOut = sched.handedOut) (executed : next.executed = sched.executed)
    (owner : ∀ br, br ≠ begun → next.ownerThread br = sched.ownerThread br) : Accounted experiment next := by
  have waits : ∀ br, next.holders WorkerPoint.waiting br + one (some begun) br = sched.holders WorkerPoint.waiting br := by
    intro br
    have counted := holders_update sched next WorkerPoint.waiting dut worker br moved
    rw [waiting, waited] at counted
    simpa [one] using counted
  have runs : ∀ br, next.holders WorkerPoint.busy br = sched.holders WorkerPoint.busy br + one (some begun) br := by
    intro br
    have counted := holders_update sched next WorkerPoint.busy dut worker br moved
    rw [busy, idle] at counted
    simpa [one] using counted
  have queued : ∀ br, next.queued experiment br = sched.queued experiment br := fun br => by
    rw [Schedv2.queued, cached, lists, Schedv2.queued]
  refine ⟨fun br => ?_, fun br => ?_, by rw [lists]; exact inv.labelled, fun br => ?_⟩
  · have before := inv.somewhere br
    have less := waits br
    rw [runs, queued, Schedv2.executedBrs, executed, ← Schedv2.executedBrs]
    omega
  · have before := inv.handed br
    have less := waits br
    rw [runs, handed, Schedv2.executedBrs, executed, ← Schedv2.executedBrs]
    omega
  · have less := waits br
    rw [queued]
    by_cases same : br = begun
    · have before := inv.somewhere br
      have here : one (some begun) br = 1 := by simp [one, same]
      exact .inr (by omega)
    · rw [owner br same]
      exact (inv.unowned br).imp id fun nothing => by omega

-- Every label this dut was allocated is done with, but for the one it may be busy with.
def DoneBut (experiment : Experiment labels duts runs) (sched : Schedv2 labels duts runs) (dut : Fin duts)
    (current : Option (Fin labels)) : Prop :=
  ∀ i, sched.mim.matrix i dut = .taken → sched.labelBrlMap (experiment.labelName i) = [] ∨ current = some i

def Carries (experiment : Experiment labels duts runs) (sched : Schedv2 labels duts runs) (dut : Fin duts) (br : Fin runs) : Prop :=
  ∃ label, sched.dutLabel dut = some label ∧ experiment.labelName label = experiment.brLabelName br

-- What holds of a dut while its worker is at a point.
def WorkerAt (experiment : Experiment labels duts runs) (sched : Schedv2 labels duts runs) (dut : Fin duts) :
    WorkerPoint labels runs → Prop
  | .takingCached => DoneBut experiment sched dut none
  | .runningCached _ => DoneBut experiment sched dut none
  | .settingUp => sched.cachedBrList = [] ∧ DoneBut experiment sched dut none
  | .testing => sched.cachedBrList = [] ∧ DoneBut experiment sched dut (sched.dutLabel dut)
  | .asking => sched.cachedBrList = [] ∧ DoneBut experiment sched dut (sched.dutLabel dut)
  | .popping label => sched.cachedBrList = [] ∧ DoneBut experiment sched dut (some label) ∧ sched.dutLabel dut = some label
  | .allocating => sched.cachedBrList = [] ∧ DoneBut experiment sched dut none
  | .considering candidate rest => sched.cachedBrList = [] ∧ DoneBut experiment sched dut none ∧
      (candidate = none → ∀ i, i ∈ rest ∨ sched.labelBrlMap (experiment.labelName i) = [] ∨ sched.mim.matrix i dut = .incompatible)
  | .reimaging label => sched.cachedBrList = [] ∧ DoneBut experiment sched dut (some label)
  | .imaging label => sched.cachedBrList = [] ∧ DoneBut experiment sched dut (some label)
  | .starting br => sched.cachedBrList = [] ∧ DoneBut experiment sched dut (sched.dutLabel dut) ∧ Carries experiment sched dut br
  | .owning br => sched.cachedBrList = [] ∧ DoneBut experiment sched dut (sched.dutLabel dut) ∧ Carries experiment sched dut br
  | .running br => sched.cachedBrList = [] ∧ DoneBut experiment sched dut (sched.dutLabel dut) ∧ Carries experiment sched dut br
  | .finishing _ => sched.cachedBrList = [] ∧ DoneBut experiment sched dut (sched.dutLabel dut)
  | .leaving => sched.cachedBrList = [] ∧
      ∀ i, compatible experiment.label experiment.dut i dut = true → sched.labelBrlMap (experiment.labelName i) = []
  | .stopped => sched.cachedBrList = [] ∧
      ∀ i, compatible experiment.label experiment.dut i dut = true → sched.labelBrlMap (experiment.labelName i) = []

structure Tracked (experiment : Experiment labels duts runs) (sched : Schedv2 labels duts runs) : Prop where
  accounted : Accounted experiment sched
  workers : ∀ dut, WorkerAt experiment sched dut (sched.workers dut).point
  cells : ∀ i dut, sched.mim.matrix i dut = .incompatible → compatible experiment.label experiment.dut i dut = false
  onLabel : ∀ execution ∈ sched.executed, execution.cached = false →
    ∃ label, execution.label = some label ∧ experiment.labelName label = experiment.brLabelName execution.br
  calm : sched.terminated = false ∧ ∀ dut, (sched.workers dut).terminated = false
  asserted : sched.assertionFailed = false

-- The lists only shrink, and what belongs to this dut stays.
structure Frame (sched next : Schedv2 labels duts runs) (dut : Fin duts) : Prop where
  cached : sched.cachedBrList = [] → next.cachedBrList = []
  lists : ∀ name, sched.labelBrlMap name = [] → next.labelBrlMap name = []
  cells : ∀ i, next.mim.matrix i dut = sched.mim.matrix i dut
  label : next.dutLabel dut = sched.dutLabel dut

theorem done_but_frame (experiment : Experiment labels duts runs) (sched next : Schedv2 labels duts runs) (dut : Fin duts)
    (current : Option (Fin labels)) (frame : Frame sched next dut) (done : DoneBut experiment sched dut current) :
    DoneBut experiment next dut current := by
  intro i taken
  rw [frame.cells] at taken
  exact (done i taken).imp_left (frame.lists _)

theorem worker_at_frame (experiment : Experiment labels duts runs) (sched next : Schedv2 labels duts runs) (dut : Fin duts)
    (point : WorkerPoint labels runs) (frame : Frame sched next dut) (held : WorkerAt experiment sched dut point) :
    WorkerAt experiment next dut point := by
  have done := fun current => done_but_frame experiment sched next dut current frame
  cases point with
  | takingCached | runningCached => exact done none held
  | settingUp | allocating => exact ⟨frame.cached held.1, done none held.2⟩
  | testing | asking | finishing => exact ⟨frame.cached held.1, by rw [frame.label]; exact done _ held.2⟩
  | popping label => exact ⟨frame.cached held.1, done _ held.2.1, frame.label.trans held.2.2⟩
  | considering candidate rest =>
      refine ⟨frame.cached held.1, done none held.2.1, fun none_yet i => ?_⟩
      rw [frame.cells]
      exact (held.2.2 none_yet i).imp id (Or.imp_left (frame.lists _))
  | reimaging label | imaging label => exact ⟨frame.cached held.1, done _ held.2⟩
  | starting br | owning br | running br =>
      obtain ⟨cached, before, carries⟩ := held
      rw [← frame.label] at before
      refine ⟨frame.cached cached, done _ before, ?_⟩
      rw [Carries, frame.label]
      exact carries
  | leaving | stopped => exact ⟨frame.cached held.1, fun i fits => frame.lists _ (held.2 i fits)⟩

theorem tracked_moved (experiment : Experiment labels duts runs) (sched next : Schedv2 labels duts runs) (dut : Fin duts)
    (worker : Worker labels runs) (inv : Tracked experiment sched) (moved : next.workers = Function.update sched.workers dut worker)
    (accounted : Accounted experiment next) (frames : ∀ other, other ≠ dut → Frame sched next other)
    (here : WorkerAt experiment next dut worker.point) (going : worker.terminated = false)
    (cells : ∀ i other, next.mim.matrix i other = .incompatible → sched.mim.matrix i other = .incompatible)
    (onLabel : ∀ execution ∈ next.executed, execution.cached = false →
      ∃ label, execution.label = some label ∧ experiment.labelName label = experiment.brLabelName execution.br)
    (terminated : next.terminated = sched.terminated) (asserted : next.assertionFailed = sched.assertionFailed) :
    Tracked experiment next := by
  refine ⟨accounted, fun other => ?_, fun i other crossed => inv.cells i other (cells i other crossed), onLabel,
    ⟨terminated.trans inv.calm.1, fun other => ?_⟩, asserted.trans inv.asserted⟩
  · by_cases same : other = dut
    · subst same
      rw [moved, Function.update_self]
      exact here
    · rw [moved, Function.update_of_ne same]
      exact worker_at_frame experiment sched next other _ (frames other same) (inv.workers other)
  · by_cases same : other = dut
    · subst same
      rw [moved, Function.update_self]
      exact going
    · rw [moved, Function.update_of_ne same]
      exact inv.calm.2 other

theorem frame_same (sched next : Schedv2 labels duts runs) (dut : Fin duts) (cached : next.cachedBrList = sched.cachedBrList)
    (lists : next.labelBrlMap = sched.labelBrlMap) (mim : next.mim = sched.mim) (label : next.dutLabel dut = sched.dutLabel dut) :
    Frame sched next dut :=
  ⟨fun empty => cached.trans empty, fun name empty => by rw [lists]; exact empty, fun i => by rw [mim], label⟩

theorem go_to_tracked (experiment : Experiment labels duts runs) (sched : Schedv2 labels duts runs) (dut : Fin duts)
    (point : WorkerPoint labels runs) (inv : Tracked experiment sched) (waiting : point.waiting = (sched.workers dut).point.waiting)
    (busy : point.busy = (sched.workers dut).point.busy) (here : WorkerAt experiment sched dut point) :
    Tracked experiment (sched.goTo dut point) := by
  have same := fun other => frame_same sched (sched.goTo dut point) other rfl rfl rfl rfl
  exact tracked_moved experiment sched _ dut { sched.workers dut with point := point } inv rfl
    (accounted_still experiment sched _ dut _ inv.accounted rfl waiting busy rfl rfl rfl rfl rfl) (fun other _ => same other)
    (worker_at_frame experiment sched _ dut point (same dut) here) (inv.calm.2 dut) (fun _ _ => id) inv.onLabel rfl rfl

-- The worker changes its own dut's label, at a point that depends on the new one.
theorem relabel_tracked (experiment : Experiment labels duts runs) (sched : Schedv2 labels duts runs) (dut : Fin duts)
    (label : Option (Fin labels)) (inv : Tracked experiment sched) (waiting : (sched.workers dut).point.waiting = none)
    (busy : (sched.workers dut).point.busy = none) (cached : sched.cachedBrList = []) (done : DoneBut experiment sched dut label) :
    Tracked experiment { sched.goTo dut .testing with dutLabel := Function.update sched.dutLabel dut label } := by
  refine tracked_moved experiment sched _ dut { sched.workers dut with point := .testing } inv rfl
    (accounted_still experiment sched _ dut _ inv.accounted rfl waiting.symm busy.symm rfl rfl rfl rfl rfl) (fun other apart => ?_)
    ⟨cached, ?_⟩ (inv.calm.2 dut) (fun _ _ => id) inv.onLabel rfl rfl
  · exact frame_same sched _ other rfl rfl rfl (Function.update_of_ne apart _ _)
  · simp only [Function.update_self]
    exact done

theorem done_but_weaken (experiment : Experiment labels duts runs) (sched : Schedv2 labels duts runs) (dut : Fin duts)
    (current : Option (Fin labels)) (done : DoneBut experiment sched dut none) : DoneBut experiment sched dut current :=
  fun i taken => .inl ((done i taken).resolve_right nofun)

theorem get_cached_benchmark_run_tracked (experiment : Experiment labels duts runs) (sched : Schedv2 labels duts runs) (dut : Fin duts)
    (inv : Tracked experiment sched) (point : (sched.workers dut).point = .takingCached) :
    Tracked experiment (sched.getCachedBenchmarkRun dut) := by
  have here := inv.workers dut
  rw [point] at here
  unfold Schedv2.getCachedBenchmarkRun
  cases last : sched.cachedBrList.getLast? with
  | none =>
      exact go_to_tracked experiment sched dut .settingUp inv (by rw [point]; rfl) (by rw [point]; rfl)
        ⟨List.getLast?_eq_none_iff.mp last, here⟩
  | some br =>
      have split : sched.cachedBrList = sched.cachedBrList.dropLast ++ [br] := (List.dropLast_append_getLast? br last).symm
      have shrinks : sched.cachedBrList = [] → sched.cachedBrList.dropLast = [] := fun empty => by simp [empty]
      have frame : ∀ other, Frame sched { sched.goTo dut (.runningCached br) with
          cachedBrList := sched.cachedBrList.dropLast, handedOut := sched.handedOut ++ [br] } other :=
        fun other => ⟨shrinks, fun _ => id, fun _ => rfl, rfl⟩
      refine tracked_moved experiment sched _ dut { sched.workers dut with point := .runningCached br } inv rfl
        (accounted_taken experiment sched _ dut _ br inv.accounted rfl (by rw [point]; rfl) (by rw [point]; rfl) rfl rfl (fun other => ?_)
          inv.accounted.labelled rfl rfl rfl)
        (fun other _ => frame other) (done_but_frame experiment sched _ dut none (frame dut) here) (inv.calm.2 dut) (fun _ _ => id)
        inv.onLabel rfl rfl
      have counted : sched.cachedBrList.count other = sched.cachedBrList.dropLast.count other + [br].count other := by
        conv_lhs => rw [split]
        exact List.count_append
      simp only [Schedv2.queued, Schedv2.goTo, Schedv2.setWorker, one, List.count_singleton, beq_iff_eq, Option.some.injEq] at counted ⊢
      omega

theorem run_cached_tracked (experiment : Experiment labels duts runs) (sched : Schedv2 labels duts runs) (dut : Fin duts) (br : Fin runs)
    (inv : Tracked experiment sched) (point : (sched.workers dut).point = .runningCached br) :
    Tracked experiment (sched.runCached dut br) := by
  have here := inv.workers dut
  rw [point] at here
  refine tracked_moved experiment sched _ dut { sched.workers dut with point := .takingCached } inv rfl
    (accounted_executed experiment sched _ dut _ { dut := dut, br := br, cached := true, label := sched.dutLabel dut } inv.accounted rfl
      (fun other => by rw [point]; rfl) rfl rfl rfl rfl rfl rfl rfl)
    (fun other _ => frame_same sched _ other rfl rfl rfl rfl) here (inv.calm.2 dut) (fun _ _ => id) (fun execution member fresh => ?_) rfl rfl
  rcases List.mem_append.mp member with old | new
  · exact inv.onLabel execution old fresh
  · rw [List.mem_singleton.mp new] at fresh
    cases fresh

theorem setup_dut_label_tracked (experiment : Experiment labels duts runs) (sched : Schedv2 labels duts runs) (dut : Fin duts)
    (read : ChecksumRead) (inv : Tracked experiment sched) (point : (sched.workers dut).point = .settingUp) :
    Tracked experiment (sched.setupDutLabel experiment dut read) := by
  have here := inv.workers dut
  rw [point] at here
  obtain ⟨cached, done⟩ := here
  have relabels := fun label => relabel_tracked experiment sched dut label inv (by rw [point]; rfl) (by rw [point]; rfl) cached
    (done_but_weaken experiment sched dut label done)
  have stays : Tracked experiment (sched.goTo dut .testing) :=
    go_to_tracked experiment sched dut .testing inv (by rw [point]; rfl) (by rw [point]; rfl)
      ⟨cached, done_but_weaken experiment sched dut _ done⟩
  cases read with
  | raised => exact relabels none
  | failed => exact stays
  | read checksum =>
      unfold Schedv2.setupDutLabel
      dsimp only
      split
      · exact stays
      · exact relabels _

theorem get_benchmark_run_tracked (experiment : Experiment labels duts runs) (sched : Schedv2 labels duts runs) (dut : Fin duts)
    (inv : Tracked experiment sched) (point : (sched.workers dut).point = .asking) : Tracked experiment (sched.getBenchmarkRun dut) := by
  have here := inv.workers dut
  rw [point] at here
  obtain ⟨cached, done⟩ := here
  unfold Schedv2.getBenchmarkRun
  rw [inv.calm.1, if_neg (by simp)]
  cases label : sched.dutLabel dut with
  | none =>
      rw [label] at done
      exact go_to_tracked experiment sched dut .allocating inv (by rw [point]; rfl) (by rw [point]; rfl) ⟨cached, done⟩
  | some current =>
      rw [label] at done
      exact go_to_tracked experiment sched dut (.popping current) inv (by rw [point]; rfl) (by rw [point]; rfl) ⟨cached, done, label⟩

theorem pop_benchmark_run_tracked (experiment : Experiment labels duts runs) (sched : Schedv2 labels duts runs) (dut : Fin duts)
    (label : Fin labels) (inv : Tracked experiment sched) (point : (sched.workers dut).point = .popping label) :
    Tracked experiment (sched.popBenchmarkRun experiment dut label) := by
  have here := inv.workers dut
  rw [point] at here
  obtain ⟨cached, done, current⟩ := here
  unfold Schedv2.popBenchmarkRun
  cases list : sched.labelBrlMap (experiment.labelName label) with
  | nil =>
      refine go_to_tracked experiment sched dut .allocating inv (by rw [point]; rfl) (by rw [point]; rfl) ⟨cached, fun i taken => .inl ?_⟩
      rcases done i taken with empty | same
      · exact empty
      · rw [← Option.some.inj same]
        exact list
  | cons br rest =>
      have labelled := inv.accounted.labelled (experiment.labelName label)
      rw [list] at labelled
      have own : experiment.brLabelName br = experiment.labelName label := labelled br List.mem_cons_self
      obtain ⟨next, is⟩ : ∃ next, next = { sched.goTo dut (.starting br) with
          labelBrlMap := Function.update sched.labelBrlMap (experiment.labelName label) rest
          handedOut := sched.handedOut ++ [br] } := ⟨_, rfl⟩
      have frame : ∀ other, Frame sched next other := by
        intro other
        refine ⟨fun empty => by rw [is]; exact empty, fun name empty => ?_, fun _ => by rw [is]; rfl, by rw [is]; rfl⟩
        have different : name ≠ experiment.labelName label := by
          rintro rfl
          rw [list] at empty
          cases empty
        rw [is]
        exact (Function.update_of_ne different _ _).trans empty
      have accounted : Accounted experiment next := by
        refine accounted_taken experiment sched next dut { sched.workers dut with point := .starting br } br inv.accounted
          (by rw [is]; rfl) (by rw [point]; rfl) (by rw [point]; rfl) rfl rfl (fun other => ?_) (fun name other member => ?_)
          (by rw [is]) (by rw [is]; rfl) (by rw [is]; rfl)
        · rw [is]
          simp only [Schedv2.queued, Schedv2.goTo, Schedv2.setWorker]
          by_cases same : experiment.brLabelName other = experiment.labelName label
          · rw [same, Function.update_self, list, List.count_cons]
            simp only [one, beq_iff_eq, Option.some.injEq]
            omega
          · have apart : br ≠ other := fun is_other => same (is_other ▸ own)
            simp [Function.update_of_ne same, one, apart]
        · simp only [is] at member
          by_cases same : name = experiment.labelName label
          · subst same
            rw [Function.update_self] at member
            exact labelled other (List.mem_cons_of_mem _ member)
          · rw [Function.update_of_ne same] at member
            exact inv.accounted.labelled name other member
      suffices tracked : Tracked experiment next by
        rw [is] at tracked
        exact tracked
      refine tracked_moved experiment sched next dut { sched.workers dut with point := .starting br } inv (by rw [is]; rfl) accounted
        (fun other _ => frame other) ⟨(frame dut).cached cached, ?_, label, (frame dut).label.trans current, own.symm⟩ (inv.calm.2 dut)
        (fun _ _ crossed => by rw [is] at crossed; exact crossed) (by rw [is]; exact inv.onLabel) (by rw [is]; rfl) (by rw [is]; rfl)
      rw [(frame dut).label, current]
      exact done_but_frame experiment sched next dut (some label) (frame dut) done

theorem allocate_label_tracked (experiment : Experiment labels duts runs) (sched : Schedv2 labels duts runs) (dut : Fin duts)
    (inv : Tracked experiment sched) (point : (sched.workers dut).point = .allocating) : Tracked experiment (sched.allocateLabel dut) := by
  have here := inv.workers dut
  rw [point] at here
  unfold Schedv2.allocateLabel
  rw [inv.calm.1, if_neg (by simp)]
  exact go_to_tracked experiment sched dut _ inv (by rw [point]; rfl) (by rw [point]; rfl)
    ⟨here.1, here.2, fun _ i => .inl (List.mem_finRange i)⟩

theorem record_allocate_tracked (experiment : Experiment labels duts runs) (sched : Schedv2 labels duts runs) (dut : Fin duts)
    (label : Fin labels) (inv : Tracked experiment sched) (waiting : (sched.workers dut).point.waiting = none)
    (busy : (sched.workers dut).point.busy = none) (cached : sched.cachedBrList = []) (done : DoneBut experiment sched dut none) :
    Tracked experiment { sched.goTo dut (.reimaging label) with mim := sched.mim.recordAllocate label dut } := by
  refine tracked_moved experiment sched _ dut { sched.workers dut with point := .reimaging label } inv rfl
    (accounted_still experiment sched _ dut _ inv.accounted rfl waiting.symm busy.symm rfl rfl rfl rfl rfl) (fun other apart => ?_)
    ⟨cached, fun i taken => ?_⟩ (inv.calm.2 dut) (fun i other crossed => ?_) inv.onLabel rfl rfl
  · exact ⟨id, fun _ => id, fun i => set_cell_other _ _ _ _ _ _ (.inr apart), rfl⟩
  · by_cases same : label = i
    · exact .inr (by rw [same])
    · have before : sched.mim.matrix i dut = .taken := (set_cell_other _ _ _ _ _ _ (.inl (Ne.symm same))).symm.trans taken
      exact .inl ((done i before).resolve_right nofun)
  · by_cases same : i = label ∧ other = dut
    · obtain ⟨rfl, rfl⟩ := same
      have marked := (set_cell_same sched.mim.matrix i other .taken).symm.trans crossed
      cases marked
    · exact (set_cell_other _ _ _ _ _ _ (not_and_or.mp same)).symm.trans crossed

-- Going on without a candidate means that this label needs nobody or does not fit.
theorem consider_label_none (manager : MachineImageManager labels duts) (dut : Fin duts) (pending : Nat)
    (candidate : Option (Candidate labels)) (i : Fin labels)
    (considered : manager.considerLabel dut (some pending) candidate i = .goOn none) :
    candidate = none ∧ (pending = 0 ∨ manager.matrix i dut = .incompatible ∨ manager.matrix i dut = .taken) := by
  unfold MachineImageManager.considerLabel at considered
  by_cases empty : pending = 0
  · rw [if_pos (by rw [empty])] at considered
    exact ⟨Considered.goOn.inj considered, .inl empty⟩
  · rw [if_neg (by simp [empty])] at considered
    dsimp only at considered
    cases cell : manager.matrix i dut with
    | blank =>
        rw [cell] at considered
        cases candidate with
        | none => cases considered
        | some best =>
            dsimp only at considered
            split at considered <;> cases considered
    | allotted => simp [cell] at considered
    | incompatible | taken =>
        rw [cell] at considered
        cases candidate with
        | none => exact ⟨rfl, by simp⟩
        | some best => cases considered

theorem consider_next_tracked (experiment : Experiment labels duts runs) (sched : Schedv2 labels duts runs) (dut : Fin duts)
    (candidate : Option (Candidate labels)) (rest : List (Fin labels)) (inv : Tracked experiment sched)
    (point : (sched.workers dut).point = .considering candidate rest) :
    Tracked experiment (sched.considerNext experiment dut candidate rest) := by
  have here := inv.workers dut
  rw [point] at here
  obtain ⟨cached, done, considered⟩ := here
  have records := fun label => record_allocate_tracked experiment sched dut label inv (by rw [point]; rfl) (by rw [point]; rfl) cached done
  cases rest with
  | nil =>
      cases candidate with
      | none =>
          refine go_to_tracked experiment sched dut .leaving inv (by rw [point]; rfl) (by rw [point]; rfl) ⟨cached, fun i fits => ?_⟩
          rcases considered rfl i with member | empty | crossed
          · exact absurd member List.not_mem_nil
          · exact empty
          · rw [inv.cells i dut crossed] at fits
            cases fits
      | some best => exact records best.label
  | cons i others =>
      cases result : sched.mim.considerLabel dut (some (sched.labelBrlMap (experiment.labelName i)).length) candidate i with
      | take =>
          rw [consider_next_take experiment sched dut candidate i others result]
          exact records i
      | goOn next =>
          rw [consider_next_go_on experiment sched dut candidate next i others result]
          refine go_to_tracked experiment sched dut _ inv (by rw [point]; rfl) (by rw [point]; rfl) ⟨cached, done, ?_⟩
          rintro rfl other
          obtain ⟨none_yet, reason⟩ := consider_label_none sched.mim dut _ candidate i result
          rcases considered none_yet other with member | settled
          · rcases List.mem_cons.mp member with rfl | later
            · rcases reason with empty | crossed | taken
              · exact .inr (.inl (List.eq_nil_of_length_eq_zero empty))
              · exact .inr (.inr crossed)
              · exact .inr (.inl ((done other taken).resolve_right nofun))
            · exact .inl later
          · exact .inr settled

theorem waiting_counted (sched : Schedv2 labels duts runs) (dut : Fin duts) (br : Fin runs)
    (waits : (sched.workers dut).point.waiting = some br) : 0 < sched.holders WorkerPoint.waiting br := by
  have counted := Finset.add_sum_erase Finset.univ (fun other => one (sched.workers other).point.waiting br) (Finset.mem_univ dut)
  have here : one (sched.workers dut).point.waiting br = 1 := by rw [waits, one, if_pos rfl]
  simp only [here] at counted
  rw [Schedv2.holders]
  omega

theorem own_benchmark_run_tracked (experiment : Experiment labels duts runs) (sched : Schedv2 labels duts runs) (dut : Fin duts)
    (br : Fin runs) (inv : Tracked experiment sched) (point : (sched.workers dut).point = .owning br) :
    Tracked experiment (sched.ownBenchmarkRun experiment dut br) := by
  have here := inv.workers dut
  rw [point] at here
  have waits : (sched.workers dut).point.waiting = some br := by rw [point]; rfl
  have unowned : sched.ownerThread br = none := by
    have waiting := waiting_counted sched dut br waits
    exact (inv.accounted.unowned br).resolve_right (by omega)
  unfold Schedv2.ownBenchmarkRun
  rw [unowned]
  exact tracked_moved experiment sched _ dut { sched.workers dut with point := .running br, activeBr := some br } inv rfl
    (accounted_owned experiment sched _ dut _ br inv.accounted rfl waits (by rw [point]; rfl) rfl rfl rfl rfl rfl rfl
      fun other apart => Function.update_of_ne apart _ _)
    (fun other _ => frame_same sched _ other rfl rfl rfl rfl) here (inv.calm.2 dut) (fun _ _ => id) inv.onLabel rfl rfl

theorem run_benchmark_tracked (experiment : Experiment labels duts runs) (sched : Schedv2 labels duts runs) (dut : Fin duts)
    (br : Fin runs) (inv : Tracked experiment sched) (point : (sched.workers dut).point = .running br) :
    Tracked experiment (sched.runBenchmark dut br) := by
  have here := inv.workers dut
  rw [point] at here
  obtain ⟨cached, done, carries⟩ := here
  refine tracked_moved experiment sched _ dut { sched.workers dut with point := .finishing br } inv rfl
    (accounted_executed experiment sched _ dut _ { dut := dut, br := br, cached := false, label := sched.dutLabel dut } inv.accounted rfl
      (fun other => by rw [point]; exact Nat.zero_add _) rfl rfl rfl rfl rfl rfl rfl)
    (fun other _ => frame_same sched _ other rfl rfl rfl rfl) ⟨cached, done⟩ (inv.calm.2 dut) (fun _ _ => id)
    (fun execution member fresh => ?_) rfl rfl
  rcases List.mem_append.mp member with old | new
  · exact inv.onLabel execution old fresh
  · rw [List.mem_singleton.mp new]
    exact carries

theorem finish_benchmark_run_tracked (experiment : Experiment labels duts runs) (sched : Schedv2 labels duts runs) (dut : Fin duts)
    (br : Fin runs) (inv : Tracked experiment sched) (point : (sched.workers dut).point = .finishing br) :
    Tracked experiment (sched.finishBenchmarkRun experiment dut br) := by
  have here := inv.workers dut
  rw [point] at here
  exact tracked_moved experiment sched _ dut { sched.workers dut with point := .testing, activeBr := none } inv rfl
    (accounted_still experiment sched _ dut _ inv.accounted rfl (by rw [point]; rfl) (by rw [point]; rfl) rfl rfl rfl rfl rfl)
    (fun other _ => frame_same sched _ other rfl rfl rfl rfl) here (inv.calm.2 dut) (fun _ _ => id) inv.onLabel rfl rfl

theorem dut_worker_finished_tracked (experiment : Experiment labels duts runs) (sched : Schedv2 labels duts runs) (dut : Fin duts)
    (inv : Tracked experiment sched) (point : (sched.workers dut).point = .leaving) :
    Tracked experiment (sched.dutWorkerFinished dut) := by
  have here := inv.workers dut
  rw [point] at here
  exact tracked_moved experiment sched _ dut { sched.workers dut with point := .stopped } inv rfl
    (accounted_still experiment sched _ dut _ inv.accounted rfl (by rw [point]; rfl) (by rw [point]; rfl) rfl rfl rfl rfl rfl)
    (fun other _ => frame_same sched _ other rfl rfl rfl rfl) here (inv.calm.2 dut) (fun _ _ => id) inv.onLabel rfl rfl

-- No reimage fails and nobody calls terminate.
def Undisturbed (sched : Schedv2 labels duts runs) : SchedAction duts → Prop
  | .work dut _ imaged => ∀ label, (sched.workers dut).point = .imaging label → imaged = true
  | .terminate => False

def SchedAction.imaged : SchedAction duts → Bool
  | .work _ _ imaged => imaged
  | .terminate => false

theorem imaged_undisturbed (experiment : Experiment labels duts runs) (start : Schedv2 labels duts runs)
    (actions : List (SchedAction duts)) (imaged : actions.all SchedAction.imaged = true) :
    Along (Schedv2.step experiment) Undisturbed start actions := by
  apply along_of_forall
  intro action member sched
  have here := List.all_eq_true.mp imaged action member
  cases action with
  | work dut read image => exact fun _ _ => here
  | terminate => exact absurd here nofun

theorem work_tracked (experiment : Experiment labels duts runs) (sched next : Schedv2 labels duts runs) (dut : Fin duts)
    (read : ChecksumRead) (imaged : Bool) (inv : Tracked experiment sched)
    (succeeds : ∀ label, (sched.workers dut).point = .imaging label → imaged = true)
    (taken : sched.work experiment dut read imaged = some next) : Tracked experiment next := by
  have here := inv.workers dut
  cases work_cases experiment sched next dut read imaged taken with
  | takingCached point => exact get_cached_benchmark_run_tracked experiment sched dut inv point
  | runningCached br point => exact run_cached_tracked experiment sched dut br inv point
  | settingUp point => exact setup_dut_label_tracked experiment sched dut read inv point
  | testing point =>
      rw [point] at here
      rw [if_neg (by simp [inv.calm.2 dut])]
      exact go_to_tracked experiment sched dut .asking inv (by rw [point]; rfl) (by rw [point]; rfl) here
  | asking point => exact get_benchmark_run_tracked experiment sched dut inv point
  | popping label point => exact pop_benchmark_run_tracked experiment sched dut label inv point
  | allocating point => exact allocate_label_tracked experiment sched dut inv point
  | considering candidate rest point => exact consider_next_tracked experiment sched dut candidate rest inv point
  | reimaging label point =>
      rw [point] at here
      rw [if_neg (by simp [inv.calm.2 dut])]
      exact go_to_tracked experiment sched dut (.imaging label) inv (by rw [point]; rfl) (by rw [point]; rfl) here
  | imaging label point =>
      rw [point] at here
      rw [succeeds label point]
      exact relabel_tracked experiment sched dut (some label) inv (by rw [point]; rfl) (by rw [point]; rfl) here.1 here.2
  | starting br point =>
      rw [point] at here
      rw [if_neg (by simp [inv.calm.2 dut])]
      exact go_to_tracked experiment sched dut (.owning br) inv (by rw [point]; rfl) (by rw [point]; rfl) here
  | owning br point => exact own_benchmark_run_tracked experiment sched dut br inv point
  | running br point => exact run_benchmark_tracked experiment sched dut br inv point
  | finishing br point => exact finish_benchmark_run_tracked experiment sched dut br inv point
  | leaving point => exact dut_worker_finished_tracked experiment sched dut inv point

theorem sched_step_tracked (experiment : Experiment labels duts runs) (sched : Schedv2 labels duts runs) (action : SchedAction duts)
    (next : Schedv2 labels duts runs) (inv : Tracked experiment sched) (undisturbed : Undisturbed sched action)
    (taken : sched.step experiment action = some next) : Tracked experiment next := by
  cases action with
  | work dut read imaged => exact work_tracked experiment sched next dut read imaged inv undisturbed taken
  | terminate => cases undisturbed

theorem nobody_holds (sched : Schedv2 labels duts runs) (holding : WorkerPoint labels runs → Option (Fin runs))
    (nobody : ∀ dut, holding (sched.workers dut).point = none) (br : Fin runs) : sched.holders holding br = 0 := by
  rw [Schedv2.holders]
  exact Finset.sum_eq_zero fun dut _ => by rw [nobody dut]; rfl

theorem first_schedv2_tracked (experiment : Experiment labels duts runs) (cached : List (Fin runs))
    (installed : Fin duts → Option (Fin labels)) (distinct : cached.Nodup) :
    Tracked experiment (firstSchedv2 experiment cached installed) := by
  have waiting := nobody_holds (firstSchedv2 experiment cached installed) WorkerPoint.waiting fun _ => rfl
  have busy := nobody_holds (firstSchedv2 experiment cached installed) WorkerPoint.busy fun _ => rfl
  have queued : ∀ br, (firstSchedv2 experiment cached installed).queued experiment br = 1 := by
    intro br
    simp only [Schedv2.queued, firstSchedv2, startSchedv2]
    have members : br ∈ (List.finRange runs).filter (fun other => experiment.brLabelName other = experiment.brLabelName br ∧ other ∉ cached) ↔
        br ∉ cached := by simp
    by_cases hit : br ∈ cached
    · rw [List.count_eq_one_of_mem distinct hit, List.count_eq_zero_of_not_mem fun member => members.mp member hit]
    · rw [List.count_eq_zero_of_not_mem hit, List.count_eq_one_of_mem ((List.nodup_finRange runs).filter _) (members.mpr hit)]
  have matrix := compute_initial_allocation_marks (newMachineImageManager experiment.label experiment.dut)
  refine ⟨⟨fun br => ?_, fun br => ?_, fun name br member => ?_, fun _ => .inl rfl⟩, fun dut i taken => ?_, fun i dut crossed => ?_,
    fun _ member => absurd member List.not_mem_nil, ⟨rfl, fun _ => rfl⟩, rfl⟩
  · rw [waiting, busy, queued]
    rfl
  · rw [waiting, busy]
    rfl
  · simp only [firstSchedv2, startSchedv2, List.mem_filter, decide_eq_true_eq] at member
    exact member.2.1
  · have before := (matrix i dut).2 taken
    simp only [newMachineImageManager] at before
    split at before <;> cases before
  · have before := (matrix i dut).1.mp crossed
    simp only [newMachineImageManager] at before
    split at before
    · cases before
    · next unfit => exact Bool.not_eq_true _ ▸ unfit

structure RunsOnce (experiment : Experiment labels duts runs) (sched : Schedv2 labels duts runs) : Prop where
  once : ∀ br, sched.handedOut.count br ≤ 1
  onLabel : ∀ execution ∈ sched.executed, execution.cached = false →
    ∃ label, execution.label = some label ∧ experiment.labelName label = experiment.brLabelName execution.br
  emptied : (∀ dut, (sched.workers dut).point = .stopped) →
    sched.cachedBrList = [] ∧ ∀ i, sched.labelBrlMap (experiment.labelName i) = []
  executed : (∀ dut, (sched.workers dut).point = .stopped) → ∀ br, sched.executedBrs.count br = 1

theorem tracked_runs_once (experiment : Experiment labels duts runs) (sched : Schedv2 labels duts runs)
    (fits : ∀ i, ∃ dut, compatible experiment.label experiment.dut i dut = true) (inv : Tracked experiment sched) :
    RunsOnce experiment sched := by
  have emptied : (∀ dut, (sched.workers dut).point = .stopped) →
      sched.cachedBrList = [] ∧ ∀ i, sched.labelBrlMap (experiment.labelName i) = [] := by
    intro stopped
    have left : ∀ dut, WorkerAt experiment sched dut .stopped := fun dut => stopped dut ▸ inv.workers dut
    refine ⟨?_, fun i => ?_⟩
    · cases list : sched.cachedBrList with
      | nil => rfl
      | cons br rest =>
          obtain ⟨dut, _⟩ := fits (experiment.brLabel br)
          exact list.symm.trans (left dut).1
    · obtain ⟨dut, fit⟩ := fits i
      exact (left dut).2 i fit
  refine ⟨fun br => ?_, inv.onLabel, emptied, fun stopped br => ?_⟩
  · have counted := inv.accounted.handed br
    have placed := inv.accounted.somewhere br
    omega
  · obtain ⟨cached, lists⟩ := emptied stopped
    have placed := inv.accounted.somewhere br
    rw [nobody_holds sched _ (fun dut => by rw [stopped dut]; rfl), nobody_holds sched _ (fun dut => by rw [stopped dut]; rfl),
      Schedv2.queued, cached, Experiment.brLabelName, lists] at placed
    simpa using placed

-- From whatever the cache readers left; the duts may carry any label at first.
theorem schedv2_runs_everything_once (experiment : Experiment labels duts runs)
    (fits : ∀ i, ∃ dut, compatible experiment.label experiment.dut i dut = true)
    (listed : RemotesListed experiment.label experiment.dut) (readers : CacheReaders runs)
    (read : Reachable (CacheReaders.step experiment.cacheHit) (startCacheReaders runs) readers)
    (installed : Fin duts → Option (Fin labels)) :
    ∃ start, newSchedv2 experiment readers.cachedBrList installed = .ok start ∧
      ∀ actions, Along (Schedv2.step experiment) Undisturbed start actions →
        Throughout (Schedv2.step experiment) (RunsOnce experiment) start actions := by
  refine ⟨_, (new_schedv2_iff experiment readers.cachedBrList installed _).mpr ⟨listed, rfl⟩, fun actions undisturbed => ?_⟩
  have distinct := cached_br_list_nodup experiment.cacheHit readers read
  exact throughout_mono (Schedv2.step experiment) (Tracked experiment) (RunsOnce experiment)
    (fun sched inv => tracked_runs_once experiment sched fits inv) _ actions
    (throughout_of_along (Schedv2.step experiment) Undisturbed (Tracked experiment)
      (fun sched action next inv allowed taken => sched_step_tracked experiment sched action next inv allowed taken) actions _
      (first_schedv2_tracked experiment readers.cachedBrList installed distinct) undisturbed)

def twoImages : Experiment 2 2 3 where
  label i := if i.val = 0 then { name := "image1", remote := [], checksum := none }
    else { name := "image2", remote := ["lumpy"], checksum := some "5f3e" }
  dut j := if j.val = 0 then "lumpy" else "stumpy"
  brLabel br := ⟨br.val % 2, Nat.mod_lt _ Nat.two_pos⟩
  cacheHit br := br.val = 2
  distinct := by decide

def twoImagesRead : CacheReaders 3 where
  brLists := [[]]
  cachedBrList := [Fin.last 2]

-- lumpy comes with image2; stumpy does all its work before lumpy asks for a run.
def twoImagesRun : List (SchedAction 2) :=
  let lumpy (count : Nat) := List.replicate count (SchedAction.work ⟨0, Nat.two_pos⟩ (.read "5f3e") true)
  lumpy 5 ++ List.replicate 23 (.work (Fin.last 1) .failed true) ++ lumpy 14

theorem two_images_run_once : ∃ start, newSchedv2 twoImages [2] (fun _ => none) = .ok start ∧
    ((exec (Schedv2.step twoImages) start twoImagesRun).map fun sched =>
      ((sched.workers 0).point, (sched.workers 1).point, sched.executedBrs)) = some (.stopped, .stopped, [2, 0, 1]) ∧
      Throughout (Schedv2.step twoImages) (RunsOnce twoImages) start twoImagesRun := by
  have read : Reachable (CacheReaders.step twoImages.cacheHit) (startCacheReaders 3) twoImagesRead :=
    ⟨List.replicate 3 { reader := 0, raised := false }, rfl⟩
  obtain ⟨start, made, once⟩ := schedv2_runs_everything_once twoImages (by decide) (by decide) twoImagesRead read fun _ => none
  refine ⟨start, made, ?_, once twoImagesRun (imaged_undisturbed twoImages start twoImagesRun rfl)⟩
  rw [((new_schedv2_iff twoImages [2] (fun _ => none) start).mp made).2]
  decide

end ToolchainUtils.Crosperf
