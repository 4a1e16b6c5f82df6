import ToolchainUtils.Transition
import ToolchainUtils.Crosperf.Schedv2

set_option autoImplicit false

namespace ToolchainUtils.Crosperf

open Transition

variable {labels duts runs : Nat}

-- How many positions of the list the iterator of terminate has passed.
def Terminating.passed : Terminating duts → Nat
  | .idle => 0
  | .next index => index
  | .ending index _ => index + 1

-- The worker that moves under the iterator when this one leaves the list.
def Schedv2.skipped (sched : Schedv2 labels duts runs) (dut : Fin duts) : Option (Fin duts) :=
  if (sched.activeWorkers.take sched.terminating.passed).contains dut then sched.activeWorkers[sched.terminating.passed]?
  else none

-- Past the test of get_benchmark_run, and not done with the run that it gives.
def hasRun (experiment : Experiment labels duts runs) (labelBrlMap : String → List (Fin runs)) : WorkerPoint labels runs → Bool
  | .popping label => !(labelBrlMap (experiment.labelName label)).isEmpty
  | .starting _ => true
  | .owning _ => true
  | .running _ => true
  | _ => false

def WorkerPoint.publishing : WorkerPoint labels runs → Bool
  | .owning _ => true
  | _ => false

-- The worker whose terminate() has set its flag, and is about to look for its active run.
def Terminating.current : Terminating duts → Option (Fin duts)
  | .ending _ dut => some dut
  | _ => none

-- No worker is about to publish a run when terminate looks for it, and no worker that
-- has a run is skipped because another one leaves the list.
def TerminationHeard (experiment : Experiment labels duts runs) (sched : Schedv2 labels duts runs) : SchedAction duts → Prop
  | .work dut _ _ => (sched.workers dut).point = .leaving →
      ∀ other ∈ sched.skipped dut, hasRun experiment sched.labelBrlMap (sched.workers other).point = false
  | .terminate => ∀ dut ∈ sched.terminating.current, (sched.workers dut).point.publishing = false

instance (experiment : Experiment labels duts runs) (sched : Schedv2 labels duts runs) :
    (action : SchedAction duts) → Decidable (TerminationHeard experiment sched action)
  | .work dut _ _ => inferInstanceAs (Decidable ((sched.workers dut).point = .leaving →
      ∀ other ∈ sched.skipped dut, hasRun experiment sched.labelBrlMap (sched.workers other).point = false))
  | .terminate => inferInstanceAs (Decidable (∀ dut ∈ sched.terminating.current, (sched.workers dut).point.publishing = false))

-- Once terminate has returned.
def TerminationReached (sched : Schedv2 labels duts runs) : Prop :=
  sched.terminated = true → sched.terminating = .idle →
    ∀ dut br, (sched.workers dut).point = .running br → sched.brTerminated br = true

-- The worker executes no run any more that was not terminated.
structure Cleared (experiment : Experiment labels duts runs) (labelBrlMap : String → List (Fin runs))
    (brTerminated : Fin runs → Bool) (worker : Worker labels runs) : Prop where
  owning : ∀ br, worker.point ≠ .owning br
  running : ∀ br, worker.point = .running br → brTerminated br = true
  starting : worker.terminated = false → ∀ br, worker.point ≠ .starting br
  popping : worker.terminated = false → ∀ label, worker.point = .popping label → labelBrlMap (experiment.labelName label) = []

def Awaits (sched : Schedv2 labels duts runs) (dut : Fin duts) : Prop :=
  sched.terminating ≠ .idle ∧ dut ∈ sched.activeWorkers.drop sched.terminating.passed

def Ending (sched : Schedv2 labels duts runs) (dut : Fin duts) : Prop :=
  ∃ index, sched.terminating = .ending index dut ∧ (sched.workers dut).terminated = true

structure TerminationInvariant (experiment : Experiment labels duts runs) (sched : Schedv2 labels duts runs) : Prop where
  published : ∀ dut br, (sched.workers dut).point = .running br → (sched.workers dut).activeBr = some br
  departed : ∀ dut, dut ∉ sched.activeWorkers → (sched.workers dut).point = .stopped
  reached : sched.terminated = true → ∀ dut,
    Cleared experiment sched.labelBrlMap sched.brTerminated (sched.workers dut) ∨ Awaits sched dut ∨ Ending sched dut

def WorkerPoint.plain : WorkerPoint labels runs → Bool
  | .popping _ => false
  | .starting _ => false
  | .owning _ => false
  | .running _ => false
  | _ => true

-- How a worker comes to a run.
inductive Advance (experiment : Experiment labels duts runs) (sched next : Schedv2 labels duts runs) (dut : Fin duts) : Prop where
  | plain (away : (next.workers dut).point.plain = true)
  | asked (label : Fin labels) (going : sched.terminated = false) (after : (next.workers dut).point = .popping label)
  | popped (label : Fin labels) (br : Fin runs) (before : (sched.workers dut).point = .popping label)
      (some_left : sched.labelBrlMap (experiment.labelName label) ≠ []) (after : (next.workers dut).point = .starting br)
  | tested (br : Fin runs) (before : (sched.workers dut).point = .starting br)
      (going : (sched.workers dut).terminated = false) (after : (next.workers dut).point = .owning br)
  | published (br : Fin runs) (before : (sched.workers dut).point = .owning br)
      (active : (next.workers dut).activeBr = some br) (after : (next.workers dut).point = .running br)

-- What a step of a worker does, and what it leaves alone.
structure Worked (experiment : Experiment labels duts runs) (sched next : Schedv2 labels duts runs) (dut : Fin duts) : Prop where
  advance : Advance experiment sched next dut
  others : ∀ other, other ≠ dut → next.workers other = sched.workers other
  flag : (next.workers dut).terminated = (sched.workers dut).terminated
  terminated : next.terminated = sched.terminated
  terminating : next.terminating = sched.terminating
  brTerminated : next.brTerminated = sched.brTerminated
  lists : ∀ name, sched.labelBrlMap name = [] → next.labelBrlMap name = []
  active : next.activeWorkers = sched.activeWorkers ∨
    ((sched.workers dut).point = .leaving ∧ (next.workers dut).point = .stopped ∧
      next.activeWorkers = sched.activeWorkers.erase dut)

theorem set_worker_worked (experiment : Experiment labels duts runs) (sched next : Schedv2 labels duts runs) (dut : Fin duts)
    (worker : Worker labels runs) (moved : next.workers = Function.update sched.workers dut worker)
    (advance : Advance experiment sched next dut)
    (flag : worker.terminated = (sched.workers dut).terminated) (terminated : next.terminated = sched.terminated)
    (terminating : next.terminating = sched.terminating) (brTerminated : next.brTerminated = sched.brTerminated)
    (lists : ∀ name, sched.labelBrlMap name = [] → next.labelBrlMap name = [])
    (active : next.activeWorkers = sched.activeWorkers) : Worked experiment sched next dut where
  advance := advance
  others := fun other apart => by rw [moved, Function.update_of_ne apart]
  flag := by rw [moved, Function.update_self, flag]
  terminated := terminated
  terminating := terminating
  brTerminated := brTerminated
  lists := lists
  active := Or.inl active

theorem away_worked (experiment : Experiment labels duts runs) (sched next : Schedv2 labels duts runs) (dut : Fin duts)
    (worker : Worker labels runs) (away : worker.point.plain = true) (moved : next.workers = Function.update sched.workers dut worker)
    (flag : worker.terminated = (sched.workers dut).terminated) (terminated : next.terminated = sched.terminated)
    (terminating : next.terminating = sched.terminating) (brTerminated : next.brTerminated = sched.brTerminated)
    (lists : next.labelBrlMap = sched.labelBrlMap) (active : next.activeWorkers = sched.activeWorkers) :
    Worked experiment sched next dut :=
  set_worker_worked experiment sched next dut worker moved (.plain (by rw [moved, Function.update_self, away])) flag
    terminated terminating brTerminated (fun name empty => by rw [lists]; exact empty) active

theorem go_to_worked (experiment : Experiment labels duts runs) (sched : Schedv2 labels duts runs) (dut : Fin duts)
    (point : WorkerPoint labels runs) (advance : Advance experiment sched (sched.goTo dut point) dut) :
    Worked experiment sched (sched.goTo dut point) dut :=
  set_worker_worked experiment sched _ dut _ rfl advance rfl rfl rfl rfl (fun _ => id) rfl

theorem go_to_point (sched : Schedv2 labels duts runs) (dut : Fin duts) (point : WorkerPoint labels runs) :
    ((sched.goTo dut point).workers dut).point = point := by
  simp [Schedv2.goTo, Schedv2.setWorker]

theorem go_away_worked (experiment : Experiment labels duts runs) (sched : Schedv2 labels duts runs) (dut : Fin duts)
    (point : WorkerPoint labels runs) (plain : point.plain = true) : Worked experiment sched (sched.goTo dut point) dut :=
  away_worked experiment sched (sched.goTo dut point) dut _ plain rfl rfl rfl rfl rfl rfl rfl

theorem get_cached_benchmark_run_worked (experiment : Experiment labels duts runs) (sched : Schedv2 labels duts runs)
    (dut : Fin duts) : Worked experiment sched (sched.getCachedBenchmarkRun dut) dut := by
  rw [Schedv2.getCachedBenchmarkRun]
  split
  · exact go_away_worked experiment sched dut .settingUp rfl
  · exact away_worked experiment sched _ dut _ rfl rfl rfl rfl rfl rfl rfl rfl

theorem setup_dut_label_worked (experiment : Experiment labels duts runs) (sched : Schedv2 labels duts runs) (dut : Fin duts)
    (read : ChecksumRead) : Worked experiment sched (sched.setupDutLabel experiment dut read) dut := by
  cases read with
  | raised => exact away_worked experiment sched _ dut _ rfl rfl rfl rfl rfl rfl rfl rfl
  | failed => exact go_away_worked experiment sched dut .testing rfl
  | read checksum =>
      simp only [Schedv2.setupDutLabel]
      split
      · exact go_away_worked experiment sched dut .testing rfl
      · exact away_worked experiment sched _ dut _ rfl rfl rfl rfl rfl rfl rfl rfl

theorem get_benchmark_run_worked (experiment : Experiment labels duts runs) (sched : Schedv2 labels duts runs) (dut : Fin duts) :
    Worked experiment sched (sched.getBenchmarkRun dut) dut := by
  rw [Schedv2.getBenchmarkRun]
  split
  · exact go_away_worked experiment sched dut .allocating rfl
  · next going =>
      split
      · exact go_away_worked experiment sched dut .allocating rfl
      · exact go_to_worked experiment sched dut _ (.asked _ (by simpa using going) (go_to_point sched dut _))

theorem pop_benchmark_run_worked (experiment : Experiment labels duts runs) (sched : Schedv2 labels duts runs) (dut : Fin duts)
    (label : Fin labels) (point : (sched.workers dut).point = .popping label) :
    Worked experiment sched (sched.popBenchmarkRun experiment dut label) dut := by
  rw [Schedv2.popBenchmarkRun]
  split
  · exact go_away_worked experiment sched dut .allocating rfl
  · next br rest list =>
      have some_left : sched.labelBrlMap (experiment.labelName label) ≠ [] := by simp [list]
      refine set_worker_worked experiment sched _ dut _ rfl (.popped label br point some_left (go_to_point sched dut _))
        rfl rfl rfl rfl (fun name empty => ?_) rfl
      by_cases same : name = experiment.labelName label
      · rw [same, list] at empty
        cases empty
      · simpa [Schedv2.goTo, Schedv2.setWorker, Function.update_of_ne same] using empty

theorem allocate_label_worked (experiment : Experiment labels duts runs) (sched : Schedv2 labels duts runs) (dut : Fin duts) :
    Worked experiment sched (sched.allocateLabel dut) dut := by
  rw [Schedv2.allocateLabel]
  split
  · exact go_away_worked experiment sched dut .leaving rfl
  · exact go_away_worked experiment sched dut _ rfl

theorem consider_next_worked (experiment : Experiment labels duts runs) (sched : Schedv2 labels duts runs) (dut : Fin duts)
    (candidate : Option (Candidate labels)) (rest : List (Fin labels)) :
    Worked experiment sched (sched.considerNext experiment dut candidate rest) dut := by
  cases rest with
  | nil =>
      cases candidate with
      | none => exact go_away_worked experiment sched dut .leaving rfl
      | some best => exact away_worked experiment sched _ dut _ rfl rfl rfl rfl rfl rfl rfl rfl
  | cons i others =>
      rw [Schedv2.considerNext]
      split
      · exact away_worked experiment sched _ dut _ rfl rfl rfl rfl rfl rfl rfl rfl
      · exact go_away_worked experiment sched dut _ rfl

theorem image_machine_worked (experiment : Experiment labels duts runs) (sched : Schedv2 labels duts runs) (dut : Fin duts)
    (label : Fin labels) (imaged : Bool) : Worked experiment sched (sched.imageMachine dut label imaged) dut := by
  rw [Schedv2.imageMachine]
  split
  · exact away_worked experiment sched _ dut _ rfl rfl rfl rfl rfl rfl rfl rfl
  · exact go_away_worked experiment sched dut .leaving rfl

theorem own_benchmark_run_worked (experiment : Experiment labels duts runs) (sched : Schedv2 labels duts runs) (dut : Fin duts)
    (br : Fin runs) (point : (sched.workers dut).point = .owning br) :
    Worked experiment sched (sched.ownBenchmarkRun experiment dut br) dut := by
  rw [Schedv2.ownBenchmarkRun]
  split
  · exact away_worked experiment sched _ dut _ rfl rfl rfl rfl rfl rfl rfl rfl
  · refine set_worker_worked experiment sched _ dut _ rfl (.published br point ?_ ?_) rfl rfl rfl rfl (fun _ => id) rfl
    · simp [Schedv2.setWorker]
    · simp [Schedv2.setWorker]

theorem dut_worker_finished_worked (experiment : Experiment labels duts runs) (sched : Schedv2 labels duts runs) (dut : Fin duts)
    (point : (sched.workers dut).point = .leaving) : Worked experiment sched (sched.dutWorkerFinished dut) dut := by
  have moved := go_away_worked experiment sched dut .stopped rfl
  have stopped := go_to_point sched dut .stopped
  exact ⟨.plain (congrArg WorkerPoint.plain stopped), moved.others, moved.flag, rfl, rfl, rfl, fun _ => id,
    Or.inr ⟨point, stopped, rfl⟩⟩

theorem work_worked (experiment : Experiment labels duts runs) (sched next : Schedv2 labels duts runs) (dut : Fin duts)
    (read : ChecksumRead) (imaged : Bool) (taken : sched.work experiment dut read imaged = some next) :
    Worked experiment sched next dut := by
  cases work_cases experiment sched next dut read imaged taken with
  | takingCached point => exact get_cached_benchmark_run_worked experiment sched dut
  | runningCached | running | finishing => exact away_worked experiment sched _ dut _ rfl rfl rfl rfl rfl rfl rfl rfl
  | settingUp point => exact setup_dut_label_worked experiment sched dut read
  | testing | reimaging =>
      refine go_away_worked experiment sched dut _ ?_
      split <;> rfl
  | asking point => exact get_benchmark_run_worked experiment sched dut
  | popping label point => exact pop_benchmark_run_worked experiment sched dut label point
  | allocating point => exact allocate_label_worked experiment sched dut
  | considering candidate rest point => exact consider_next_worked experiment sched dut candidate rest
  | imaging label point => exact image_machine_worked experiment sched dut label imaged
  | starting br point =>
      cases flag : (sched.workers dut).terminated with
      | true => exact go_away_worked experiment sched dut .testing rfl
      | false => exact go_to_worked experiment sched dut _ (.tested br point flag (go_to_point sched dut _))
  | owning br point => exact own_benchmark_run_worked experiment sched dut br point
  | leaving point => exact dut_worker_finished_worked experiment sched dut point

theorem cleared_of_plain (experiment : Experiment labels duts runs) (lists : String → List (Fin runs))
    (brTerminated : Fin runs → Bool) (worker : Worker labels runs) (away : worker.point.plain = true) :
    Cleared experiment lists brTerminated worker := by
  refine ⟨fun br here => ?_, fun br here => ?_, fun _ br here => ?_, fun _ label here => ?_⟩
  · rw [here] at away
    cases away
  · rw [here] at away
    cases away
  · rw [here] at away
    cases away
  · rw [here] at away
    cases away

theorem cleared_shrinks (experiment : Experiment labels duts runs) (before after : String → List (Fin runs))
    (old new : Fin runs → Bool) (worker : Worker labels runs) (cleared : Cleared experiment before old worker)
    (lists : ∀ name, before name = [] → after name = []) (marks : ∀ br, old br = true → new br = true) :
    Cleared experiment after new worker :=
  ⟨cleared.owning, fun br here => marks br (cleared.running br here), cleared.starting,
    fun flag label here => lists _ (cleared.popping flag label here)⟩

-- A worker without a run stays without one: get_benchmark_run gives no more.
theorem cleared_after_work (experiment : Experiment labels duts runs) (sched next : Schedv2 labels duts runs) (dut : Fin duts)
    (worked : Worked experiment sched next dut) (stopping : sched.terminated = true)
    (cleared : Cleared experiment sched.labelBrlMap sched.brTerminated (sched.workers dut)) :
    Cleared experiment next.labelBrlMap next.brTerminated (next.workers dut) := by
  cases worked.advance with
  | plain away => exact cleared_of_plain experiment _ _ _ away
  | asked label going after =>
      rw [stopping] at going
      cases going
  | popped label br before some_left after =>
      have flag : (sched.workers dut).terminated = true := by
        by_contra running
        exact some_left (cleared.popping (by simpa using running) label before)
      refine ⟨by simp [after], by simp [after], fun running => ?_, by simp [after]⟩
      rw [worked.flag, flag] at running
      cases running
  | tested br before going after => exact absurd before (cleared.starting going br)
  | published br before active after => exact absurd before (cleared.owning br)

theorem drop_after_erase {α : Type} [DecidableEq α] (items : List α) (gone other : α) (count : Nat) (apart : other ≠ gone)
    (later : other ∈ items.drop count) :
    other ∈ (items.erase gone).drop count ∨ (gone ∈ items.take count ∧ items[count]? = some other) := by
  have within : count < items.length := by
    by_contra beyond
    rw [List.drop_eq_nil_of_le (by omega)] at later
    cases later
  have length : (items.take count).length = count := by
    rw [List.length_take]
    omega
  have split := (List.take_append_drop count items).symm
  by_cases passed : gone ∈ items.take count
  · -- What is left of the first part is one shorter, so the head of the second part is passed too.
    have erased : (items.erase gone).drop count = (items.drop count).drop 1 := by
      conv_lhs => rw [split, List.erase_append_left _ passed]
      have shorter := List.length_erase_of_mem passed
      have positive := List.length_pos_of_mem passed
      rw [List.drop_append, List.drop_eq_nil_of_le (by omega), List.nil_append]
      congr 1
      omega
    rw [List.drop_eq_getElem_cons within] at later erased
    rcases List.mem_cons.mp later with head | tail
    · exact Or.inr ⟨passed, by rw [List.getElem?_eq_getElem within, head]⟩
    · exact Or.inl (by rw [erased]; exact tail)
  · have erased : (items.erase gone).drop count = (items.drop count).erase gone := by
      conv_lhs => rw [split, List.erase_append_right _ passed]
      exact List.drop_left' length
    exact Or.inl (by rw [erased]; exact (List.mem_erase_of_ne apart).mpr later)

theorem published_after_work (experiment : Experiment labels duts runs) (sched next : Schedv2 labels duts runs)
    (dut : Fin duts) (worked : Worked experiment sched next dut) (br : Fin runs)
    (here : (next.workers dut).point = .running br) : (next.workers dut).activeBr = some br := by
  cases worked.advance with
  | plain away =>
      rw [here] at away
      cases away
  | asked label _ after =>
      rw [here] at after
      cases after
  | popped label _ _ _ after =>
      rw [here] at after
      cases after
  | tested _ _ _ after =>
      rw [here] at after
      cases after
  | published published _ active after =>
      rw [here] at after
      rw [active, WorkerPoint.running.inj after]

theorem awaits_after_leave (experiment : Experiment labels duts runs) (sched next : Schedv2 labels duts runs)
    (dut other : Fin duts) (apart : other ≠ dut) (terminating : next.terminating = sched.terminating)
    (left : next.activeWorkers = sched.activeWorkers.erase dut)
    (heard : ∀ other ∈ sched.skipped dut, hasRun experiment sched.labelBrlMap (sched.workers other).point = false)
    (awaits : Awaits sched other) :
    Cleared experiment sched.labelBrlMap sched.brTerminated (sched.workers other) ∨ Awaits next other := by
  rcases drop_after_erase sched.activeWorkers dut other sched.terminating.passed apart awaits.2 with later | ⟨passed, next⟩
  · exact Or.inr ⟨by rw [terminating]; exact awaits.1, by rw [terminating, left]; exact later⟩
  · have harmless := heard other (by rw [Schedv2.skipped, if_pos (List.contains_iff_mem.mpr passed)]; exact next)
    refine Or.inl ⟨fun br here => ?_, fun br here => ?_, fun _ br here => ?_, fun _ label here => ?_⟩
    · rw [here] at harmless
      cases harmless
    · rw [here] at harmless
      cases harmless
    · rw [here] at harmless
      cases harmless
    · rw [here] at harmless
      simpa [hasRun] using harmless

theorem work_keeps_termination (experiment : Experiment labels duts runs) (sched next : Schedv2 labels duts runs)
    (dut : Fin duts) (inv : TerminationInvariant experiment sched) (worked : Worked experiment sched next dut)
    (moving : (sched.workers dut).point ≠ .stopped)
    (heard : (sched.workers dut).point = .leaving → ∀ other ∈ sched.skipped dut,
      hasRun experiment sched.labelBrlMap (sched.workers other).point = false) : TerminationInvariant experiment next := by
  refine ⟨fun other br here => ?_, fun other gone => ?_, fun stopping other => ?_⟩
  · by_cases same : other = dut
    · subst same
      exact published_after_work experiment sched next other worked br here
    · rw [worked.others other same] at here ⊢
      exact inv.published other br here
  · by_cases same : other = dut
    · subst same
      rcases worked.active with kept | ⟨_, stopped, _⟩
      · exact absurd (inv.departed other (kept ▸ gone)) moving
      · exact stopped
    · have before : other ∉ sched.activeWorkers := by
        rcases worked.active with kept | ⟨_, _, left⟩
        · exact kept ▸ gone
        · exact fun member => gone (left ▸ (List.mem_erase_of_ne same).mpr member)
      rw [worked.others other same]
      exact inv.departed other before
  · rw [worked.terminated] at stopping
    have marks : ∀ br, sched.brTerminated br = true → next.brTerminated br = true := fun br => by rw [worked.brTerminated]; exact id
    have keeps : ∀ worker, Cleared experiment sched.labelBrlMap sched.brTerminated worker →
        Cleared experiment next.labelBrlMap next.brTerminated worker := fun worker cleared =>
      cleared_shrinks experiment _ _ _ _ worker cleared worked.lists marks
    by_cases same : other = dut
    · subst same
      rcases inv.reached stopping other with cleared | awaits | ⟨index, ending, flag⟩
      · exact Or.inl (cleared_after_work experiment sched next other worked stopping cleared)
      · rcases worked.active with kept | ⟨_, stopped, _⟩
        · exact Or.inr (Or.inl ⟨by rw [worked.terminating]; exact awaits.1, by rw [worked.terminating, kept]; exact awaits.2⟩)
        · exact Or.inl (cleared_of_plain experiment _ _ _ (by rw [stopped]; rfl))
      · exact Or.inr (Or.inr ⟨index, worked.terminating.trans ending, worked.flag.trans flag⟩)
    · have still := worked.others other same
      rcases inv.reached stopping other with cleared | awaits | ⟨index, ending, flag⟩
      · exact Or.inl (keeps _ (still ▸ cleared))
      · rcases worked.active with kept | ⟨leaving, _, left⟩
        · exact Or.inr (Or.inl ⟨by rw [worked.terminating]; exact awaits.1, by rw [worked.terminating, kept]; exact awaits.2⟩)
        · rcases awaits_after_leave experiment sched next dut other same worked.terminating left (heard leaving) awaits with
            cleared | later
          · exact Or.inl (keeps _ (still ▸ cleared))
          · exact Or.inr (Or.inl later)
      · exact Or.inr (Or.inr ⟨index, worked.terminating.trans ending, by rw [still]; exact flag⟩)

-- The steps of the loop in terminate.
inductive TerminateStep (sched next : Schedv2 labels duts runs) : Prop where
  | begins (idle : sched.terminating = .idle) (after : next = { sched with terminated := true, terminating := .next 0 })
  | ends (index : Nat) (walk : sched.terminating = .next index) (beyond : sched.activeWorkers[index]? = none)
      (after : next = { sched with terminating := .idle })
  | flags (index : Nat) (dut : Fin duts) (walk : sched.terminating = .next index)
      (found : sched.activeWorkers[index]? = some dut)
      (after : next = { sched.setWorker dut { sched.workers dut with terminated := true } with
        terminating := .ending index dut })
  | passes (index : Nat) (dut : Fin duts) (walk : sched.terminating = .ending index dut)
      (idle : (sched.workers dut).activeBr = none) (after : next = { sched with terminating := .next (index + 1) })
  | stops (index : Nat) (dut : Fin duts) (br : Fin runs) (walk : sched.terminating = .ending index dut)
      (active : (sched.workers dut).activeBr = some br)
      (after : next = { sched with
        brTerminated := Function.update sched.brTerminated br true
        terminating := .next (index + 1) })

theorem terminate_cases (sched next : Schedv2 labels duts runs) (taken : sched.terminate = some next) :
    TerminateStep sched next := by
  unfold Schedv2.terminate at taken
  split at taken
  · rename_i idle
    exact .begins idle (Option.some.inj taken).symm
  · rename_i index walk
    split at taken
    · rename_i beyond
      exact .ends index walk beyond (Option.some.inj taken).symm
    · rename_i dut found
      exact .flags index dut walk found (Option.some.inj taken).symm
  · rename_i index dut walk
    split at taken
    · rename_i idle
      exact .passes index dut walk idle (Option.some.inj taken).symm
    · rename_i br active
      exact .stops index dut br walk active (Option.some.inj taken).symm

-- The worker that terminate has just dealt with.
theorem cleared_of_ended (experiment : Experiment labels duts runs) (lists : String → List (Fin runs))
    (brTerminated : Fin runs → Bool) (worker : Worker labels runs) (flag : worker.terminated = true)
    (owning : ∀ br, worker.point ≠ .owning br) (running : ∀ br, worker.point = .running br → brTerminated br = true) :
    Cleared experiment lists brTerminated worker :=
  ⟨owning, running, fun going => absurd (flag.symm.trans going) nofun, fun going => absurd (flag.symm.trans going) nofun⟩

theorem publishes_none (sched : Schedv2 labels duts runs) (index : Nat) (dut : Fin duts)
    (walk : sched.terminating = .ending index dut)
    (heard : ∀ dut ∈ sched.terminating.current, (sched.workers dut).point.publishing = false) (br : Fin runs) :
    (sched.workers dut).point ≠ .owning br := by
  intro here
  have quiet := heard dut (by rw [walk]; rfl)
  rw [here] at quiet
  cases quiet

theorem terminate_keeps_termination (experiment : Experiment labels duts runs) (sched next : Schedv2 labels duts runs)
    (inv : TerminationInvariant experiment sched)
    (heard : ∀ dut ∈ sched.terminating.current, (sched.workers dut).point.publishing = false)
    (taken : sched.terminate = some next) : TerminationInvariant experiment next := by
  cases terminate_cases sched next taken with
  | begins idle after =>
      subst after
      refine ⟨inv.published, inv.departed, fun _ dut => ?_⟩
      by_cases active : dut ∈ sched.activeWorkers
      · exact Or.inr (Or.inl ⟨nofun, by simpa [Terminating.passed] using active⟩)
      · exact Or.inl (cleared_of_plain experiment _ _ _ (by rw [inv.departed dut active]; rfl))
  | ends index walk beyond after =>
      subst after
      refine ⟨inv.published, inv.departed, fun stopping dut => ?_⟩
      rcases inv.reached stopping dut with cleared | awaits | ⟨_, ending, _⟩
      · exact Or.inl cleared
      · have nobody : sched.activeWorkers.drop index = [] := List.drop_eq_nil_of_le (List.getElem?_eq_none_iff.mp beyond)
        have member := awaits.2
        rw [walk, Terminating.passed, nobody] at member
        cases member
      · rw [walk] at ending
        cases ending
  | flags index current walk found after =>
      subst after
      have others : ∀ dut, dut ≠ current →
          (sched.setWorker current { sched.workers current with terminated := true }).workers dut = sched.workers dut :=
        fun dut apart => Function.update_of_ne apart _ _
      have mine : (sched.setWorker current { sched.workers current with terminated := true }).workers current =
          { sched.workers current with terminated := true } := Function.update_self _ _ _
      refine ⟨fun dut br here => ?_, fun dut gone => ?_, fun stopping dut => ?_⟩
      · by_cases same : dut = current
        · subst same
          rw [mine] at here ⊢
          exact inv.published dut br here
        · rw [others dut same] at here ⊢
          exact inv.published dut br here
      · by_cases same : dut = current
        · subst same
          rw [mine]
          exact inv.departed dut gone
        · rw [others dut same]
          exact inv.departed dut gone
      · by_cases same : dut = current
        · subst same
          exact Or.inr (Or.inr ⟨index, rfl, by rw [mine]⟩)
        · rcases inv.reached stopping dut with cleared | awaits | ⟨_, ending, _⟩
          · exact Or.inl (by rw [others dut same]; exact cleared)
          · have later := awaits.2
            obtain ⟨within, head⟩ := List.getElem?_eq_some_iff.mp found
            rw [walk, Terminating.passed, List.drop_eq_getElem_cons within, head] at later
            exact Or.inr (Or.inl ⟨nofun, (List.mem_cons.mp later).resolve_left same⟩)
          · rw [walk] at ending
            cases ending
  | passes index current walk idle after =>
      subst after
      refine ⟨inv.published, inv.departed, fun stopping dut => ?_⟩
      rcases inv.reached stopping dut with cleared | awaits | ⟨_, ending, flag⟩
      · exact Or.inl cleared
      · have later := awaits.2
        rw [walk] at later
        exact Or.inr (Or.inl ⟨nofun, later⟩)
      · obtain ⟨rfl, rfl⟩ := Terminating.ending.inj (walk.symm.trans ending)
        refine Or.inl (cleared_of_ended experiment _ _ _ flag (publishes_none sched index current walk heard) fun br here => ?_)
        rw [inv.published current br here] at idle
        cases idle
  | stops index current br walk active after =>
      subst after
      have marks : ∀ other, sched.brTerminated other = true → Function.update sched.brTerminated br true other = true :=
        fun other marked => by
          by_cases same : other = br
          · simp [same]
          · rw [Function.update_of_ne same, marked]
      refine ⟨inv.published, inv.departed, fun stopping dut => ?_⟩
      rcases inv.reached stopping dut with cleared | awaits | ⟨_, ending, flag⟩
      · exact Or.inl (cleared_shrinks experiment _ _ _ _ _ cleared (fun _ => id) marks)
      · have later := awaits.2
        rw [walk] at later
        exact Or.inr (Or.inl ⟨nofun, later⟩)
      · obtain ⟨rfl, rfl⟩ := Terminating.ending.inj (walk.symm.trans ending)
        refine Or.inl (cleared_of_ended experiment _ _ _ flag (publishes_none sched index current walk heard) fun other here => ?_)
        rw [inv.published current other here] at active
        simp [Option.some.inj active]

theorem step_keeps_termination (experiment : Experiment labels duts runs) (sched : Schedv2 labels duts runs)
    (action : SchedAction duts) (next : Schedv2 labels duts runs) (inv : TerminationInvariant experiment sched)
    (heard : TerminationHeard experiment sched action) (taken : sched.step experiment action = some next) :
    TerminationInvariant experiment next := by
  cases action with
  | work dut read imaged =>
      have moving : (sched.workers dut).point ≠ .stopped := fun stopped => by
        simp [Schedv2.step, Schedv2.work, stopped] at taken
      exact work_keeps_termination experiment sched next dut inv
        (work_worked experiment sched next dut read imaged taken) moving heard
  | terminate => exact terminate_keeps_termination experiment sched next inv heard taken

theorem invariant_reached (experiment : Experiment labels duts runs) (sched : Schedv2 labels duts runs)
    (inv : TerminationInvariant experiment sched) : TerminationReached sched := by
  intro stopping returned dut br here
  rcases inv.reached stopping dut with cleared | awaits | ⟨_, ending, _⟩
  · exact cleared.running br here
  · exact absurd returned awaits.1
  · rw [returned] at ending
    cases ending

-- From whatever the cache readers left; the duts may carry any label at first.
theorem termination_reaches_every_run (experiment : Experiment labels duts runs) (cached : List (Fin runs))
    (installed : Fin duts → Option (Fin labels)) (start : Schedv2 labels duts runs)
    (made : newSchedv2 experiment cached installed = .ok start) (actions : List (SchedAction duts))
    (heard : Along (Schedv2.step experiment) (TerminationHeard experiment) start actions) :
    Throughout (Schedv2.step experiment) TerminationReached start actions := by
  obtain ⟨_, rfl⟩ := (new_schedv2_iff experiment cached installed start).mp made
  have inv : TerminationInvariant experiment (firstSchedv2 experiment cached installed) :=
    ⟨nofun, fun dut gone => absurd (List.mem_finRange dut) gone, nofun⟩
  exact throughout_mono _ _ _ (invariant_reached experiment) _ actions
    (throughout_of_along _ _ _ (step_keeps_termination experiment) actions _ inv heard)

def oneRun : Experiment 1 1 1 where
  label _ := { name := "image1", remote := [], checksum := some "5f3e" }
  dut _ := "lumpy"
  brLabel _ := ⟨0, Nat.one_pos⟩
  cacheHit _ := false
  distinct := fun i j _ => Subsingleton.elim i j

def works (count : Nat) : List (SchedAction 1) := List.replicate count (.work ⟨0, Nat.one_pos⟩ (.read "5f3e") true)

def terminates : List (SchedAction 1) := List.replicate 4 .terminate

def oneRunStart : Schedv2 1 1 1 := firstSchedv2 oneRun [] fun _ => none

theorem one_run_made : newSchedv2 oneRun [] (fun _ => none) = .ok oneRunStart :=
  (new_schedv2_iff oneRun [] _ _).mpr ⟨by decide, rfl⟩

-- The worker has published its run when terminate looks for it.
theorem published_run_is_terminated :
    newSchedv2 oneRun [] (fun _ => none) = .ok oneRunStart ∧
    ((exec (Schedv2.step oneRun) oneRunStart (works 7 ++ terminates)).map fun sched =>
      (sched.terminating, (sched.workers 0).point, sched.brTerminated 0)) = some (.idle, .running 0, true) ∧
      Throughout (Schedv2.step oneRun) TerminationReached oneRunStart (works 7 ++ terminates) :=
  ⟨one_run_made, by decide,
    termination_reaches_every_run oneRun [] (fun _ => none) oneRunStart one_run_made (works 7 ++ terminates) (by decide)⟩

-- The worker has tested its flag, and publishes its run when terminate has returned.
theorem unpublished_run_goes_on :
    newSchedv2 oneRun [] (fun _ => none) = .ok oneRunStart ∧
    ∃ sched, exec (Schedv2.step oneRun) oneRunStart (works 6 ++ terminates ++ works 1) = some sched ∧
      (sched.workers 0).point = .running 0 ∧ sched.brTerminated 0 = false ∧ ¬ TerminationReached sched :=
  ⟨one_run_made, _, rfl, by decide, by decide,
    fun reached => absurd (reached (by decide) (by decide) 0 0 (by decide)) (by decide)⟩

end ToolchainUtils.Crosperf
