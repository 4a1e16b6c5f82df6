import Mathlib.Algebra.BigOperators.Group.Finset.Piecewise
import Mathlib.Algebra.Order.BigOperators.Group.Finset
import Mathlib.Data.Fintype.BigOperators
import ToolchainUtils.Crosperf.TerminatedRuns
import ToolchainUtils.Crosperf.RunsOnce

set_option autoImplicit false

namespace ToolchainUtils.Crosperf

open Transition

-- The benchmark runs as threads, and IsComplete called from the main thread. A call goes
-- through active_threads with an iterator while it removes from the list.
structure ActiveThreads (runs : Nat) where
  activeThreads : List (Fin runs)
  isAlive : Fin runs → Bool
  polling : Option Nat
  returned : Option Bool
  numComplete : Nat
  numRunComplete : Nat

inductive ThreadAction (runs : Nat) where
  | threadEnds (br : Fin runs)
  | isComplete
  | lookAtNext
deriving DecidableEq, Repr

variable {labels duts runs : Nat}

-- What Run leaves in active_threads; cache_hit is what it is once the thread has ended.
def startThreads (runs : Nat) : ActiveThreads runs where
  activeThreads := List.finRange runs
  isAlive _ := true
  polling := none
  returned := none
  numComplete := 0
  numRunComplete := 0

def ActiveThreads.isComplete (threads : ActiveThreads runs) : ActiveThreads runs :=
  if threads.activeThreads.isEmpty then { threads with returned := some true }
  else { threads with polling := some 0 }

def ActiveThreads.lookAt (cacheHit : Fin runs → Bool) (threads : ActiveThreads runs) (index : Nat) : ActiveThreads runs :=
  match threads.activeThreads[index]? with
  | none => { threads with polling := none, returned := some false }
  | some t =>
      if threads.isAlive t then { threads with polling := some (index + 1) }
      else { threads with
        polling := some (index + 1)
        numComplete := threads.numComplete + 1
        numRunComplete := if cacheHit t then threads.numRunComplete else threads.numRunComplete + 1
        activeThreads := threads.activeThreads.erase t }

def ActiveThreads.step (cacheHit : Fin runs → Bool) (threads : ActiveThreads runs) :
    ThreadAction runs → Option (ActiveThreads runs)
  | .threadEnds br => some { threads with isAlive := Function.update threads.isAlive br false }
  | .isComplete => if threads.polling = none then some threads.isComplete else none
  | .lookAtNext => match threads.polling with
      | none => none
      | some index => some (threads.lookAt cacheHit index)

def notHits (cacheHit : Fin runs → Bool) : Nat := (List.finRange runs).countP fun br => !cacheHit br

structure CountsRight (cacheHit : Fin runs → Bool) (numComplete numRunComplete : Nat) : Prop where
  complete : numComplete = runs
  runComplete : numRunComplete = notHits cacheHit

structure CountsWithin (cacheHit : Fin runs → Bool) (numComplete numRunComplete : Nat) : Prop where
  complete : numComplete ≤ runs
  runComplete : numRunComplete ≤ notHits cacheHit

section Threads

variable (cacheHit : Fin runs → Bool)

-- Every thread is either counted or still in the list.
structure Polled (threads : ActiveThreads runs) : Prop where
  complete : threads.numComplete + threads.activeThreads.length = runs
  runComplete : threads.numRunComplete + threads.activeThreads.countP (fun br => !cacheHit br) = notHits cacheHit
  emptied : threads.returned = some true → threads.activeThreads = []

theorem start_threads_polled : Polled cacheHit (startThreads runs) :=
  ⟨by simp [startThreads], by simp [startThreads, notHits], nofun⟩

theorem look_at_polled (threads : ActiveThreads runs) (index : Nat) (inv : Polled cacheHit threads) :
    Polled cacheHit (threads.lookAt cacheHit index) := by
  rw [ActiveThreads.lookAt]
  split
  · exact ⟨inv.complete, inv.runComplete, nofun⟩
  · rename_i t here
    have member : t ∈ threads.activeThreads := List.mem_of_getElem? here
    split
    · exact ⟨inv.complete, inv.runComplete, inv.emptied⟩
    · have shorter := List.length_erase_of_mem member
      have positive := List.length_pos_of_mem member
      have fewer := List.countP_erase (fun br => !cacheHit br) threads.activeThreads t
      have complete := inv.complete
      have runComplete := inv.runComplete
      refine ⟨?_, ?_, fun returned => ?_⟩
      · simp only
        omega
      · simp only
        rw [fewer]
        cases hit : cacheHit t with
        | true => simpa [hit] using runComplete
        | false =>
            have counted : 0 < threads.activeThreads.countP fun br => !cacheHit br :=
              List.countP_pos_iff.mpr ⟨t, member, by simp [hit]⟩
            simp only [Bool.not_false, and_self, member, if_true, Bool.false_eq_true, if_false]
            omega
      · rw [inv.emptied returned] at member
        exact absurd member List.not_mem_nil

theorem thread_step_polled (threads : ActiveThreads runs) (action : ThreadAction runs) (next : ActiveThreads runs)
    (inv : Polled cacheHit threads) (taken : threads.step cacheHit action = some next) : Polled cacheHit next := by
  cases action with
  | threadEnds br => exact Option.some.inj taken ▸ ⟨inv.complete, inv.runComplete, inv.emptied⟩
  | isComplete =>
      simp only [ActiveThreads.step] at taken
      split at taken
      · obtain rfl := Option.some.inj taken
        rw [ActiveThreads.isComplete]
        split
        · rename_i empty
          exact ⟨inv.complete, inv.runComplete, fun _ => List.isEmpty_iff.mp empty⟩
        · exact ⟨inv.complete, inv.runComplete, inv.emptied⟩
      · exact absurd taken nofun
  | lookAtNext =>
      simp only [ActiveThreads.step] at taken
      split at taken
      · exact absurd taken nofun
      · rename_i index _
        exact Option.some.inj taken ▸ look_at_polled cacheHit threads index inv

theorem polled_within (threads : ActiveThreads runs) (inv : Polled cacheHit threads) :
    CountsWithin cacheHit threads.numComplete threads.numRunComplete :=
  ⟨Nat.le.intro inv.complete, Nat.le.intro inv.runComplete⟩

theorem polled_right (threads : ActiveThreads runs) (inv : Polled cacheHit threads) (returned : threads.returned = some true) :
    CountsRight cacheHit threads.numComplete threads.numRunComplete := by
  have complete := inv.complete
  have runComplete := inv.runComplete
  rw [inv.emptied returned] at complete runComplete
  exact ⟨complete, runComplete⟩

end Threads

section Workers

def Schedv2.isComplete (sched : Schedv2 labels duts runs) : Bool := sched.activeWorkers.isEmpty

variable (experiment : Experiment labels duts runs)

-- The run that a worker was handed out of a label's list and has not reported yet.
def WorkerPoint.unreported : WorkerPoint labels runs → Option (Fin runs)
  | .starting br => some br
  | .owning br => some br
  | .running br => some br
  | .finishing br => some br
  | _ => none

def Schedv2.pending (sched : Schedv2 labels duts runs) (br : Fin runs) : Nat :=
  (sched.labelBrlMap (experiment.brLabelName br)).count br + sched.holders WorkerPoint.unreported br

def Schedv2.Labelled (sched : Schedv2 labels duts runs) : Prop :=
  ∀ name, ∀ br ∈ sched.labelBrlMap name, experiment.brLabelName br = name

def Schedv2.Shrinks (sched next : Schedv2 labels duts runs) : Prop :=
  ∀ name, next.labelBrlMap name ⊆ sched.labelBrlMap name

-- What one step does to the counters: a run stays pending, is counted, or is dropped by
-- a worker that finds itself terminated.
inductive Counting (sched next : Schedv2 labels duts runs) : Prop
  | same (shrinks : sched.Shrinks next) (pending : ∀ br, next.pending experiment br = sched.pending experiment br)
      (complete : next.numComplete = sched.numComplete) (runComplete : next.numRunComplete = sched.numRunComplete)
  | counted (br : Fin runs) (shrinks : sched.Shrinks next)
      (pending : ∀ other, next.pending experiment other + one (some br) other = sched.pending experiment other)
      (complete : next.numComplete = sched.numComplete + 1)
      (runComplete : next.numRunComplete = if experiment.cacheHit br then sched.numRunComplete else sched.numRunComplete + 1)
  | dropped (br : Fin runs) (shrinks : sched.Shrinks next)
      (pending : ∀ other, next.pending experiment other + one (some br) other = sched.pending experiment other)
      (complete : next.numComplete = sched.numComplete) (runComplete : next.numRunComplete = sched.numRunComplete)
      (terminated : ∃ dut, (sched.workers dut).terminated = true)

theorem same_counting (sched next : Schedv2 labels duts runs) (dut : Fin duts) (worker : Worker labels runs)
    (moved : next.workers = Function.update sched.workers dut worker)
    (unreported : worker.point.unreported = (sched.workers dut).point.unreported)
    (lists : next.labelBrlMap = sched.labelBrlMap) (complete : next.numComplete = sched.numComplete)
    (runComplete : next.numRunComplete = sched.numRunComplete) : Counting experiment sched next := by
  refine .same (fun name => lists ▸ List.Subset.refl _) (fun br => ?_) complete runComplete
  have counted := holders_update sched next WorkerPoint.unreported dut worker br moved
  rw [unreported] at counted
  rw [Schedv2.pending, lists, Schedv2.pending]
  omega

theorem reported_pending (sched next : Schedv2 labels duts runs) (dut : Fin duts) (worker : Worker labels runs) (br : Fin runs)
    (moved : next.workers = Function.update sched.workers dut worker)
    (before : (sched.workers dut).point.unreported = some br) (after : worker.point.unreported = none)
    (lists : next.labelBrlMap = sched.labelBrlMap) (other : Fin runs) :
    next.pending experiment other + one (some br) other = sched.pending experiment other := by
  have counted := holders_update sched next WorkerPoint.unreported dut worker other moved
  rw [before, after] at counted
  rw [Schedv2.pending, lists, Schedv2.pending]
  simp only [one, reduceCtorEq, if_false] at counted ⊢
  omega

theorem update_subset (lists : String → List (Fin runs)) (key : String) (rest : List (Fin runs)) (shorter : rest ⊆ lists key)
    (name : String) : Function.update lists key rest name ⊆ lists name := by
  by_cases same : name = key
  · rw [same, Function.update_self]
    exact shorter
  · rw [Function.update_of_ne same]
    exact List.Subset.refl _

theorem pop_counting (sched : Schedv2 labels duts runs) (dut : Fin duts) (label : Fin labels) (labelled : sched.Labelled experiment)
    (point : (sched.workers dut).point = .popping label) : Counting experiment sched (sched.popBenchmarkRun experiment dut label) := by
  rw [Schedv2.popBenchmarkRun]
  split
  · exact same_counting experiment sched _ dut { sched.workers dut with point := .allocating } rfl (by rw [point]; rfl) rfl rfl rfl
  · rename_i br rest list
    have own : experiment.brLabelName br = experiment.labelName label :=
      labelled _ br (by rw [list]; exact List.mem_cons_self)
    have shorter : rest ⊆ sched.labelBrlMap (experiment.labelName label) := by
      rw [list]
      exact List.subset_cons_self br rest
    refine .same (update_subset sched.labelBrlMap _ rest shorter) (fun other => ?_) rfl rfl
    have counted := holders_update sched ({ sched.goTo dut (.starting br) with
      labelBrlMap := Function.update sched.labelBrlMap (experiment.labelName label) rest
      handedOut := sched.handedOut ++ [br] }) WorkerPoint.unreported dut { sched.workers dut with point := .starting br } other rfl
    rw [point] at counted
    simp only [WorkerPoint.unreported, one, reduceCtorEq, if_false] at counted
    simp only [Schedv2.pending]
    by_cases same : experiment.brLabelName other = experiment.labelName label
    · rw [same, Function.update_self, list, List.count_cons]
      simp only [beq_iff_eq, Option.some.injEq] at counted ⊢
      omega
    · have apart : br ≠ other := fun is_other => same (is_other ▸ own)
      simp only [Option.some.injEq, apart, if_false] at counted
      rw [Function.update_of_ne same]
      omega

theorem own_counting (sched : Schedv2 labels duts runs) (dut : Fin duts) (br : Fin runs)
    (point : (sched.workers dut).point = .owning br) : Counting experiment sched (sched.ownBenchmarkRun experiment dut br) := by
  rw [Schedv2.ownBenchmarkRun]
  split
  · exact .counted br (fun _ => List.Subset.refl _) (reported_pending experiment sched _ dut
      { sched.workers dut with point := .leaving, activeBr := none } br rfl (by rw [point]; rfl) rfl rfl) rfl rfl
  · exact same_counting experiment sched _ dut { sched.workers dut with point := .running br, activeBr := some br } rfl
      (by rw [point]; rfl) rfl rfl rfl

theorem consider_counting (sched : Schedv2 labels duts runs) (dut : Fin duts) (candidate : Option (Candidate labels))
    (rest : List (Fin labels)) (point : (sched.workers dut).point = .considering candidate rest) :
    Counting experiment sched (sched.considerNext experiment dut candidate rest) := by
  have moves := fun (goal : WorkerPoint labels runs) (next : Schedv2 labels duts runs) moved (unreported : goal.unreported = none) =>
    same_counting experiment sched next dut { sched.workers dut with point := goal } moved (by rw [point]; exact unreported)
  cases rest with
  | nil =>
      cases candidate with
      | none => exact moves .leaving _ rfl rfl rfl rfl rfl
      | some best => exact moves (.reimaging best.label) _ rfl rfl rfl rfl rfl
  | cons i others =>
      cases result : sched.mim.considerLabel dut (some (sched.labelBrlMap (experiment.labelName i)).length) candidate i with
      | take =>
          rw [consider_next_take experiment sched dut candidate i others result]
          exact moves (.reimaging i) _ rfl rfl rfl rfl rfl
      | goOn next =>
          rw [consider_next_go_on experiment sched dut candidate next i others result]
          exact moves (.considering next others) _ rfl rfl rfl rfl rfl

theorem work_counting (sched next : Schedv2 labels duts runs) (dut : Fin duts) (read : ChecksumRead) (imaged : Bool)
    (labelled : sched.Labelled experiment) (taken : sched.work experiment dut read imaged = some next) :
    Counting experiment sched next := by
  have moves := fun (worker : Worker labels runs) (next : Schedv2 labels duts runs) moved
      (unreported : worker.point.unreported = (sched.workers dut).point.unreported) =>
    same_counting experiment sched next dut worker moved unreported
  cases work_cases experiment sched next dut read imaged taken with
  | takingCached point =>
      rw [Schedv2.getCachedBenchmarkRun]
      split
      · exact moves { sched.workers dut with point := .settingUp } _ rfl (by rw [point]; rfl) rfl rfl rfl
      · rename_i br _
        exact moves { sched.workers dut with point := .runningCached br } _ rfl (by rw [point]; rfl) rfl rfl rfl
  | runningCached br point =>
      exact moves { sched.workers dut with point := .takingCached } _ rfl (by rw [point]; rfl) rfl rfl rfl
  | settingUp point =>
      have stays := fun (next : Schedv2 labels duts runs) moved =>
        moves { sched.workers dut with point := .testing } next moved (by rw [point]; rfl)
      cases read with
      | raised => exact stays _ rfl rfl rfl rfl
      | failed => exact stays _ rfl rfl rfl rfl
      | read checksum =>
          rw [Schedv2.setupDutLabel]
          split
          · exact stays _ rfl rfl rfl rfl
          · exact stays _ rfl rfl rfl rfl
  | testing point =>
      refine moves { sched.workers dut with point := _ } _ rfl ?_ rfl rfl rfl
      rw [point]
      split <;> rfl
  | asking point =>
      rw [Schedv2.getBenchmarkRun]
      split
      · exact moves { sched.workers dut with point := .allocating } _ rfl (by rw [point]; rfl) rfl rfl rfl
      · split
        · exact moves { sched.workers dut with point := .allocating } _ rfl (by rw [point]; rfl) rfl rfl rfl
        · rename_i label _
          exact moves { sched.workers dut with point := .popping label } _ rfl (by rw [point]; rfl) rfl rfl rfl
  | popping label point => exact pop_counting experiment sched dut label labelled point
  | allocating point =>
      rw [Schedv2.allocateLabel]
      split
      · exact moves { sched.workers dut with point := .leaving } _ rfl (by rw [point]; rfl) rfl rfl rfl
      · exact moves { sched.workers dut with point := .considering none (List.finRange labels) } _ rfl (by rw [point]; rfl) rfl rfl rfl
  | considering candidate rest point => exact consider_counting experiment sched dut candidate rest point
  | reimaging label point =>
      refine moves { sched.workers dut with point := _ } _ rfl ?_ rfl rfl rfl
      rw [point]
      split <;> rfl
  | imaging label point =>
      rw [Schedv2.imageMachine]
      split
      · exact moves { sched.workers dut with point := .testing } _ rfl (by rw [point]; rfl) rfl rfl rfl
      · exact moves { sched.workers dut with point := .leaving } _ rfl (by rw [point]; rfl) rfl rfl rfl
  | starting br point =>
      split
      · rename_i terminated
        exact .dropped br (fun _ => List.Subset.refl _) (reported_pending experiment sched _ dut
          { sched.workers dut with point := .testing } br rfl (by rw [point]; rfl) rfl rfl) rfl rfl ⟨dut, terminated⟩
      · exact moves { sched.workers dut with point := .owning br } _ rfl (by rw [point]; rfl) rfl rfl rfl
  | owning br point => exact own_counting experiment sched dut br point
  | running br point =>
      exact moves { sched.workers dut with point := .finishing br } _ rfl (by rw [point]; rfl) rfl rfl rfl
  | finishing br point =>
      exact .counted br (fun _ => List.Subset.refl _) (reported_pending experiment sched _ dut
        { sched.workers dut with point := .testing, activeBr := none } br rfl (by rw [point]; rfl) rfl rfl) rfl rfl
  | leaving point =>
      exact moves { sched.workers dut with point := .stopped } _ rfl (by rw [point]; rfl) rfl rfl rfl

-- A counter together with the runs that may still be counted in it.
def Schedv2.tally (sched : Schedv2 labels duts runs) (counts : Fin runs → Bool) (count : Nat) : Nat :=
  count + ∑ br, if counts br then sched.pending experiment br else 0

theorem tally_same (sched next : Schedv2 labels duts runs) (counts : Fin runs → Bool) (count : Nat)
    (pending : ∀ br, next.pending experiment br = sched.pending experiment br) :
    next.tally experiment counts count = sched.tally experiment counts count := by
  simp only [Schedv2.tally, pending]

theorem tally_less (sched next : Schedv2 labels duts runs) (counts : Fin runs → Bool) (count : Nat) (br : Fin runs)
    (pending : ∀ other, next.pending experiment other + one (some br) other = sched.pending experiment other) :
    next.tally experiment counts count + (if counts br then 1 else 0) = sched.tally experiment counts count := by
  have split : ∀ other, (if counts other then sched.pending experiment other else 0) =
      (if counts other then next.pending experiment other else 0) + if br = other then (if counts br then 1 else 0) else 0 := by
    intro other
    have moved := pending other
    by_cases same : br = other
    · subst same
      simp only [one, if_true] at moved
      cases counts br with
      | true => simpa using moved.symm
      | false => simp
    · simp only [one, Option.some.injEq, same, if_false] at moved ⊢
      rw [← moved]
      rfl
  simp only [Schedv2.tally, split, Finset.sum_add_distrib, Finset.sum_ite_eq, Finset.mem_univ, if_true]
  omega

def allRuns (_ : Fin runs) : Bool := true

def isNoHit (br : Fin runs) : Bool := !experiment.cacheHit br

-- No step adds to a tally, and without termination it stays the same.
theorem counting_tallies (sched next : Schedv2 labels duts runs) (counting : Counting experiment sched next) :
    (next.tally experiment allRuns next.numComplete ≤ sched.tally experiment allRuns sched.numComplete ∧
      next.tally experiment (isNoHit experiment) next.numRunComplete ≤
        sched.tally experiment (isNoHit experiment) sched.numRunComplete) ∧
    ((∀ dut, (sched.workers dut).terminated = false) →
      next.tally experiment allRuns next.numComplete = sched.tally experiment allRuns sched.numComplete ∧
        next.tally experiment (isNoHit experiment) next.numRunComplete =
          sched.tally experiment (isNoHit experiment) sched.numRunComplete) := by
  cases counting with
  | same shrinks pending complete runComplete =>
      rw [complete, runComplete, tally_same experiment sched next _ _ pending, tally_same experiment sched next _ _ pending]
      exact ⟨⟨Nat.le_refl _, Nat.le_refl _⟩, fun _ => ⟨rfl, rfl⟩⟩
  | counted br shrinks pending complete runComplete =>
      have all := tally_less experiment sched next allRuns sched.numComplete br pending
      have noHit := tally_less experiment sched next (isNoHit experiment) sched.numRunComplete br pending
      have same : next.tally experiment allRuns next.numComplete = sched.tally experiment allRuns sched.numComplete := by
        rw [← all, complete]
        simp only [Schedv2.tally, allRuns, if_true]
        omega
      have also : next.tally experiment (isNoHit experiment) next.numRunComplete =
          sched.tally experiment (isNoHit experiment) sched.numRunComplete := by
        rw [← noHit, runComplete]
        cases hit : experiment.cacheHit br with
        | true => simp [Schedv2.tally, isNoHit, hit]
        | false =>
            simp only [Schedv2.tally, isNoHit, hit, Bool.false_eq_true, if_false, Bool.not_false, if_true]
            omega
      exact ⟨⟨Nat.le_of_eq same, Nat.le_of_eq also⟩, fun _ => ⟨same, also⟩⟩
  | dropped br shrinks pending complete runComplete terminated =>
      have all := tally_less experiment sched next allRuns sched.numComplete br pending
      have noHit := tally_less experiment sched next (isNoHit experiment) sched.numRunComplete br pending
      rw [complete, runComplete]
      refine ⟨⟨Nat.le.intro all, Nat.le.intro noHit⟩, fun going => ?_⟩
      obtain ⟨dut, flag⟩ := terminated
      exact absurd ((going dut).symm.trans flag) nofun

theorem not_hits_sum : notHits experiment.cacheHit = ∑ br, if isNoHit experiment br then 1 else 0 := by
  have counted := Finset.sum_filter_count_eq_countP (fun br => isNoHit experiment br = true) (List.finRange runs)
  have once : ∀ br, (List.finRange runs).count br = 1 := fun br =>
    List.count_eq_one_of_mem (List.nodup_finRange runs) (List.mem_finRange br)
  simp only [once, List.toFinset_finRange, Finset.sum_filter, Bool.decide_eq_true] at counted
  exact counted.symm

-- What is pending when the workers start: the runs that no cache reader found.
theorem start_pending (cached : List (Fin runs)) (installed : Fin duts → Option (Fin labels)) (br : Fin runs) :
    (firstSchedv2 experiment cached installed).pending experiment br = if br ∈ cached then 0 else 1 := by
  have nobody := nobody_holds (firstSchedv2 experiment cached installed) WorkerPoint.unreported (fun _ => rfl) br
  have members : br ∈ (List.finRange runs).filter
      (fun other => experiment.brLabelName other = experiment.brLabelName br ∧ other ∉ cached) ↔ br ∉ cached := by simp
  rw [Schedv2.pending, nobody, Nat.add_zero]
  simp only [firstSchedv2, startSchedv2]
  by_cases hit : br ∈ cached
  · rw [if_pos hit, List.count_eq_zero_of_not_mem fun member => members.mp member hit]
  · rw [if_neg hit, List.count_eq_one_of_mem ((List.nodup_finRange runs).filter _) (members.mpr hit)]

def uncached (cached : List (Fin runs)) : Nat := ∑ br : Fin runs, if br ∈ cached then 0 else 1

theorem uncached_le (cached : List (Fin runs)) : uncached cached ≤ runs := by
  have each : ∀ br ∈ (Finset.univ : Finset (Fin runs)), (if br ∈ cached then 0 else 1) ≤ 1 := fun br _ => by
    split
    · exact Nat.zero_le 1
    · exact Nat.le_refl 1
  have summed := Finset.sum_le_sum each
  rw [uncached]
  simpa using summed

theorem uncached_all_iff (cached : List (Fin runs)) : uncached cached = runs ↔ cached = [] := by
  constructor
  · intro all
    by_contra some
    obtain ⟨hit, member⟩ := List.exists_mem_of_ne_nil cached some
    have each : ∀ br ∈ (Finset.univ : Finset (Fin runs)), (if br ∈ cached then 0 else 1) ≤ 1 := fun br _ => by
      split
      · exact Nat.zero_le 1
      · exact Nat.le_refl 1
    have less := Finset.sum_lt_sum each ⟨hit, Finset.mem_univ hit, by rw [if_pos member]; exact Nat.one_pos⟩
    rw [← uncached, all] at less
    simp at less
  · rintro rfl
    simp [uncached]

-- The cache readers list only runs that are hits.
theorem cached_are_hits (cacheHit : Fin runs → Bool) (readers : CacheReaders runs)
    (reached : Reachable (CacheReaders.step cacheHit) (startCacheReaders runs) readers) :
    ∀ br ∈ readers.cachedBrList, cacheHit br = true := by
  refine reachable_invariant (CacheReaders.step cacheHit) (fun readers => ∀ br ∈ readers.cachedBrList, cacheHit br = true)
    (startCacheReaders runs) readers (fun before read after hits taken => ?_) (fun _ member => absurd member List.not_mem_nil) reached
  rw [CacheReaders.step] at taken
  split at taken
  · rename_i br rest _
    obtain rfl := Option.some.inj taken
    intro other member
    simp only at member
    split at member
    · rename_i found
      obtain earlier | last := List.mem_append.mp member
      · exact hits other earlier
      · rw [List.mem_singleton.mp last]
        exact (Bool.and_eq_true_iff.mp found).1
    · exact hits other member
  · cases taken

theorem start_tallies (cached : List (Fin runs)) (installed : Fin duts → Option (Fin labels))
    (hits : ∀ br ∈ cached, experiment.cacheHit br = true) :
    (firstSchedv2 experiment cached installed).tally experiment allRuns 0 = uncached cached ∧
      (firstSchedv2 experiment cached installed).tally experiment (isNoHit experiment) 0 = notHits experiment.cacheHit := by
  constructor
  · simp [Schedv2.tally, start_pending, allRuns, uncached]
  · rw [Schedv2.tally, not_hits_sum, Nat.zero_add]
    refine Finset.sum_congr rfl fun br _ => ?_
    rw [start_pending]
    by_cases hit : br ∈ cached
    · simp [isNoHit, hits br hit]
    · rw [if_neg hit]

-- Every run, also one with terminations and failed reimages.
structure Bounded (cached : List (Fin runs)) (sched : Schedv2 labels duts runs) : Prop where
  labelled : sched.Labelled experiment
  complete : sched.tally experiment allRuns sched.numComplete ≤ uncached cached
  runComplete : sched.tally experiment (isNoHit experiment) sched.numRunComplete ≤ notHits experiment.cacheHit

-- The undisturbed ones lose no run.
structure Exact (cached : List (Fin runs)) (sched : Schedv2 labels duts runs) : Prop where
  tracked : Tracked experiment sched
  complete : sched.tally experiment allRuns sched.numComplete = uncached cached
  runComplete : sched.tally experiment (isNoHit experiment) sched.numRunComplete = notHits experiment.cacheHit
  departed : ∀ dut, dut ∉ sched.activeWorkers → (sched.workers dut).point = .stopped

theorem counting_shrinks (sched next : Schedv2 labels duts runs) (counting : Counting experiment sched next) :
    sched.Shrinks next := by
  cases counting with
  | same shrinks _ _ _ => exact shrinks
  | counted _ shrinks _ _ _ => exact shrinks
  | dropped _ shrinks _ _ _ _ => exact shrinks

theorem terminate_counting (sched next : Schedv2 labels duts runs) (taken : sched.terminate = some next) :
    Counting experiment sched next := by
  rw [Schedv2.terminate] at taken
  split at taken
  · exact Option.some.inj taken ▸ .same (fun _ => List.Subset.refl _) (fun _ => rfl) rfl rfl
  · split at taken
    · exact Option.some.inj taken ▸ .same (fun _ => List.Subset.refl _) (fun _ => rfl) rfl rfl
    · rename_i dut _
      exact Option.some.inj taken ▸ same_counting experiment sched _ dut { sched.workers dut with terminated := true } rfl rfl rfl rfl rfl
  · split at taken
    · exact Option.some.inj taken ▸ .same (fun _ => List.Subset.refl _) (fun _ => rfl) rfl rfl
    · exact Option.some.inj taken ▸ .same (fun _ => List.Subset.refl _) (fun _ => rfl) rfl rfl

theorem step_counting (sched : Schedv2 labels duts runs) (action : SchedAction duts) (next : Schedv2 labels duts runs)
    (labelled : sched.Labelled experiment) (taken : sched.step experiment action = some next) : Counting experiment sched next := by
  cases action with
  | work dut read imaged => exact work_counting experiment sched next dut read imaged labelled taken
  | terminate => exact terminate_counting experiment sched next taken

theorem step_bounded (cached : List (Fin runs)) (sched : Schedv2 labels duts runs) (action : SchedAction duts)
    (next : Schedv2 labels duts runs) (inv : Bounded experiment cached sched) (taken : sched.step experiment action = some next) :
    Bounded experiment cached next := by
  have counting := step_counting experiment sched action next inv.labelled taken
  obtain ⟨⟨complete, runComplete⟩, _⟩ := counting_tallies experiment sched next counting
  exact ⟨fun name br member => inv.labelled name br (counting_shrinks experiment sched next counting name member),
    Nat.le_trans complete inv.complete, Nat.le_trans runComplete inv.runComplete⟩

theorem work_departed (sched next : Schedv2 labels duts runs) (dut : Fin duts)
    (departed : ∀ other, other ∉ sched.activeWorkers → (sched.workers other).point = .stopped)
    (read : ChecksumRead) (imaged : Bool) (taken : sched.work experiment dut read imaged = some next)
    (other : Fin duts) (gone : other ∉ next.activeWorkers) : (next.workers other).point = .stopped := by
  have worked := work_worked experiment sched next dut read imaged taken
  have working : (sched.workers dut).point ≠ .stopped := by
    intro stopped
    rw [Schedv2.work, stopped] at taken
    cases taken
  by_cases same : other = dut
  · subst same
    obtain active | ⟨_, stopped, _⟩ := worked.active
    · exact absurd (departed other (active ▸ gone)) working
    · exact stopped
  · rw [worked.others other same]
    obtain active | ⟨_, _, erased⟩ := worked.active
    · exact departed other (active ▸ gone)
    · exact departed other fun member => gone (erased ▸ (List.mem_erase_of_ne same).mpr member)

theorem step_exact (cached : List (Fin runs)) (sched : Schedv2 labels duts runs) (action : SchedAction duts)
    (next : Schedv2 labels duts runs) (inv : Exact experiment cached sched) (undisturbed : Undisturbed sched action)
    (taken : sched.step experiment action = some next) : Exact experiment cached next := by
  have counting := step_counting experiment sched action next inv.tracked.accounted.labelled taken
  obtain ⟨complete, runComplete⟩ := (counting_tallies experiment sched next counting).2 inv.tracked.calm.2
  refine ⟨sched_step_tracked experiment sched action next inv.tracked undisturbed taken,
    complete.trans inv.complete, runComplete.trans inv.runComplete, ?_⟩
  cases action with
  | work dut read imaged => exact work_departed experiment sched next dut inv.departed read imaged taken
  | terminate => exact absurd undisturbed id

-- With every worker gone and every run executed nothing is pending.
theorem exact_finished (cached : List (Fin runs)) (sched : Schedv2 labels duts runs) (inv : Exact experiment cached sched)
    (complete : sched.isComplete = true) (finished : ∀ br, br ∈ sched.executedBrs) :
    sched.numComplete = uncached cached ∧ sched.numRunComplete = notHits experiment.cacheHit := by
  have stopped : ∀ dut, (sched.workers dut).point = .stopped := fun dut =>
    inv.departed dut (by rw [List.isEmpty_iff.mp complete]; exact List.not_mem_nil)
  have nothing : ∀ br, sched.pending experiment br = 0 := by
    intro br
    have nobody := nobody_holds sched WorkerPoint.unreported (fun dut => by rw [stopped dut]; rfl) br
    have placed := inv.tracked.accounted.somewhere br
    have executed := List.count_pos_iff.mpr (finished br)
    rw [Schedv2.queued] at placed
    rw [Schedv2.pending, nobody]
    omega
  have all := inv.complete
  have noHit := inv.runComplete
  simp only [Schedv2.tally, nothing, ite_self, Finset.sum_const_zero, Nat.add_zero] at all noHit
  exact ⟨all, noHit⟩

end Workers

-- Both modes: the polled threads, and the workers of Schedv2, whose cached runs are
-- never reported.
theorem progress_counts_right_iff (experiment : Experiment labels duts runs) (calls : List (ThreadAction runs))
    (threads : ActiveThreads runs)
    (polled : exec (ActiveThreads.step experiment.cacheHit) (startThreads runs) calls = some threads)
    (readers : CacheReaders runs) (read : Reachable (CacheReaders.step experiment.cacheHit) (startCacheReaders runs) readers)
    (installed : Fin duts → Option (Fin labels)) (start : Schedv2 labels duts runs)
    (made : newSchedv2 experiment readers.cachedBrList installed = .ok start) (actions : List (SchedAction duts))
    (sched : Schedv2 labels duts runs) (worked : exec (Schedv2.step experiment) start actions = some sched) :
    CountsWithin experiment.cacheHit threads.numComplete threads.numRunComplete ∧
      (threads.returned = some true → CountsRight experiment.cacheHit threads.numComplete threads.numRunComplete) ∧
      CountsWithin experiment.cacheHit sched.numComplete sched.numRunComplete ∧
      (Along (Schedv2.step experiment) Undisturbed start actions →
        sched.isComplete = true → (∀ br, br ∈ sched.executedBrs) →
        (CountsRight experiment.cacheHit sched.numComplete sched.numRunComplete ↔ readers.cachedBrList = [])) := by
  obtain ⟨_, rfl⟩ := (new_schedv2_iff experiment readers.cachedBrList installed start).mp made
  have threadsInv : Polled experiment.cacheHit threads :=
    along_invariant (ActiveThreads.step experiment.cacheHit) (fun _ _ => True) (Polled experiment.cacheHit)
      (fun before action after inv _ taken => thread_step_polled experiment.cacheHit before action after inv taken) calls
      (startThreads runs) threads (start_threads_polled experiment.cacheHit) (along_true _ _ calls) polled
  have distinct := cached_br_list_nodup experiment.cacheHit readers read
  have hits := cached_are_hits experiment.cacheHit readers read
  have starts := start_tallies experiment readers.cachedBrList installed hits
  have tracked := first_schedv2_tracked experiment readers.cachedBrList installed distinct
  have bounded : Bounded experiment readers.cachedBrList sched :=
    along_invariant (Schedv2.step experiment) (fun _ _ => True) (Bounded experiment readers.cachedBrList)
      (fun before action after inv _ taken => step_bounded experiment readers.cachedBrList before action after inv taken) actions
      _ sched ⟨tracked.accounted.labelled, Nat.le_of_eq starts.1, Nat.le_of_eq starts.2⟩ (along_true _ _ actions) worked
  refine ⟨polled_within _ threads threadsInv, polled_right _ threads threadsInv, ?within, fun undisturbed complete finished => ?right⟩
  case within =>
    have all := bounded.complete
    have noHit := bounded.runComplete
    have limit := uncached_le readers.cachedBrList
    rw [Schedv2.tally] at all noHit
    exact ⟨by omega, by omega⟩
  case right =>
    have exact_ : Exact experiment readers.cachedBrList sched :=
      along_invariant (Schedv2.step experiment) Undisturbed (Exact experiment readers.cachedBrList)
        (fun before action after inv allowed taken =>
          step_exact experiment readers.cachedBrList before action after inv allowed taken) actions _ sched
        ⟨tracked, starts.1, starts.2, fun dut gone => absurd (List.mem_finRange dut) gone⟩ undisturbed worked
    obtain ⟨all, noHit⟩ := exact_finished experiment readers.cachedBrList sched exact_ complete finished
    rw [← uncached_all_iff, ← all]
    exact ⟨fun right => right.complete, fun right => ⟨right, noHit⟩⟩

def noHits : Experiment 2 2 3 := { twoImages with cacheHit := fun _ => false }

def allEnded : List (ThreadAction 3) :=
  (List.finRange 3).map .threadEnds ++ [.isComplete, .lookAtNext, .lookAtNext, .lookAtNext, .isComplete, .lookAtNext,
    .lookAtNext, .isComplete]

-- lumpy has asked for its run when stumpy does all the others.
def noHitsRun : List (SchedAction 2) :=
  let lumpy (count : Nat) := List.replicate count (SchedAction.work ⟨0, Nat.two_pos⟩ (.read "5f3e") true)
  lumpy 9 ++ List.replicate 30 (.work (Fin.last 1) .failed true) ++ lumpy 8

theorem no_hits_counted : ∃ threads start sched,
    exec (ActiveThreads.step noHits.cacheHit) (startThreads 3) allEnded = some threads ∧ threads.returned = some true ∧
    CountsRight noHits.cacheHit threads.numComplete threads.numRunComplete ∧
    newSchedv2 noHits [] (fun _ => none) = .ok start ∧
    exec (Schedv2.step noHits) start noHitsRun = some sched ∧ sched.isComplete = true ∧
    CountsRight noHits.cacheHit sched.numComplete sched.numRunComplete := by
  have read : Reachable (CacheReaders.step noHits.cacheHit) (startCacheReaders 3) (startCacheReaders 3) := ⟨[], rfl⟩
  have made := (new_schedv2_iff noHits [] (fun _ => none) _).mpr ⟨by decide, rfl⟩
  have undisturbed := imaged_undisturbed noHits (firstSchedv2 noHits [] fun _ => none) noHitsRun rfl
  obtain ⟨sched, worked, values⟩ := Option.map_eq_some_iff.mp (show
    (exec (Schedv2.step noHits) (firstSchedv2 noHits [] fun _ => none) noHitsRun).map (fun sched =>
      (sched.isComplete, sched.executedBrs)) = some (true, [1, 0, 2]) by decide +kernel)
  obtain ⟨complete, executed⟩ := Prod.mk.inj values
  have finished : ∀ br, br ∈ sched.executedBrs := by
    rw [executed]
    decide
  have counts := progress_counts_right_iff noHits allEnded _ rfl (startCacheReaders 3) read (fun _ => none) _ made noHitsRun sched
    worked
  exact ⟨_, _, sched, rfl, rfl, counts.2.1 rfl, made, worked, complete, (counts.2.2.2 undisturbed complete finished).mpr rfl⟩

theorem cached_run_not_counted : ∃ start sched, newSchedv2 twoImages [2] (fun _ => none) = .ok start ∧
    exec (Schedv2.step twoImages) start twoImagesRun = some sched ∧
    Along (Schedv2.step twoImages) Undisturbed start twoImagesRun ∧
    sched.isComplete = true ∧ (∀ br, br ∈ sched.executedBrs) ∧ sched.numComplete = 2 ∧
    ¬ CountsRight twoImages.cacheHit sched.numComplete sched.numRunComplete := by
  obtain ⟨sched, worked, values⟩ := Option.map_eq_some_iff.mp (show
    (exec (Schedv2.step twoImages) (firstSchedv2 twoImages [2] fun _ => none) twoImagesRun).map (fun sched =>
      (sched.isComplete, sched.executedBrs, sched.numComplete)) = some (true, [2, 0, 1], 2) by decide)
  simp only [Prod.mk.injEq] at values
  obtain ⟨complete, executed, counted⟩ := values
  have made := (new_schedv2_iff twoImages [2] (fun _ => none) _).mpr ⟨by decide, rfl⟩
  refine ⟨_, sched, made, worked, imaged_undisturbed twoImages _ twoImagesRun rfl, complete, ?_, counted, fun right => ?_⟩
  · rw [executed]
    decide
  · exact absurd (counted.symm.trans right.complete) (by decide)

end ToolchainUtils.Crosperf
