import Mathlib.Data.List.Basic
import ToolchainUtils.Crosperf.MachineImageManager

set_option autoImplicit false

namespace ToolchainUtils.Crosperf

-- AddMachine asserts that no two duts have one name. The runs are distinct objects, so
-- a run is its position in benchmark_runs.
structure Experiment (labels duts runs : Nat) where
  label : Fin labels → Label
  dut : Fin duts → String
  brLabel : Fin runs → Fin labels
  cacheHit : Fin runs → Bool
  distinct : Function.Injective dut

-- Where a DutWorker is; one point for every look at what other threads write.
inductive WorkerPoint (labels runs : Nat) where
  | takingCached
  | runningCached (br : Fin runs)
  | settingUp
  | testing
  | asking
  | popping (label : Fin labels)
  | allocating
  | considering (candidate : Option (Candidate labels)) (rest : List (Fin labels))
  | reimaging (label : Fin labels)
  | imaging (label : Fin labels)
  | starting (br : Fin runs)
  | owning (br : Fin runs)
  | running (br : Fin runs)
  | finishing (br : Fin runs)
  | leaving
  | stopped
deriving DecidableEq, Repr

structure Worker (labels runs : Nat) where
  point : WorkerPoint labels runs
  terminated : Bool
  activeBr : Option (Fin runs)
deriving DecidableEq, Repr

-- Where the loop of Schedv2.terminate is, by the position of its list iterator.
inductive Terminating (duts : Nat) where
  | idle
  | next (index : Nat)
  | ending (index : Nat) (dut : Fin duts)
deriving DecidableEq, Repr

-- br.run() by a worker; the label is the one its dut had then.
structure Execution (labels duts runs : Nat) where
  dut : Fin duts
  br : Fin runs
  cached : Bool
  label : Option (Fin labels)
deriving DecidableEq, Repr

-- handedOut and executed are what happened so far; no step reads them.
structure Schedv2 (labels duts runs : Nat) where
  cachedBrList : List (Fin runs)
  labelBrlMap : String → List (Fin runs)
  mim : MachineImageManager labels duts
  dutLabel : Fin duts → Option (Fin labels)
  workers : Fin duts → Worker labels runs
  activeWorkers : List (Fin duts)
  finishedWorkers : List (Fin duts)
  terminated : Bool
  terminating : Terminating duts
  ownerThread : Fin runs → Option (Fin duts)
  brTerminated : Fin runs → Bool
  numComplete : Nat
  numRunComplete : Nat
  assertionFailed : Bool
  handedOut : List (Fin runs)
  executed : List (Execution labels duts runs)

variable {labels duts runs : Nat}

def Experiment.labelName (experiment : Experiment labels duts runs) (i : Fin labels) : String := (experiment.label i).name

def Experiment.brLabelName (experiment : Experiment labels duts runs) (br : Fin runs) : String :=
  experiment.labelName (experiment.brLabel br)

-- Schedv2 once the cache readers left `cached`, in the order they finished, with the
-- image manager that __init__ made.
def startSchedv2 (experiment : Experiment labels duts runs) (cached : List (Fin runs)) (installed : Fin duts → Option (Fin labels))
    (mim : MachineImageManager labels duts) : Schedv2 labels duts runs where
  cachedBrList := cached
  labelBrlMap name := (List.finRange runs).filter fun br => experiment.brLabelName br = name ∧ br ∉ cached
  mim := mim.computeInitialAllocation.1
  dutLabel := installed
  workers _ := { point := .takingCached, terminated := false, activeBr := none }
  activeWorkers := List.finRange duts
  finishedWorkers := []
  terminated := false
  terminating := .idle
  ownerThread _ := none
  brTerminated _ := false
  numComplete := 0
  numRunComplete := 0
  assertionFailed := false
  handedOut := []
  executed := []

-- Schedv2.__init__, which goes down with the KeyError of the image manager's.
def newSchedv2 (experiment : Experiment labels duts runs) (cached : List (Fin runs)) (installed : Fin duts → Option (Fin labels)) :
    Except String (Schedv2 labels duts runs) :=
  (MachineImageManager.init experiment.label experiment.dut).map (startSchedv2 experiment cached installed)

def firstSchedv2 (experiment : Experiment labels duts runs) (cached : List (Fin runs)) (installed : Fin duts → Option (Fin labels)) :
    Schedv2 labels duts runs :=
  startSchedv2 experiment cached installed (newMachineImageManager experiment.label experiment.dut)

theorem new_schedv2_iff (experiment : Experiment labels duts runs) (cached : List (Fin runs))
    (installed : Fin duts → Option (Fin labels)) (start : Schedv2 labels duts runs) :
    newSchedv2 experiment cached installed = .ok start ↔
      RemotesListed experiment.label experiment.dut ∧ start = firstSchedv2 experiment cached installed := by
  rw [newSchedv2]
  constructor
  · intro made
    cases built : MachineImageManager.init experiment.label experiment.dut with
    | error unknown =>
        rw [built] at made
        cases made
    | ok manager =>
        rw [built] at made
        obtain ⟨listed, same⟩ := (init_iff experiment.label experiment.dut experiment.distinct manager).mp built
        rw [firstSchedv2, ← same]
        exact ⟨listed, (Except.ok.inj made).symm⟩
  · rintro ⟨listed, rfl⟩
    rw [(init_iff experiment.label experiment.dut experiment.distinct _).mpr ⟨listed, rfl⟩]
    rfl

def Schedv2.setWorker (sched : Schedv2 labels duts runs) (dut : Fin duts) (worker : Worker labels runs) : Schedv2 labels duts runs :=
  { sched with workers := Function.update sched.workers dut worker }

def Schedv2.goTo (sched : Schedv2 labels duts runs) (dut : Fin duts) (point : WorkerPoint labels runs) : Schedv2 labels duts runs :=
  sched.setWorker dut { sched.workers dut with point := point }

-- What `cat /usr/local/osimage_checksum_file` on the dut comes back with.
inductive ChecksumRead where
  | raised
  | failed
  | read (checksum : String)
deriving DecidableEq, Repr

def Schedv2.getCachedBenchmarkRun (sched : Schedv2 labels duts runs) (dut : Fin duts) : Schedv2 labels duts runs :=
  match sched.cachedBrList.getLast? with
  | none => sched.goTo dut .settingUp
  | some br => { sched.goTo dut (.runningCached br) with
      cachedBrList := sched.cachedBrList.dropLast
      handedOut := sched.handedOut ++ [br] }

def Schedv2.runCached (sched : Schedv2 labels duts runs) (dut : Fin duts) (br : Fin runs) : Schedv2 labels duts runs :=
  { sched.goTo dut .takingCached with
    executed := sched.executed ++ [{ dut := dut, br := br, cached := true, label := sched.dutLabel dut }] }

def Schedv2.setupDutLabel (experiment : Experiment labels duts runs) (sched : Schedv2 labels duts runs) (dut : Fin duts) :
    ChecksumRead → Schedv2 labels duts runs
  | .raised => { sched.goTo dut .testing with dutLabel := Function.update sched.dutLabel dut none }
  | .failed => sched.goTo dut .testing
  | .read checksum => match (List.finRange labels).find? fun i => (experiment.label i).checksum = some checksum with
      | none => sched.goTo dut .testing
      | some i => { sched.goTo dut .testing with dutLabel := Function.update sched.dutLabel dut (some i) }

-- get_benchmark_run up to its lock, and under the lock.
def Schedv2.getBenchmarkRun (sched : Schedv2 labels duts runs) (dut : Fin duts) : Schedv2 labels duts runs :=
  if sched.terminated then sched.goTo dut .allocating
  else match sched.dutLabel dut with
    | none => sched.goTo dut .allocating
    | some label => sched.goTo dut (.popping label)

def Schedv2.popBenchmarkRun (experiment : Experiment labels duts runs) (sched : Schedv2 labels duts runs) (dut : Fin duts)
    (label : Fin labels) : Schedv2 labels duts runs :=
  match sched.labelBrlMap (experiment.labelName label) with
  | [] => sched.goTo dut .allocating
  | br :: rest => { sched.goTo dut (.starting br) with
      labelBrlMap := Function.update sched.labelBrlMap (experiment.labelName label) rest
      handedOut := sched.handedOut ++ [br] }

def Schedv2.allocateLabel (sched : Schedv2 labels duts runs) (dut : Fin duts) : Schedv2 labels duts runs :=
  if sched.terminated then sched.goTo dut .leaving
  else sched.goTo dut (.considering none (List.finRange labels))

-- allocate takes no lock, so the other workers go on between two rounds of its loop.
def Schedv2.considerNext (experiment : Experiment labels duts runs) (sched : Schedv2 labels duts runs) (dut : Fin duts) :
    Option (Candidate labels) → List (Fin labels) → Schedv2 labels duts runs
  | none, [] => sched.goTo dut .leaving
  | some best, [] => { sched.goTo dut (.reimaging best.label) with mim := sched.mim.recordAllocate best.label dut }
  | candidate, i :: rest =>
      match sched.mim.considerLabel dut (some (sched.labelBrlMap (experiment.labelName i)).length) candidate i with
      | .take => { sched.goTo dut (.reimaging i) with mim := sched.mim.recordAllocate i dut }
      | .goOn next => sched.goTo dut (.considering next rest)

theorem consider_next_take (experiment : Experiment labels duts runs) (sched : Schedv2 labels duts runs) (dut : Fin duts)
    (candidate : Option (Candidate labels)) (i : Fin labels) (rest : List (Fin labels))
    (takes : sched.mim.considerLabel dut (some (sched.labelBrlMap (experiment.labelName i)).length) candidate i = .take) :
    sched.considerNext experiment dut candidate (i :: rest) =
      { sched.goTo dut (.reimaging i) with mim := sched.mim.recordAllocate i dut } := by
  rw [Schedv2.considerNext, takes]

theorem consider_next_go_on (experiment : Experiment labels duts runs) (sched : Schedv2 labels duts runs) (dut : Fin duts)
    (candidate next : Option (Candidate labels)) (i : Fin labels) (rest : List (Fin labels))
    (goes : sched.mim.considerLabel dut (some (sched.labelBrlMap (experiment.labelName i)).length) candidate i = .goOn next) :
    sched.considerNext experiment dut candidate (i :: rest) = sched.goTo dut (.considering next rest) := by
  rw [Schedv2.considerNext, goes]

def Schedv2.imageMachine (sched : Schedv2 labels duts runs) (dut : Fin duts) (label : Fin labels) (imaged : Bool) :
    Schedv2 labels duts runs :=
  if imaged then { sched.goTo dut .testing with dutLabel := Function.update sched.dutLabel dut (some label) }
  else sched.goTo dut .leaving

def Schedv2.benchmarkRunFinished (experiment : Experiment labels duts runs) (sched : Schedv2 labels duts runs) (br : Fin runs) :
    Schedv2 labels duts runs :=
  { sched with
    numComplete := sched.numComplete + 1
    numRunComplete := if experiment.cacheHit br then sched.numRunComplete else sched.numRunComplete + 1 }

-- An AssertionError passes the finally clauses of both functions.
def Schedv2.ownBenchmarkRun (experiment : Experiment labels duts runs) (sched : Schedv2 labels duts runs) (dut : Fin duts)
    (br : Fin runs) : Schedv2 labels duts runs :=
  match sched.ownerThread br with
  | some _ => { (sched.setWorker dut { sched.workers dut with point := .leaving, activeBr := none }).benchmarkRunFinished
      experiment br with assertionFailed := true }
  | none => { sched.setWorker dut { sched.workers dut with point := .running br, activeBr := some br } with
      ownerThread := Function.update sched.ownerThread br (some dut) }

def Schedv2.runBenchmark (sched : Schedv2 labels duts runs) (dut : Fin duts) (br : Fin runs) : Schedv2 labels duts runs :=
  { sched.goTo dut (.finishing br) with
    executed := sched.executed ++ [{ dut := dut, br := br, cached := false, label := sched.dutLabel dut }] }

def Schedv2.finishBenchmarkRun (experiment : Experiment labels duts runs) (sched : Schedv2 labels duts runs) (dut : Fin duts)
    (br : Fin runs) : Schedv2 labels duts runs :=
  (sched.setWorker dut { sched.workers dut with point := .testing, activeBr := none }).benchmarkRunFinished experiment br

def Schedv2.dutWorkerFinished (sched : Schedv2 labels duts runs) (dut : Fin duts) : Schedv2 labels duts runs :=
  { sched.goTo dut .stopped with
    activeWorkers := sched.activeWorkers.erase dut
    finishedWorkers := sched.finishedWorkers ++ [dut] }

-- DutWorker.run, from one point to the next.
def Schedv2.work (experiment : Experiment labels duts runs) (sched : Schedv2 labels duts runs) (dut : Fin duts)
    (read : ChecksumRead) (imaged : Bool) : Option (Schedv2 labels duts runs) :=
  match (sched.workers dut).point with
  | .takingCached => some (sched.getCachedBenchmarkRun dut)
  | .runningCached br => some (sched.runCached dut br)
  | .settingUp => some (sched.setupDutLabel experiment dut read)
  | .testing => some (sched.goTo dut (if (sched.workers dut).terminated then .leaving else .asking))
  | .asking => some (sched.getBenchmarkRun dut)
  | .popping label => some (sched.popBenchmarkRun experiment dut label)
  | .allocating => some (sched.allocateLabel dut)
  | .considering candidate rest => some (sched.considerNext experiment dut candidate rest)
  | .reimaging label => some (sched.goTo dut (if (sched.workers dut).terminated then .leaving else .imaging label))
  | .imaging label => some (sched.imageMachine dut label imaged)
  | .starting br => some (sched.goTo dut (if (sched.workers dut).terminated then .testing else .owning br))
  | .owning br => some (sched.ownBenchmarkRun experiment dut br)
  | .running br => some (sched.runBenchmark dut br)
  | .finishing br => some (sched.finishBenchmarkRun experiment dut br)
  | .leaving => some (sched.dutWorkerFinished dut)
  | .stopped => none

-- What DutWorker.run does at each point, for the invariants.
inductive Works (experiment : Experiment labels duts runs) (sched : Schedv2 labels duts runs) (dut : Fin duts)
    (read : ChecksumRead) (imaged : Bool) : Schedv2 labels duts runs → Prop where
  | takingCached (point : (sched.workers dut).point = .takingCached) :
      Works experiment sched dut read imaged (sched.getCachedBenchmarkRun dut)
  | runningCached (br : Fin runs) (point : (sched.workers dut).point = .runningCached br) :
      Works experiment sched dut read imaged (sched.runCached dut br)
  | settingUp (point : (sched.workers dut).point = .settingUp) :
      Works experiment sched dut read imaged (sched.setupDutLabel experiment dut read)
  | testing (point : (sched.workers dut).point = .testing) :
      Works experiment sched dut read imaged (sched.goTo dut (if (sched.workers dut).terminated then .leaving else .asking))
  | asking (point : (sched.workers dut).point = .asking) :
      Works experiment sched dut read imaged (sched.getBenchmarkRun dut)
  | popping (label : Fin labels) (point : (sched.workers dut).point = .popping label) :
      Works experiment sched dut read imaged (sched.popBenchmarkRun experiment dut label)
  | allocating (point : (sched.workers dut).point = .allocating) :
      Works experiment sched dut read imaged (sched.allocateLabel dut)
  | considering (candidate : Option (Candidate labels)) (rest : List (Fin labels))
      (point : (sched.workers dut).point = .considering candidate rest) :
      Works experiment sched dut read imaged (sched.considerNext experiment dut candidate rest)
  | reimaging (label : Fin labels) (point : (sched.workers dut).point = .reimaging label) :
      Works experiment sched dut read imaged
        (sched.goTo dut (if (sched.workers dut).terminated then .leaving else .imaging label))
  | imaging (label : Fin labels) (point : (sched.workers dut).point = .imaging label) :
      Works experiment sched dut read imaged (sched.imageMachine dut label imaged)
  | starting (br : Fin runs) (point : (sched.workers dut).point = .starting br) :
      Works experiment sched dut read imaged (sched.goTo dut (if (sched.workers dut).terminated then .testing else .owning br))
  | owning (br : Fin runs) (point : (sched.workers dut).point = .owning br) :
      Works experiment sched dut read imaged (sched.ownBenchmarkRun experiment dut br)
  | running (br : Fin runs) (point : (sched.workers dut).point = .running br) :
      Works experiment sched dut read imaged (sched.runBenchmark dut br)
  | finishing (br : Fin runs) (point : (sched.workers dut).point = .finishing br) :
      Works experiment sched dut read imaged (sched.finishBenchmarkRun experiment dut br)
  | leaving (point : (sched.workers dut).point = .leaving) :
      Works experiment sched dut read imaged (sched.dutWorkerFinished dut)

theorem work_cases (experiment : Experiment labels duts runs) (sched next : Schedv2 labels duts runs) (dut : Fin duts)
    (read : ChecksumRead) (imaged : Bool) (taken : sched.work experiment dut read imaged = some next) :
    Works experiment sched dut read imaged next := by
  rw [Schedv2.work] at taken
  cases point : (sched.workers dut).point with
  | stopped =>
      rw [point] at taken
      cases taken
  | runningCached br =>
      rw [point] at taken
      exact Option.some.inj taken ▸ .runningCached br point
  | popping label =>
      rw [point] at taken
      exact Option.some.inj taken ▸ .popping label point
  | considering candidate rest =>
      rw [point] at taken
      exact Option.some.inj taken ▸ .considering candidate rest point
  | reimaging label =>
      rw [point] at taken
      exact Option.some.inj taken ▸ .reimaging label point
  | imaging label =>
      rw [point] at taken
      exact Option.some.inj taken ▸ .imaging label point
  | starting br =>
      rw [point] at taken
      exact Option.some.inj taken ▸ .starting br point
  | owning br =>
      rw [point] at taken
      exact Option.some.inj taken ▸ .owning br point
  | running br =>
      rw [point] at taken
      exact Option.some.inj taken ▸ .running br point
  | finishing br =>
      rw [point] at taken
      exact Option.some.inj taken ▸ .finishing br point
  | takingCached =>
      rw [point] at taken
      exact Option.some.inj taken ▸ .takingCached point
  | settingUp =>
      rw [point] at taken
      exact Option.some.inj taken ▸ .settingUp point
  | testing =>
      rw [point] at taken
      exact Option.some.inj taken ▸ .testing point
  | asking =>
      rw [point] at taken
      exact Option.some.inj taken ▸ .asking point
  | allocating =>
      rw [point] at taken
      exact Option.some.inj taken ▸ .allocating point
  | leaving =>
      rw [point] at taken
      exact Option.some.inj taken ▸ .leaving point

-- for dut_worker in self._active_workers, a list that workers leave meanwhile.
def Schedv2.terminate (sched : Schedv2 labels duts runs) : Option (Schedv2 labels duts runs) :=
  match sched.terminating with
  | .idle => some { sched with terminated := true, terminating := .next 0 }
  | .next index => match sched.activeWorkers[index]? with
      | none => some { sched with terminating := .idle }
      | some dut => some { sched.setWorker dut { sched.workers dut with terminated := true } with terminating := .ending index dut }
  | .ending index dut => match (sched.workers dut).activeBr with
      | none => some { sched with terminating := .next (index + 1) }
      | some br => some { sched with brTerminated := Function.update sched.brTerminated br true, terminating := .next (index + 1) }

inductive SchedAction (duts : Nat) where
  | work (dut : Fin duts) (read : ChecksumRead) (imaged : Bool)
  | terminate
deriving DecidableEq, Repr

def Schedv2.step (experiment : Experiment labels duts runs) (sched : Schedv2 labels duts runs) :
    SchedAction duts → Option (Schedv2 labels duts runs)
  | .work dut read imaged => sched.work experiment dut read imaged
  | .terminate => sched.terminate

end ToolchainUtils.Crosperf
