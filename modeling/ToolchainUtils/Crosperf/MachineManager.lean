import ToolchainUtils.Crosperf.MachineImageManager
import ToolchainUtils.Transition

set_option autoImplicit false

namespace ToolchainUtils.Crosperf.LocalMachines

-- A checksum of None or '' says nothing, any other one names one image.
def ChecksumOf {ι : Type} (imageOf : String → ι) (checksum : Option String) (content : ι) : Prop :=
  ∀ c ∈ checksum, c ≠ "" → content = imageOf c

instance decidableChecksumOf {ι : Type} [DecidableEq ι] (imageOf : String → ι) (checksum : Option String) (content : ι) :
    Decidable (ChecksumOf imageOf checksum content) :=
  inferInstanceAs (Decidable (∀ c ∈ checksum, c ≠ "" → content = imageOf c))

def truthy (checksum : Option String) : Bool := checksum.any (· ≠ "")

structure ImageLabel (ι : Type) (imageOf : String → ι) extends Label where
  image : ι
  checksumOf : ChecksumOf imageOf checksum image

-- Times are in microseconds.
structure CrosMachine (ρ : Type) where
  checksum : Option String
  locked : Bool
  releasedTime : Int
  testRun : Option ρ
deriving Repr

-- Where a benchmark run without an owner thread is: in the loop of AcquireMachine with
-- the machines it has still to try in this round, or with a machine of its own, whose
-- test it runs once ImageMachine has returned.
inductive Point where
  | idle
  | locking (left : List String)
  | acquired (machine : String)
  | imaged (machine : String)
  | removed (machine : String)
deriving DecidableEq, Repr

def Point.trying : Point → Option String
  | .locking left => left.head?
  | _ => none

def Point.machine : Point → Option String
  | .acquired m => some m
  | .imaged m => some m
  | .removed m => some m
  | _ => none

-- A machine is known by its name, which AddMachine keeps distinct. lockOwner is the run
-- that has _lock over several steps, content what is on the disk of each machine.
structure MachineManager (ρ ι : Type) where
  allMachines : List String
  machines : List String
  machine : String → CrosMachine ρ
  acquireTimeout : Int
  numReimages : Nat
  chromeVersion : String → String
  lockOwner : Option ρ
  content : String → ι
  point : ρ → Point

-- How a call of image_chromeos.DoImage ends, and what is then on the machine unless it
-- is the image; LogFatal in it raises SystemExit. Test mode, which skips it, is left out.
inductive DoImage (ι : Type) where
  | succeeds
  | fails (left : ι)
  | raises (left : ι)
deriving DecidableEq, Repr

-- What stays on the machine when neither try of ImageMachine images it.
def leftUnimaged {ι : Type} : DoImage ι → DoImage ι → Option ι
  | .succeeds, _ => none
  | .raises left, _ => some left
  | .fails _, .succeeds => none
  | .fails _, .fails left => some left
  | .fails _, .raises left => some left

-- The calls with the answers they get. AcquireMachine is one step for its entry, one for
-- each machine it tries to lock and one for the end of a round, since it keeps _lock over
-- all of them while ImageMachine goes on. cat is the stripped checksum file, version
-- what GetChromeVersion returns; none stands for a command that fails.
inductive Call (ρ ι : Type) where
  | acquireMachine (run : ρ)
  | tryToLockMachine (run : ρ) (lock : Bool) (cat : Option String)
  | endRound (run : ρ) (now : String → Int × Int)
  | imageMachine (run : ρ) (first second : DoImage ι) (version : Option String)
  | removeMachine (run : ρ)
  | releaseMachine (run : ρ) (now : Int)

def seconds (n : Int) : Int := n * 1000000

section Operations

variable {ρ ι : Type} {imageOf : String → ι}

-- The last loop of AcquireMachine, with the two readings of the clock for each machine.
def lastReleased (now : String → Int × Int) :
    List String → (String → CrosMachine ρ) → Option String × (String → CrosMachine ρ)
  | [], machine => (none, machine)
  | m :: rest, machine =>
      if (now m).1 - (machine m).releasedTime > seconds 15 then
        lastReleased now rest (Function.update machine m { machine m with releasedTime := (now m).2 })
      else if (now m).2 - (machine m).releasedTime > seconds 8 then (some m, machine)
      else lastReleased now rest machine

namespace MachineManager

variable (manager : MachineManager ρ ι)

def getMachines (label : Label) : List String := manager.allMachines.filter (· ∈ label.remote)

def getAvailableMachines (label : Label) : List String := manager.machines.filter (· ∈ label.remote)

def setMachine (m : String) (crosMachine : CrosMachine ρ) : MachineManager ρ ι :=
  { manager with machine := Function.update manager.machine m crosMachine }

-- Without a locks directory nobody else can have the machine.
def mayLock (locksDir : Bool) (m : String) (lock : Bool) : Bool := !manager.machines.contains m && (!locksDir || lock)

def tryToLockMachine (locksDir : Bool) (m : String) (lock : Bool) (cat : Option String) : MachineManager ρ ι :=
  if manager.mayLock locksDir m lock then
    { manager with
      machines := manager.machines ++ [m]
      machine := Function.update manager.machine m
        { manager.machine m with checksum := cat.or (manager.machine m).checksum } }
  else manager

def unlockedMachines (label : Label) : List String :=
  (manager.getAvailableMachines label).filter fun m => !(manager.machine m).locked

def hasImage (label : Label) (m : String) : Bool :=
  truthy label.checksum && (manager.machine m).checksum == label.checksum

def chooseMachine (label : Label) (now : String → Int × Int) : Option String × (String → CrosMachine ρ) :=
  match (manager.unlockedMachines label).find? (manager.hasImage label) with
  | some m => (some m, manager.machine)
  | none =>
      match (manager.unlockedMachines label).find? fun m => !truthy (manager.machine m).checksum with
      | some m => (some m, manager.machine)
      | none => lastReleased now (manager.unlockedMachines label) manager.machine

-- The last component says whether the call returns.
def imageMachine (label : ImageLabel ι imageOf) (m : String) (first second : DoImage ι) (version : Option String) :
    MachineManager ρ ι × Bool :=
  if manager.hasImage label.toLabel m then (manager, true)
  else
    match leftUnimaged first second with
    | some left => ({ manager with content := Function.update manager.content m left }, false)
    | none =>
        let imaged : MachineManager ρ ι :=
          { manager with
            machine := Function.update manager.machine m { manager.machine m with checksum := label.checksum }
            content := Function.update manager.content m label.image
            numReimages := manager.numReimages + 1 }
        if manager.chromeVersion label.name ≠ "" then (imaged, true)
        else
          match version with
          | none => (imaged, false)
          | some found =>
              ({ imaged with chromeVersion := Function.update manager.chromeVersion label.name found }, true)

variable [DecidableEq ρ]

def moveTo (run : ρ) (point : Point) : MachineManager ρ ι :=
  { manager with point := Function.update manager.point run point }

def acquireMachine (label : Label) (run : ρ) : MachineManager ρ ι :=
  if 0 ≤ manager.acquireTimeout then
    { manager.moveTo run (.locking (manager.getMachines label)) with lockOwner := some run }
  else manager

-- After a round with nothing available the run sleeps; LogFatal ends it when the time is up.
def endRound (label : Label) (run : ρ) (now : String → Int × Int) : MachineManager ρ ι :=
  if (manager.getAvailableMachines label).isEmpty then
    let timeout := manager.acquireTimeout - max 1 (min manager.acquireTimeout 120)
    if 0 ≤ timeout then
      { manager.moveTo run (.locking (manager.getMachines label)) with acquireTimeout := timeout }
    else { manager.moveTo run .idle with acquireTimeout := timeout, lockOwner := none }
  else
    let chosen := manager.chooseMachine label now
    match chosen.1 with
    | none => { manager.moveTo run .idle with machine := chosen.2, lockOwner := none }
    | some m =>
        { manager.moveTo run (.acquired m) with
          machine := Function.update chosen.2 m { chosen.2 m with locked := true, testRun := some run }
          lockOwner := none }

def removeMachine (run : ρ) (m : String) : MachineManager ρ ι :=
  { manager.moveTo run (.removed m) with machines := manager.machines.filter (· ≠ m) }

-- A failed assert ends the run too, in its finally clause.
def releaseMachine (run : ρ) (m : String) (now : Int) : MachineManager ρ ι :=
  if m ∈ manager.machines ∧ (manager.machine m).locked then
    (manager.moveTo run .idle).setMachine m { manager.machine m with releasedTime := now, locked := false }
  else manager.moveTo run .idle

end MachineManager

def step [DecidableEq ρ] (label : ρ → ImageLabel ι imageOf) (locksDir : Bool) (manager : MachineManager ρ ι) :
    Call ρ ι → Option (MachineManager ρ ι)
  | .acquireMachine run =>
      if manager.point run = .idle ∧ manager.lockOwner = none then
        some (manager.acquireMachine (label run).toLabel run)
      else none
  | .tryToLockMachine run lock cat =>
      match manager.point run with
      | .locking (m :: rest) => some ((manager.tryToLockMachine locksDir m lock cat).moveTo run (.locking rest))
      | _ => none
  | .endRound run now =>
      if manager.point run = .locking [] then some (manager.endRound (label run).toLabel run now) else none
  | .imageMachine run first second version =>
      match manager.point run with
      | .acquired m | .imaged m =>
          let image := manager.imageMachine (label run) m first second version
          some (image.1.moveTo run (if image.2 then .imaged m else .acquired m))
      | _ => none
  | .removeMachine run =>
      match manager.point run with
      | .acquired m | .imaged m => if manager.lockOwner = none then some (manager.removeMachine run m) else none
      | _ => none
  | .releaseMachine run now =>
      match (manager.point run).machine with
      | some m => if manager.lockOwner = none then some (manager.releaseMachine run m now) else none
      | none => none

end Operations

section Choice

variable {ρ ι : Type}

-- Looking for a machine changes nothing but release times.
def OnlyTimes (before after : String → CrosMachine ρ) : Prop :=
  ∀ m, (after m).checksum = (before m).checksum ∧ (after m).locked = (before m).locked

theorem last_released_only_times (now : String → Int × Int) (names : List String) (machine : String → CrosMachine ρ) :
    OnlyTimes machine (lastReleased now names machine).2 := by
  induction names generalizing machine with
  | nil => exact fun _ => ⟨rfl, rfl⟩
  | cons name rest ih =>
      rw [lastReleased]
      split
      · intro m
        obtain ⟨checksum, locked⟩ := ih (Function.update machine name { machine name with releasedTime := (now name).2 }) m
        by_cases same : m = name
        · subst same
          simpa only [Function.update_self] using And.intro checksum locked
        · simpa only [Function.update_of_ne same] using And.intro checksum locked
      · split
        · exact fun _ => ⟨rfl, rfl⟩
        · exact ih machine

theorem last_released_mem (now : String → Int × Int) (names : List String) (machine : String → CrosMachine ρ) (m : String)
    (found : (lastReleased now names machine).1 = some m) : m ∈ names := by
  induction names generalizing machine with
  | nil => exact absurd found (by simp [lastReleased])
  | cons name rest ih =>
      rw [lastReleased] at found
      split at found
      · exact List.mem_cons_of_mem _ (ih _ found)
      · split at found
        · exact Option.some.inj found ▸ List.mem_cons_self
        · exact List.mem_cons_of_mem _ (ih _ found)

variable (manager : MachineManager ρ ι) (label : Label) (now : String → Int × Int)

theorem choose_machine_only_times : OnlyTimes manager.machine (manager.chooseMachine label now).2 := by
  rw [MachineManager.chooseMachine]
  split
  · exact fun _ => ⟨rfl, rfl⟩
  · split
    · exact fun _ => ⟨rfl, rfl⟩
    · exact last_released_only_times now _ _

theorem choose_machine_mem (m : String) (chosen : (manager.chooseMachine label now).1 = some m) :
    m ∈ manager.unlockedMachines label := by
  rw [MachineManager.chooseMachine] at chosen
  split at chosen
  · rename_i other found
    exact Option.some.inj chosen ▸ List.mem_of_find?_eq_some found
  · split at chosen
    · rename_i other found
      exact Option.some.inj chosen ▸ List.mem_of_find?_eq_some found
    · exact last_released_mem now _ _ m chosen

theorem choose_machine_unlocked (m : String) (chosen : (manager.chooseMachine label now).1 = some m) :
    (manager.machine m).locked = false := by
  have listed := choose_machine_mem manager label now m chosen
  simpa using (List.mem_filter.mp listed).2

theorem try_to_lock_point (manager : MachineManager ρ ι) (locksDir : Bool) (m : String) (lock : Bool) (cat : Option String) :
    (manager.tryToLockMachine locksDir m lock cat).point = manager.point ∧
      (manager.tryToLockMachine locksDir m lock cat).content = manager.content := by
  rw [MachineManager.tryToLockMachine]
  split <;> exact ⟨rfl, rfl⟩

theorem try_to_lock_locked (manager : MachineManager ρ ι) (locksDir : Bool) (m : String) (lock : Bool) (cat : Option String)
    (name : String) : ((manager.tryToLockMachine locksDir m lock cat).machine name).locked = (manager.machine name).locked := by
  rw [MachineManager.tryToLockMachine]
  split
  · by_cases same : name = m
    · subst same
      simp only [Function.update_self]
    · simp only [Function.update_of_ne same]
  · rfl

end Choice

section Locks

variable {ρ ι : Type} {imageOf : String → ι}

-- The early exit, the failure and the success of ImageMachine.
theorem image_machine_cases (manager : MachineManager ρ ι) (label : ImageLabel ι imageOf) (m : String)
    (first second : DoImage ι) (version : Option String) :
    (manager.hasImage label.toLabel m = true ∧ manager.imageMachine label m first second version = (manager, true)) ∨
    (∃ left, manager.hasImage label.toLabel m = false ∧ leftUnimaged first second = some left ∧
      manager.imageMachine label m first second version =
        ({ manager with content := Function.update manager.content m left }, false)) ∨
    (∃ versions returned, manager.imageMachine label m first second version =
      ({ manager with
         machine := Function.update manager.machine m { manager.machine m with checksum := label.checksum }
         content := Function.update manager.content m label.image
         numReimages := manager.numReimages + 1
         chromeVersion := versions }, returned)) := by
  cases has : manager.hasImage label.toLabel m with
  | true => exact .inl ⟨rfl, by simp [MachineManager.imageMachine, has]⟩
  | false =>
      right
      cases tried : leftUnimaged first second with
      | some left => exact .inl ⟨left, rfl, rfl, by simp [MachineManager.imageMachine, has, tried]⟩
      | none =>
          right
          simp only [MachineManager.imageMachine, has, tried, Bool.false_eq_true, if_false]
          split
          · exact ⟨_, _, rfl⟩
          · cases version with
            | none => exact ⟨_, _, rfl⟩
            | some found => exact ⟨_, _, rfl⟩

theorem image_machine_locked (manager : MachineManager ρ ι) (label : ImageLabel ι imageOf) (m : String)
    (first second : DoImage ι) (version : Option String) (name : String) :
    ((manager.imageMachine label m first second version).1.machine name).locked = (manager.machine name).locked := by
  obtain ⟨_, done⟩ | ⟨content, _, _, done⟩ | ⟨versions, returned, done⟩ :=
    image_machine_cases manager label m first second version
  · rw [done]
  · rw [done]
  · rw [done]
    by_cases same : name = m
    · subst same
      simp only [Function.update_self]
    · simp only [Function.update_of_ne same]

theorem image_machine_point (manager : MachineManager ρ ι) (label : ImageLabel ι imageOf) (m : String)
    (first second : DoImage ι) (version : Option String) :
    (manager.imageMachine label m first second version).1.point = manager.point := by
  obtain ⟨_, done⟩ | ⟨content, _, _, done⟩ | ⟨versions, returned, done⟩ :=
    image_machine_cases manager label m first second version <;> rw [done]

variable [DecidableEq ρ]

theorem image_step_cases (label : ρ → ImageLabel ι imageOf) (locksDir : Bool) (manager next : MachineManager ρ ι) (run : ρ)
    (first second : DoImage ι) (version : Option String)
    (taken : step label locksDir manager (.imageMachine run first second version) = some next) :
    ∃ m, (manager.point run).machine = some m ∧
      next = (manager.imageMachine (label run) m first second version).1.moveTo run
        (if (manager.imageMachine (label run) m first second version).2 then .imaged m else .acquired m) := by
  simp only [step] at taken
  split at taken
  · rename_i m at_
    exact ⟨m, by rw [at_]; rfl, (Option.some.inj taken).symm⟩
  · rename_i m at_
    exact ⟨m, by rw [at_]; rfl, (Option.some.inj taken).symm⟩
  · exact absurd taken nofun

theorem try_step_cases (label : ρ → ImageLabel ι imageOf) (locksDir : Bool) (manager next : MachineManager ρ ι) (run : ρ)
    (lock : Bool) (cat : Option String)
    (taken : step label locksDir manager (.tryToLockMachine run lock cat) = some next) :
    ∃ m rest, manager.point run = .locking (m :: rest) ∧
      next = (manager.tryToLockMachine locksDir m lock cat).moveTo run (.locking rest) := by
  simp only [step] at taken
  split at taken
  · rename_i m rest waiting
    exact ⟨m, rest, waiting, (Option.some.inj taken).symm⟩
  · exact absurd taken nofun

-- What one call does to the locks when it moves its run to `point`. A release that does
-- not find its machine in the list, or not locked, leaves the lock as it is.
inductive LockMove (manager : MachineManager ρ ι) (call : Call ρ ι) (next : MachineManager ρ ι) (run : ρ) (point : Point) : Prop
  | kept (same : point.machine = (manager.point run).machine)
      (locks : ∀ name, (next.machine name).locked = (manager.machine name).locked)
  | taken (m : String) (holds : point.machine = some m) (empty : (manager.point run).machine = none)
      (free : (manager.machine m).locked = false)
      (locks : ∀ name, (next.machine name).locked = if name = m then true else (manager.machine name).locked)
  | released (m : String) (now : Int) (called : call = .releaseMachine run now) (held : (manager.point run).machine = some m)
      (gone : point.machine = none) (listed : m ∈ manager.machines)
      (locks : ∀ name, (next.machine name).locked = if name = m then false else (manager.machine name).locked)
  | left (m : String) (now : Int) (called : call = .releaseMachine run now) (held : (manager.point run).machine = some m)
      (gone : point.machine = none) (missed : ¬ (m ∈ manager.machines ∧ (manager.machine m).locked = true))
      (locks : ∀ name, (next.machine name).locked = (manager.machine name).locked)

def Moves (manager : MachineManager ρ ι) (call : Call ρ ι) (next : MachineManager ρ ι) : Prop :=
  ∃ run point, next.point = Function.update manager.point run point ∧ LockMove manager call next run point

theorem acquire_moves (label : Label) (manager : MachineManager ρ ι) (call : Call ρ ι) (run : ρ)
    (idle : manager.point run = .idle) : Moves manager call (manager.acquireMachine label run) := by
  have empty : (manager.point run).machine = none := by rw [idle]; rfl
  rw [MachineManager.acquireMachine]
  split
  · exact ⟨run, _, rfl, .kept empty.symm fun _ => rfl⟩
  · exact ⟨run, manager.point run, (Function.update_eq_self run manager.point).symm, .kept rfl fun _ => rfl⟩

theorem end_round_moves (label : Label) (manager : MachineManager ρ ι) (call : Call ρ ι) (run : ρ) (now : String → Int × Int)
    (waiting : manager.point run = .locking []) : Moves manager call (manager.endRound label run now) := by
  have empty : (manager.point run).machine = none := by rw [waiting]; rfl
  have times := choose_machine_only_times manager label now
  rw [MachineManager.endRound]
  split
  · dsimp only
    split
    · exact ⟨run, _, rfl, .kept empty.symm fun _ => rfl⟩
    · exact ⟨run, _, rfl, .kept empty.symm fun _ => rfl⟩
  · dsimp only
    split
    · exact ⟨run, _, rfl, .kept empty.symm fun name => (times name).2⟩
    · rename_i m chosen
      have unlocked := choose_machine_unlocked manager label now m chosen
      refine ⟨run, .acquired m, rfl, .taken m rfl empty unlocked fun name => ?_⟩
      by_cases same : name = m
      · subst same
        simp only [Function.update_self, if_true]
      · simp only [Function.update_of_ne same, if_neg same]
        exact (times name).2

theorem release_moves (manager : MachineManager ρ ι) (run : ρ) (m : String) (now : Int)
    (held : (manager.point run).machine = some m) :
    Moves manager (.releaseMachine run now) (manager.releaseMachine run m now) := by
  rw [MachineManager.releaseMachine]
  split
  · rename_i found
    refine ⟨run, .idle, rfl, .released m now rfl held rfl found.1 fun name => ?_⟩
    by_cases same : name = m
    · subst same
      simp only [MachineManager.setMachine, Function.update_self, if_true]
    · simp only [MachineManager.setMachine, MachineManager.moveTo, Function.update_of_ne same, if_neg same]
  · rename_i missed
    exact ⟨run, .idle, rfl, .left m now rfl held rfl missed fun _ => rfl⟩

theorem step_moves (label : ρ → ImageLabel ι imageOf) (locksDir : Bool) (manager : MachineManager ρ ι) (call : Call ρ ι)
    (next : MachineManager ρ ι) (taken : step label locksDir manager call = some next) : Moves manager call next := by
  cases call with
  | acquireMachine run =>
      simp only [step] at taken
      split at taken
      · rename_i guard
        exact Option.some.inj taken ▸ acquire_moves _ manager _ run guard.1
      · exact absurd taken nofun
  | tryToLockMachine run lock cat =>
      obtain ⟨m, rest, waiting, rfl⟩ := try_step_cases label locksDir manager next run lock cat taken
      have points := (try_to_lock_point manager locksDir m lock cat).1
      refine ⟨run, .locking rest, by rw [← points]; rfl, .kept (by rw [waiting]; rfl) fun name => ?_⟩
      exact try_to_lock_locked manager locksDir m lock cat name
  | endRound run now =>
      simp only [step] at taken
      split at taken
      · rename_i waiting
        exact Option.some.inj taken ▸ end_round_moves _ manager _ run now waiting
      · exact absurd taken nofun
  | imageMachine run first second version =>
      obtain ⟨m, held, rfl⟩ := image_step_cases label locksDir manager next run first second version taken
      have points := image_machine_point manager (label run) m first second version
      refine ⟨run, _, by rw [← points]; rfl, .kept ?_ fun name => ?_⟩
      · rw [held]
        split <;> rfl
      · exact image_machine_locked manager (label run) m first second version name
  | removeMachine run =>
      simp only [step] at taken
      split at taken
      · rename_i m acquired
        split at taken
        · exact Option.some.inj taken ▸ ⟨run, .removed m, rfl, .kept (by rw [acquired]; rfl) fun _ => rfl⟩
        · exact absurd taken nofun
      · rename_i m imaged
        split at taken
        · exact Option.some.inj taken ▸ ⟨run, .removed m, rfl, .kept (by rw [imaged]; rfl) fun _ => rfl⟩
        · exact absurd taken nofun
      · exact absurd taken nofun
  | releaseMachine run now =>
      simp only [step] at taken
      split at taken
      · rename_i m held
        split at taken
        · exact Option.some.inj taken ▸ release_moves manager run m now held
        · exact absurd taken nofun
      · exact absurd taken nofun

end Locks

end ToolchainUtils.Crosperf.LocalMachines
