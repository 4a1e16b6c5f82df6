import ToolchainUtils.AtomicCalls
import ToolchainUtils.AfeLockMachine.MachineNames
import ToolchainUtils.Crosperf.LockedMachines

set_option autoImplicit false

-- Crosperf runs that lock their machines on Autotest Front End servers which they share with other runs.
namespace ToolchainUtils.Crosperf.ExperimentRunner

open PyString AfeLockMachine AtomicCalls AtomicCalls.Program

-- What crosperf calls while others go on. The experiment itself, and the report behind it, take a
-- while; it starts with its locked_machines and the machines that its lists name.
inductive Call where
  | getHostnames
  | getHosts (address : Address)
  | modifyHosts (address : Address) (updateData : UpdateData)
  | createHost (host : Text)
  | startExperiment (lockedMachines machines : List Text)
  | endExperiment
  | report
deriving DecidableEq

-- An error is the text of what the server raised.
abbrev Answer : Call → Type
  | .getHostnames => Except Text (List Text)
  | .getHosts _ => Except Text (List HostInfo)
  | .modifyHosts _ _ => Except Text Unit
  | .createHost _ => Except Text Unit
  | .startExperiment _ _ => Unit
  | .endExperiment => Unit
  | .report => Unit

inductive Failure where
  | lockManager (raised : Raised)
  | server (text : Text)
  | assertion
  | runtimeError (message : Text)
deriving DecidableEq

abbrev Session (Value : Type) : Type := Program Answer Failure Value

def hostnames : Session (Except Text (List Text)) := ask Call.getHostnames

def getHosts (address : Address) : Session (Except Text (List HostInfo)) := ask (Call.getHosts address)

def modifyHosts (address : Address) (updateData : UpdateData) : Session (Except Text Unit) :=
  ask (Call.modifyHosts address updateData)

def createHost (host : Text) : Session (Except Text Unit) := ask (Call.createHost host)

structure CrosMachine where
  object : Nat
  name : Text
deriving DecidableEq

-- An experiment always has machines. allMachines and machines are those of its MachineManager.
structure Experiment where
  remote : List Text
  labelRemotes : List (List Text)
  allMachines : List CrosMachine
  machines : List CrosMachine
  given : remote ≠ []

def Experiment.lists (experiment : Experiment) : MachineLists experiment.labelRemotes.length CrosMachine where
  remote := experiment.remote
  labelRemote := experiment.labelRemotes.get
  allMachines := experiment.allMachines
  machines := experiment.machines

-- A list that is made of a set has nothing twice.
structure Python extends System where
  list_set_nodup : ∀ items, (listSet items).Nodup

def getMachineList (experiment : Experiment) : Session (List Text) :=
  if ∀ remotes ∈ experiment.labelRemotes, ∀ r ∈ remotes, r ∈ experiment.remote then .done experiment.remote
  else .raised .assertion

def fromManager {Value : Type} (result : Except Raised Value) : Session Value := ofExcept (result.mapError .lockManager)

def fromServer {Value : Type} (answer : Except Text Value) : Session Value := ofExcept (answer.mapError .server)

-- AFELockManager(remotes, '', chromeos_root, None).
def lockOptions (remotes : List Text) : Options := ⟨remotes, false, none, true⟩

def getAllNonlabMachines (localAfe : Bool) : Session (List Text) :=
  if localAfe then do
    let names ← hostnames
    fromServer names
  else .done []

-- Without a list it is about all the machines that the servers have.
def managedMachines (useLocal : Bool) (machines toolchainLabMachines : List Text) : Session (List Text) :=
  if machines = [] then do
    let others ← getAllNonlabMachines useLocal
    .done (toolchainLabMachines ++ others)
  else .done machines

def newLockManagerFor (system : System) (remotes toolchainLabMachines : List Text) : Session AFELockManager := do
  let useLocal := usesLocal (lockOptions remotes) (system.listSet remotes) toolchainLabMachines
  fromManager (if useLocal then checkLocalServer system (lockOptions remotes) else .ok ())
  let machines ← managedMachines useLocal (system.listSet remotes) toolchainLabMachines
  .done
    { user := system.user
      useLocal := useLocal
      localAfe := useLocal
      machines := machines
      toolchainLabMachines := toolchainLabMachines
      force := false }

def newLockManager (system : System) (remotes : List Text) : Session AFELockManager :=
  (getAllToolchainLabMachines defaultRemotes).elim (.raised (.lockManager .valueError)) (newLockManagerFor system remotes)

def machineIsKnown (manager : AFELockManager) (machine : Text) : Session Bool :=
  if machine ∈ manager.toolchainLabMachines then .done true
  else if manager.localAfe then do
    let names ← getAllNonlabMachines manager.localAfe
    .done (decide (machine ∈ names))
  else .done false

def addLocalMachine (system : System) (manager : AFELockManager) (m : Text) : Session Unit :=
  if manager.localAfe then do
    fromManager (checkMachine system m ("Machine ".toList ++ m ++ " is not responding to ping.".toList))
    let created ← createHost m
    fromServer created
  else .done ()

def addUnknownMachine (system : System) (manager : AFELockManager) (m : Text) : Session Unit := do
  let known ← machineIsKnown manager m
  if known then .done () else addLocalMachine system manager m

def getHostInfo (manager : AFELockManager) (m : Text) : Session HostInfo :=
  if m ∈ manager.toolchainLabMachines ∨ m ++ dotCros ∈ manager.toolchainLabMachines then do
    let found ← getHosts ⟨.main, hostPart m⟩
    match found with
    | .error text => .raised (.server text)
    | .ok [] =>
        .raised (.lockManager (.afeAccessError
          ("Unable to get information about ".toList ++ m ++ " from main autotest server.".toList)))
    | .ok (hostInfo :: _) => .done hostInfo
  else if manager.localAfe then do
    let found ← getHosts ⟨.nonlab, m⟩
    match found with
    | .error text => .raised (.server text)
    | .ok [] =>
        .raised (.lockManager (.afeAccessError
          ("Unable to get information about ".toList ++ m ++ " from local autotest server.".toList)))
    | .ok (hostInfo :: _) => .done hostInfo
  else .raised (.lockManager .attributeError)

def addMachineState (manager : AFELockManager) (machineList : SortedDict Text MachineState) (m : Text) :
    Session (SortedDict Text MachineState) := do
  let hostInfo ← getHostInfo manager m
  .done (machineList.insert hostInfo.hostname (machineState hostInfo))

def getMachineStates (manager : AFELockManager) : Session (SortedDict Text MachineState) :=
  if manager.useLocal && !manager.localAfe then
    .raised (.lockManager (.noAFEServer "Error: Cannot connect to local AFE server.".toList))
  else manager.machines.foldlM (addMachineState manager) SortedDict.empty

def updateLockInAFE (manager : AFELockManager) (shouldLockMachine : Bool) (machine : Text) : Session Unit :=
  let action := if shouldLockMachine then "lock".toList else "unlock".toList
  let updateData := ⟨shouldLockMachine, "toolchain user request (".toList ++ manager.user ++ ")".toList⟩
  let m := modified manager.toolchainLabMachines machine
  let failed := fun e => Failure.lockManager (.lockingError
    ("Unable to ".toList ++ action ++ " machine ".toList ++ m.host ++ ". ".toList ++ e))
  if m.server = .main ∨ manager.localAfe = true then do
    let answer ← modifyHosts m updateData
    ofExcept (answer.mapError failed)
  else .raised (failed "'NoneType' object has no attribute 'run'".toList)

def updateMachines (manager : AFELockManager) (lockMachines : Bool) : List Text → Session (List Text)
  | [] => .done []
  | m :: rest => do
      updateLockInAFE manager lockMachines m
      let updated ← updateMachines manager lockMachines rest
      .done (m :: updated)

-- The experiment runs with whatever machines are left in its lists.
def runExperiment {labels : Nat} (lockedMachines : List Text) (left : MachineLists labels CrosMachine) : Session Unit := do
  let _ ← (ask (Call.startExperiment lockedMachines (left.names CrosMachine.name)) : Session Unit)
  (ask Call.endExperiment : Session Unit)

def report : Session Unit := ask Call.report

-- The machines that the run locked, and the lists that are left of the experiment's. When the
-- locking raises, locked_machines stays empty.
def lockAllMachines (system : System) (experiment : Experiment) :
    Session (List Text × MachineLists experiment.labelRemotes.length CrosMachine) := do
  let machines ← getMachineList experiment
  let manager ← newLockManager system machines
  forEach (addUnknownMachine system manager) manager.machines
  let machineStates ← getMachineStates manager
  let free ← fromManager (checkMachineLocks manager.user .lock (system.iteritems machineStates) manager.machines)
  let lockedMachines ← updateMachines manager true free
  let left := Crosperf.lockAllMachines CrosMachine.name experiment.lists lockedMachines
  ofExcept (left.2.mapError .runtimeError)
  .done (lockedMachines, left.1)

def unlockAllMachines (system : System) (lockedMachines : List Text) : Session Unit :=
  if lockedMachines = [] then .done ()
  else do
    let manager ← newLockManager system lockedMachines
    let machineStates ← getMachineStates manager
    let owned ← fromManager (checkMachineLocks manager.user .unlock (system.iteritems machineStates) manager.machines)
    let _ ← updateMachines manager false owned
    .done ()

-- _Run: what the experiment raises goes on once the machines are unlocked.
def runLocked (system : System) (experiment : Experiment) : Session (List Text) := do
  let locked ← attempt (lockAllMachines system experiment)
  match locked with
  | .error _ => .done []
  | .ok (lockedMachines, left) => do
      runExperiment lockedMachines left
      let _ ← attempt (unlockAllMachines system lockedMachines)
      .done lockedMachines

def unlockIfLocked (manager : AFELockManager) (entry : Text × MachineState) : Session Unit :=
  if entry.2.locked then updateLockInAFE manager false entry.1 else .done ()

-- Experiment.Cleanup, that the exit handler of crosperf calls.
def cleanup (system : System) (lockedMachines : List Text) : Session Unit :=
  if lockedMachines = [] then .done ()
  else do
    let manager ← newLockManager system lockedMachines
    let machineStates ← getMachineStates manager
    forEach (unlockIfLocked manager) (system.iteritems machineStates)

-- A run of crosperf that does not use file locks, from the experiment to its end.
def crosperf (system : System) (experiment : Experiment) : Session Unit := do
  let lockedMachines ← runLocked system experiment
  report
  let _ ← attempt (cleanup system lockedMachines)
  .done ()

-- What the answers to a run say of it: the hosts that it has locked and not unlocked since, the
-- machines that are in the lists of its experiment while it goes on, whether its exit handler is at
-- work and had an error, and what it had locked when a server would not lock the next machine.
structure Noted where
  held : List Address
  running : List Text
  exiting : Bool
  exitFailed : Bool
  stranded : List Address

def Noted.none : Noted := ⟨[], [], false, false, []⟩

def noteFailure (noted : Noted) : Noted := { noted with exitFailed := noted.exitFailed || noted.exiting }

def noteAnswer {Value : Type} (noted : Noted) (answer : Except Text Value) : Noted :=
  match answer with
  | .ok _ => noted
  | .error _ => noteFailure noted

def note (noted : Noted) : (request : Call) → Answer request → Noted
  | .getHostnames, answer => noteAnswer noted answer
  | .getHosts _, .ok [] => noteFailure noted
  | .getHosts _, answer => noteAnswer noted answer
  | .modifyHosts address updateData, .ok () =>
      if updateData.locked then { noted with held := address :: noted.held }
      else { noted with held := noted.held.filter fun other => other ≠ address }
  | .modifyHosts _ updateData, .error _ =>
      if updateData.locked then { noted with stranded := noted.held } else noteFailure noted
  | .createHost _, answer => noteAnswer noted answer
  | .startExperiment _ machines, _ => { noted with running := machines }
  | .endExperiment, _ => { noted with running := [] }
  | .report, _ => { noted with exiting := true }

-- The locks that a call changes.
def changes : (request : Call) → Answer request → Address → Prop
  | .modifyHosts address _, .ok (), other => other = address
  | _, _, _ => False

-- The servers with all the hosts that they have: get_hosts tells who has locked a host, and
-- modify_hosts does not lock a host that is locked.
structure AutotestServers (State Choice : Type) where
  lockedBy : State → Address → Option Text
  serve : Text → State → Choice → (request : Call) → Answer request × State
  tells : ∀ user state choice address infos, (serve user state choice (.getHosts address)).1 = .ok infos → ∀ info ∈ infos,
    info.hostname = address.host ∧ info.locked = (lockedBy state address).isSome ∧
      ∀ owner, lockedBy state address = some owner → info.lockedBy = owner
  locks : ∀ user state choice address updateData, updateData.locked = true →
    (serve user state choice (.modifyHosts address updateData)).1 = .ok () →
      lockedBy state address = Option.none ∧ lockedBy (serve user state choice (.modifyHosts address updateData)).2 address = some user
  unlocks : ∀ user state choice address updateData, updateData.locked = false →
    (serve user state choice (.modifyHosts address updateData)).1 = .ok () →
      lockedBy (serve user state choice (.modifyHosts address updateData)).2 address = Option.none
  keeps : ∀ user state choice request address, ¬ changes request (serve user state choice request).1 address →
    lockedBy (serve user state choice request).2 address = lockedBy state address

end ToolchainUtils.Crosperf.ExperimentRunner
