import Mathlib.Data.Char
import Mathlib.Data.List.Lex
import ToolchainUtils.PyString
import ToolchainUtils.SortedDict
import ToolchainUtils.TextReplace

set_option autoImplicit false

namespace ToolchainUtils.AfeLockMachine

open PyString

-- The two commands that change a lock.
inductive Command where
  | lock
  | unlock
deriving DecidableEq, Repr

inductive Raised where
  | valueError
  | attributeError
  | machineNotPingable (message : Text)
  | noAFEServer (message : Text)
  | afeAccessError (message : Text)
  | lockingError (message : Text)
  | dontOwnLock (message : Text)
deriving DecidableEq, Repr

structure HostInfo where
  hostname : Text
  platform : Option Text
  locked : Bool
  lockedBy : Text
  lockTime : Text
deriving DecidableEq, Repr

structure MachineState where
  board : Text
  locked : Bool
  lockedBy : Text
  lockTime : Text
deriving DecidableEq, Repr

structure UpdateData where
  locked : Bool
  lockReason : Text
deriving DecidableEq, Repr

-- The calls of an Autotest Front End server. run('modify_hosts') gives the server behind
-- the call, or the text of the exception.
structure Afe (σ : Type) where
  getHostnames : σ → List Text
  getHosts : σ → Text → List HostInfo
  modifyHosts : σ → List Text → UpdateData → Except Text σ

structure Servers (σ : Type) where
  afe : σ
  localAfe : σ

-- What the run finds around it: the user, the machines that answer a ping, and the
-- orders in which Python goes through a set and a dictionary.
structure System where
  user : Text
  machineIsPingable : Text → Bool
  listSet : List Text → List Text
  list_set_mem : ∀ items item, item ∈ listSet items ↔ item ∈ items
  iteritems : SortedDict Text MachineState → List (Text × MachineState)
  iteritems_mem : ∀ states entry, entry ∈ iteritems states ↔ entry ∈ states.entries

structure Options where
  remotes : List Text
  force : Bool
  localServer : Option Text
  useLocal : Bool

-- localAfe tells whether the manager has a local server.
structure AFELockManager where
  user : Text
  useLocal : Bool
  localAfe : Bool
  machines : List Text
  toolchainLabMachines : List Text
  force : Bool

structure Outcome (σ : Type) where
  servers : Servers σ
  raised : Option Raised

-- The file crosperf/default_remotes.
def defaultRemotes : Text :=
  "x86-alex  : chromeos2-row9-rack10-host1.cros  chromeos2-row9-rack10-host3.cros  chromeos2-row9-rack10-host5.cros\n".toList ++
    "lumpy     : chromeos2-row9-rack9-host9.cros   chromeos2-row9-rack9-host11.cros  chromeos2-row9-rack9-host13.cros\n".toList ++
    "parrot    : chromeos2-row9-rack9-host15.cros  chromeos2-row9-rack9-host17.cros  chromeos2-row9-rack9-host19.cros\n".toList ++
    "daisy     : chromeos2-row9-rack9-host3.cros   chromeos2-row9-rack9-host5.cros   chromeos2-row9-rack9-host7.cros\n".toList ++
    "peach_pit : chromeos2-row9-rack10-host13.cros chromeos2-row9-rack10-host15.cros chromeos2-row9-rack10-host17.cros\n".toList ++
    "peppy     : chromeos2-row9-rack10-host19.cros chromeos2-row9-rack10-host21.cros chromeos2-row9-rack9-host1.cros\n".toList ++
    "squawks   : chromeos2-row9-rack10-host7.cros  chromeos2-row9-rack10-host9.cros  chromeos2-row9-rack10-host11.cros\n".toList ++
    "elm       : chromeos2-row9-rack8-host19.cros  chromeos2-row9-rack8-host21.cros\n".toList

def lineRemotes (line : Text) : Option (List Text) :=
  match TextReplace.splitAt [':'] line with
  | [_, remotes] => some ((split (strip remotes)).map strip)
  | _ => none

-- none stands for the ValueError of a line that does not have one colon.
def getAllToolchainLabMachines (machinesFile : Text) : Option (List Text) :=
  ((readlines machinesFile).mapM lineRemotes).map List.flatten

def dotCros : Text := ".cros".toList

-- machine.split('.')[0].
def hostPart (machine : Text) : Text := machine.takeWhile (· != '.')

def defaultLocalServer : Text := "chrotomation2.mtv.corp.google.com".toList

def checkMachine (system : System) (machine errorMsg : Text) : Except Raised Unit :=
  if system.machineIsPingable machine || system.machineIsPingable (machine ++ dotCros) then .ok ()
  else .error (.machineNotPingable errorMsg)

def localServerName (options : Options) : Text :=
  (options.localServer.filter fun server => !server.isEmpty).getD defaultLocalServer

def checkLocalServer (system : System) (options : Options) : Except Raised Unit :=
  checkMachine system (localServerName options)
    ("Local autotest server machine ".toList ++ localServerName options ++ " not responding to ping.".toList)

-- Machines that all are in the lab do not need a local server.
def usesLocal (options : Options) (machines toolchainLabMachines : List Text) : Bool :=
  if machines ≠ [] ∧ ∀ m ∈ machines, m ∈ toolchainLabMachines then false else options.useLocal

section Calls

variable {σ : Type} (afe : Afe σ)

def getAllNonlabMachines (servers : Servers σ) (localAfe : Bool) : List Text :=
  if localAfe then afe.getHostnames servers.localAfe else []

def lockManagerFor (system : System) (servers : Servers σ) (options : Options) (toolchainLabMachines : List Text) :
    Except Raised AFELockManager :=
  let machines := system.listSet options.remotes
  let useLocal := usesLocal options machines toolchainLabMachines
  (if useLocal then checkLocalServer system options else .ok ()).map fun _ =>
    { user := system.user
      useLocal := useLocal
      localAfe := useLocal
      machines := if machines = [] then toolchainLabMachines ++ getAllNonlabMachines afe servers useLocal else machines
      toolchainLabMachines := toolchainLabMachines
      force := options.force }

def newLockManager (system : System) (servers : Servers σ) (options : Options) : Except Raised AFELockManager :=
  (getAllToolchainLabMachines defaultRemotes).elim (.error .valueError) (lockManagerFor afe system servers options)

def getHostInfo (manager : AFELockManager) (servers : Servers σ) (m : Text) : Except Raised HostInfo :=
  if m ∈ manager.toolchainLabMachines ∨ m ++ dotCros ∈ manager.toolchainLabMachines then
    match afe.getHosts servers.afe (hostPart m) with
    | [] => .error (.afeAccessError ("Unable to get information about ".toList ++ m ++ " from main autotest server.".toList))
    | hostInfo :: _ => .ok hostInfo
  else if manager.localAfe then
    match afe.getHosts servers.localAfe m with
    | [] => .error (.afeAccessError ("Unable to get information about ".toList ++ m ++ " from local autotest server.".toList))
    | hostInfo :: _ => .ok hostInfo
  else .error .attributeError

def machineState (hostInfo : HostInfo) : MachineState where
  board := (hostInfo.platform.filter fun platform => !platform.isEmpty).getD "??".toList
  locked := hostInfo.locked
  lockedBy := if hostInfo.locked then hostInfo.lockedBy else []
  lockTime := if hostInfo.locked then hostInfo.lockTime else []

-- Both commands raise for a machine that its server does not know.
def getMachineStates (manager : AFELockManager) (servers : Servers σ) : Except Raised (SortedDict Text MachineState) :=
  if manager.useLocal && !manager.localAfe then .error (.noAFEServer "Error: Cannot connect to local AFE server.".toList)
  else
    manager.machines.foldlM (fun machineList m =>
      (getHostInfo afe manager servers m).map fun hostInfo => machineList.insert hostInfo.hostname (machineState hostInfo))
      SortedDict.empty

-- needle is in the text, but not at its front.
def foundBehind (needle text : Text) : Bool := (find needle text).any fun index => decide (0 < index)

def crosMachine (machine : Text) : Text :=
  if foundBehind "rack".toList machine && foundBehind "row".toList machine && (find dotCros machine).isNone then
    machine ++ dotCros
  else machine

def internalRemoveMachine (machines : List Text) (machine : Text) : List Text :=
  machines.filter fun m => m ≠ crosMachine machine ∧ m ≠ machine

-- A round of the loop over the states.
def checkMachineLock (user : Text) (cmd : Command) (machines : List Text) (entry : Text × MachineState) :
    Except Raised (List Text) :=
  match cmd with
  | .unlock =>
      let left := if entry.2.locked then machines else internalRemoveMachine machines entry.1
      if entry.2.locked ∧ entry.2.lockedBy ≠ user then
        .error (.dontOwnLock ("Attempt to unlock machine (".toList ++ entry.1 ++ ") locked by someone else (".toList ++
          entry.2.lockedBy ++ ").".toList))
      else .ok left
  | .lock => .ok (if entry.2.locked then internalRemoveMachine machines entry.1 else machines)

def checkMachineLocks (user : Text) (cmd : Command) (machineStates : List (Text × MachineState)) (machines : List Text) :
    Except Raised (List Text) :=
  machineStates.foldlM (checkMachineLock user cmd) machines

def modifyHosts (manager : AFELockManager) (servers : Servers σ) (lab : Bool) (m : Text) (updateData : UpdateData) :
    Except Text (Servers σ) :=
  if lab then (afe.modifyHosts servers.afe [m] updateData).map fun changed => { servers with afe := changed }
  else if manager.localAfe then
    (afe.modifyHosts servers.localAfe [m] updateData).map fun changed => { servers with localAfe := changed }
  else .error "'NoneType' object has no attribute 'run'".toList

def updateLockInAFE (manager : AFELockManager) (shouldLockMachine : Bool) (machine : Text) (servers : Servers σ) :
    Except Raised (Servers σ) :=
  let action := if shouldLockMachine then "lock".toList else "unlock".toList
  let updateData := ⟨shouldLockMachine, "toolchain user request (".toList ++ manager.user ++ ")".toList⟩
  let name := if machine ++ dotCros ∈ manager.toolchainLabMachines then machine ++ dotCros else machine
  let lab := decide (name ∈ manager.toolchainLabMachines)
  let m := if lab then hostPart name else name
  (modifyHosts afe manager servers lab m updateData).mapError fun e =>
    .lockingError ("Unable to ".toList ++ action ++ " machine ".toList ++ m ++ ". ".toList ++ e)

-- The machines that were updated, or what was raised. What was changed before stays.
def updateMachines (manager : AFELockManager) (lockMachines : Bool) : List Text → Servers σ → Servers σ × Except Raised (List Text)
  | [], servers => (servers, .ok [])
  | m :: rest, servers =>
      match updateLockInAFE afe manager lockMachines m servers with
      | .error error => (servers, .error error)
      | .ok changed =>
          let updated := updateMachines manager lockMachines rest changed
          (updated.1, updated.2.map (m :: ·))

def Command.locks : Command → Bool
  | .lock => true
  | .unlock => false

def raisedBy {β : Type} : Except Raised β → Option Raised
  | .ok _ => none
  | .error error => some error

-- What raises ends the run before anything is changed.
def orRaised {β : Type} (servers : Servers σ) (result : Except Raised β) (next : β → Outcome σ) : Outcome σ :=
  match result with
  | .error error => ⟨servers, some error⟩
  | .ok value => next value

theorem or_raised_ok {β : Type} (servers : Servers σ) (value : β) (next : β → Outcome σ) :
    orRaised servers (.ok value) next = next value := rfl

theorem or_raised_error {β : Type} (servers : Servers σ) (error : Raised) (next : β → Outcome σ) :
    orRaised servers (.error error) next = ⟨servers, some error⟩ := rfl

-- With --force there is nothing behind the states.
def runCommand (system : System) (manager : AFELockManager) (servers : Servers σ) (cmd : Command) : Outcome σ :=
  orRaised servers (getMachineStates afe manager servers) fun machineStates =>
    if manager.force then ⟨servers, none⟩
    else
      orRaised servers (checkMachineLocks manager.user cmd (system.iteritems machineStates) manager.machines) fun machines =>
        let updated := updateMachines afe manager cmd.locks machines servers
        ⟨updated.1, raisedBy updated.2⟩

def main (system : System) (servers : Servers σ) (options : Options) (cmd : Command) : Outcome σ :=
  orRaised servers (newLockManager afe system servers options) fun manager => runCommand afe system manager servers cmd

end Calls

end ToolchainUtils.AfeLockMachine
