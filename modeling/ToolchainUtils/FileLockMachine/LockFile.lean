import Mathlib.Logic.Function.Basic
import ToolchainUtils.Transition

set_option autoImplicit false

namespace ToolchainUtils.FileLockMachine

structure LockDescription where
  owner : String := ""
  exclusive : Bool := false
  counter : Int := 0
  time : Nat := 0
  reason : String := ""
  auto : Bool := false
deriving DecidableEq, Repr

def LockDescription.isLocked (desc : LockDescription) : Bool := desc.counter != 0 || desc.exclusive

inductive Operation where
  | nonBlockingLock
  | unlock
deriving DecidableEq, Repr

-- A call of a method of Lock: auto is the Lock's own, the rest are the arguments.
structure Request where
  operation : Operation
  exclusive : Bool
  auto : Bool
  reason : String := ""
deriving DecidableEq, Repr

-- Where the process that holds the flock is, each point just before a file
-- operation. An answer of none stands for an exception that leaves the with block.
inductive Point where
  | reading
  | checking (desc : LockDescription)
  | probing (desc : LockDescription) (fp : Nat)
  | resetting (fp : Nat)
  | body (desc : LockDescription)
  | opening (desc : LockDescription)
  | locking (desc : LockDescription) (fd : Nat)
  | closing (desc : LockDescription)
  | removing (desc : LockDescription)
  | exiting (answer : Option Bool) (desc : LockDescription)
  | writing (answer : Option Bool) (desc : LockDescription)
deriving DecidableEq, Repr

structure Caller where
  process : Nat
  request : Request
  expecting : Bool
  point : Point
deriving DecidableEq, Repr

structure Holder where
  process : Nat
  exclusive : Bool
  auto : Bool
deriving DecidableEq, Repr

structure CallResult where
  process : Nat
  request : Request
  expecting : Bool
  answer : Option Bool
deriving DecidableEq, Repr

-- One lock file with its liveness file. An open file is its inode, lockf the process
-- that has locked an inode. A process that waits in flock has changed nothing, so
-- a call begins when it has the flock. The last three fields only observe the run.
structure LockFile where
  content : Option LockDescription
  liveness : Option Nat
  inodes : Nat
  lockf : Nat → Option Nat
  alive : Nat → Bool
  fileOps : Nat → List Nat
  caller : Option Caller
  holders : List Holder
  orphaned : Bool
  results : List CallResult

def unlockedFile : LockFile where
  content := none
  liveness := none
  inodes := 0
  lockf := fun _ => none
  alive := fun _ => true
  fileOps := fun _ => []
  caller := none
  holders := []
  orphaned := false
  results := []

-- Only an auto exclusive lock ends with its process.
def isStale (alive : Nat → Bool) (holder : Holder) : Bool :=
  holder.exclusive && holder.auto && !alive holder.process

def activeOf (alive : Nat → Bool) (holders : List Holder) : List Holder :=
  holders.filter fun holder => !isStale alive holder

def LockFile.activeHolders (file : LockFile) : List Holder := activeOf file.alive file.holders

def LockFile.moveTo (file : LockFile) (caller : Caller) (point : Point) : LockFile :=
  { file with caller := some { caller with point := point } }

-- open(file_name, 'a'): a new file has a new inode, which nobody has locked.
def LockFile.openLive (file : LockFile) : LockFile :=
  match file.liveness with
  | some _ => file
  | none =>
      { file with
        liveness := some file.inodes
        inodes := file.inodes + 1
        lockf := Function.update file.lockf file.inodes none }

def LockFile.liveInode (file : LockFile) : Nat := file.liveness.getD file.inodes

-- lockf never refuses a process the lock that it already has.
def LockFile.mayLock (file : LockFile) (process inode : Nat) : Bool := (file.lockf inode).all (· == process)

def LockFile.lockInode (file : LockFile) (process inode : Nat) : LockFile :=
  { file with lockf := Function.update file.lockf inode (some process) }

def LockFile.unlockInode (file : LockFile) (inode : Nat) : LockFile :=
  { file with lockf := Function.update file.lockf inode none }

def LockFile.appendFileOp (file : LockFile) (process inode : Nat) : LockFile :=
  { file with fileOps := Function.update file.fileOps process (file.fileOps process ++ [inode]) }

def LockFile.closeFileOps (file : LockFile) (process : Nat) : LockFile :=
  { file with
    lockf := fun inode => if inode ∈ file.fileOps process then none else file.lockf inode
    fileOps := Function.update file.fileOps process [] }

-- The body of the with block up to its first operation on the liveness file.
def nonBlockingLock (request : Request) (desc : LockDescription) : Point :=
  if desc.exclusive then .exiting (some false) desc
  else if request.exclusive then
    if desc.counter != 0 then .exiting (some false) desc else .opening desc
  else .exiting (some true) { desc with counter := desc.counter + 1 }

def unlock (user : String) (request : Request) (desc : LockDescription) : Point :=
  if !desc.isLocked then .exiting (some true) desc
  else if desc.exclusive != request.exclusive then .exiting (some false) desc
  else if desc.exclusive then
    if desc.owner ≠ user then .exiting (some false) desc
    else if desc.auto != request.auto then .exiting (some false) desc
    else if request.auto then .closing { desc with exclusive := false, reason := "", owner := "" }
    else .exiting (some true) { desc with exclusive := false, reason := "", owner := "" }
  else .exiting (some true) { desc with counter := desc.counter - 1 }

def callBody (user : Nat → String) (caller : Caller) (desc : LockDescription) : Point :=
  match caller.request.operation with
  | .nonBlockingLock => nonBlockingLock caller.request desc
  | .unlock => unlock (user caller.process) caller.request desc

def LockDescription.take (desc : LockDescription) (user : String) (now : Nat) (request : Request) : LockDescription :=
  { desc with exclusive := true, reason := request.reason, owner := user, time := now, auto := request.auto }

def Request.holder (request : Request) (process : Nat) : Holder := ⟨process, request.exclusive, request.auto⟩

-- An unlock that will return True gives its lock up when it truncates the file,
-- a lock is held from the write on, and takes the place of the locks of dead holders.
def truncated (holders : List Holder) (process : Nat) (request : Request) (answer : Option Bool) : List Holder :=
  if request.operation = .unlock ∧ answer = some true then
    holders.eraseP fun holder => holder.process == process && holder.exclusive == request.exclusive
  else holders

def written (alive : Nat → Bool) (holders : List Holder) (process : Nat) (request : Request) (answer : Option Bool) :
    List Holder :=
  if request.operation = .nonBlockingLock ∧ answer = some true then activeOf alive holders ++ [request.holder process]
  else holders

-- What the process that holds the flock does next.
def go (user : Nat → String) (now : Nat) (file : LockFile) (caller : Caller) : LockFile :=
  match caller.point with
  | .reading =>
      let desc := file.content.getD {}
      if desc.exclusive && desc.auto && (file.fileOps caller.process).isEmpty then file.moveTo caller (.checking desc)
      else file.moveTo caller (.body desc)
  | .checking desc => file.openLive.moveTo caller (.probing desc file.liveInode)
  | .probing desc fp =>
      if file.mayLock caller.process fp then (file.lockInode caller.process fp).moveTo caller (.resetting fp)
      else file.moveTo caller (.body desc)
  | .resetting fp => (file.unlockInode fp).moveTo caller (.body {})
  | .body desc => file.moveTo caller (callBody user caller desc)
  | .opening desc => file.openLive.moveTo caller (.locking desc file.liveInode)
  | .locking desc fd =>
      if file.mayLock caller.process fd then
        ((file.lockInode caller.process fd).appendFileOp caller.process fd).moveTo caller
          (.exiting (some true) (desc.take (user caller.process) now caller.request))
      else file.moveTo caller (.exiting none desc)
  | .closing desc => (file.closeFileOps caller.process).moveTo caller (.removing desc)
  | .removing desc =>
      if file.liveness.isSome then
        LockFile.moveTo { file with liveness := none } caller (.exiting (some true) desc)
      else file.moveTo caller (.exiting none desc)
  | .exiting answer desc =>
      LockFile.moveTo
        { file with content := none, holders := truncated file.holders caller.process caller.request answer }
        caller (.writing answer desc)
  | .writing answer desc =>
      { file with
        content := some desc
        caller := none
        holders := written file.alive file.holders caller.process caller.request answer
        results := file.results ++ [⟨caller.process, caller.request, caller.expecting, answer⟩] }

-- Unlock is only called on a lock of the process.
def LockFile.permits (file : LockFile) (process : Nat) (request : Request) : Bool :=
  request.operation == .nonBlockingLock ||
    file.holders.any fun holder => holder.process == process && holder.exclusive == request.exclusive

-- An exclusive lock is due to the caller: the process of an auto exclusive lock
-- has died, and nobody holds a lock.
def LockFile.expects (file : LockFile) (request : Request) : Bool :=
  request.operation == .nonBlockingLock && request.exclusive && file.orphaned && file.activeHolders.isEmpty

-- The kernel closes what the process has open.
def LockFile.crash (file : LockFile) (process : Nat) : LockFile :=
  { file with
    lockf := fun inode => if file.lockf inode = some process then none else file.lockf inode
    alive := Function.update file.alive process false
    fileOps := Function.update file.fileOps process []
    caller := file.caller.filter fun caller => caller.process != process
    orphaned := file.orphaned ||
      file.holders.any fun holder => holder.process == process && holder.exclusive && holder.auto }

inductive LockAction where
  | call (process : Nat) (request : Request)
  | go (now : Nat)
  | crash (process : Nat)
deriving DecidableEq, Repr

def lockStep (user : Nat → String) (file : LockFile) : LockAction → Option LockFile
  | .call process request =>
      if file.alive process && file.caller.isNone && file.permits process request then
        some { file with caller := some ⟨process, request, file.expects request, .reading⟩ }
      else none
  | .go now => file.caller.map (go user now file)
  | .crash process => if file.alive process then some (file.crash process) else none

end ToolchainUtils.FileLockMachine
