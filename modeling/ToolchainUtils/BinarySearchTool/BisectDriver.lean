import ToolchainUtils.HardLinks

set_option autoImplicit false

namespace ToolchainUtils.BinarySearchTool.BisectDriver

open FileSystem HardLinks

inductive Cache where
  | good
  | bad
deriving DecidableEq, Repr

-- A file of the build tree, or os.path.join(bisect_dir, cache) + path for one of its
-- absolute paths. The build tree lies outside bisect_dir.
inductive File where
  | build (path : String)
  | cached (cache : Cache) (path : String)
deriving DecidableEq, Repr

inductive DriverError where
  | indexError
  | listMissing
  | os (error : OSError)
  | missingFromList (object : String)
  | missingFromCache (cache : Cache) (path : String)
deriving DecidableEq, Repr

-- `objectList` is what good/_LIST holds, one absolute path in each line; none when
-- there is no such file. `moments` is history: every disk since the call began.
structure Workspace (γ : Type) where
  disk : Disk File γ
  objectList : Option (List String)
  moments : List (Disk File γ)

abbrev DriverM (γ : Type) := EStateM DriverError (Workspace γ)

-- One run of the real compiler: the files it writes, in this order, and how it ends.
structure Compiler (γ : Type) where
  outputs : List (String × γ)
  retval : Int

-- What the environment of one call decides; `whichCache` is what grep makes of
-- BISECT_BAD_SET.
structure Call (γ : Type) where
  execargs : List String
  abspath : String → String
  whichCache : String → Cache
  continueOnMissing : Bool
  wrapperSafeMode : Bool
  compiler : Compiler γ

def argumentAfter (flag : String) : List String → Except DriverError (Option String)
  | [] => .ok none
  | [last] => if last = flag then .error .indexError else .ok none
  | first :: second :: rest => if first = flag then .ok (some second) else argumentAfter flag (second :: rest)

def endsWith (path suffix : String) : Bool := suffix.toList.isSuffixOf path.toList

-- path[:-2] + suffix
def replaceExtension (path suffix : String) : String := String.ofList (path.toList.take (path.length - 2)) ++ suffix

def getObjPath (abspath : String → String) (execargs : List String) : Except DriverError String := do
  match ← argumentAfter "-o" execargs with
  | none => return ""
  | some path => if endsWith path ".o" then return abspath path else return ""

def getDepPath (abspath : String → String) (execargs : List String) : Except DriverError String := do
  if "-MD" ∉ execargs ∧ "-MMD" ∉ execargs then return ""
  match ← argumentAfter "-MF" execargs with
  | some path => return abspath path
  | none =>
      let object ← getObjPath abspath execargs
      if object = "" then return "" else return replaceExtension object ".d"

def getDwoPath (abspath : String → String) (execargs : List String) : Except DriverError String := do
  if "-gsplit-dwarf" ∉ execargs then return ""
  let object ← getObjPath abspath execargs
  if object = "" then return "" else return replaceExtension object ".dwo"

def getSideEffects (abspath : String → String) (execargs : List String) : Except DriverError (List String) := do
  let dep ← getDepPath abspath execargs
  let dwo ← getDwoPath abspath execargs
  return [dep, dwo].filter (· ≠ "")

variable {γ β : Type}

def check (result : Except DriverError β) : DriverM γ β :=
  fun workspace => match result with
    | .ok value => .ok value workspace
    | .error error => .error error workspace

def getDisk : DriverM γ (Disk File γ) := fun workspace => .ok workspace.disk workspace

def Workspace.change (workspace : Workspace γ) (disk : Disk File γ) : Workspace γ :=
  { workspace with disk := disk, moments := workspace.moments ++ [disk] }

def fileOperation (operation : Disk File γ → Except OSError (Disk File γ)) : DriverM γ Unit :=
  fun workspace => match operation workspace.disk with
    | .ok disk => .ok () (workspace.change disk)
    | .error error => .error (.os error) workspace

def writeOutputs (outputs : List (String × γ)) (workspace : Workspace γ) : Workspace γ :=
  outputs.foldl (fun written output => written.change (written.disk.write (.build output.1) output.2)) workspace

def execAndReturn (compiler : Compiler γ) : DriverM γ Int :=
  fun workspace => .ok compiler.retval (writeOutputs compiler.outputs workspace)

-- line.strip() == obj_name; an absolute path ending in .o has no blanks around it.
def inObjectList (object : String) : DriverM γ Bool :=
  fun workspace => match workspace.objectList with
    | none => .error .listMissing workspace
    | some lines => .ok (lines.contains object) workspace

-- shutil.copy2 rewrites an existing target in place.
def cacheFile (cache : Cache) (path : String) : DriverM γ Unit := do
  let disk ← getDisk
  match disk.read (.build path) with
  | none => pure ()
  | some content => fileOperation fun disk => .ok (disk.write (.cached cache path) content)

def restoreFile (cache : Cache) (path : String) : DriverM γ Unit := do
  let disk ← getDisk
  if disk.has (.cached cache path) then
    if disk.has (.build path) then fileOperation fun disk => disk.remove (.build path)
    fileOperation fun disk => disk.link (.cached cache path) (.build path)
  else throw (.missingFromCache cache path)

def addToList (cache : Cache) (object : String) : DriverM γ Unit :=
  fun workspace => match cache with
    | .good => .ok () { workspace with objectList := some (workspace.objectList.getD [] ++ [object]) }
    | .bad => .ok () workspace

def cacheFiles (cache : Cache) : List String → DriverM γ Unit
  | [] => pure ()
  | path :: rest => do
      cacheFile cache path
      cacheFiles cache rest

def restoreFiles (cache : Cache) : List String → DriverM γ Unit
  | [] => pure ()
  | path :: rest => do
      restoreFile cache path
      restoreFiles cache rest

def bisectPopulate (call : Call γ) (cache : Cache) : DriverM γ (Option Int) := do
  let retval ← execAndReturn call.compiler
  if retval ≠ 0 then return some retval
  let object ← check (getObjPath call.abspath call.execargs)
  if object = "" then return none
  cacheFile cache object
  addToList cache object
  let sideEffects ← check (getSideEffects call.abspath call.execargs)
  cacheFiles cache sideEffects
  return none

def passThrough (call : Call γ) : DriverM γ (Option Int) := do
  let retval ← execAndReturn call.compiler
  return some retval

-- WRAPPER_SAFE_MODE: call the compiler and overwrite its result from the cache.
def triageSafely (call : Call γ) (cache : Cache) (object : String) : DriverM γ (Option Int) := do
  let retval ← execAndReturn call.compiler
  if retval ≠ 0 then return some retval
  fileOperation fun disk => disk.remove (.build object)
  restoreFile cache object
  return none

def triageRestoring (call : Call γ) (cache : Cache) (object : String) : DriverM γ (Option Int) := do
  let sideEffects ← check (getSideEffects call.abspath call.execargs)
  restoreFiles cache sideEffects
  let disk ← getDisk
  if ¬ disk.has (.build object) then restoreFile cache object
  return none

def bisectTriage (call : Call γ) : DriverM γ (Option Int) := do
  let object ← check (getObjPath call.abspath call.execargs)
  if object = "" then passThrough call
  else
    let listed ← inObjectList object
    if listed then
      let cache := call.whichCache object
      if call.wrapperSafeMode then triageSafely call cache object else triageRestoring call cache object
    else if call.continueOnMissing then passThrough call
    else throw (.missingFromList object)

end ToolchainUtils.BinarySearchTool.BisectDriver
