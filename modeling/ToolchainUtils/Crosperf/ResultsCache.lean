import ToolchainUtils.Glob
import ToolchainUtils.PyString

set_option autoImplicit false

namespace ToolchainUtils.Crosperf.CacheKeys

open PyString (Text spaces str)

-- A path as its components, with relative paths and links resolved.
abbrev Path := List Text

def isHex (c : Char) : Bool := c.isDigit || ('a' ≤ c && c ≤ 'f')

-- What hexdigest returns, and the '' that stands for a checksum of nothing.
structure Digest where
  text : Text
  hex : text.all isHex = true
deriving DecidableEq

def noDigest : Digest := ⟨[], rfl⟩

inductive CacheCondition where
  | cacheFileExists
  | machinesMatch
  | checksumsMatch
  | runSucceeded
  | false
  | imagePathMatch
  | sameMachineMatch
deriving DecidableEq, Repr

inductive ImageType where
  | trybot
  | official
  | localImage
deriving DecidableEq, Repr

structure CrosMachine where
  name : Text
  machineIdChecksum : Digest

-- imageChecksum is what ImageChecksummer computes for a local image.
structure Label where
  name : Text
  imageType : ImageType
  chromeosImage : Text
  imageChecksum : Digest
  remote : List Text
  cacheHome : Path

-- machineChecksum and allMachines are those of machine_manager, cacheVersion is the
-- class constant, sharedCaches what share_cache splits into.
structure ResultsCache where
  chromeosImage : Text
  testName : Text
  iteration : Nat
  testArgs : Text
  profilerArgs : Text
  runLocal : Bool
  label : Label
  machineChecksum : Text → Digest
  allMachines : List CrosMachine
  machine : Option CrosMachine
  sharedCaches : List Path
  cacheVersion : Nat

-- re.sub of a pattern for one of these characters.
def applySub (characters : List Char) (replacement : Text) (string : Text) : Text :=
  string.flatMap fun c => if characters.contains c then replacement else [c]

def dropped : List Char := ['\\', '$', '=', '"', '?', '^']

def getFilenameFromString (string : Text) : Text :=
  applySub dropped [] (applySub spaces ['_'] (applySub ['/'] ['_', '_'] string))

def strBool : Bool → Text
  | true => ['T', 'r', 'u', 'e']
  | false => ['F', 'a', 'l', 's', 'e']

def star : Text := ['*']

namespace ResultsCache

variable (md5 : Text → Digest) (cache : ResultsCache)

def getMachines : List CrosMachine := cache.allMachines.filter fun machine => cache.label.remote.contains machine.name

def ownMachine : Option CrosMachine := cache.machine.filter fun machine => cache.label.remote.contains machine.name

def machineIdChecksum : Digest :=
  match cache.ownMachine with
  | some machine => machine.machineIdChecksum
  | none =>
      match cache.getMachines.find? fun machine => cache.label.remote.head? == some machine.name with
      | some machine => machine.machineIdChecksum
      | none => noDigest

def checksum : Text :=
  match cache.label.imageType with
  | .trybot => (md5 cache.label.chromeosImage).text
  | .official => star
  | .localImage => cache.label.imageChecksum.text

def testArgsChecksum : Digest :=
  md5 (cache.testArgs ++ ' ' :: cache.profilerArgs ++ ' ' :: strBool cache.runLocal)

-- Reading leaves open what the conditions do not demand.
def demanded (conditions : List CacheCondition) (read : Bool) (condition : CacheCondition) (field : Text) : Text :=
  if read && !conditions.contains condition then star else field

def getCacheKeyList (conditions : List CacheCondition) (read : Bool) : List Text :=
  [demanded conditions read .imagePathMatch (md5 cache.chromeosImage).text,
    cache.testName,
    str cache.iteration,
    (cache.testArgsChecksum md5).text,
    demanded conditions read .checksumsMatch (cache.checksum md5),
    demanded conditions read .machinesMatch (cache.machineChecksum cache.label.name).text,
    demanded conditions read .sameMachineMatch cache.machineIdChecksum.text,
    str cache.cacheVersion]

def cacheName (conditions : List CacheCondition) (read : Bool) : Text :=
  getFilenameFromString ([' '].intercalate (cache.getCacheKeyList md5 conditions read))

def cacheHomes : List Path := cache.label.cacheHome :: cache.sharedCaches

-- none stands for the LogFatal about a shared cache that is not there.
def formCacheDir (exists_ : Path → Bool) (name : Text) : Option (List Path) :=
  if cache.sharedCaches.all exists_ then some (cache.cacheHomes.map fun home => home ++ [name]) else none

def getCacheDirForWrite (exists_ : Path → Bool) (conditions : List CacheCondition) : Option Path :=
  (cache.formCacheDir exists_ (cache.cacheName md5 conditions false)).bind List.head?

end ResultsCache

-- One component of a path against one of a pattern: a name that begins with a dot is
-- found by a pattern that does.
def globName (pattern name : Text) : Bool :=
  if Glob.hasMagic pattern then
    Glob.fnmatch pattern name && (pattern.head? == some '.' || name.head? != some '.')
  else pattern == name

def globPath : Path → Path → Bool
  | [], [] => true
  | pattern :: patterns, name :: names => globName pattern name && globPath patterns names
  | _, _ => false

-- glob.glob over the directories there are.
def glob (dirs : List Path) (pattern : Path) : List Path := dirs.filter (globPath pattern)

def ResultsCache.getCacheDirForRead (md5 : Text → Digest) (cache : ResultsCache) (exists_ : Path → Bool)
    (conditions : List CacheCondition) (dirs : List Path) : Option (Option Path) :=
  (cache.formCacheDir exists_ (cache.cacheName md5 conditions true)).map fun patterns =>
    (patterns.flatMap (glob dirs)).head?

end ToolchainUtils.Crosperf.CacheKeys
