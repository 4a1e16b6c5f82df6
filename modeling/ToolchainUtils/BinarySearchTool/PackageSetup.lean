import Mathlib.Logic.Function.Basic
import ToolchainUtils.ShellLanguage.ScriptFiles

set_option autoImplicit false

-- cros_pkg/setup.sh, the cleanup script that it has generated, and bisect.py around a search.
namespace ToolchainUtils.BinarySearchTool.PackageSetup

open PyString ShellLanguage

inductive Entry where
  | file (content : Text)
  | link (target : Text)
  | directory (entries : List (Text × Entry))

-- The files by their paths. What is below a directory belongs to the entry of the directory.
abbrev Files := Text → Option Entry

def maxLinks : Nat := 40

-- A relative target is looked up next to the link.
def targetPath (path target : Text) : Text :=
  if target.head? = some '/' then target else path.rdropWhile (fun c => c != '/') ++ target

def follow (files : Files) : Nat → Text → Option Text
  | 0, _ => none
  | links + 1, path =>
      match files path with
      | none => none
      | some (.link target) => follow files links (targetPath path target)
      | some _ => some path

-- The directory that a path leads to.
def directoryAt (files : Files) (path : Text) : Option (Text × List (Text × Entry)) :=
  (follow files (maxLinks + 1) path).bind fun place =>
    match files place with
    | some (.directory entries) => some (place, entries)
    | _ => none

-- [[ -d path ]]
def isDirectory (files : Files) (path : Text) : Bool := (directoryAt files path).isSome

def basename (path : Text) : Text := path.rtakeWhile fun c => c != '/'

-- rename takes the place of an entry of the same kind, of a directory only when that is empty.
def replaces : Entry → Entry → Bool
  | .directory _, .directory entries => entries.isEmpty
  | .directory _, _ => false
  | _, .directory _ => false
  | _, _ => true

def rm (path : Text) (files : Files) : Files × Nat :=
  match files path with
  | none => (files, 1)
  | some (.directory _) => (files, 1)
  | some _ => (Function.update files path none, 0)

def moveTo (files : Files) (source destination : Text) (entry : Entry) : Files :=
  Function.update (Function.update files destination (some entry)) source none

def moveInto (files : Files) (source place : Text) (entries : List (Text × Entry)) (entry : Entry) : Files × Nat :=
  let inside := Function.update files place
    (some (.directory ((basename source, entry) :: entries.filter fun other => other.1 != basename source)))
  match entries.lookup (basename source) with
  | none => (Function.update inside source none, 0)
  | some other => if replaces entry other then (Function.update inside source none, 0) else (files, 1)

def mv (source destination : Text) (files : Files) : Files × Nat :=
  match files source with
  | none => (files, 1)
  | some entry =>
      match directoryAt files destination with
      | some (place, entries) => if place = source then (files, 1) else moveInto files source place entries entry
      | none =>
          match files destination with
          | none => (moveTo files source destination entry, 0)
          | some other => if replaces entry other then (moveTo files source destination entry, 0) else (files, 1)

-- ln -s; a target that begins with a dash is taken for an option.
def symlink (target path : Text) (files : Files) : Files × Nat :=
  if target.head? = some '-' then (files, 1)
  else match directoryAt files path with
    | some (place, entries) =>
        if (entries.lookup (basename target)).isSome then (files, 1)
        else (Function.update files place (some (.directory ((basename target, .link target) :: entries))), 0)
    | none => if (files path).isSome then (files, 1) else (Function.update files path (some (.link target)), 0)

-- A board is named in paths and commands as it is.
structure BoardName where
  text : Text
  filled : text ≠ []
  plain : isPlain text = true

variable (board : BoardName)

def boardPath : Text := "/build/".toList ++ board.text

def buildPath (ending : String) : Text := boardPath board ++ ending.toList

def goodBuild : Text := buildPath board ".good"

def badBuild : Text := buildPath board ".bad"

def workBuild : Text := buildPath board ".work"

def savedBuild : Text := buildPath board ".save"

def commonFile : Text := "common/common.sh".toList

-- What setup.sh finds at /build/${BOARD}.
inductive OldTree where
  | missing
  | renamed
  | link (target : Text)

def oldTree (files : Files) : OldTree :=
  if isDirectory files (boardPath board) then
    match files (boardPath board) with
    | some (.link target) => .link target
    | _ => .renamed
  else .missing

-- create_cleanup_script.py takes the flags that setup.sh makes of it; none is a usage error.
structure CleanupFlags where
  treeExisted : Bool
  renamedTree : Bool
  oldLink : Option Text

def OldTree.flags : OldTree → CleanupFlags
  | .missing => ⟨false, false, none⟩
  | .renamed => ⟨true, true, none⟩
  | .link target => ⟨true, false, some ('\x27' :: target ++ ['\x27'])⟩

def unquoted (link : Text) : Text :=
  let front := if link.head? = some '\x27' then link.drop 1 else link
  if front.getLast? = some '\x27' then front.dropLast else front

def removeLink : List Text := ["sudo".toList, "rm".toList, boardPath board]

def restoreTree : List Text := ["sudo".toList, "mv".toList, savedBuild board, boardPath board]

def restoreLink (target : Text) : List Text := ["sudo".toList, "ln".toList, "-s".toList, target, boardPath board]

def removeCommon : List Text := ["rm".toList, commonFile]

-- The lines that Main writes, by what it restores.
def cleanupLines (restore : List (List Text)) : List Text :=
  ["#!/bin/bash".toList, [], joined (removeLink board)] ++ restore.map joined ++ [[], joined removeCommon]

def cleanupText (restore : List (List Text)) : Text := (cleanupLines board restore).flatMap fun line => line ++ ['\n']

-- A flag that is not given, or empty, is false.
def given (link : Option Text) : Bool := link.any fun text => !text.isEmpty

def createCleanupScript (flags : CleanupFlags) : Option Text :=
  if (given flags.oldLink || flags.renamedTree) && !flags.treeExisted then none
  else if given flags.oldLink && flags.renamedTree then none
  else if flags.treeExisted && !given flags.oldLink && !flags.renamedTree then none
  else if flags.treeExisted then
    if flags.renamedTree then some (cleanupText board [restoreTree board])
    else some (cleanupText board [restoreLink board (unquoted (flags.oldLink.getD []))])
  else some (cleanupText board [])

def commonText (remote : Text) : Text :=
  [[], "BISECT_BOARD=".toList ++ board.text, "BISECT_REMOTE=".toList ++ remote, "BISECT_MODE=\"PACKAGE_MODE\"".toList, [],
    "GOOD_BUILD=".toList ++ goodBuild board, "BAD_BUILD=".toList ++ badBuild board, "WORK_BUILD=".toList ++ workBuild board,
      []].flatMap
    fun line => line ++ ['\n']

-- What setup.sh does with the old tree; it looks at no status.
def putAside (old : OldTree) (files : Files) : Files :=
  match old with
  | .missing => files
  | .renamed => (mv (boardPath board) (savedBuild board) files).1
  | .link _ => (rm (boardPath board) files).1

-- /build, and the two files of binary_search_tool that setup.sh has written: common/common.sh and
-- cros_pkg/${BOARD}_cleanup.sh.
structure Machine where
  build : Files
  common : Option Text
  cleanup : Option Text

def setup (remote : Text) (machine : Machine) : Machine × Nat :=
  if ¬ isDirectory machine.build (goodBuild board) then (machine, 1)
  else if ¬ isDirectory machine.build (badBuild board) then (machine, 1)
  else if ¬ isDirectory machine.build (workBuild board) then (machine, 1)
  else
    let old := oldTree board machine.build
    ({ build := (symlink (workBuild board) (boardPath board) (putAside board old machine.build)).1
       common := some (commonText board remote)
       cleanup := createCleanupScript board old.flags <|> machine.cleanup }, 0)

def onBuild (action : Files → Files × Nat) (machine : Machine) : Machine × Nat :=
  ({ machine with build := (action machine.build).1 }, (action machine.build).2)

def remove (path : Text) (machine : Machine) : Machine × Nat :=
  if path = commonFile then ({ machine with common := none }, if machine.common.isSome then 0 else 1)
  else onBuild (rm path) machine

-- What the commands of the cleanup script do.
def effect (words : List Text) (machine : Machine) : Machine × Nat :=
  match words with
  | [name, path] => if name = "rm".toList then remove path machine else (machine, 127)
  | [asRoot, name, path] => if asRoot = "sudo".toList ∧ name = "rm".toList then remove path machine else (machine, 127)
  | [asRoot, name, source, destination] =>
      if asRoot = "sudo".toList ∧ name = "mv".toList then onBuild (mv source destination) machine else (machine, 127)
  | [asRoot, name, option, target, path] =>
      if asRoot = "sudo".toList ∧ name = "ln".toList ∧ option = "-s".toList then onBuild (symlink target path) machine
      else (machine, 127)
  | _ => (machine, 127)

def command (words : List Text) : Program Machine ShellState := fun machine shell input =>
  ⟨(effect words machine).1, shell, input, [], (effect words machine).2⟩

def bash (expand : Machine → ShellState → Text → List Text) : Bash Machine where
  expand := expand
  cd _ _ _ := none
  maskText _ := []
  umaskOf _ _ := none
  dirsText _ := []
  umaskText _ _ := []
  other := command

def runCleanup (expand : Machine → ShellState → Text → List Text) (shell : ShellState) (machine : Machine) : Machine × Nat :=
  match machine.cleanup with
  | none => (machine, 127)
  | some text =>
      match (bash expand).runScript text with
      | some program => ((program machine shell []).world, (program machine shell []).status)
      | none => (machine, 2)

-- How binary_search_state.Run ends: with what it returns, or with an exception that leaves bisect.py.
inductive SearchEnd where
  | returned (status : Nat)
  | raised
deriving DecidableEq, Repr

structure BisectRun where
  remote : Text
  search : Machine → SearchEnd × Machine

-- Run(bisector): PreRun, Run and PostRun, up to the first that does not return 0.
def runBisector (expand : Machine → ShellState → Text → List Text) (shell : ShellState) (run : BisectRun) (machine : Machine) :
    SearchEnd × Machine :=
  let prepared := setup board run.remote machine
  if prepared.2 ≠ 0 then (.returned 1, prepared.1)
  else
    let searched := run.search prepared.1
    if searched.1 ≠ .returned 0 then searched
    else
      let cleaned := runCleanup expand shell searched.2
      (.returned (if cleaned.2 ≠ 0 then 1 else 0), cleaned.1)

def runBisectors (expand : Machine → ShellState → Text → List Text) (shell : ShellState) :
    List BisectRun → Machine → List SearchEnd × Machine
  | [], machine => ([], machine)
  | run :: rest, machine =>
      let first := runBisector board expand shell run machine
      let later := runBisectors expand shell rest first.2
      (first.1 :: later.1, later.2)

end ToolchainUtils.BinarySearchTool.PackageSetup
