import ToolchainUtils.PyString
import ToolchainUtils.Bestflags.Flags

set_option autoImplicit false

namespace ToolchainUtils.Bestflags.TaskWork

open PyString

inductive Stage where
  | build
  | test
deriving DecidableEq, Repr

def errorString : Text := "error".toList

def buildTries : Nat := 3

def testTries : Nat := 3

-- A stage cost: what float made of a printed cost, sys.maxint, or the error string.
inductive Cost where
  | number (value : FloatText)
  | maxint
  | errorString
deriving DecidableEq, Repr

-- One run of a command: its standard output and error, or an exception of Popen or
-- communicate.
inductive Outcome where
  | printed (out err : Text)
  | raised
deriving DecidableEq, Repr

inductive Raised where
  | ofCommand
  | valueError
  | unboundLocalError
  | assertionError
deriving DecidableEq, Repr

inductive Log where
  | build (cost : Cost) (image checksum fileLength textLength log : Text)
  | test (checksum : Option Text) (cost : Cost) (log : Text)
deriving DecidableEq, Repr

structure Task where
  flagSet : FlagSet
  taskIdentifier : Text
  buildCost : Option Cost
  exeCost : Option Cost
  checksum : Option Text
  image : Option Text
  fileLength : Option Text
  textLength : Option Text
deriving DecidableEq

structure Commands where
  build : Text
  test : Text

-- A method of a task: the task it leaves, the files it logged, and what it raised.
structure Worked where
  task : Task
  logged : List Log
  raised : Option Raised

-- _FLAG_FILLOUT_VALUE_RE.sub: every bracketed range is replaced by the value.
def fillOut (value : Text) : Nat → Text → Text
  | 0, spec => spec
  | fuel + 1, spec =>
      match spec with
      | [] => []
      | c :: rest =>
          if c = '[' ∧ ']' ∈ rest then value ++ fillOut value fuel ((rest.dropWhile (· != ']')).drop 1)
          else c :: fillOut value fuel rest

def formattedForUse (flagSet : FlagSet) : List Text :=
  (flagSet.entries.map fun flag => fillOut (strInt flag.2) flag.1.length flag.1).mergeSort fun left right => decide (left ≤ right)

def Task.done (task : Task) : Stage → Bool
  | .build => task.buildCost.isSome
  | .test => task.exeCost.isSome

section Tries

variable {Got : Type}

-- The local variables of a stage, none while they are unbound; `got` stands for those
-- that the success path alone assigns.
structure Locals (Got : Type) where
  got : Option Got
  cost : Option Text
  err : Option Text

-- The loop over the tries. The handler is `except _` and `_` is the loop variable, a
-- number, which no exception is an instance of: what is raised leaves the loop.
def runTries (read : Text → Except Raised (Got × Text)) : List Outcome → Locals Got → Except Raised (Locals Got)
  | [], locals => .ok locals
  | .raised :: _, _ => .error .ofCommand
  | .printed out err :: rest, locals =>
      if out ≠ [] ∧ strip out ≠ errorString then
        (read (strip out)).map fun printed => ⟨some printed.1, some printed.2, some err⟩
      else runTries read rest { locals with cost := some errorString, err := some err }

def unbound : Locals Got := ⟨none, none, none⟩

end Tries

structure Built where
  checksum : Text
  image : Text
  fileLength : Text
  textLength : Text

def readBuild (out : Text) : Except Raised (Built × Text) :=
  match split out with
  | [checksum, cost, image, fileLength, textLength] => .ok (⟨checksum, image, fileLength, textLength⟩, cost)
  | _ => .error .valueError

def readTest (out : Text) : Except Raised (Unit × Text) := .ok ((), out)

def costOf (cost : Text) : Option Cost := if cost = errorString then some .maxint else (parseFloat cost).map .number

def tries (runs : List Text → Nat → Outcome) (command : Text) (number : Nat) : List Outcome :=
  (List.range number).map (runs (split command))

def buildCommand (commands : Commands) (task : Task) : Text :=
  commands.build ++ ' ' :: joined (formattedForUse task.flagSet) ++ ' ' :: task.taskIdentifier

def testCommand (commands : Commands) (task : Task) (image : Text) : Text :=
  commands.test ++ ' ' :: image ++ ' ' :: task.taskIdentifier

def Task.withBuilt (task : Task) (cost : Cost) (built : Built) : Task :=
  { task with
    buildCost := some cost, checksum := some built.checksum, fileLength := some built.fileLength,
    textLength := some built.textLength, image := some built.image }

-- What follows the loop of a build: the cost is set before the other results are read.
def Task.setBuilt (task : Task) (locals : Locals Built) : Worked :=
  match locals.cost with
  | none => ⟨task, [], some .unboundLocalError⟩
  | some text =>
      match costOf text with
      | none => ⟨task, [], some .valueError⟩
      | some cost =>
          match locals.got, locals.err with
          | some built, some err =>
              ⟨task.withBuilt cost built, [.build cost built.image built.checksum built.fileLength built.textLength err], none⟩
          | _, _ => ⟨{ task with buildCost := some cost }, [], some .unboundLocalError⟩

theorem set_built_printed (task : Task) (built : Built) (text err : Text) (cost : Cost) (known : costOf text = some cost) :
    task.setBuilt ⟨some built, some text, some err⟩ =
      ⟨task.withBuilt cost built, [.build cost built.image built.checksum built.fileLength built.textLength err], none⟩ := by
  simp only [Task.setBuilt, known]

theorem set_built_unparsed (task : Task) (locals : Locals Built) (text : Text) (read : locals.cost = some text)
    (unknown : costOf text = none) : task.setBuilt locals = ⟨task, [], some .valueError⟩ := by
  simp only [Task.setBuilt, read, unknown]

theorem set_built_unassigned (task : Task) (text : Text) (err : Option Text) (cost : Cost) (known : costOf text = some cost) :
    task.setBuilt ⟨none, some text, err⟩ = ⟨{ task with buildCost := some cost }, [], some .unboundLocalError⟩ := by
  simp only [Task.setBuilt, known]

def Task.compile (commands : Commands) (task : Task) (runs : List Text → Nat → Outcome) : Worked :=
  match runTries readBuild (tries runs (buildCommand commands task) buildTries) unbound with
  | .error raised => ⟨task, [], some raised⟩
  | .ok locals => task.setBuilt locals

def Task.setTested (task : Task) (locals : Locals Unit) : Worked :=
  match locals.cost with
  | none => ⟨task, [], some .unboundLocalError⟩
  | some text =>
      match costOf text with
      | none => ⟨task, [], some .valueError⟩
      | some cost =>
          match locals.err with
          | some err => ⟨{ task with exeCost := some cost }, [.test task.checksum cost err], none⟩
          | none => ⟨{ task with exeCost := some cost }, [], some .unboundLocalError⟩

theorem set_tested_known (task : Task) (got : Option Unit) (text err : Text) (cost : Cost) (known : costOf text = some cost) :
    task.setTested ⟨got, some text, some err⟩ = ⟨{ task with exeCost := some cost }, [.test task.checksum cost err], none⟩ := by
  simp only [Task.setTested, known]

theorem set_tested_unparsed (task : Task) (locals : Locals Unit) (text : Text) (read : locals.cost = some text)
    (unknown : costOf text = none) : task.setTested locals = ⟨task, [], some .valueError⟩ := by
  simp only [Task.setTested, read, unknown]

def Task.test (commands : Commands) (task : Task) (runs : List Text → Nat → Outcome) : Worked :=
  match task.image with
  | none => ⟨task, [], some .assertionError⟩
  | some image =>
      if image = errorString then ⟨{ task with exeCost := some .errorString }, [], none⟩
      else
        match runTries readTest (tries runs (testCommand commands task image) testTries) unbound with
        | .error raised => ⟨task, [], some raised⟩
        | .ok locals => task.setTested locals

def Task.work (commands : Commands) (task : Task) (runs : List Text → Nat → Outcome) : Stage → Worked
  | .build => task.compile commands runs
  | .test => task.test commands runs

end ToolchainUtils.Bestflags.TaskWork
