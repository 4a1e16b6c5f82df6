import Mathlib.Data.Char
import Mathlib.Data.List.Lex
import ToolchainUtils.PyString
import ToolchainUtils.Randomised
import ToolchainUtils.SortedDict

set_option autoImplicit false

namespace ToolchainUtils.Bestflags

open PyString Randomised

-- What is raised while a generation is evaluated or the next one is made. `endless`
-- is not raised: it stands for a loop that is never left.
inductive Raised where
  | assertionError
  | attributeError
  | stopIteration
  | indexError
  | valueError
  | zeroDivisionError
  | endless
  deriving DecidableEq

abbrev Drawn (α : Type) := Program Raised α

-- The groups of `\[(?P<start>\d+)-(?P<end>\d+)\]` where it matches at the head of
-- the text. No part of it can match what the next part needs, so no match is given
-- back.
def searchHere (text : Text) : Option (Int × Int) :=
  match text with
  | '[' :: rest =>
      match rest.dropWhile Char.isDigit with
      | '-' :: last =>
          match last.dropWhile Char.isDigit with
          | ']' :: _ =>
              match parseNat (rest.takeWhile Char.isDigit), parseNat (last.takeWhile Char.isDigit) with
              | some low, some high => some (low, high)
              | _, _ => none
          | _ => none
      | _ => none
  | _ => none

-- Search: the first match in the spec.
def search : Text → Option (Int × Int)
  | [] => none
  | c :: rest =>
      match searchHere (c :: rest) with
      | some range => some range
      | none => search rest

-- From the spec of a flag to its value.
abbrev FlagSet := SortedDict Text Int

-- random.randint
def randint (low high : Int) : Drawn Int :=
  if low ≤ high then do
    let offset ← draw (high - low).toNat
    pure (low + offset)
  else
    throw .valueError

-- The value of Flag(spec, value), where -1 is the default.
def flag (spec : Text) (value : Int) : Drawn Int :=
  if value = -1 then
    match search spec with
    | none => pure 0
    | some (start, last) => if start < last then randint start last else throw .assertionError
  else
    pure value

-- A numeric flag whose value is not the end value is made one larger.
def climbUp (flags : FlagSet) (climbSpec : Text) (value last : Int) : Drawn (List FlagSet) :=
  if value + 1 < last then do
    let more ← flag climbSpec (value + 1)
    pure [flags.insert climbSpec more]
  else
    pure []

-- It is made one lesser, or turned off at the start value.
def climbDown (flags : FlagSet) (climbSpec : Text) (value start : Int) : Drawn (List FlagSet) :=
  if start < value then do
    let less ← flag climbSpec (value - 1)
    pure [flags.insert climbSpec less]
  else
    pure [flags.erase climbSpec]

-- The neighbours are dictionaries of flags, and FlagSet(next_flag.values()) of each
-- is the same dictionary: every flag is stored under its own spec.
def climbNext (flags : FlagSet) (climbSpec : Text) : Drawn (List FlagSet) :=
  match flags.get? climbSpec, search climbSpec with
  | none, some (start, _) => do
      let value ← flag climbSpec start
      pure [flags.insert climbSpec value]
  | none, none => do
      let value ← flag climbSpec (-1)
      pure [flags.insert climbSpec value]
  | some _, none => pure [flags.erase climbSpec]
  | some value, some (start, last) => do
      let above ← climbUp flags climbSpec value last
      let below ← climbDown flags climbSpec value start
      pure (above ++ below)

example : search "-finline-limit=[1-1000]".toList = some (1, 1000) := by decide

end ToolchainUtils.Bestflags
