set_option autoImplicit false

namespace ToolchainUtils.Automation

inductive GlobItem where
  | star
  | anyChar
  | literal (char : Char)
  | oneOf (negated : Bool) (ranges : List (Char × Char))
deriving DecidableEq, Repr

def GlobItem.accepts (char : Char) : GlobItem → Bool
  | .star => false
  | .anyChar => true
  | .literal expected => char == expected
  | .oneOf negated ranges => (ranges.any fun range => range.1 ≤ char && char ≤ range.2) != negated

def classRanges : List Char → List (Char × Char)
  | low :: '-' :: high :: rest => (low, high) :: classRanges rest
  | char :: rest => (char, char) :: classRanges rest
  | [] => []

-- What follows an opening bracket: a `!`, a `]` that does not close yet, and the
-- rest up to the closing one. None when nothing closes the bracket.
def charClass (pattern : List Char) : Option (GlobItem × List Char) :=
  let negated := pattern.head? == some '!'
  let body := if negated then pattern.tail else pattern
  let first := if body.head? == some ']' then [']'] else []
  let inside := (body.drop first.length).takeWhile (· != ']')
  match (body.drop first.length).dropWhile (· != ']') with
  | [] => none
  | _ :: after => some (.oneOf negated (classRanges (first ++ inside)), after)

-- Every step reads a character, so the pattern's length is fuel enough.
def translate : Nat → List Char → List GlobItem
  | 0, _ => []
  | _, [] => []
  | fuel + 1, '*' :: pattern => .star :: translate fuel pattern
  | fuel + 1, '?' :: pattern => .anyChar :: translate fuel pattern
  | fuel + 1, '[' :: pattern => match charClass pattern with
      | some (item, after) => item :: translate fuel after
      | none => .literal '[' :: translate fuel pattern
  | fuel + 1, char :: pattern => .literal char :: translate fuel pattern

def matchStar (next : List Char → Bool) : List Char → Bool
  | [] => next []
  | char :: text => next (char :: text) || matchStar next text

def matchGlob : List GlobItem → List Char → Bool
  | [], text => text.isEmpty
  | .star :: items, text => matchStar (matchGlob items) text
  | item :: items, char :: text => item.accepts char && matchGlob items text
  | _ :: _, [] => false

def fnmatch (name pattern : String) : Bool := matchGlob (translate pattern.length pattern.toList) name.toList

example : fnmatch "chromeos3" "chrome[!a-z]s?" = false ∧ fnmatch "chromeos3" "c*[m-p]s[0-9]" = true := by decide

structure Machine where
  hostname : String
  label : String
  os : String
  uses : Nat
  locked : Bool
deriving DecidableEq, Repr

structure MachineSpecification where
  hostname : String
  label : String
  os : String
  lockRequired : Bool
  preferredMachines : List String
deriving DecidableEq, Repr

-- The two assertions of Acquire and Release.
inductive AssertionFailed where
  | notLocked
  | usesPositive
deriving DecidableEq, Repr

def Machine.acquire (machine : Machine) (exclusively : Bool) : Except AssertionFailed Machine :=
  if machine.locked then .error .notLocked
  else .ok { machine with locked := exclusively, uses := machine.uses + 1 }

def Machine.release (machine : Machine) : Except AssertionFailed Machine :=
  if machine.uses = 0 then .error .usesPositive
  else .ok { machine with uses := machine.uses - 1, locked := machine.locked && machine.uses - 1 != 0 }

def MachineSpecification.isMatch (spec : MachineSpecification) (machine : Machine) : Bool :=
  !machine.locked && fnmatch machine.hostname spec.hostname && fnmatch machine.label spec.label && fnmatch machine.os spec.os

def MachineSpecification.addPreferredMachine (spec : MachineSpecification) (hostname : String) : MachineSpecification :=
  if hostname ∈ spec.preferredMachines then spec
  else { spec with preferredMachines := spec.preferredMachines ++ [hostname] }

theorem is_match_unlocked (spec : MachineSpecification) (machine : Machine) (matches_spec : spec.isMatch machine = true) :
    machine.locked = false := by
  cases locked : machine.locked with
  | false => rfl
  | true => simp [MachineSpecification.isMatch, locked] at matches_spec

-- Not yet acquired machines.
def Machine.idle (machine : Machine) : Prop := machine.uses = 0 ∧ machine.locked = false

end ToolchainUtils.Automation
