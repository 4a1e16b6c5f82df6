import Mathlib.Data.List.Infix
import ToolchainUtils.PyString

set_option autoImplicit false

namespace ToolchainUtils.DejaGnu

open PyString

structure TestResult where
  name : Text
  variant : Text
  result : Text
  flaky : Bool
  deriving DecidableEq

def isPathChar (c : Char) : Bool := c.isAlphanum || c == '_' || c == '/' || c == '+' || c == '.' || c == '-'

structure Fields where
  result : Text
  path : Text
  description : Text
  deriving DecidableEq

-- LINE_RE: ([A-Z]+):\s+([\w/+.-]+)(.*). The three classes are disjoint from what
-- follows them, so that each takes all that it can.
def lineFields (line : Text) : Option Fields :=
  let result := line.takeWhile Char.isUpper
  match line.dropWhile Char.isUpper with
  | ':' :: rest =>
      let path := (lstrip rest).takeWhile isPathChar
      if result.isEmpty || (rest.takeWhile isSpace).isEmpty || path.isEmpty then none
      else some ⟨result, path, ((lstrip rest).dropWhile isPathChar).takeWhile fun c => c != '\n'⟩
  | _ => none

def testsuite : Text := "testsuite".toList

-- The path parts after the first 'testsuite', or all of them when there is none.
def cutTestsuite (path : Text) : Text :=
  match (path.splitOn '/').dropWhile fun part => part != testsuite with
  | [] => ['/'].intercalate (path.splitOn '/')
  | _ :: after => ['/'].intercalate after

def isJunk (c : Char) : Bool := c == ',' || c == ' '

def stripJunk (text : Text) : Text := (text.dropWhile isJunk).rdropWhile isJunk

def startsInclude : Text → Bool
  | '-' :: 'I' :: c :: _ => !isSpace c
  | _ => false

-- re.sub('-I\S+', ''); while it skips, the match goes on.
def removeIncludes (skipping : Bool) : Text → Text
  | [] => []
  | c :: rest =>
      if skipping then
        if isSpace c then c :: removeIncludes false rest else removeIncludes true rest
      else if startsInclude (c :: rest) then removeIncludes true rest
      else c :: removeIncludes false rest

-- re.sub('\s+', ' ').
def compress (inSpace : Bool) : Text → Text
  | [] => []
  | c :: rest =>
      if isSpace c then if inSpace then compress true rest else ' ' :: compress true rest
      else c :: compress false rest

def clean (description : Text) : Text := compress false (removeIncludes false (stripJunk description))

-- os.path.join and os.path.basename.
def joinPath (path part : Text) : Text :=
  if part.head? = some '/' then part
  else if path = [] ∨ path.getLast? = some '/' then path ++ part
  else path ++ '/' :: part

def basename (path : Text) : Text := path.rtakeWhile fun c => c != '/'

def suffixes : List Text := ["h".toList, "c".toList, "C".toList, "S".toList, "H".toList, "cc".toList, "i".toList, "o".toList]

def hasSuffix (path : Text) : Bool := suffixes.any fun suffix => ('.' :: suffix).isSuffixOf (basename path)

def objectSuffix : Text := ".o".toList

-- variant.split(' ', 1), and the first word if it is the name of an object file.
def moveObject (path variant : Text) : Text × Text :=
  match variant.dropWhile fun c => c != ' ' with
  | [] => (path, variant)
  | _ :: rest =>
      let first := variant.takeWhile fun c => c != ' '
      if objectSuffix.isSuffixOf first then (joinPath path first, rest) else (path, variant)

def dropDot : Text → Text
  | '.' :: '/' :: rest => rest
  | path => path

-- From the missing path of a framework error to the end of FromLine.
def place (path variant result : Text) (flaky : Bool) : TestResult :=
  let (name, text) := if hasSuffix path then (path, variant) else ([], path ++ ' ' :: variant)
  ⟨dropDot name, text, result, flaky⟩

def Fields.toResult (fields : Fields) (flaky : Bool) : TestResult :=
  let (path, variant) := moveObject (cutTestsuite fields.path) (clean fields.description)
  place path variant fields.result flaky

def flakyMark : Text := "flaky".toList

-- line.split('|', 1); none for attributes that FromLine does not know.
def splitAttributes (line : Text) : Option (Bool × Text) :=
  match line.dropWhile fun c => c != '|' with
  | [] => some (false, line)
  | _ :: rest => if strip (line.takeWhile fun c => c != '|') = flakyMark then some (true, strip rest) else none

def fromLine (line : Text) : Option TestResult :=
  match splitAttributes line with
  | none => none
  | some (flaky, body) => (lineFields (strip body)).map fun fields => fields.toResult flaky

def TestResult.str (test : TestResult) : Text :=
  (if test.flaky then "flaky | ".toList else []) ++ test.result ++ ':' :: ' ' :: test.name ++
    if test.variant.isEmpty then [] else ' ' :: test.variant

end ToolchainUtils.DejaGnu
