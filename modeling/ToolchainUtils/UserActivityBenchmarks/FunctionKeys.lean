import ToolchainUtils.PyString
import ToolchainUtils.TextReplace

set_option autoImplicit false

namespace ToolchainUtils.UserActivityBenchmarks

open PyString TextReplace

def commaBlank : Text := ", ".toList

def semicolonBlank : Text := "; ".toList

def fileNameReplacingPairStrings : List (Text × Text) :=
  [("gnawty".toList, "BOARD".toList),
    ("amd64-generic".toList, "BOARD".toList),
    (" ../sysdeps".toList, ",sysdeps".toList),
    (" ../nptl".toList, ",nptl".toList),
    ("  aes-x86_64.s".toList, ",aes-x86_64.s".toList),
    (" (inline)".toList, []),
    (" (partial-inline)".toList, []),
    (" ../".toList, [',']),
    ("../".toList, [])]

def functionFileSeparator : Text := " /".toList

def parentChildFunctionsSeparator : Text := ";;".toList

-- The components that os.path.normpath keeps, the last one first.
def normalComponents (initialSlashes : Bool) : List Text → List Text → List Text
  | newComps, [] => newComps
  | newComps, comp :: rest =>
      if comp = [] ∨ comp = ['.'] then normalComponents initialSlashes newComps rest
      else if comp ≠ "..".toList ∨ (!initialSlashes ∧ newComps = []) ∨ newComps.head? = some "..".toList then
        normalComponents initialSlashes (comp :: newComps) rest
      else normalComponents initialSlashes newComps.tail rest

-- os.path.normpath; exactly two slashes at the start are kept.
def normpath (path : Text) : Text :=
  let initialSlashes := (path.takeWhile fun c => c == '/').length
  let joined := ['/'].intercalate (normalComponents (0 < initialSlashes) [] (splitAt ['/'] path)).reverse
  let normal := (if initialSlashes = 0 then [] else if initialSlashes = 2 then "//".toList else ['/']) ++ joined
  if normal = [] then ['.'] else normal

def makeCWPAndPprofFileNamesConsistent (fileName : Text) : Text :=
  fileNameReplacingPairStrings.foldl (fun name pair => replace pair.1 pair.2 name) (replace commaBlank semicolonBlank fileName)

-- none stands for the ValueError of an unpacking into two names.
def twoParts (separator text : Text) : Option (Text × Text) :=
  match splitAt separator text with
  | [first, second] => some (first, second)
  | _ => none

def makePprofFunctionKey (functionAndFileName : Text) : Option Text :=
  let functionAndFileName := replace commaBlank semicolonBlank functionAndFileName
  if 0 < occurrences functionFileSeparator functionAndFileName then
    (twoParts functionFileSeparator functionAndFileName).map fun parts =>
      parts.1 ++ ',' :: makeCWPAndPprofFileNamesConsistent (normpath ('/' :: parts.2))
  else some (makeCWPAndPprofFileNamesConsistent functionAndFileName)

structure InclusiveRow where
  function : Text
  file : Text
  dso : Text
  inclusiveCount : Text
  inclusiveCountFraction : Text
deriving DecidableEq, Repr

-- The key of a row of ParseCWPInclusiveCountFile, which ignores rows with empty fields.
def inclusiveKey (statistic : InclusiveRow) : Option Text :=
  let fileName := makeCWPAndPprofFileNamesConsistent (normpath statistic.file)
  if statistic.function ≠ [] ∧ fileName ≠ [] ∧ statistic.dso ≠ [] ∧ statistic.inclusiveCount ≠ [] ∧
      statistic.inclusiveCountFraction ≠ [] then
    some (statistic.function ++ ',' :: fileName)
  else none

structure PairwiseRow where
  parentChildFunctions : Text
  childFunctionFile : Text
deriving DecidableEq, Repr

-- The parent and the child's key of a row of ParseCWPPairwiseInclusiveCountFile.
def pairwiseKeys (statistic : PairwiseRow) : Option (Text × Text) :=
  (twoParts parentChildFunctionsSeparator statistic.parentChildFunctions).map fun names =>
    (names.1, names.2 ++ ',' :: makeCWPAndPprofFileNamesConsistent (normpath statistic.childFunctionFile))

-- One comma, where the consumers split the key.
def OneComma (key : Text) : Prop := key.count ',' = 1 ∧ ∃ function file, twoParts [','] key = some (function, file)

theorem two_parts_iff (separator text : Text) : (∃ first second, twoParts separator text = some (first, second)) ↔
    occurrences separator text = 1 := by
  have pieces := length_split separator text
  unfold twoParts
  split
  next first second two =>
    rw [two] at pieces
    exact iff_of_true ⟨first, second, rfl⟩ (Nat.succ_inj.mp pieces).symm
  next other =>
    refine iff_of_false ?_ fun once => ?_
    · rintro ⟨first, second, found⟩
      exact Option.some_ne_none _ found.symm
    · rw [once] at pieces
      obtain ⟨first, second, two⟩ := List.length_eq_two.mp pieces
      exact other first second two

-- What the consumers ask of a key is that it has one comma.
theorem one_comma_iff (key : Text) : OneComma key ↔ key.count ',' = 1 := by
  rw [OneComma, two_parts_iff, occurrences_single, and_self]

end ToolchainUtils.UserActivityBenchmarks
