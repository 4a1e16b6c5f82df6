import ToolchainUtils.GreedyRegex
import ToolchainUtils.MarkPairing
import ToolchainUtils.PyString

set_option autoImplicit false

namespace ToolchainUtils.FdoScripts

open PyString
open GreedyRegex MarkPairing

def isDot (c : Char) : Bool := c != '\n'

-- .*# BLOCK \d+ .*count:(\d+)
def blockHeader : List Piece :=
  [.many isDot, .word "# BLOCK ".toList, .some Char.isDigit, .word " ".toList, .many isDot, .word "count:".toList,
    .some Char.isDigit]

-- ^\s*\[.*: \d*:\d*]
def locationStart : List Piece :=
  [.many isSpace, .word "[".toList, .many isDot, .word ": ".toList, .many Char.isDigit, .word ":".toList,
    .many Char.isDigit, .word "]".toList]

-- The group of the pattern is its last piece.
def getBlockCount (line : Text) : Int :=
  match (matchParts blockHeader line).bind List.getLast? with
  | some count => (Nat.ofDigitChars 10 count 0 : Nat)
  | none => -1

def startsWithLocation (line : Text) : Bool := (matchParts locationStart line).isSome

structure DataFile where
  name : Text
  text : Text

-- sum_count and sum_line have no value before the first header, and are not read before it.
structure Search where
  searchLno : Bool
  sumCount : Int
  sumLine : Text

def sumLineText (count : Int) (name header line : Text) : Text :=
  strInt count ++ ":".toList ++ name ++ ": ".toList ++ header ++ " ".toList ++ line

def summarizeFrom (cutoff : Int) (name : Text) : Search → List Text → List Text
  | _, [] => []
  | state, line :: rest =>
      if getBlockCount line ≠ -1 then
        if cutoff ≤ getBlockCount line then summarizeFrom cutoff name ⟨true, getBlockCount line, strip line⟩ rest
        else summarizeFrom cutoff name state rest
      else if state.searchLno && startsWithLocation line then
        sumLineText state.sumCount name state.sumLine line :: summarizeFrom cutoff name { state with searchLno := false } rest
      else summarizeFrom cutoff name state rest

def summarizeLines (cutoff : Int) (dataFile : DataFile) : List Text :=
  summarizeFrom cutoff dataFile.name ⟨false, 0, []⟩ (readlines dataFile.text)

-- What a line is for a cutoff: the header of a hot block, that of another block, or a location.
def kind (cutoff : Int) (line : Text) : Mark :=
  if getBlockCount line ≠ -1 then if cutoff ≤ getBlockCount line then .opens else .cuts
  else if startsWithLocation line then .closes
  else .other

def pairText (name : Text) (pair : Text × Text) : Text := sumLineText (getBlockCount pair.1) name (strip pair.1) pair.2

-- Each hot block that has a location line, with the first one of its own.
def ownLocations (cutoff : Int) (dataFile : DataFile) : List Text :=
  ((parts (kind cutoff) (readlines dataFile.text)).filterMap (partPair (kind cutoff))).map (pairText dataFile.name)

structure Searching (state : Search) (header : Text) : Prop where
  count : state.sumCount = getBlockCount header
  line : state.sumLine = strip header

-- The header that has opened is the one whose count and line are kept.
theorem summarize_pairs (cutoff : Int) (name : Text) (state : Search) (opened : Option Text) (lines : List Text)
    (waiting : state.searchLno = opened.isSome) (kept : ∀ header ∈ opened, Searching state header) :
    summarizeFrom cutoff name state lines = (heldPairs (kind cutoff) opened lines).map (pairText name) := by
  induction lines generalizing state opened with
  | nil => rfl
  | cons line rest ih =>
      rw [summarizeFrom, heldPairs]
      by_cases header : getBlockCount line ≠ -1
      · rw [if_pos header]
        by_cases hot : cutoff ≤ getBlockCount line
        · have opens : kind cutoff line = .opens := by rw [kind, if_pos header, if_pos hot]
          rw [if_pos hot, pairs_opens _ _ _ line rest opens]
          refine ih _ (some line) rfl fun first same => ?_
          cases same
          exact ⟨rfl, rfl⟩
        · have cuts : kind cutoff line = .cuts := by rw [kind, if_pos header, if_neg hot]
          rw [if_neg hot, pairs_cuts _ _ _ line rest cuts]
          exact ih state opened waiting kept
      · rw [if_neg header]
        by_cases location : startsWithLocation line = true
        · have closes : kind cutoff line = .closes := by rw [kind, if_neg header, if_pos location]
          rw [pairs_closes _ _ _ line rest closes, List.map_append, waiting, location, Bool.and_true]
          have later := ih { state with searchLno := false } none rfl (by simp)
          cases opened with
          | none =>
              rw [if_neg (by simp)]
              exact ih state none waiting kept
          | some first =>
              obtain ⟨count, own⟩ := kept first rfl
              rw [if_pos Option.isSome_some, later, count, own]
              rfl
        · have other : kind cutoff line = .other := by rw [kind, if_neg header, if_neg location]
          rw [if_neg (by simp [location]), pairs_other _ _ _ line rest other]
          exact ih state opened waiting kept

theorem own_location_iff (cutoff : Int) (dataFile : DataFile) :
    summarizeLines cutoff dataFile = ownLocations cutoff dataFile ↔ ¬ Stale (kind cutoff) (readlines dataFile.text) := by
  rw [ownLocations, ← own_pairs_parts, ← held_own_iff (kind cutoff) (pairText dataFile.name), summarizeLines,
    summarize_pairs cutoff dataFile.name ⟨false, 0, []⟩ none _ rfl (by simp)]

def coldLocation : DataFile :=
  ⟨"a".toList, "# BLOCK 1 count:9\n# BLOCK 2 count:1\n [b : 1:2] x\n".toList⟩

theorem cold_location_shown : summarizeLines 5 coldLocation ≠ ownLocations 5 coldLocation := by
  decide

end ToolchainUtils.FdoScripts
