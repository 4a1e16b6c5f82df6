import Mathlib.Data.List.Infix

set_option autoImplicit false

-- Regular expressions that are tried at the beginning of a text: words, and greedy repetitions
-- of a class of characters with backtracking.
namespace ToolchainUtils.GreedyRegex

inductive Piece where
  | word (text : List Char)
  | many (single : Char → Bool)
  | some (single : Char → Bool)

def push (c : Char) : List (List Char) → List (List Char)
  | [] => []
  | part :: parts => (c :: part) :: parts

-- The repetition takes as many characters as what comes after it allows.
def longest (single : Char → Bool) (after : List Char → Option (List (List Char))) : List Char → Option (List (List Char))
  | [] => (after []).map ([] :: ·)
  | c :: text =>
      (if single c then (longest single after text).map (push c) else none).or ((after (c :: text)).map ([] :: ·))

-- The part of the text that each piece takes.
def matchParts : List Piece → List Char → Option (List (List Char))
  | [], _ => some []
  | .word own :: rest, text =>
      if own.isPrefixOf text then (matchParts rest (text.drop own.length)).map (own :: ·) else none
  | .many single :: rest, text => longest single (matchParts rest) text
  | .some _ :: _, [] => none
  | .some single :: rest, c :: text =>
      if single c then (longest single (matchParts rest) text).map (push c) else none

end ToolchainUtils.GreedyRegex
