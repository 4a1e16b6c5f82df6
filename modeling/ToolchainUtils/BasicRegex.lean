import Mathlib.Data.List.Forall2
import Mathlib.Data.List.Infix

set_option autoImplicit false

-- Basic regular expressions that must match a whole text: characters, the dot, escaped
-- characters, bracket expressions and repetitions of these.
namespace ToolchainUtils.BasicRegex

inductive Single where
  | char (c : Char)
  | any
  | oneOf (chars : List Char)
  | noneOf (chars : List Char)
deriving DecidableEq, Repr

inductive Piece where
  | once (single : Single)
  | repeated (single : Single)
deriving DecidableEq, Repr

inductive Token where
  | one (single : Single)
  | times
deriving DecidableEq, Repr

def special : List Char := ['\\', '[', '*', '^', '$', '\n']

def escapable : List Char := ['.', '\\', '[', '*', '^', '$']

def plain (c : Char) : Single := if c = '.' then .any else .char c

-- A range needs an order of the characters, and a class, a symbol or an equivalence the locale.
def listed (chars : List Char) : Option (List Char) :=
  if '-' ∈ (chars.drop 1).dropLast ∨ ['[', ':'] <:+: chars ∨ ['[', '.'] <:+: chars ∨ ['[', '='] <:+: chars then none
  else some chars

-- What stands between the brackets.
def bracket : List Char → Option Single
  | '^' :: chars => (listed chars).map .noneOf
  | chars => (listed chars).map .oneOf

-- A closing bracket that comes first, or behind the circumflex, is one of the characters.
def closes (read : List Char) : Bool := read != [] && read != ['^']

inductive Reading where
  | outside
  | escape
  -- The characters behind the opening bracket, the last one first.
  | inside (read : List Char)

-- An escaped ordinary character (a group, an interval, a back-reference), a list of patterns
-- and a bracket expression that does not list its characters have no token.
def tokens : Reading → List Char → Option (List Token)
  | .outside, [] => some []
  | _, [] => none
  | .outside, c :: rest =>
      if c = '\\' then tokens .escape rest
      else if c = '[' then tokens (.inside []) rest
      else if c = '\n' then none
      else if c = '*' then (tokens .outside rest).map (.times :: ·)
      else if c = '$' ∧ rest = [] then some []
      else (tokens .outside rest).map (.one (plain c) :: ·)
  | .escape, c :: rest => if c ∈ escapable then (tokens .outside rest).map (.one (.char c) :: ·) else none
  | .inside read, c :: rest =>
      if c = '\n' then none
      else if c = ']' ∧ closes read then (bracket read.reverse).bind fun single => (tokens .outside rest).map (.one single :: ·)
      else tokens (.inside (c :: read)) rest

def repetitions : List Token → Option (List Piece)
  | [] => some []
  | .one single :: .times :: rest => (repetitions rest).map (.repeated single :: ·)
  | .one single :: rest => (repetitions rest).map (.once single :: ·)
  | .times :: _ => none

-- An asterisk that has nothing to repeat stands for itself.
def pieces : List Token → Option (List Piece)
  | .times :: rest => repetitions (.one (.char '*') :: rest)
  | others => repetitions others

def parse : List Char → Option (List Piece)
  | '^' :: pattern => (tokens .outside pattern).bind pieces
  | pattern => (tokens .outside pattern).bind pieces

def Single.accepts : Single → Char → Bool
  | .char own, c => own == c
  | .any, _ => true
  | .oneOf chars, c => chars.contains c
  | .noneOf chars, c => !chars.contains c

def skipRun (single : Single) (after : List Char → Bool) : List Char → Bool
  | [] => after []
  | c :: text => after (c :: text) || (single.accepts c && skipRun single after text)

def accepts : List Piece → List Char → Bool
  | [], text => text.isEmpty
  | .once _ :: _, [] => false
  | .once single :: rest, c :: text => single.accepts c && accepts rest text
  | .repeated single :: rest, text => skipRun single (accepts rest) text

-- No character but the dot has a meaning of its own.
def Dotted (pattern : List Char) : Prop := ∀ c ∈ pattern, c ∉ special

instance (pattern : List Char) : Decidable (Dotted pattern) :=
  inferInstanceAs (Decidable (∀ c ∈ pattern, c ∉ special))

def SameButDots (pattern text : List Char) : Prop := List.Forall₂ (fun own c => own = '.' ∨ own = c) pattern text

instance (pattern text : List Char) : Decidable (SameButDots pattern text) :=
  inferInstanceAs (Decidable (List.Forall₂ (fun own c => own = '.' ∨ own = c) pattern text))

theorem same_but_dots_refl (text : List Char) : SameButDots text text := List.forall₂_same.mpr fun _ _ => .inr rfl

theorem dotted_tokens (pattern : List Char) (dotted : Dotted pattern) :
    tokens .outside pattern = some (pattern.map fun c => .one (plain c)) := by
  induction pattern with
  | nil => rfl
  | cons c rest ih =>
      obtain ⟨ordinary, others⟩ := List.forall_mem_cons.mp dotted
      have apart : c ≠ '\\' ∧ c ≠ '[' ∧ c ≠ '*' ∧ c ≠ '^' ∧ c ≠ '$' ∧ c ≠ '\n' := by
        simpa only [special, List.mem_cons, List.not_mem_nil, or_false, not_or] using ordinary
      obtain ⟨slash, bracket, star, -, dollar, newline⟩ := apart
      rw [tokens, if_neg slash, if_neg bracket, if_neg newline, if_neg star, if_neg fun final => dollar final.1, ih others]
      rfl

theorem single_repetitions (singles : List Single) : repetitions (singles.map .one) = some (singles.map .once) := by
  induction singles with
  | nil => rfl
  | cons single rest ih =>
      rw [List.map_cons, repetitions, ih]
      · rfl
      · intro later same
        cases rest <;> exact absurd same nofun

theorem dotted_parse (pattern : List Char) (dotted : Dotted pattern) :
    parse pattern = some (pattern.map fun c => .once (plain c)) := by
  have found : (tokens .outside pattern).bind pieces = some (pattern.map fun c => .once (plain c)) := by
    have singles := single_repetitions (pattern.map plain)
    rw [List.map_map, List.map_map] at singles
    rw [dotted_tokens pattern dotted, Option.bind_some, pieces]
    · exact singles
    · intro rest same
      cases pattern <;> exact absurd same nofun
  rw [parse]
  · exact found
  · intro rest same
    rw [same] at dotted
    exact absurd (List.mem_of_getElem? (by decide : special[3]? = some '^')) (dotted '^' List.mem_cons_self)

theorem plain_accepts (own c : Char) : (plain own).accepts c = true ↔ own = '.' ∨ own = c := by
  rw [plain]
  split
  · rename_i dot
    exact ⟨fun _ => .inl dot, fun _ => rfl⟩
  · rename_i other
    rw [Single.accepts, beq_iff_eq, or_iff_right other]

theorem dotted_accepts (pattern text : List Char) :
    accepts (pattern.map fun c => .once (plain c)) text = true ↔ SameButDots pattern text := by
  induction pattern generalizing text with
  | nil =>
      rw [SameButDots, List.forall₂_nil_left_iff]
      exact List.isEmpty_iff
  | cons own rest ih =>
      cases text with
      | nil => exact ⟨fun found => absurd found nofun, fun same => nomatch same⟩
      | cons c text =>
          rw [List.map_cons, accepts, Bool.and_eq_true, plain_accepts, ih, SameButDots, SameButDots, List.forall₂_cons]

end ToolchainUtils.BasicRegex
