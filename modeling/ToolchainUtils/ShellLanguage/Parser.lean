import ToolchainUtils.PyString
import ToolchainUtils.ShellLanguage.Lexer

set_option autoImplicit false

namespace ToolchainUtils.ShellLanguage

inductive Syntax where
  | nothing
  | simple (words : List (List Char))
  | pipe (first second : Syntax)
  | andThen (first second : Syntax)
  | inSequence (first second : Syntax)
deriving DecidableEq, Repr

-- The command that is being read.
inductive Current where
  | command (words : List (List Char))
  | group (body : Syntax)
deriving DecidableEq, Repr

def Current.syntax : Current → Syntax
  | .command words => .simple words
  | .group body => body

-- What has been read between two braces: finished lists, pipelines of the running list and
-- commands of the running pipeline.
structure Frame where
  sequence : Option Syntax
  conjunction : Option Syntax
  pipeline : Option Syntax
  current : Option Current
deriving DecidableEq, Repr

def Frame.empty : Frame := ⟨none, none, none, none⟩

structure Parser where
  frame : Frame
  parents : List Frame
deriving DecidableEq, Repr

def joinAfter (operator : Syntax → Syntax → Syntax) (before : Option Syntax) (last : Syntax) : Syntax :=
  before.elim last fun first => operator first last

def Frame.closePipeline (frame : Frame) : Option Syntax :=
  frame.current.map fun current => joinAfter .pipe frame.pipeline current.syntax

def Frame.closeConjunction (frame : Frame) : Option Syntax := frame.closePipeline.map (joinAfter .andThen frame.conjunction)

def Frame.closeSequence (frame : Frame) : Option Syntax := frame.closeConjunction.map (joinAfter .inSequence frame.sequence)

-- An operator still waits for its right side.
def Frame.waiting (frame : Frame) : Bool := frame.pipeline.isSome || frame.conjunction.isSome

-- What begins a command of another kind. The braces are treated on their own.
def reserved : List (List Char) :=
  ["!", "case", "do", "done", "elif", "else", "esac", "fi", "for", "if", "then", "until", "while"].map String.toList

def openBrace : List Char := ['\x7b']

def closeBrace : List Char := ['\x7d']

def isReserved (word : List Char) : Bool := word ∈ reserved ∨ word = openBrace ∨ word = closeBrace

-- A closing brace comes behind a semicolon.
def closeGroup (state : Parser) : Option Parser :=
  if state.frame.waiting then none
  else state.frame.sequence.bind fun body =>
    match state.parents with
    | [] => none
    | parent :: parents => some ⟨{ parent with current := some (.group body) }, parents⟩

def beginCommand (state : Parser) (word : List Char) : Option Parser :=
  if word = openBrace then some ⟨.empty, state.frame :: state.parents⟩
  else if word = closeBrace then closeGroup state
  else if word ∈ reserved then none
  else some { state with frame := { state.frame with current := some (.command [word]) } }

def parseToken (state : Parser) : Token → Option Parser
  | .word word =>
      match state.frame.current with
      | none => beginCommand state word
      | some (.command words) => some { state with frame := { state.frame with current := some (.command (words ++ [word])) } }
      | some (.group _) => none
  | .bar => state.frame.closePipeline.map fun pipeline =>
      { state with frame := { state.frame with pipeline := some pipeline, current := none } }
  | .andIf => state.frame.closeConjunction.map fun conjunction =>
      { state with frame := ⟨state.frame.sequence, some conjunction, none, none⟩ }
  | .semicolon => state.frame.closeSequence.map fun sequence => { state with frame := ⟨some sequence, none, none, none⟩ }

def feed (state : Parser) : List Token → Option Parser
  | [] => some state
  | token :: rest => (parseToken state token).bind fun next => feed next rest

def finish (state : Parser) : Option Syntax :=
  if state.parents ≠ [] then none
  else if state.frame.current.isSome then state.frame.closeSequence
  else if state.frame.waiting then none
  else some (state.frame.sequence.getD .nothing)

def parse (text : List Char) : Option Syntax := (lex text).bind fun tokens => (feed ⟨.empty, []⟩ tokens).bind finish

example : parse "a x | b && \x7b c; true; \x7d".toList =
    some (.andThen (.pipe (.simple [['a'], ['x']]) (.simple [['b']])) (.inSequence (.simple [['c']]) (.simple ["true".toList]))) := by
  decide

theorem feed_append (state : Parser) (first second : List Token) :
    feed state (first ++ second) = (feed state first).bind fun next => feed next second := by
  induction first generalizing state with
  | nil => rfl
  | cons token rest ih =>
      rw [List.cons_append, feed, feed, Option.bind_assoc]
      exact Option.bind_congr fun next _ => ih next

end ToolchainUtils.ShellLanguage
