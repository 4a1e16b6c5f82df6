import ToolchainUtils.PyString
import ToolchainUtils.ShellLanguage.Reading

set_option autoImplicit false

namespace ToolchainUtils.Automation.Commands

open PyString ShellLanguage

-- os.path.join.
def osPathJoin (path name : Text) : Text :=
  if name.head? = some '/' then name
  else if path = [] ∨ path.getLast? = some '/' then path ++ name else path ++ '/' :: name

abbrev Word := { text : Text // IsWord text }

-- Its words have no shell metacharacters, and the command is not one of the shell's braces.
structure Shell where
  cmd : Text
  args : List Word
  path : Text
  ignoreError : Bool
  oneWord : IsWord (osPathJoin path cmd)
  noBrace : osPathJoin path cmd ≠ openBrace ∧ osPathJoin path cmd ≠ closeBrace

inductive Command where
  | shell (shell : Shell)
  | chain (commands : List Command)
  | pipe (commands : List Command) (input output : Option Word)

def inBraces (text : Text) : Text := openBrace ++ ' ' :: text ++ ';' :: ' ' :: closeBrace

namespace Shell

def cmdline (shell : Shell) : List Text := osPathJoin shell.path shell.cmd :: shell.args.map (·.val)

def str (shell : Shell) : Text :=
  if shell.ignoreError then inBraces (joined shell.cmdline ++ "; true".toList) else joined shell.cmdline

def AddOption (shell : Shell) (option : Word) : Shell := { shell with args := shell.args ++ [option] }

end Shell

def cat (input : Word) : Shell := ⟨"cat".toList, [input], [], false, by decide, by decide⟩

def tee (output : Word) : Shell := ⟨"tee".toList, [output], [], false, by decide, by decide⟩

def andText : Text := [' ', '&', '&', ' ']

def barText : Text := [' ', '|', ' ']

-- A container with more than one command of its own.
def Command.several : Command → Bool
  | .shell _ => false
  | .chain commands => decide (1 < commands.length)
  | .pipe commands _ _ => decide (1 < commands.length)

mutual
-- None is the TypeError of pipe.insert(str(Shell('cat', self._input), 0)), where str has
-- two arguments.
def Command.str : Command → Option Text
  | .shell shell => some shell.str
  | .chain commands => (stringifyCommands commands).map andText.intercalate
  | .pipe commands input output => (stringifyCommands commands).bind fun pipe =>
      if input.isSome then none else some (barText.intercalate (pipe ++ output.toList.map fun file => (tee file).str))
def stringifyCommands : List Command → Option (List Text)
  | [] => some []
  | cmd :: rest => cmd.str.bind fun text =>
      (stringifyCommands rest).map fun cmds => (if cmd.several then inBraces text else text) :: cmds
end

theorem by_commands (holds : Command → Prop) (shell : ∀ shell : Shell, holds (.shell shell))
    (chain : ∀ commands : List Command, (∀ cmd ∈ commands, holds cmd) → holds (.chain commands))
    (pipe : ∀ (commands : List Command) (input output : Option Word), (∀ cmd ∈ commands, holds cmd) →
      holds (.pipe commands input output))
    (cmd : Command) : holds cmd :=
  Command.rec (motive_2 := fun commands => ∀ cmd ∈ commands, holds cmd) shell chain pipe
    (fun _ inside => absurd inside List.not_mem_nil)
    (fun _ _ here later => List.forall_mem_cons.mpr ⟨here, later⟩) cmd

end ToolchainUtils.Automation.Commands
