import ToolchainUtils.Automation.Wrapper

set_option autoImplicit false

namespace ToolchainUtils.Automation.Commands

open PyString ShellLanguage

variable {World : Type}

namespace Wrapper

section SetUp

variable (bash : Bash World) (wrapper : Wrapper)

def directoryOf (world : World) (shell : ShellState) (cwd : Text) : Option Text :=
  match bash.fields world shell cwd with
  | [path] => if Bash.isPath path then bash.cd world shell.directory path else none
  | _ => none

def entered (world : World) (shell : ShellState) : ShellState :=
  match if wrapper.cwd = [] then none else directoryOf bash world shell wrapper.cwd with
  | none => shell
  | some directory => { shell with directory := directory, directories := shell.directory :: shell.directories }

def umaskSaved (shell : ShellState) : ShellState := shell.assign umaskSaveVar (bash.maskText shell.umask)

def masked (shell : ShellState) : ShellState :=
  if wrapper.umask = [] then shell
  else { umaskSaved bash shell with umask := (bash.umaskOf [wrapper.umask] shell.umask).getD shell.umask }

def assigned (shell : ShellState) : ShellState := wrapper.env.foldl (fun shell pair => shell.assign pair.1.text pair.2) shell

-- The shell that the command runs in.
def setUp (world : World) (shell : ShellState) : ShellState := wrapper.masked bash (wrapper.assigned (wrapper.entered bash world shell))

variable (world : World) (shell : ShellState) (input : Text)

end SetUp

section Reading

variable (bash : Bash World) (wrapper : Wrapper)

end Reading

end Wrapper

end ToolchainUtils.Automation.Commands
