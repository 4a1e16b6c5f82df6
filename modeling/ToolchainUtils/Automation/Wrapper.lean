import ToolchainUtils.Automation.JoinedLines
import ToolchainUtils.ShellLanguage.Builtins

set_option autoImplicit false

namespace ToolchainUtils.Automation.Commands

open PyString ShellLanguage

variable {World : Type}

-- Variables that the shell sets by itself or does not let go of.
def shellNames : List Text :=
  ["BASHOPTS", "BASHPID", "DIRSTACK", "EUID", "LINENO", "OLDPWD", "PPID", "PWD", "RANDOM", "SECONDS", "SHELLOPTS", "UID", "_"]
    |>.map String.toList

structure Name where
  text : Text
  identifier : isIdentifier text = true
  free : text ∉ shellNames

theorem name_filled (name : Name) : name.text ≠ [] := by
  intro none
  have identifier := name.identifier
  rw [none] at identifier
  cases identifier

def popd : Shell := ⟨popdName, [], [], false, by decide, by decide⟩

def unset (name : Name) : Shell :=
  ⟨unsetName, [⟨name.text, plain_word _ (name_filled name) (identifier_plain _ name.identifier)⟩], [], false, by decide, by decide⟩

-- The counter counts in the instance, so that every Wrapper takes the first name.
def umaskSaveVar : Text := "OLD_UMASK_1".toList

def saveUmask : Text := assignmentWord umaskSaveVar umaskSubstitution

def savedUmask : Word := ⟨'$' :: umaskSaveVar, by decide⟩

def restoreUmask : Shell := ⟨umaskName, [savedUmask], [], false, by decide, by decide⟩

-- A command is a tree, or a text that is written as it is.
inductive Wrapped where
  | tree (command : Command)
  | text (command : Text)

namespace Wrapped

def str : Wrapped → Option Text
  | .tree command => command.str
  | .text command => some command

def several : Wrapped → Bool
  | .tree command => command.several
  | .text _ => false

def member (wrapped : Wrapped) : Option Text :=
  wrapped.str.map fun text => if wrapped.several then inBraces text else text

end Wrapped

-- [] stands for an option that is not given, which '' is no other than. Nothing is quoted:
-- the options are written as they come.
structure Wrapper where
  command : Wrapped
  cwd : Text
  env : List (Name × Text)
  umask : Text
  distinct : (env.map fun pair => pair.1.text).Nodup

namespace Wrapper

def prefixTexts (wrapper : Wrapper) : List Text :=
  (if wrapper.cwd = [] then [] else [joined [pushdName, wrapper.cwd]]) ++
    (wrapper.env.map (fun pair => assignmentWord pair.1.text pair.2) ++
      if wrapper.umask = [] then [] else [saveUmask, joined [umaskName, wrapper.umask]])

-- Every command is inserted at the front.
def suffixCommands (wrapper : Wrapper) : List Shell :=
  (if wrapper.umask = [] then [] else [restoreUmask]) ++ ((wrapper.env.reverse.map fun pair => unset pair.1) ++
    if wrapper.cwd = [] then [] else [popd])

def str (wrapper : Wrapper) : Option Text :=
  wrapper.command.member.map fun text =>
    andText.intercalate [memberText wrapper.prefixTexts, text, memberText (wrapper.suffixCommands.map Shell.str)]

def SameShell (wrapper : Wrapper) (before after : ShellState) : Prop :=
  after.directory = before.directory ∧ (∀ pair ∈ wrapper.env, after.environment pair.1.text = before.environment pair.1.text) ∧
    after.umask = before.umask

-- The shell is the one from before, and the status says what that of the command says.
def Left (wrapper : Wrapper) (before : ShellState) (ran after : Outcome World ShellState) : Prop :=
  wrapper.SameShell before after.shell ∧ (after.status ≠ 0 ↔ ran.status ≠ 0)

section Line

-- What the shell makes of a text, none where it does not read it.
variable (reads : Text → Option (Program World ShellState)) (wrapper : Wrapper)

end Line

section CleanUp

variable (bash : Bash World) (wrapper : Wrapper)

def cleanUp : Program World ShellState := Program.inOrder (wrapper.suffixCommands.map fun shell => shell.denote bash.simple)

-- Behind a set-up that succeeds the line goes on with the command, and behind it with the
-- clean-up if it succeeds.
def Joined (setUp own whole : Program World ShellState) : Prop :=
  ∀ world shell input later after rest, setUp.Goes world shell input later after rest →
    whole world shell input = setUp.andThen (own.andThen (wrapper.cleanUp bash)) world shell input

def DirectoryBack (before : ShellState) (world : World) (shell : ShellState) : Prop :=
  if wrapper.cwd = [] then shell.directory = before.directory
  else ∃ top rest, shell.directories = top :: rest ∧ bash.cd world shell.directory top = some before.directory

-- What the command has to leave of the shell. Behind one that fails nothing is cleaned up.
def Undoes (before : ShellState) (ran : Outcome World ShellState) : Prop :=
  if ran.status = 0 then
    (if wrapper.umask = [] then ran.shell.umask = before.umask
      else bash.umaskOf (bash.fields ran.world ran.shell savedUmask.val) ran.shell.umask = some before.umask) ∧
    (∀ pair ∈ wrapper.env, before.environment pair.1.text = none) ∧ wrapper.DirectoryBack bash before ran.world ran.shell
  else wrapper.SameShell before ran.shell

-- The clean-up from the unset commands on.
def unsetAndPopd : Program World ShellState :=
  Program.inOrder (((wrapper.env.reverse.map fun pair => unset pair.1) ++ if wrapper.cwd = [] then [] else [popd]).map fun shell =>
    shell.denote bash.simple)

theorem clean_up_eq : wrapper.cleanUp bash =
    (Program.inOrder ((if wrapper.umask = [] then [] else [restoreUmask]).map fun shell => shell.denote bash.simple)).andThen
      (wrapper.unsetAndPopd bash) := by
  rw [cleanUp, suffixCommands, List.map_append, Program.in_order_append, unsetAndPopd]

end CleanUp

end Wrapper

end ToolchainUtils.Automation.Commands
