import ToolchainUtils.ShellLanguage.Lexer
import ToolchainUtils.ShellLanguage.Programs

set_option autoImplicit false

namespace ToolchainUtils.ShellLanguage

-- What the builtins of a shell read and write: the directory with those that pushd has put
-- aside, the variables and the umask.
structure ShellState where
  directory : List Char
  directories : List (List Char)
  environment : List Char → Option (List Char)
  umask : Nat

namespace ShellState

def assign (shell : ShellState) (name value : List Char) : ShellState :=
  { shell with environment := fun other => if other = name then some value else shell.environment other }

def unset (shell : ShellState) (name : List Char) : ShellState :=
  { shell with environment := fun other => if other = name then none else shell.environment other }

end ShellState

def trueName : List Char := "true".toList

def pushdName : List Char := "pushd".toList

def popdName : List Char := "popd".toList

def unsetName : List Char := "unset".toList

def umaskName : List Char := "umask".toList

def umaskSubstitution : List Char := "$(umask)".toList

def expanding : List Char := ['$', '*', '?', '[', '~', '\x7b', '\x7d']

-- A word that stands for itself.
def isPlain (word : List Char) : Bool := word.all fun c => decide (c ∉ metacharacters ∧ c ∉ expanding)

def isIdentifier : List Char → Bool
  | [] => false
  | c :: rest => (c.isAlpha || c == '_') && rest.all fun d => d.isAlphanum || d == '_'

def assignmentOf (word : List Char) : Option (List Char × List Char) :=
  match word.dropWhile fun c => c != '=' with
  | [] => none
  | _ :: value =>
      if isIdentifier (word.takeWhile fun c => c != '=') then some (word.takeWhile fun c => c != '=', value) else none

-- The rest of the shell, and the files: what a word that is not plain expands to, where cd
-- leads from a directory, how a umask is shown, what umask with some arguments makes of one
-- (none is an error), what is printed, and all other commands.
structure Bash (World : Type) where
  expand : World → ShellState → List Char → List (List Char)
  cd : World → List Char → List Char → Option (List Char)
  maskText : Nat → List Char
  umaskOf : List (List Char) → Nat → Option Nat
  dirsText : ShellState → List Char
  umaskText : List (List Char) → Nat → List Char
  other : List (List Char) → Program World ShellState

namespace Bash

variable {World : Type}

def fields (bash : Bash World) (world : World) (shell : ShellState) (word : List Char) : List (List Char) :=
  if isPlain word then [word] else bash.expand world shell word

def pushd (bash : Bash World) (path : List Char) : Program World ShellState := fun world shell input =>
  match bash.cd world shell.directory path with
  | none => ⟨world, shell, input, [], 1⟩
  | some directory =>
      let after := { shell with directory := directory, directories := shell.directory :: shell.directories }
      ⟨world, after, input, bash.dirsText after, 0⟩

def popd (bash : Bash World) : Program World ShellState := fun world shell input =>
  match shell.directories with
  | [] => ⟨world, shell, input, [], 1⟩
  | top :: directories =>
      match bash.cd world shell.directory top with
      | none => ⟨world, shell, input, [], 1⟩
      | some directory =>
          let after := { shell with directory := directory, directories := directories }
          ⟨world, after, input, bash.dirsText after, 0⟩

def umask (bash : Bash World) (arguments : List (List Char)) : Program World ShellState := fun world shell input =>
  match bash.umaskOf arguments shell.umask with
  | none => ⟨world, shell, input, [], 1⟩
  | some mask => ⟨world, { shell with umask := mask }, input, bash.umaskText arguments shell.umask, 0⟩

def unset (name : List Char) : Program World ShellState := fun world shell input => ⟨world, shell.unset name, input, [], 0⟩

-- An argument such as +1 or -n is no path.
def isPath (argument : List Char) : Bool := argument.head? != some '+' && argument.head? != some '-'

def builtin (bash : Bash World) : List (List Char) → Program World ShellState
  | [] => Program.nothing
  | command :: arguments =>
      if command = trueName then Program.nothing
      else if command = umaskName then bash.umask arguments
      else
        match arguments with
        | [] => if command = popdName then bash.popd else bash.other [command]
        | [argument] =>
            if command = pushdName ∧ isPath argument then bash.pushd argument
            else if command = unsetName ∧ isIdentifier argument then unset argument
            else bash.other [command, argument]
        | first :: second :: rest => bash.other (command :: first :: second :: rest)

def assignedValue (bash : Bash World) (shell : ShellState) (value : List Char) : Option (List Char) :=
  if isPlain value then some value else if value = umaskSubstitution then some (bash.maskText shell.umask) else none

def assignment (bash : Bash World) (shell : ShellState) : List (List Char) → Option ShellState
  | [word] => (assignmentOf word).bind fun parts => (bash.assignedValue shell parts.2).map fun value => shell.assign parts.1 value
  | _ => none

-- A simple command.
def simple (bash : Bash World) (words : List (List Char)) : Program World ShellState := fun world shell input =>
  match bash.assignment shell words with
  | some after => ⟨world, after, input, [], 0⟩
  | none => bash.builtin (words.flatMap (bash.fields world shell)) world shell input

theorem plain_fields (bash : Bash World) (world : World) (shell : ShellState) (word : List Char) (plain : isPlain word = true) :
    bash.fields world shell word = [word] :=
  if_pos plain

end Bash

-- The words NAME=value.
def assignmentWord (name value : List Char) : List Char := name ++ '=' :: value

theorem identifier_chars (name : List Char) (identifier : isIdentifier name = true) : ∀ c ∈ name, c.isAlphanum = true ∨ c = '_' := by
  cases name with
  | nil => cases identifier
  | cons first rest =>
      rw [isIdentifier, Bool.and_eq_true, Bool.or_eq_true, List.all_eq_true, beq_iff_eq] at identifier
      obtain ⟨start, more⟩ := identifier
      refine List.forall_mem_cons.mpr ⟨start.imp_left fun alpha => ?_, fun c inside => ?_⟩
      · rw [Char.isAlphanum, alpha, Bool.true_or]
      · have := more c inside
        rwa [Bool.or_eq_true, beq_iff_eq] at this

theorem identifier_plain (name : List Char) (identifier : isIdentifier name = true) : isPlain name = true := by
  have marks : ∀ c ∈ metacharacters ++ expanding, ¬ (c.isAlphanum = true ∨ c = '_') := by decide
  rw [isPlain, List.all_eq_true]
  intro c inside
  have letter := identifier_chars name identifier c inside
  exact decide_eq_true ⟨fun mark => marks c (List.mem_append_left _ mark) letter,
    fun mark => marks c (List.mem_append_right _ mark) letter⟩

theorem plain_word (word : List Char) (filled : word ≠ []) (plain : isPlain word = true) : IsWord word := by
  refine plain_is_word word filled fun c inside => ?_
  rw [isPlain, List.all_eq_true] at plain
  exact (of_decide_eq_true (plain c inside)).1

end ToolchainUtils.ShellLanguage
