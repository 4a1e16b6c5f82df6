import ToolchainUtils.ShellLanguage.Reading
import ToolchainUtils.ShellLanguage.Builtins

set_option autoImplicit false

-- A file of commands, a list on each line.
namespace ToolchainUtils.ShellLanguage

variable {World Shell : Type}

def isCommandLine (line : List Char) : Bool := (line.any fun c => c != ' ' && c != '\t') && line.head? != some '#'

def scriptLines (text : List Char) : List (List Char) := (text.splitOn '\n').filter isCommandLine

-- None where a line is outside of what the parser reads.
def readScript (text : List Char) : Option (List Syntax) := (scriptLines text).mapM parse

-- One after the other whatever they return; the status is that of the last.
def Program.inTurn : List (Program World Shell) → Program World Shell
  | [] => Program.nothing
  | [only] => only
  | first :: second :: rest => first.inSequence (inTurn (second :: rest))

def Bash.runScript (bash : Bash World) (text : List Char) : Option (Program World ShellState) :=
  (readScript text).map fun commands => Program.inTurn (commands.map (Syntax.run bash.simple))

-- A command whose words stand for themselves.
structure PlainCommand (words : List (List Char)) : Prop where
  several : 2 ≤ words.length
  filled : ∀ word ∈ words, word ≠ []
  plain : ∀ word ∈ words, isPlain word = true
  free : ∀ word, words.head? = some word → isReserved word = false

theorem plain_command (first second : List Char) (rest : List (List Char))
    (words : ∀ word ∈ first :: second :: rest, word ≠ [] ∧ isPlain word = true) (free : isReserved first = false) :
    PlainCommand (first :: second :: rest) :=
  ⟨Nat.le_add_left 2 rest.length, fun word member => (words word member).1, fun word member => (words word member).2,
    fun _ same => Option.some.inj same ▸ free⟩

theorem plain_char (word : List Char) (plain : isPlain word = true) (c : Char) (special : c ∈ metacharacters) : c ∉ word :=
  fun member => (of_decide_eq_true (List.all_eq_true.mp plain c member)).1 special

theorem joined_char (words : List (List Char)) (plain : ∀ word ∈ words, isPlain word = true) (c : Char) (solid : c ≠ ' ')
    (special : c ∈ metacharacters) : c ∉ PyString.joined words := by
  induction words with
  | nil => exact List.not_mem_nil
  | cons word rest ih =>
      have here := plain_char word (plain word List.mem_cons_self) c special
      have later := ih fun other member => plain other (List.mem_cons_of_mem _ member)
      cases rest with
      | nil =>
          rw [PyString.joined, List.intercalate_singleton]
          exact here
      | cons second rest =>
          rw [PyString.joined, List.intercalate_cons_cons, List.append_assoc, List.singleton_append, List.mem_append, List.mem_cons]
          rintro (first | blank | behind)
          · exact here first
          · exact solid blank
          · exact later behind

-- A command is neither blank nor a comment.
theorem command_line (words : List (List Char)) (command : PlainCommand words) : isCommandLine (PyString.joined words) = true := by
  match words, command with
  | (c :: word) :: second :: rest, command =>
      have plain := command.plain (c :: word) List.mem_cons_self
      have solid : c ∉ metacharacters := (of_decide_eq_true (List.all_eq_true.mp plain c List.mem_cons_self)).1
      rw [PyString.joined, List.intercalate_cons_cons, isCommandLine, Bool.and_eq_true]
      constructor
      · refine List.any_eq_true.mpr ⟨c, List.mem_cons_self, ?_⟩
        rw [Bool.and_eq_true, bne_iff_ne, bne_iff_ne]
        constructor <;>
          · rintro rfl
            exact solid (by decide)
      · rw [bne_iff_ne]
        intro comment
        rw [Option.some.inj comment] at solid
        exact solid (by decide)
  | [] :: second :: rest, command => exact absurd rfl (command.filled [] List.mem_cons_self)
  | [only], command => exact absurd command.several (by simp)
  | [], command => exact absurd command.several (by simp)

theorem lex_joined (words : List (List Char)) (filled : ∀ word ∈ words, word ≠ []) (plain : ∀ word ∈ words, isPlain word = true) :
    lex (PyString.joined words) = some (words.map .word) := by
  induction words with
  | nil => rfl
  | cons word rest ih =>
      have here := plain_word word (filled word List.mem_cons_self) (plain word List.mem_cons_self)
      have later := ih (fun other member => filled other (List.mem_cons_of_mem _ member))
        fun other member => plain other (List.mem_cons_of_mem _ member)
      cases rest with
      | nil =>
          rw [PyString.joined, List.intercalate_singleton]
          exact here
      | cons second rest =>
          rw [PyString.joined, List.intercalate_cons_cons, List.append_assoc, List.singleton_append, lex_blank word _
            [.word word] here]
          exact congrArg (Option.map ([.word word] ++ ·)) later

theorem plain_command_parses (simple : List (List Char) → Program World Shell) (words : List (List Char))
    (command : PlainCommand words) :
    ∃ tree : Syntax, parse (PyString.joined words) = some tree ∧ tree.run simple = simple words := by
  cases words with
  | nil => exact absurd command.several (by decide)
  | cons word more =>
      exact list_parses simple _ _ _ (lex_joined _ command.filled command.plain)
        (part_list_reads simple _ _ (words_read simple word more (command.free word rfl)))

theorem plain_command_runs (bash : Bash World) (words : List (List Char)) (command : PlainCommand words) :
    bash.simple words = bash.builtin words := by
  have fields : ∀ (world : World) (shell : ShellState), words.flatMap (bash.fields world shell) = words := by
    intro world shell
    have alone : words.flatMap (bash.fields world shell) = words.flatMap fun word => [word] :=
      List.flatMap_congr fun word member => Bash.plain_fields bash world shell word (command.plain word member)
    rw [alone, List.flatMap_singleton']
  have noAssignment : ∀ shell, bash.assignment shell words = none := by
    intro shell
    match words, command.several with
    | _ :: _ :: _, _ => rfl
  funext world shell input
  rw [Bash.simple, noAssignment, fields]

-- The lines of a text that is written line by line.
theorem script_lines_written (lines : List (List Char)) (oneLine : ∀ line ∈ lines, '\n' ∉ line) :
    scriptLines (lines.flatMap fun line => line ++ ['\n']) = lines.filter isCommandLine := by
  induction lines with
  | nil => rfl
  | cons line rest ih =>
      have split : (line ++ '\n' :: rest.flatMap fun line => line ++ ['\n']).splitOn '\n' =
          line :: (rest.flatMap fun line => line ++ ['\n']).splitOn '\n' := by
        rw [List.splitOn, List.splitOnP_append_cons_of_forall_mem]
        · rfl
        · intro c member
          simpa using fun same : c = '\n' => oneLine line List.mem_cons_self (same ▸ member)
        · rfl
      rw [List.flatMap_cons, List.append_assoc, List.singleton_append, scriptLines, split, List.filter_cons, List.filter_cons,
        ← ih fun other member => oneLine other (List.mem_cons_of_mem _ member), scriptLines]

theorem script_runs (bash : Bash World) (text : List Char) (commands : List (List (List Char)))
    (lines : scriptLines text = commands.map PyString.joined) (plain : ∀ words ∈ commands, PlainCommand words) :
    bash.runScript text = some (Program.inTurn (commands.map bash.builtin)) := by
  obtain ⟨trees, read, same⟩ : ∃ trees : List Syntax, (commands.map PyString.joined).mapM parse = some trees ∧
      trees.map (Syntax.run bash.simple) = commands.map bash.builtin := by
    clear lines
    induction commands with
    | nil => exact ⟨[], rfl, rfl⟩
    | cons words rest ih =>
        obtain ⟨trees, read, same⟩ := ih fun other member => plain other (List.mem_cons_of_mem _ member)
        have command := plain words List.mem_cons_self
        obtain ⟨tree, parsed, runs⟩ := plain_command_parses bash.simple words command
        refine ⟨tree :: trees, ?_, ?_⟩
        · rw [List.map_cons, List.mapM_cons, parsed, read]
          rfl
        · rw [List.map_cons, List.map_cons, runs, plain_command_runs bash words command, same]
  rw [Bash.runScript, readScript, lines, read, Option.map_some, same]

end ToolchainUtils.ShellLanguage
