import Mathlib.Data.List.Forall2
import ToolchainUtils.Automation.Command

set_option autoImplicit false

namespace ToolchainUtils.Automation.Commands

open PyString ShellLanguage

variable {World Sh : Type}

def trueWord : Text := "true".toList

-- What the tree of a command stands for, where simple runs the words of a simple command.
def Shell.denote (simple : List Text → Program World Sh) (shell : Shell) : Program World Sh :=
  if shell.ignoreError then (simple shell.cmdline).succeeding else simple shell.cmdline

mutual
def Command.denote (simple : List Text → Program World Sh) : Command → Program World Sh
  | .shell shell => shell.denote simple
  | .chain commands => Program.inOrder (denoteAll simple commands)
  | .pipe commands input output => Program.connected
      (input.toList.map (fun file => (cat file).denote simple) ++ denoteAll simple commands ++
        output.toList.map fun file => (tee file).denote simple)
def denoteAll (simple : List Text → Program World Sh) : List Command → List (Program World Sh)
  | [] => []
  | cmd :: rest => cmd.denote simple :: denoteAll simple rest
end

-- The shell reads the text of the command, and what it reads does what the tree stands for.
def MeansItsTree (simple : List Text → Program World Sh) (command : Command) : Prop :=
  ∃ text : Text, command.str = some text ∧ ∃ tree : Syntax, parse text = some tree ∧ tree.run simple = command.denote simple

-- Nothing is written for a container without an output, and without a command that something
-- is written for: such a member is one side of an operator only when it has siblings.
mutual
def Command.blank : Command → Bool
  | .shell _ => false
  | .chain commands => decide (commands.length ≤ 1) && allBlank commands
  | .pipe commands _ output => output.isNone && decide (commands.length ≤ 1) && allBlank commands
def allBlank : List Command → Bool
  | [] => true
  | cmd :: rest => cmd.blank && allBlank rest
end

mutual
def Command.renderable : Command → Bool
  | .shell shell => !isReserved (osPathJoin shell.path shell.cmd)
  | .chain commands => allRenderable (decide (1 < commands.length)) commands
  | .pipe commands input output => input.isNone && allRenderable (decide (1 < commands.length + output.toList.length)) commands
def allRenderable (siblings : Bool) : List Command → Bool
  | [] => true
  | cmd :: rest => cmd.renderable && !(siblings && cmd.blank) && allRenderable siblings rest
end

-- The tokens of the text.
def Shell.tokens (shell : Shell) : List Token :=
  if shell.ignoreError then grouped (shell.cmdline.map .word ++ [.semicolon] ++ [.word trueWord] ++ [.semicolon])
  else shell.cmdline.map .word

mutual
def Command.tokens : Command → List Token
  | .shell shell => shell.tokens
  | .chain commands => [Token.andIf].intercalate (allTokens commands)
  | .pipe commands _ output => [Token.bar].intercalate (allTokens commands ++ output.toList.map fun file => (tee file).tokens)
def allTokens : List Command → List (List Token)
  | [] => []
  | cmd :: rest => (if cmd.several then grouped (cmd.tokens ++ [.semicolon]) else cmd.tokens) :: allTokens rest
end

-- As a member of a container.
def Command.part (cmd : Command) : List Token := if cmd.several then grouped (cmd.tokens ++ [.semicolon]) else cmd.tokens

theorem all_tokens_eq (commands : List Command) : allTokens commands = commands.map Command.part := by
  induction commands with
  | nil => rfl
  | cons cmd rest ih => rw [allTokens, ih, List.map_cons, Command.part]

theorem denote_all_eq (simple : List Text → Program World Sh) (commands : List Command) :
    denoteAll simple commands = commands.map (Command.denote simple) := by
  induction commands with
  | nil => rfl
  | cons cmd rest ih => rw [denoteAll, ih, List.map_cons]

theorem all_blank_iff (commands : List Command) : allBlank commands = true ↔ ∀ cmd ∈ commands, cmd.blank = true := by
  induction commands with
  | nil => exact iff_of_true rfl fun _ none => absurd none List.not_mem_nil
  | cons cmd rest ih => rw [allBlank, Bool.and_eq_true, ih, List.forall_mem_cons]

theorem all_renderable_iff (siblings : Bool) (commands : List Command) :
    allRenderable siblings commands = true ↔
      ∀ cmd ∈ commands, cmd.renderable = true ∧ (siblings = true → cmd.blank = false) := by
  induction commands with
  | nil => exact iff_of_true rfl fun _ none => absurd none List.not_mem_nil
  | cons cmd rest ih =>
      have here : (!(siblings && cmd.blank)) = true ↔ (siblings = true → cmd.blank = false) := by
        cases siblings with
        | false => exact iff_of_true rfl fun none => absurd none Bool.false_ne_true
        | true => rw [Bool.true_and, Bool.not_eq_true', forall_prop_of_true rfl]
      rw [allRenderable, Bool.and_eq_true, Bool.and_eq_true, here, ih, List.forall_mem_cons]

-- From here on, the text and its tokens.
theorem lex_braces (text : Text) (tokens : List Token) (lexed : lex text = some tokens) :
    lex (inBraces text) = some (grouped (tokens ++ [.semicolon])) := by
  have opening : lex openBrace = some [.word openBrace] := by decide
  have closing : lex (' ' :: closeBrace) = some [.word closeBrace] := by decide
  have inside : lex (text ++ ';' :: ' ' :: closeBrace) = some (tokens ++ [.semicolon] ++ [.word closeBrace]) := by
    rw [lex_semicolon text _ tokens lexed, closing, Option.map_some]
  have split : inBraces text = openBrace ++ ' ' :: (text ++ ';' :: ' ' :: closeBrace) := List.append_assoc _ _ _
  rw [split, lex_blank _ _ _ opening, inside]
  rfl

theorem lex_joined (first : Text) (rest : List Text) (word : IsWord first) (words : ∀ other ∈ rest, IsWord other) :
    lex (joined (first :: rest)) = some ((first :: rest).map .word) := by
  induction rest generalizing first with
  | nil =>
      rw [joined, List.intercalate_singleton]
      exact word
  | cons second rest ih =>
      obtain ⟨here, later⟩ := List.forall_mem_cons.mp words
      have split : joined (first :: second :: rest) = first ++ ' ' :: joined (second :: rest) := by
        rw [joined, List.intercalate_cons_cons, List.append_assoc, List.singleton_append, joined]
      rw [split, lex_blank first _ _ word, ih second here later]
      rfl

theorem lex_cmdline (shell : Shell) : lex (joined shell.cmdline) = some (shell.cmdline.map .word) := by
  refine lex_joined _ _ shell.oneWord fun other inside => ?_
  obtain ⟨arg, _, rfl⟩ := List.mem_map.mp inside
  exact arg.property

theorem lex_shell (shell : Shell) : lex shell.str = some shell.tokens := by
  rw [Shell.str, Shell.tokens]
  by_cases ignored : shell.ignoreError = true
  · have trailing : lex [' ', 't', 'r', 'u', 'e'] = some [.word trueWord] := by decide
    have whole : lex (joined shell.cmdline ++ "; true".toList) =
        some (shell.cmdline.map .word ++ [.semicolon] ++ [.word trueWord]) := by
      have split : "; true".toList = ';' :: [' ', 't', 'r', 'u', 'e'] := by decide
      rw [split, lex_semicolon _ _ _ (lex_cmdline shell), trailing, Option.map_some]
    rw [if_pos ignored, if_pos ignored, lex_braces _ _ whole]
  · rw [if_neg ignored, if_neg ignored, lex_cmdline]

-- The text of an operator with its blanks.
def Separates (separator : Text) (operator : Token) : Prop :=
  ∀ (first rest : Text) (tokens : List Token), lex first = some tokens →
    lex (first ++ separator ++ rest) = (lex rest).map (tokens ++ operator :: ·)

theorem and_separates : Separates andText .andIf := by
  intro first rest tokens lexed
  have behind : lex ('&' :: '&' :: ' ' :: rest) = (lex rest).map (.andIf :: ·) := by
    have begun : lexChar start '&' = some ([], ⟨.ampersand, []⟩) := by decide
    have ended : lexChar ⟨.ampersand, []⟩ '&' = some ([.andIf], start) := by decide
    have blank : lexChar start ' ' = some ([], start) := by decide
    rw [lex, lex_cons _ _ _ _ _ begun, lex_cons _ _ _ _ _ ended, lex_cons _ _ _ _ _ blank, Option.map_map, Option.map_map]
    rfl
  have split : first ++ andText ++ rest = first ++ ' ' :: '&' :: '&' :: ' ' :: rest := List.append_assoc _ _ _
  rw [split, lex_blank first _ tokens lexed, behind, Option.map_map]
  rfl

theorem bar_separates : Separates barText .bar := by
  intro first rest tokens lexed
  have behind : lex ('|' :: ' ' :: rest) = (lex rest).map (.bar :: ·) := by
    have begun : lexChar start '|' = some ([.bar], ⟨.behindBar, []⟩) := by decide
    have blank : lexChar ⟨.behindBar, []⟩ ' ' = some ([], start) := by decide
    rw [lex, lex_cons _ _ _ _ _ begun, lex_cons _ _ _ _ _ blank, Option.map_map]
    rfl
  have split : first ++ barText ++ rest = first ++ ' ' :: '|' :: ' ' :: rest := List.append_assoc _ _ _
  rw [split, lex_blank first _ tokens lexed, behind, Option.map_map]
  rfl

theorem lex_separated (separator : Text) (operator : Token) (separates : Separates separator operator) (texts : List Text)
    (parts : List (List Token)) (each : List.Forall₂ (fun text tokens => lex text = some tokens) texts parts) :
    lex (separator.intercalate texts) = some ([operator].intercalate parts) := by
  induction each with
  | nil => rfl
  | @cons text tokens texts parts here later ih =>
      cases later with
      | nil => rw [List.intercalate_singleton, List.intercalate_singleton, here]
      | cons _ _ =>
          rw [List.intercalate_cons_cons, separates text _ tokens here, ih, Option.map_some, intercalate_more]

theorem lex_part (cmd : Command) (text : Text) (lexed : lex text = some cmd.tokens) :
    lex (if cmd.several then inBraces text else text) = some cmd.part := by
  rw [Command.part]
  by_cases several : cmd.several = true
  · rw [if_pos several, if_pos several, lex_braces text _ lexed]
  · rw [if_neg several, if_neg several, lexed]

theorem stringified_parts (commands : List Command) (texts : List Text) (written : stringifyCommands commands = some texts)
    (each : ∀ cmd ∈ commands, ∀ text, cmd.str = some text → lex text = some cmd.tokens) :
    List.Forall₂ (fun text tokens => lex text = some tokens) texts (commands.map Command.part) := by
  induction commands generalizing texts with
  | nil =>
      cases written
      exact .nil
  | cons cmd rest ih =>
      obtain ⟨here, later⟩ := List.forall_mem_cons.mp each
      rw [stringifyCommands] at written
      obtain ⟨text, own, written⟩ := Option.bind_eq_some_iff.mp written
      obtain ⟨others, behind, rfl⟩ := Option.map_eq_some_iff.mp written
      exact .cons (lex_part cmd text (here text own)) (ih others behind later)

theorem stringified_each (commands : List Command) (texts : List Text) (written : stringifyCommands commands = some texts) :
    ∀ cmd ∈ commands, ∃ text, cmd.str = some text := by
  induction commands generalizing texts with
  | nil => exact fun _ none => absurd none List.not_mem_nil
  | cons cmd rest ih =>
      rw [stringifyCommands] at written
      obtain ⟨text, own, written⟩ := Option.bind_eq_some_iff.mp written
      obtain ⟨others, behind, rfl⟩ := Option.map_eq_some_iff.mp written
      exact List.forall_mem_cons.mpr ⟨⟨text, own⟩, ih others behind⟩

theorem each_stringified (commands : List Command) (each : ∀ cmd ∈ commands, ∃ text, cmd.str = some text) :
    ∃ texts, stringifyCommands commands = some texts := by
  induction commands with
  | nil => exact ⟨[], rfl⟩
  | cons cmd rest ih =>
      obtain ⟨⟨text, own⟩, later⟩ := List.forall_mem_cons.mp each
      obtain ⟨texts, behind⟩ := ih later
      rw [stringifyCommands, own, behind]
      exact ⟨_, rfl⟩

theorem pipe_str (commands : List Command) (input output : Option Word) (text : Text)
    (written : (Command.pipe commands input output).str = some text) :
    input = none ∧ ∃ pipe, stringifyCommands commands = some pipe ∧
      text = barText.intercalate (pipe ++ output.toList.map fun file => (tee file).str) := by
  rw [Command.str] at written
  obtain ⟨pipe, each, written⟩ := Option.bind_eq_some_iff.mp written
  cases input with
  | none =>
      rw [Option.isSome_none, if_neg Bool.false_ne_true, Option.some.injEq] at written
      exact ⟨rfl, pipe, each, written.symm⟩
  | some file => cases written

theorem lex_str (command : Command) (text : Text) (written : command.str = some text) : lex text = some command.tokens := by
  induction command using by_commands generalizing text with
  | shell shell =>
      rw [Command.str, Option.some.injEq] at written
      rw [← written, Command.tokens, lex_shell]
  | chain commands ih =>
      rw [Command.str] at written
      obtain ⟨texts, each, rfl⟩ := Option.map_eq_some_iff.mp written
      rw [Command.tokens, all_tokens_eq]
      exact lex_separated andText .andIf and_separates texts _ (stringified_parts commands texts each ih)
  | pipe commands input output ih =>
      obtain ⟨_, texts, each, rfl⟩ := pipe_str commands input output text written
      rw [Command.tokens, all_tokens_eq]
      refine lex_separated barText .bar bar_separates _ _ (List.rel_append (stringified_parts commands texts each ih) ?_)
      rw [List.forall₂_map_left_iff, List.forall₂_map_right_iff, List.forall₂_same]
      exact fun file _ => lex_shell (tee file)

theorem at_most_one (commands : List Command) (few : commands.length ≤ 1) : commands = [] ∨ ∃ only, commands = [only] := by
  cases commands with
  | nil => exact .inl rfl
  | cons only rest =>
      have none : rest = [] := List.eq_nil_of_length_eq_zero (Nat.le_zero.mp (Nat.le_of_succ_le_succ few))
      exact .inr ⟨only, by rw [none]⟩

theorem blank_part (cmd : Command) (blank : cmd.tokens = [] ∧ cmd.several = false) : cmd.part = [] := by
  rw [Command.part, blank.2, if_neg Bool.false_ne_true, blank.1]

theorem blank_joined (operator : Token) (commands : List Command) (few : commands.length ≤ 1)
    (each : ∀ cmd ∈ commands, cmd.blank = true)
    (nothing : ∀ cmd ∈ commands, cmd.blank = true → cmd.tokens = [] ∧ cmd.several = false) :
    [operator].intercalate (commands.map Command.part) = [] := by
  rcases at_most_one commands few with rfl | ⟨only, rfl⟩
  · rfl
  · rw [List.map_singleton, List.intercalate_singleton]
    exact blank_part only (nothing only List.mem_cons_self (each only List.mem_cons_self))

theorem blank_writes_nothing (command : Command) (blank : command.blank = true) : command.tokens = [] ∧ command.several = false := by
  induction command using by_commands with
  | shell shell => cases blank
  | chain commands ih =>
      rw [Command.blank, Bool.and_eq_true, decide_eq_true_eq, all_blank_iff] at blank
      obtain ⟨few, each⟩ := blank
      refine ⟨?_, decide_eq_false (Nat.not_lt.mpr few)⟩
      rw [Command.tokens, all_tokens_eq]
      exact blank_joined .andIf commands few each ih
  | pipe commands input output ih =>
      rw [Command.blank, Bool.and_eq_true, Bool.and_eq_true, decide_eq_true_eq, all_blank_iff, Option.isNone_iff_eq_none] at blank
      obtain ⟨⟨rfl, few⟩, each⟩ := blank
      refine ⟨?_, decide_eq_false (Nat.not_lt.mpr few)⟩
      rw [Command.tokens, all_tokens_eq, Option.toList_none, List.map_nil, List.append_nil]
      exact blank_joined .bar commands few each ih

end ToolchainUtils.Automation.Commands
