import ToolchainUtils.Automation.CommandMeaning

set_option autoImplicit false

namespace ToolchainUtils.Automation.Commands

open PyString ShellLanguage

variable {World Sh : Type}

theorem renderable_writes (command : Command) (renderable : command.renderable = true) : ∃ text, command.str = some text := by
  induction command using by_commands with
  | shell shell => exact ⟨shell.str, rfl⟩
  | chain commands ih =>
      rw [Command.renderable, all_renderable_iff] at renderable
      obtain ⟨texts, each⟩ := each_stringified commands fun cmd inside => ih cmd inside (renderable cmd inside).1
      rw [Command.str, each]
      exact ⟨_, rfl⟩
  | pipe commands input output ih =>
      rw [Command.renderable, Bool.and_eq_true, all_renderable_iff, Option.isNone_iff_eq_none] at renderable
      obtain ⟨rfl, renderable⟩ := renderable
      obtain ⟨texts, each⟩ := each_stringified commands fun cmd inside => ih cmd inside (renderable cmd inside).1
      rw [Command.str, each]
      exact ⟨_, rfl⟩

theorem blank_does_nothing (simple : List Text → Program World Sh) (command : Command) (renderable : command.renderable = true)
    (blank : command.blank = true) : command.denote simple = Program.nothing := by
  induction command using by_commands with
  | shell shell => cases blank
  | chain commands ih =>
      rw [Command.blank, Bool.and_eq_true, decide_eq_true_eq, all_blank_iff] at blank
      rw [Command.renderable, all_renderable_iff] at renderable
      rw [Command.denote, denote_all_eq]
      rcases at_most_one commands blank.1 with rfl | ⟨only, rfl⟩
      · rfl
      · have inside : only ∈ [only] := List.mem_cons_self
        rw [List.map_singleton, Program.in_order_one, ih only inside (renderable only inside).1 (blank.2 only inside)]
  | pipe commands input output ih =>
      rw [Command.blank, Bool.and_eq_true, Bool.and_eq_true, decide_eq_true_eq, all_blank_iff, Option.isNone_iff_eq_none] at blank
      rw [Command.renderable, Bool.and_eq_true, all_renderable_iff, Option.isNone_iff_eq_none] at renderable
      obtain ⟨⟨rfl, few⟩, each⟩ := blank
      obtain ⟨rfl, renderable⟩ := renderable
      rw [Command.denote, denote_all_eq, Option.toList_none, List.map_nil, List.nil_append, List.map_nil, List.append_nil]
      rcases at_most_one commands few with rfl | ⟨only, rfl⟩
      · rfl
      · have inside : only ∈ [only] := List.mem_cons_self
        exact ih only inside (renderable only inside).1 (each only inside)

theorem shell_part_reads (simple : List Text → Program World Sh) (works : simple [trueWord] = Program.nothing) (shell : Shell)
    (free : isReserved (osPathJoin shell.path shell.cmd) = false) : PartReads simple shell.tokens (shell.denote simple) := by
  have words : PartReads simple (shell.cmdline.map .word) (simple shell.cmdline) := words_read simple _ _ free
  rw [Shell.tokens, Shell.denote]
  by_cases ignored : shell.ignoreError = true
  · have trailing : ListReads simple [.word trueWord] (simple [trueWord]) :=
      part_list_reads simple _ _ (words_read simple trueWord [] (by decide))
    rw [if_pos ignored, if_pos ignored, ← Program.sequence_nothing, ← works]
    have first := list_sequence_reads simple _ _ (part_list_reads simple _ _ words)
    exact group_reads simple _ _ (sequence_more_reads simple _ _ _ _ first trailing)
  · rw [if_neg ignored, if_neg ignored]
    exact words

-- How a command reads as a whole, and between two operators as long as it is not put in braces.
def Reads (simple : List Text → Program World Sh) (cmd : Command) : Prop :=
  ListReads simple cmd.tokens (cmd.denote simple) ∧ (cmd.several = false → PartReads simple cmd.tokens (cmd.denote simple))

theorem part_reads (simple : List Text → Program World Sh) (cmd : Command) (reads : Reads simple cmd) :
    PartReads simple cmd.part (cmd.denote simple) := by
  rw [Command.part]
  by_cases several : cmd.several = true
  · rw [if_pos several]
    exact group_reads simple _ _ (list_sequence_reads simple _ _ reads.1)
  · rw [if_neg several]
    exact reads.2 (Bool.eq_false_iff.mpr several)

theorem parts_read (simple : List Text → Program World Sh) (commands : List Command) (each : ∀ cmd ∈ commands, Reads simple cmd) :
    List.Forall₂ (PartReads simple) (commands.map Command.part) (commands.map (Command.denote simple)) := by
  rw [List.forall₂_map_left_iff, List.forall₂_map_right_iff, List.forall₂_same]
  exact fun cmd inside => part_reads simple cmd (each cmd inside)

theorem chain_reads (simple : List Text → Program World Sh) (commands : List Command) (filled : commands ≠ [])
    (each : ∀ cmd ∈ commands, Reads simple cmd) : Reads simple (.chain commands) := by
  have parts := parts_read simple commands each
  have someParts : commands.map Command.part ≠ [] := fun none => filled (List.map_eq_nil_iff.mp none)
  rw [Reads, Command.tokens, all_tokens_eq, Command.denote, denote_all_eq]
  refine ⟨conjunction_reads simple _ _ someParts parts, fun single => ?_⟩
  rcases at_most_one commands (Nat.not_lt.mp (of_decide_eq_false single)) with rfl | ⟨only, rfl⟩
  · exact absurd rfl filled
  · rw [List.map_singleton, List.intercalate_singleton, List.map_singleton, Program.in_order_one]
    exact part_reads simple only (each only List.mem_cons_self)

theorem pipe_reads (simple : List Text → Program World Sh) (commands : List Command) (output : Option Word)
    (filled : commands ≠ [] ∨ output ≠ none) (each : ∀ cmd ∈ commands, Reads simple cmd)
    (works : simple [trueWord] = Program.nothing) :
    Reads simple (.pipe commands none output) := by
  have last : List.Forall₂ (PartReads simple) (output.toList.map fun file => (tee file).tokens)
      (output.toList.map fun file => (tee file).denote simple) := by
    rw [List.forall₂_map_left_iff, List.forall₂_map_right_iff, List.forall₂_same]
    have free : isReserved (osPathJoin [] "tee".toList) = false := by decide
    exact fun file _ => shell_part_reads simple works (tee file) free
  have someParts : commands.map Command.part ++ output.toList.map (fun file => (tee file).tokens) ≠ [] := by
    intro none
    obtain ⟨noMembers, noOutput⟩ := List.append_eq_nil_iff.mp none
    rcases filled with members | writes
    · exact members (List.map_eq_nil_iff.mp noMembers)
    · exact writes (Option.toList_eq_nil_iff.mp (List.map_eq_nil_iff.mp noOutput))
  have part := pipeline_reads simple _ _ someParts (List.rel_append (parts_read simple commands each) last)
  rw [Reads, Command.tokens, all_tokens_eq, Command.denote, denote_all_eq, Option.toList_none, List.map_nil, List.nil_append]
  exact ⟨part_list_reads simple _ _ part, fun _ => part⟩

-- A member that nothing is written for makes a container with no other part blank.
theorem pipe_filled (commands : List Command) (input output : Option Word)
    (renderable : allRenderable (decide (1 < commands.length + output.toList.length)) commands = true)
    (filled : (Command.pipe commands input output).blank = false) :
    (commands ≠ [] ∨ output ≠ none) ∧ ∀ cmd ∈ commands, cmd.renderable = true ∧ cmd.blank = false := by
  rw [all_renderable_iff] at renderable
  have some : commands ≠ [] ∨ output ≠ none := by
    by_contra none
    obtain ⟨noMembers, noOutput⟩ := not_or.mp none
    rw [not_not.mp noMembers, not_not.mp noOutput] at filled
    cases filled
  refine ⟨some, fun cmd inside => ⟨(renderable cmd inside).1, ?_⟩⟩
  by_cases siblings : 1 < commands.length + output.toList.length
  · exact (renderable cmd inside).2 (decide_eq_true siblings)
  · have few : commands.length ≤ 1 := (Nat.le_add_right _ _).trans (Nat.not_lt.mp siblings)
    rcases at_most_one commands few with rfl | ⟨only, rfl⟩
    · exact absurd inside List.not_mem_nil
    · have noOutput : output = none := by
        cases output with
        | none => rfl
        | some file => exact absurd (Nat.lt_succ_self 1) siblings
      rw [List.mem_singleton.mp inside]
      simpa [Command.blank, allBlank, noOutput] using filled

theorem chain_filled (commands : List Command) (renderable : allRenderable (decide (1 < commands.length)) commands = true)
    (filled : (Command.chain commands).blank = false) :
    commands ≠ [] ∧ ∀ cmd ∈ commands, cmd.renderable = true ∧ cmd.blank = false :=
  (pipe_filled commands none none renderable filled).imp_left fun some => some.resolve_right fun other => other rfl

theorem renderable_reads (simple : List Text → Program World Sh) (works : simple [trueWord] = Program.nothing) (command : Command)
    (renderable : command.renderable = true) (filled : command.blank = false) : Reads simple command := by
  induction command using by_commands with
  | shell shell =>
      rw [Command.renderable, Bool.not_eq_true'] at renderable
      have part := shell_part_reads simple works shell renderable
      rw [Reads, Command.tokens, Command.denote]
      exact ⟨part_list_reads simple _ _ part, fun _ => part⟩
  | chain commands ih =>
      obtain ⟨some, each⟩ := chain_filled commands renderable filled
      exact chain_reads simple commands some fun cmd inside => ih cmd inside (each cmd inside).1 (each cmd inside).2
  | pipe commands input output ih =>
      rw [Command.renderable, Bool.and_eq_true, Option.isNone_iff_eq_none] at renderable
      obtain ⟨rfl, renderable⟩ := renderable
      obtain ⟨some, each⟩ := pipe_filled commands none output renderable filled
      exact pipe_reads simple commands output some (fun cmd inside => ih cmd inside (each cmd inside).1 (each cmd inside).2) works

theorem reserved_unreadable (shell : Shell) (taken : isReserved (osPathJoin shell.path shell.cmd) = true) :
    Unreadable shell.tokens := by
  have word : osPathJoin shell.path shell.cmd ∈ reserved := by
    rw [isReserved, decide_eq_true_eq] at taken
    exact taken.resolve_right fun brace => brace.elim shell.noBrace.1 shell.noBrace.2
  have unreadable : Unreadable (shell.cmdline.map .word) := unreadable_reserved _ _ word
  rw [Shell.tokens]
  by_cases ignored : shell.ignoreError = true
  · rw [if_pos ignored, List.append_assoc, List.append_assoc]
    exact unreadable_group _ _ unreadable
  · rw [if_neg ignored]
    exact unreadable

theorem unreadable_part (cmd : Command) (unreadable : Unreadable cmd.tokens) : Unreadable cmd.part := by
  rw [Command.part]
  by_cases several : cmd.several = true
  · rw [if_pos several]
    exact unreadable_group _ [] unreadable
  · rw [if_neg several]
    exact unreadable

-- What spoils a container: a member that is unreadable by itself, or one that nothing is
-- written for next to others.
theorem spoiled_container (operator : Token) (joins : operator ∈ joining) (commands : List Command) (others : List (List Token))
    (spoiled : allRenderable (decide (1 < commands.length + others.length)) commands = false)
    (each : ∀ cmd ∈ commands, cmd.renderable = false → Unreadable cmd.tokens) :
    Unreadable ([operator].intercalate (commands.map Command.part ++ others)) := by
  have spoiler : ∃ cmd ∈ commands, cmd.renderable = false ∨ (1 < commands.length + others.length ∧ cmd.blank = true) := by
    by_contra none
    push Not at none
    have renderable : allRenderable (decide (1 < commands.length + others.length)) commands = true := by
      refine (all_renderable_iff _ _).mpr fun cmd inside => ?_
      obtain ⟨here, filled⟩ := none cmd inside
      refine ⟨eq_true_of_ne_false here, fun siblings => ?_⟩
      exact eq_false_of_ne_true (filled (of_decide_eq_true siblings))
    exact Bool.false_ne_true (spoiled.symm.trans renderable)
  obtain ⟨cmd, inside, unrenderable | ⟨siblings, blank⟩⟩ := spoiler
  · exact unreadable_joined operator joins _ cmd.part (List.mem_append_left others (List.mem_map_of_mem inside))
      (unreadable_part cmd (each cmd inside unrenderable))
  · have missing := missing_joined operator joins (commands.map Command.part ++ others) cmd.part
      (List.mem_append_left others (List.mem_map_of_mem inside)) (.inl (blank_part cmd (blank_writes_nothing cmd blank)))
    exact missing.2 (by rwa [List.length_append, List.length_map])

theorem unrenderable_unreadable (command : Command) (text : Text) (written : command.str = some text)
    (unrenderable : command.renderable = false) : Unreadable command.tokens := by
  induction command using by_commands generalizing text with
  | shell shell =>
      rw [Command.renderable, Bool.not_eq_false'] at unrenderable
      exact reserved_unreadable shell unrenderable
  | chain commands ih =>
      rw [Command.str] at written
      obtain ⟨texts, each, rfl⟩ := Option.map_eq_some_iff.mp written
      rw [Command.tokens, all_tokens_eq, ← List.append_nil (commands.map Command.part)]
      refine spoiled_container .andIf (by decide) commands [] unrenderable fun cmd inside spoiled => ?_
      obtain ⟨own, wrote⟩ := stringified_each commands texts each cmd inside
      exact ih cmd inside own wrote spoiled
  | pipe commands input output ih =>
      obtain ⟨rfl, texts, each, rfl⟩ := pipe_str commands input output text written
      rw [Command.renderable, Option.isNone_none, Bool.true_and] at unrenderable
      rw [Command.tokens, all_tokens_eq]
      refine spoiled_container .bar (by decide) commands _ (by rwa [List.length_map]) fun cmd inside spoiled => ?_
      obtain ⟨own, wrote⟩ := stringified_each commands texts each cmd inside
      exact ih cmd inside own wrote spoiled

theorem parsed_renderable (command : Command) (text : Text) (tree : Syntax) (written : command.str = some text)
    (parsed : parse text = some tree) : command.renderable = true := by
  by_contra unrenderable
  have unreadable := unrenderable_unreadable command text written (Bool.eq_false_iff.mpr unrenderable)
  rw [unreadable_parse text _ (lex_str command text written) unreadable] at parsed
  cases parsed

theorem renderable_means (simple : List Text → Program World Sh) (works : simple [trueWord] = Program.nothing) (command : Command)
    (renderable : command.renderable = true) : MeansItsTree simple command := by
  obtain ⟨text, written⟩ := renderable_writes command renderable
  refine ⟨text, written, ?_⟩
  by_cases blank : command.blank = true
  · refine ⟨.nothing, ?_, (blank_does_nothing simple command renderable blank).symm⟩
    rw [parse, lex_str command text written, (blank_writes_nothing command blank).1]
    rfl
  · exact list_parses simple text _ _ (lex_str command text written)
      (renderable_reads simple works command renderable (Bool.eq_false_iff.mpr blank)).1

theorem rendered_means_iff (simple : List Text → Program World Sh) (works : simple [trueWord] = Program.nothing) (command : Command) :
    MeansItsTree simple command ↔ command.renderable = true := by
  constructor
  · rintro ⟨text, written, tree, parsed, _⟩
    exact parsed_renderable command text tree written parsed
  · exact renderable_means simple works command

def make : Shell := ⟨['m', 'k'], [], [], false, by decide, by decide⟩

def clean : Shell := ⟨['r', 'm'], [], [], true, by decide, by decide⟩

def log : Word := ⟨['l', 'o', 'g'], by decide⟩

-- A shell where true succeeds and everything else fails and prints its words.
def failing (words : List Text) : Program Unit Unit :=
  if words = [trueWord] then Program.nothing else fun world shell input => ⟨world, shell, input, joined words, 1⟩

theorem nested_command_means_its_tree :
    failing [trueWord] = Program.nothing ∧
      ¬ MeansItsTree failing (.chain [.shell make, .chain []]) ∧
      MeansItsTree failing (.chain [.shell clean, .pipe [.chain [.shell make, .shell make]] none (some log)]) := by
  have works : failing [trueWord] = Program.nothing := if_pos rfl
  refine ⟨works, fun means => ?_, (rendered_means_iff failing works _).mpr (by decide)⟩
  have renderable := (rendered_means_iff failing works _).mp means
  revert renderable
  decide

-- Pipe(Shell('mk'), input='log') raises a TypeError when it is written.
theorem pipe_with_input_is_not_written : ¬ ∀ command : Command, MeansItsTree failing command := by
  intro each
  obtain ⟨text, written, _⟩ := each (.pipe [.shell make] (some log) none)
  cases written

end ToolchainUtils.Automation.Commands
