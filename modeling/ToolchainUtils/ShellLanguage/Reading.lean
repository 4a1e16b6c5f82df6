import ToolchainUtils.ShellLanguage.Programs

set_option autoImplicit false

-- How the parser reads what is put together from parts that it reads.
namespace ToolchainUtils.ShellLanguage

section

variable {World Shell : Type}

-- The tokens go on with a pipeline, and the last command is left open.
def PartReads (simple : List (List Char) → Program World Shell) (tokens : List Token) (program : Program World Shell) : Prop :=
  ∀ (frame : Frame) (parents : List Frame), frame.current = none → ∃ (pipeline : Option Syntax) (current : Current),
    feed ⟨frame, parents⟩ tokens = some ⟨⟨frame.sequence, frame.conjunction, pipeline, some current⟩, parents⟩ ∧
    (joinAfter .pipe pipeline current.syntax).run simple =
      frame.pipeline.elim program fun first => (first.run simple).pipe program

-- The tokens go on with a list of pipelines.
def ListReads (simple : List (List Char) → Program World Shell) (tokens : List Token) (program : Program World Shell) : Prop :=
  ∀ (frame : Frame) (parents : List Frame), frame.pipeline = none → frame.current = none →
    ∃ (conjunction pipeline : Option Syntax) (current : Current),
      feed ⟨frame, parents⟩ tokens = some ⟨⟨frame.sequence, conjunction, pipeline, some current⟩, parents⟩ ∧
      (joinAfter .andThen conjunction (joinAfter .pipe pipeline current.syntax)).run simple =
        frame.conjunction.elim program fun first => (first.run simple).andThen program

-- The tokens are whole lists, each with its semicolon.
def SequenceReads (simple : List (List Char) → Program World Shell) (tokens : List Token) (program : Program World Shell) : Prop :=
  ∀ parents : List Frame, ∃ body : Syntax,
    feed ⟨.empty, parents⟩ tokens = some ⟨⟨some body, none, none, none⟩, parents⟩ ∧ body.run simple = program

variable (simple : List (List Char) → Program World Shell)

theorem feed_words (frame : Frame) (parents : List Frame) (words more : List (List Char)) :
    feed ⟨{ frame with current := some (.command words) }, parents⟩ (more.map .word) =
      some ⟨{ frame with current := some (.command (words ++ more)) }, parents⟩ := by
  induction more generalizing words with
  | nil => rw [List.map_nil, feed, List.append_nil]
  | cons word more ih =>
      rw [List.map_cons, feed]
      change feed ⟨{ frame with current := some (.command (words ++ [word])) }, parents⟩ (more.map .word) = _
      rw [ih, List.append_assoc, List.singleton_append]

theorem words_read (word : List Char) (more : List (List Char)) (free : isReserved word = false) :
    PartReads simple ((word :: more).map .word) (simple (word :: more)) := by
  intro frame parents idle
  refine ⟨frame.pipeline, .command (word :: more), ?_, ?_⟩
  · rw [isReserved, decide_eq_false_iff_not, not_or, not_or] at free
    obtain ⟨free, noOpening, noClosing⟩ := free
    have begun : parseToken ⟨frame, parents⟩ (.word word) = some ⟨{ frame with current := some (.command [word]) }, parents⟩ := by
      rw [parseToken]
      simp only [idle, beginCommand, if_neg free, if_neg noOpening, if_neg noClosing]
    rw [List.map_cons, feed, begun, Option.bind_some, feed_words, List.singleton_append]
  · cases frame.pipeline with
    | none => rfl
    | some first => rfl

theorem part_pipe_reads (first second : List Token) (before after : Program World Shell) (left : PartReads simple first before)
    (right : PartReads simple second after) : PartReads simple (first ++ .bar :: second) (before.pipe after) := by
  intro frame parents idle
  obtain ⟨pipeline, current, fed, same⟩ := left frame parents idle
  obtain ⟨later, last, fedOn, sameOn⟩ :=
    right ⟨frame.sequence, frame.conjunction, some (joinAfter .pipe pipeline current.syntax), none⟩ parents rfl
  refine ⟨later, last, ?_, ?_⟩
  · rw [feed_append, fed, Option.bind_some, feed]
    exact fedOn
  · rw [sameOn, Option.elim_some, same]
    cases frame.pipeline with
    | none => rfl
    | some earlier => exact Program.pipe_assoc _ _ _

theorem part_list_reads (tokens : List Token) (program : Program World Shell) (part : PartReads simple tokens program) :
    ListReads simple tokens program := by
  intro frame parents single idle
  obtain ⟨pipeline, current, fed, same⟩ := part frame parents idle
  rw [single, Option.elim_none] at same
  refine ⟨frame.conjunction, pipeline, current, fed, ?_⟩
  cases frame.conjunction with
  | none => exact same
  | some first =>
      rw [joinAfter, Option.elim_some, Option.elim_some, Syntax.run, same]

theorem list_and_reads (first second : List Token) (before after : Program World Shell) (left : ListReads simple first before)
    (right : ListReads simple second after) : ListReads simple (first ++ .andIf :: second) (before.andThen after) := by
  intro frame parents single idle
  obtain ⟨conjunction, pipeline, current, fed, same⟩ := left frame parents single idle
  obtain ⟨later, pipe, last, fedOn, sameOn⟩ :=
    right ⟨frame.sequence, some (joinAfter .andThen conjunction (joinAfter .pipe pipeline current.syntax)), none, none⟩ parents rfl rfl
  refine ⟨later, pipe, last, ?_, ?_⟩
  · rw [feed_append, fed, Option.bind_some, feed]
    exact fedOn
  · rw [sameOn, Option.elim_some, same]
    cases frame.conjunction with
    | none => rfl
    | some earlier => exact Program.and_assoc _ _ _

theorem list_sequence_reads (tokens : List Token) (program : Program World Shell) (list : ListReads simple tokens program) :
    SequenceReads simple (tokens ++ [.semicolon]) program := by
  intro parents
  obtain ⟨conjunction, pipeline, current, fed, same⟩ := list .empty parents rfl rfl
  refine ⟨joinAfter .andThen conjunction (joinAfter .pipe pipeline current.syntax), ?_, same⟩
  rw [feed_append, fed]
  rfl

theorem sequence_more_reads (first second : List Token) (before after : Program World Shell) (left : SequenceReads simple first before)
    (right : ListReads simple second after) : SequenceReads simple (first ++ second ++ [.semicolon]) (before.inSequence after) := by
  intro parents
  obtain ⟨body, fed, same⟩ := left parents
  obtain ⟨conjunction, pipeline, current, fedOn, sameOn⟩ := right ⟨some body, none, none, none⟩ parents rfl rfl
  refine ⟨.inSequence body (joinAfter .andThen conjunction (joinAfter .pipe pipeline current.syntax)), ?_, ?_⟩
  · rw [List.append_assoc, feed_append, fed, Option.bind_some, feed_append, fedOn]
    rfl
  · rw [Syntax.run, same, sameOn, Option.elim_none]

def grouped (tokens : List Token) : List Token := .word openBrace :: tokens ++ [.word closeBrace]

theorem group_reads (tokens : List Token) (program : Program World Shell) (sequence : SequenceReads simple tokens program) :
    PartReads simple (grouped tokens) program := by
  intro frame parents idle
  obtain ⟨body, fed, same⟩ := sequence (frame :: parents)
  refine ⟨frame.pipeline, .group body, ?_, ?_⟩
  · have opened : parseToken ⟨frame, parents⟩ (.word openBrace) = some ⟨.empty, frame :: parents⟩ := by
      rw [parseToken]
      simp only [idle, beginCommand, if_pos]
    rw [grouped, List.cons_append, feed, opened, Option.bind_some, feed_append, fed]
    rfl
  · cases frame.pipeline with
    | none => exact same
    | some first => exact congrArg (first.run simple).pipe same

theorem intercalate_more (operator : Token) (first second : List Token) (rest : List (List Token)) :
    [operator].intercalate (first :: second :: rest) = first ++ operator :: [operator].intercalate (second :: rest) := by
  rw [List.intercalate_cons_cons, List.append_assoc, List.singleton_append]

theorem pipeline_reads (parts : List (List Token)) (programs : List (Program World Shell)) (filled : parts ≠ [])
    (each : List.Forall₂ (PartReads simple) parts programs) :
    PartReads simple ([.bar].intercalate parts) (Program.connected programs) := by
  induction each with
  | nil => exact absurd rfl filled
  | @cons part program parts programs here later ih =>
      cases later with
      | nil => simpa only [List.intercalate_singleton, Program.connected] using here
      | cons second rest =>
          rw [intercalate_more, Program.connected]
          exact part_pipe_reads simple _ _ _ _ here (ih (List.cons_ne_nil _ _))

theorem conjunction_reads (parts : List (List Token)) (programs : List (Program World Shell)) (filled : parts ≠ [])
    (each : List.Forall₂ (PartReads simple) parts programs) :
    ListReads simple ([.andIf].intercalate parts) (Program.inOrder programs) := by
  induction each with
  | nil => exact absurd rfl filled
  | @cons part program parts programs here later ih =>
      cases later with
      | nil =>
          rw [List.intercalate_singleton, Program.in_order_one]
          exact part_list_reads simple part program here
      | cons second rest =>
          rw [intercalate_more, Program.inOrder, List.foldr_cons]
          exact list_and_reads simple _ _ _ _ (part_list_reads simple part program here) (ih (List.cons_ne_nil _ _))

theorem list_parses (text : List Char) (tokens : List Token) (program : Program World Shell) (lexed : lex text = some tokens)
    (list : ListReads simple tokens program) : ∃ tree : Syntax, parse text = some tree ∧ tree.run simple = program := by
  obtain ⟨conjunction, pipeline, current, fed, same⟩ := list .empty [] rfl rfl
  refine ⟨joinAfter .andThen conjunction (joinAfter .pipe pipeline current.syntax), ?_, same⟩
  rw [parse, lexed, Option.bind_some, fed]
  rfl

end

-- Read to the end, if at all, the tokens leave an operator without its right side.
def Unreadable (tokens : List Token) : Prop :=
  ∀ state after : Parser, state.frame.current = none → feed state tokens = some after →
    after.frame.current = none ∧ after.frame.waiting = true

def Missing (tokens : List Token) : Prop := tokens = [] ∨ Unreadable tokens

def joining : List Token := [.bar, .andIf]

theorem joining_needs (operator : Token) (joins : operator ∈ joining) (state : Parser) (idle : state.frame.current = none) :
    parseToken state operator = none := by
  have noPipeline : state.frame.closePipeline = none := by rw [Frame.closePipeline, idle, Option.map_none]
  rcases List.mem_pair.mp joins with rfl | rfl
  · rw [parseToken, noPipeline, Option.map_none]
  · rw [parseToken, Frame.closeConjunction, noPipeline, Option.map_none, Option.map_none]

theorem joining_waits (operator : Token) (joins : operator ∈ joining) (state after : Parser)
    (stepped : parseToken state operator = some after) :
    after.frame.current = none ∧ after.frame.waiting = true := by
  rcases List.mem_pair.mp joins with rfl | rfl
  · rw [parseToken] at stepped
    obtain ⟨pipeline, closed, rfl⟩ := Option.map_eq_some_iff.mp stepped
    exact ⟨rfl, rfl⟩
  · rw [parseToken] at stepped
    obtain ⟨conjunction, closed, rfl⟩ := Option.map_eq_some_iff.mp stepped
    exact ⟨rfl, rfl⟩

theorem missing_left (operator : Token) (joins : operator ∈ joining) (first rest : List Token) (missing : Missing first) :
    Unreadable (first ++ operator :: rest) := by
  intro state after idle fed
  rw [feed_append] at fed
  obtain ⟨middle, read, fed⟩ := Option.bind_eq_some_iff.mp fed
  have still : middle.frame.current = none := by
    rcases missing with rfl | unreadable
    · cases read
      exact idle
    · exact (unreadable state middle idle read).1
  rw [feed, joining_needs operator joins middle still] at fed
  cases fed

theorem missing_right (operator : Token) (joins : operator ∈ joining) (first rest : List Token) (missing : Missing rest) :
    Unreadable (first ++ operator :: rest) := by
  intro state after idle fed
  rw [feed_append] at fed
  obtain ⟨middle, read, fed⟩ := Option.bind_eq_some_iff.mp fed
  rw [feed] at fed
  obtain ⟨waiting, stepped, fed⟩ := Option.bind_eq_some_iff.mp fed
  have waits := joining_waits operator joins middle waiting stepped
  rcases missing with rfl | unreadable
  · cases fed
    exact waits
  · exact unreadable waiting after waits.1 fed

theorem missing_joined (operator : Token) (joins : operator ∈ joining) (parts : List (List Token)) (part : List Token)
    (inside : part ∈ parts)
    (missing : Missing part) :
    Missing ([operator].intercalate parts) ∧ (1 < parts.length → Unreadable ([operator].intercalate parts)) := by
  induction parts with
  | nil => exact absurd inside List.not_mem_nil
  | cons first parts ih =>
      cases parts with
      | nil =>
          rw [List.mem_singleton.mp inside] at missing
          rw [List.intercalate_singleton]
          exact ⟨missing, fun several => absurd several (Nat.lt_irrefl 1)⟩
      | cons second rest =>
          rw [intercalate_more]
          suffices unreadable : Unreadable (first ++ operator :: [operator].intercalate (second :: rest)) from
            ⟨.inr unreadable, fun _ => unreadable⟩
          rcases List.mem_cons.mp inside with rfl | later
          · exact missing_left operator joins part _ missing
          · exact missing_right operator joins first _ (ih later).1

theorem unreadable_joined (operator : Token) (joins : operator ∈ joining) (parts : List (List Token)) (part : List Token)
    (inside : part ∈ parts) (unreadable : Unreadable part) : Unreadable ([operator].intercalate parts) := by
  have joined := missing_joined operator joins parts part inside (.inr unreadable)
  cases parts with
  | nil => exact absurd inside List.not_mem_nil
  | cons first parts =>
      cases parts with
      | nil =>
          rw [List.mem_singleton.mp inside] at unreadable
          rwa [List.intercalate_singleton]
      | cons second rest => exact joined.2 (Nat.succ_lt_succ (Nat.succ_pos _))

theorem unreadable_group (tokens rest : List Token) (unreadable : Unreadable tokens) :
    Unreadable (grouped (tokens ++ .semicolon :: rest)) := by
  intro state after idle fed
  have opened : parseToken state (.word openBrace) = some ⟨.empty, state.frame :: state.parents⟩ := by
    rw [parseToken]
    simp only [idle, beginCommand, if_pos]
  rw [grouped, List.cons_append, feed, opened, Option.bind_some, List.append_assoc, feed_append] at fed
  obtain ⟨middle, read, fed⟩ := Option.bind_eq_some_iff.mp fed
  have stuck : middle.frame.current = none := (unreadable _ middle rfl read).1
  have noSequence : middle.frame.closeSequence = none := by
    rw [Frame.closeSequence, Frame.closeConjunction, Frame.closePipeline, stuck, Option.map_none, Option.map_none, Option.map_none]
  rw [List.cons_append, feed, parseToken, noSequence, Option.map_none] at fed
  cases fed

theorem unreadable_reserved (word : List Char) (rest : List Token) (taken : word ∈ reserved) : Unreadable (.word word :: rest) := by
  have noOpening : ¬ word = openBrace := fun same => absurd (same ▸ taken) (by decide)
  have noClosing : ¬ word = closeBrace := fun same => absurd (same ▸ taken) (by decide)
  intro state after idle fed
  rw [feed, parseToken] at fed
  simp only [idle, beginCommand, if_neg noOpening, if_neg noClosing, if_pos taken, Option.bind_none] at fed
  cases fed

theorem unreadable_parse (text : List Char) (tokens : List Token) (lexed : lex text = some tokens) (unreadable : Unreadable tokens) :
    parse text = none := by
  rw [parse, lexed, Option.bind_some]
  cases fed : feed ⟨.empty, []⟩ tokens with
  | none => rfl
  | some after =>
      obtain ⟨idle, waits⟩ := unreadable _ after rfl fed
      rw [Option.bind_some, finish, idle, waits]
      exact ite_self _

end ToolchainUtils.ShellLanguage
