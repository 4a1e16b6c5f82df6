import ToolchainUtils.ShellLanguage.Parser

set_option autoImplicit false

namespace ToolchainUtils.ShellLanguage

-- What is left of the input, what was printed, and the exit status.
structure Outcome (World Shell : Type) where
  world : World
  shell : Shell
  rest : List Char
  output : List Char
  status : ℕ

-- A program runs in the world, in a shell and on an input.
abbrev Program (World Shell : Type) := World → Shell → List Char → Outcome World Shell

namespace Program

variable {World Shell : Type}

def nothing : Program World Shell := fun world shell input => ⟨world, shell, input, [], 0⟩

def followedBy (before : Outcome World Shell) (program : Program World Shell) : Outcome World Shell :=
  let after := program before.world before.shell before.rest
  { after with output := before.output ++ after.output }

def inSequence (first second : Program World Shell) : Program World Shell := fun world shell input =>
  followedBy (first world shell input) second

def andThen (first second : Program World Shell) : Program World Shell := fun world shell input =>
  if (first world shell input).status = 0 then followedBy (first world shell input) second else first world shell input

-- The parts of a pipeline run in shells of their own.
def pipe (first second : Program World Shell) : Program World Shell := fun world shell input =>
  let before := first world shell input
  let after := second before.world shell before.output
  ⟨after.world, shell, before.rest, after.output, after.status⟩

def succeeding (program : Program World Shell) : Program World Shell := fun world shell input =>
  { program world shell input with status := 0 }

theorem pipe_assoc (first second third : Program World Shell) : pipe (pipe first second) third = pipe first (pipe second third) := rfl

theorem followed_by_nothing (before : Outcome World Shell) : followedBy before nothing = { before with status := 0 } := by
  rw [followedBy, nothing, List.append_nil]

theorem sequence_nothing (program : Program World Shell) : inSequence program nothing = succeeding program :=
  funext fun _ => funext fun _ => funext fun _ => followed_by_nothing _

theorem and_nothing (program : Program World Shell) : andThen program nothing = program := by
  funext world shell input
  rw [andThen, followed_by_nothing]
  by_cases success : (program world shell input).status = 0
  · rw [if_pos success, ← success]
  · rw [if_neg success]

theorem followed_by_and (before : Outcome World Shell) (first second : Program World Shell) :
    followedBy before (andThen first second) =
      if (followedBy before first).status = 0 then followedBy (followedBy before first) second else followedBy before first := by
  by_cases success : (first before.world before.shell before.rest).status = 0
  · have after : (followedBy before first).status = 0 := success
    rw [if_pos after, followedBy, andThen, if_pos success, followedBy, followedBy, followedBy, List.append_assoc]
  · have after : ¬ (followedBy before first).status = 0 := success
    rw [if_neg after, followedBy, andThen, if_neg success, followedBy]

theorem and_assoc (first second third : Program World Shell) :
    andThen (andThen first second) third = andThen first (andThen second third) := by
  funext world shell input
  rw [andThen, andThen, andThen]
  by_cases success : (first world shell input).status = 0
  · rw [if_pos success, if_pos success, followed_by_and]
  · rw [if_neg success, if_neg success, if_neg success]

-- Up to the first that fails.
def inOrder (programs : List (Program World Shell)) : Program World Shell := programs.foldr andThen nothing

def connected : List (Program World Shell) → Program World Shell
  | [] => nothing
  | [only] => only
  | first :: second :: rest => first.pipe (connected (second :: rest))

theorem in_order_cons (program : Program World Shell) (rest : List (Program World Shell)) :
    inOrder (program :: rest) = program.andThen (inOrder rest) := rfl

theorem in_order_append (first second : List (Program World Shell)) :
    inOrder (first ++ second) = (inOrder first).andThen (inOrder second) := by
  induction first with
  | nil => rfl
  | cons program first ih => rw [List.cons_append, in_order_cons, ih, in_order_cons, and_assoc]

theorem in_order_one (only : Program World Shell) : inOrder [only] = only := and_nothing only

-- It succeeds, and what it prints does not matter.
def Goes (program : Program World Shell) (world : World) (shell : Shell) (input : List Char) (later : World) (after : Shell)
    (rest : List Char) :
    Prop :=
  ∃ output : List Char, program world shell input = ⟨later, after, rest, output, 0⟩

end Program

variable {World Shell : Type}

-- simple is how the shell runs a simple command.
def Syntax.run (simple : List (List Char) → Program World Shell) : Syntax → Program World Shell
  | .nothing => Program.nothing
  | .simple words => simple words
  | .pipe first second => (first.run simple).pipe (second.run simple)
  | .andThen first second => (first.run simple).andThen (second.run simple)
  | .inSequence first second => (first.run simple).inSequence (second.run simple)

end ToolchainUtils.ShellLanguage
