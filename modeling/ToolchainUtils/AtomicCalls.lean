import Mathlib.Logic.Function.Basic
import ToolchainUtils.Transition

set_option autoImplicit false

-- Programs that make calls to something they share. Any number of them run at a time, one call
-- after the other, in any order.
namespace ToolchainUtils.AtomicCalls

inductive Program {Call : Type} (Answer : Call → Type) (Raised Value : Type) : Type where
  | done (value : Value)
  | raised (exception : Raised)
  | call (request : Call) (next : Answer request → Program Answer Raised Value)

section Programs

variable {Call : Type} {Answer : Call → Type} {Raised Value Result Item : Type}

namespace Program

def andThen : Program Answer Raised Value → (Value → Program Answer Raised Result) → Program Answer Raised Result
  | .done value, next => next value
  | .raised exception, _ => .raised exception
  | .call request answered, next => .call request fun answer => (answered answer).andThen next

instance : Monad (Program Answer Raised) where
  pure := done
  bind := andThen

def ask (request : Call) : Program Answer Raised (Answer request) := .call request .done

def ofExcept : Except Raised Value → Program Answer Raised Value
  | .ok value => .done value
  | .error exception => .raised exception

-- try: body, with what it raises as a value.
def attempt : Program Answer Raised Value → Program Answer Raised (Except Raised Value)
  | .done value => .done (.ok value)
  | .raised exception => .done (.error exception)
  | .call request next => .call request fun answer => (next answer).attempt

def forEach (body : Item → Program Answer Raised Unit) : List Item → Program Answer Raised Unit
  | [] => .done ()
  | item :: rest => body item >>= fun _ => forEach body rest

end Program

open Program

-- What a session may ask for and what it may be answered, by what it has noted of its own calls.
structure Rules (Answer : Call → Type) (Note : Type) where
  allowed : Note → Call → Prop
  possible : Note → (request : Call) → Answer request → Prop

variable {Note : Type} (note : Note → (request : Call) → Answer request → Note) (rules : Rules Answer Note)

-- The program asks for what is allowed as long as its answers are possible, and ends as it should.
def Follows (after : Value → Note → Prop) (raises : Raised → Note → Prop) : Program Answer Raised Value → Note → Prop
  | .done value, noted => after value noted
  | .raised exception, noted => raises exception noted
  | .call request next, noted =>
      rules.allowed noted request ∧
        ∀ answer, rules.possible noted request answer → Follows after raises (next answer) (note noted request answer)

variable {note rules} {after : Value → Note → Prop} {raises : Raised → Note → Prop}

theorem follows_done {value : Value} {noted : Note} : Follows note rules after raises (.done value) noted ↔ after value noted :=
  Iff.rfl

theorem follows_raised {exception : Raised} {noted : Note} :
    Follows note rules after raises (.raised exception) noted ↔ raises exception noted := Iff.rfl

theorem follows_call {request : Call} {next : Answer request → Program Answer Raised Value} {noted : Note} :
    Follows note rules after raises (.call request next) noted ↔ rules.allowed noted request ∧
      ∀ answer, rules.possible noted request answer → Follows note rules after raises (next answer) (note noted request answer) :=
  Iff.rfl

-- From here on only the rules below look into a program.
attribute [irreducible] Follows

theorem follows_bind {Q : Value → Note → Prop} {finish : Result → Note → Prop} {first : Program Answer Raised Value}
    {next : Value → Program Answer Raised Result} {noted : Note} (starts : Follows note rules Q raises first noted)
    (continues : ∀ value later, Q value later → Follows note rules finish raises (next value) later) :
    Follows note rules finish raises (first >>= next) noted := by
  change Follows note rules finish raises (first.andThen next) noted
  induction first generalizing noted with
  | done value => exact continues value noted (follows_done.mp starts)
  | raised exception => exact follows_raised.mpr (follows_raised.mp starts)
  | call request answered ih =>
      obtain ⟨allowed, goesOn⟩ := follows_call.mp starts
      exact follows_call.mpr ⟨allowed, fun answer possible => ih answer (goesOn answer possible)⟩

theorem follows_weaken {later : Value → Note → Prop} {late : Raised → Note → Prop} {program : Program Answer Raised Value}
    {noted : Note} (follows : Follows note rules after raises program noted)
      (returns : ∀ value note, after value note → later value note)
    (fails : ∀ exception note, raises exception note → late exception note) : Follows note rules later late program noted := by
  induction program generalizing noted with
  | done value => exact follows_done.mpr (returns value noted (follows_done.mp follows))
  | raised exception => exact follows_raised.mpr (fails exception noted (follows_raised.mp follows))
  | call request next ih =>
      obtain ⟨allowed, goesOn⟩ := follows_call.mp follows
      exact follows_call.mpr ⟨allowed, fun answer possible => ih answer (goesOn answer possible)⟩

theorem follows_attempt {Q : Except Raised Value → Note → Prop} {program : Program Answer Raised Value} {noted : Note}
    (follows : Follows note rules (fun value => Q (.ok value)) (fun exception => Q (.error exception)) program noted) :
    Follows note rules Q raises program.attempt noted := by
  induction program generalizing noted with
  | done value =>
      have holds := follows_done.mp follows
      exact follows_done.mpr holds
  | raised exception =>
      have holds := follows_raised.mp follows
      exact follows_done.mpr holds
  | call request next ih =>
      obtain ⟨allowed, goesOn⟩ := follows_call.mp follows
      exact follows_call.mpr ⟨allowed, fun answer possible => ih answer (goesOn answer possible)⟩

theorem follows_ask {request : Call} {next : Answer request → Program Answer Raised Value} {noted : Note}
    (allowed : rules.allowed noted request)
    (answered : ∀ answer, rules.possible noted request answer → Follows note rules after raises (next answer)
      (note noted request answer)) :
    Follows note rules after raises (ask request >>= next) noted := follows_call.mpr ⟨allowed, answered⟩

theorem follows_of_except {result : Except Raised Value} {noted : Note} (returns : ∀ value, result = .ok value → after value noted)
    (fails : ∀ exception, result = .error exception → raises exception noted) :
    Follows note rules after raises (ofExcept result) noted := by
  cases result with
  | ok value => exact follows_done.mpr (returns value rfl)
  | error exception => exact follows_raised.mpr (fails exception rfl)

-- A loop, by what holds when some of the items are left.
theorem follows_for_each (holds : List Item → Note → Prop) (body : Item → Program Answer Raised Unit) (items : List Item)
    (round : ∀ item rest noted, holds (item :: rest) noted → Follows note rules (fun _ => holds rest) raises (body item) noted)
    (noted : Note) (start : holds items noted) : Follows note rules (fun _ => holds []) raises (forEach body items) noted := by
  induction items generalizing noted with
  | nil => exact follows_done.mpr start
  | cons item rest ih => exact follows_bind (round item rest noted start) fun _ later left => ih later left

theorem follows_fold (holds : List Item → Value → Note → Prop) (body : Value → Item → Program Answer Raised Value) (items : List Item)
    (round : ∀ item rest value noted, holds (item :: rest) value noted → Follows note rules (holds rest) raises
      (body value item) noted)
    (value : Value) (noted : Note) (start : holds items value noted) :
    Follows note rules (holds []) raises (items.foldlM body value) noted := by
  induction items generalizing value noted with
  | nil => exact follows_done.mpr start
  | cons item rest ih =>
      rw [List.foldlM_cons]
      exact follows_bind (round item rest value noted start) fun changed later left => ih changed later left

end Programs

section Interleaving

variable {Call : Type} {Answer : Call → Type} {Raised Value Note State Choice Session : Type}

structure Configuration (Session : Type) {Call : Type} (Answer : Call → Type) (Raised Value State Note : Type) where
  programs : Session → Program Answer Raised Value
  state : State
  notes : Session → Note

variable [DecidableEq Session] (serve : Session → State → Choice → (request : Call) → Answer request × State)
  (note : Note → (request : Call) → Answer request → Note)

-- A session makes its next call. What the answer depends on beside the state is part of the turn.
def step (now : Configuration Session Answer Raised Value State Note) (turn : Session × Choice) :
    Option (Configuration Session Answer Raised Value State Note) :=
  match now.programs turn.1 with
  | .call request next =>
      let served := serve turn.1 now.state turn.2 request
      some ⟨Function.update now.programs turn.1 (next served.1), served.2,
        Function.update now.notes turn.1 (note (now.notes turn.1) request served.1)⟩
  | _ => none

theorem step_call (now : Configuration Session Answer Raised Value State Note) (turn : Session × Choice) (request : Call)
    (answered : Answer request → Program Answer Raised Value) (program : now.programs turn.1 = .call request answered) :
    step serve note now turn = some ⟨Function.update now.programs turn.1 (answered (serve turn.1 now.state turn.2 request).1),
      (serve turn.1 now.state turn.2 request).2, Function.update now.notes turn.1
        (note (now.notes turn.1) request (serve turn.1 now.state turn.2 request).1)⟩ := by
  rw [step, program]

theorem step_cases (now next : Configuration Session Answer Raised Value State Note) (turn : Session × Choice)
    (taken : step serve note now turn = some next) :
    ∃ request answered, now.programs turn.1 = .call request answered ∧
      next = ⟨Function.update now.programs turn.1 (answered (serve turn.1 now.state turn.2 request).1),
        (serve turn.1 now.state turn.2 request).2, Function.update now.notes turn.1
          (note (now.notes turn.1) request (serve turn.1 now.state turn.2 request).1)⟩ := by
  unfold step at taken
  cases program : now.programs turn.1 with
  | done value =>
      rw [program] at taken
      cases taken
  | raised exception =>
      rw [program] at taken
      cases taken
  | call request answered =>
      rw [program] at taken
      exact ⟨request, answered, rfl, (Option.some.inj taken).symm⟩

variable (rules : Session → Rules Answer Note) (after : Session → Value → Note → Prop) (raises : Session → Raised → Note → Prop)
  (shared : State → (Session → Note) → Prop)

-- What is shared goes with what the sessions have noted, and every session follows the rules.
structure Disciplined (now : Configuration Session Answer Raised Value State Note) : Prop where
  shared : shared now.state now.notes
  follows : ∀ session, Follows note (rules session) (after session) (raises session) (now.programs session) (now.notes session)

variable {rules after raises shared} {serve note}

theorem step_disciplined (ok : Configuration Session Answer Raised Value State Note → Session × Choice → Prop)
    (served : ∀ now turn request answered, now.programs turn.1 = .call request answered → shared now.state now.notes →
      (rules turn.1).allowed (now.notes turn.1) request → ok now turn →
        (rules turn.1).possible (now.notes turn.1) request (serve turn.1 now.state turn.2 request).1 ∧
          shared (serve turn.1 now.state turn.2 request).2 (Function.update now.notes turn.1
            (note (now.notes turn.1) request (serve turn.1 now.state turn.2 request).1)))
    (now next : Configuration Session Answer Raised Value State Note) (turn : Session × Choice)
    (holds : Disciplined note rules after raises shared now) (fine : ok now turn) (taken : step serve note now turn = some next) :
    Disciplined note rules after raises shared next := by
  obtain ⟨request, answered, program, rfl⟩ := step_cases serve note now next turn taken
  have follows := holds.follows turn.1
  rw [program] at follows
  obtain ⟨allowed, goesOn⟩ := follows_call.mp follows
  obtain ⟨possible, keeps⟩ := served now turn request answered program holds.shared allowed fine
  refine ⟨keeps, fun session => ?_⟩
  by_cases same : session = turn.1
  · subst same
    simp only [Function.update_self]
    exact goesOn _ possible
  · simp only [Function.update_of_ne same]
    exact holds.follows session

-- A session that has one turn after the other, with the choices that are left when it ends.
def alone (serve : State → Choice → (request : Call) → Answer request × State)
    (note : Note → (request : Call) → Answer request → Note) :
    Program Answer Raised Value → State → Note → List Choice → Option (Except Raised Value × State × Note × List Choice)
  | .done value, state, noted, choices => some (.ok value, state, noted, choices)
  | .raised exception, state, noted, choices => some (.error exception, state, noted, choices)
  | .call request next, state, noted, choice :: choices =>
      let served := serve state choice request
      alone serve note (next served.1) served.2 (note noted request served.1) choices
  | .call _ _, _, _, [] => none

theorem alone_bind {Result : Type} (serve : State → Choice → (request : Call) → Answer request × State)
    (first : Program Answer Raised Value) (next : Value → Program Answer Raised Result) (state : State) (noted : Note)
    (choices : List Choice) :
    alone serve note (first >>= next) state noted choices = (alone serve note first state noted choices).bind fun ended =>
      match ended.1 with
      | .ok value => alone serve note (next value) ended.2.1 ended.2.2.1 ended.2.2.2
      | .error exception => some (.error exception, ended.2) := by
  change alone serve note (first.andThen next) state noted choices = _
  induction first generalizing state noted choices with
  | done value => rfl
  | raised exception => rfl
  | call request answered ih =>
      cases choices with
      | nil => rfl
      | cons choice rest => exact ih _ _ _ rest

theorem alone_then {Result : Type} {serve : State → Choice → (request : Call) → Answer request × State}
    {first : Program Answer Raised Value} {next : Value → Program Answer Raised Result} {state later : State} {noted last : Note}
    {choices rest : List Choice} {value : Value}
    (ran : alone serve note first state noted choices = some (.ok value, later, last, rest)) :
    alone serve note (first >>= next) state noted choices = alone serve note (next value) later last rest := by
  rw [alone_bind, ran]
  rfl

theorem alone_stops {Result : Type} {serve : State → Choice → (request : Call) → Answer request × State}
    {first : Program Answer Raised Value} {next : Value → Program Answer Raised Result} {state later : State} {noted last : Note}
    {choices rest : List Choice} {exception : Raised}
    (ran : alone serve note first state noted choices = some (.error exception, later, last, rest)) :
    alone serve note (first >>= next) state noted choices = some (.error exception, later, last, rest) := by
  rw [alone_bind, ran]
  rfl

theorem alone_attempt (serve : State → Choice → (request : Call) → Answer request × State) (program : Program Answer Raised Value)
    (state : State) (noted : Note) (choices : List Choice) :
    alone serve note (program.attempt : Program Answer Raised (Except Raised Value)) state noted choices =
      (alone serve note program state noted choices).map fun ended => (.ok ended.1, ended.2) := by
  induction program generalizing state noted choices with
  | done value => rfl
  | raised exception => rfl
  | call request next ih =>
      cases choices with
      | nil => rfl
      | cons choice rest => exact ih _ _ _ rest

-- Its turns are a run in which the others wait.
theorem alone_runs (serve : Session → State → Choice → (request : Call) → Answer request × State)
    (session : Session) (program : Program Answer Raised Value) (now : Configuration Session Answer Raised Value State Note)
    (starts : now.programs session = program) (choices : List Choice) (ended : Except Raised Value) (state : State) (noted : Note)
    (ran : alone (serve session) note program now.state (now.notes session) choices = some (ended, state, noted, [])) :
    ∃ finish, Transition.exec (step serve note) now (choices.map fun choice => (session, choice)) = some finish ∧
      finish.programs session = Program.ofExcept ended ∧ finish.state = state ∧ finish.notes session = noted := by
  induction program generalizing now choices with
  | done value =>
      cases ran
      exact ⟨now, rfl, starts, rfl, rfl⟩
  | raised exception =>
      cases ran
      exact ⟨now, rfl, starts, rfl, rfl⟩
  | call request next ih =>
      cases choices with
      | nil => cases ran
      | cons choice rest =>
          have taken := step_call serve note now (session, choice) request next starts
          revert taken
          generalize moved : Configuration.mk (Function.update now.programs session _) _ (Function.update now.notes session _) = later
          intro taken
          have there : later.programs session = next (serve session now.state choice request).1 := by
            rw [← moved]
            exact Function.update_self session _ now.programs
          have noteThere : later.notes session = note (now.notes session) request (serve session now.state choice request).1 := by
            rw [← moved]
            exact Function.update_self session _ now.notes
          obtain ⟨finish, goesOn, ends⟩ := ih _ later there rest (by
            rw [noteThere, ← moved]
            exact ran)
          exact ⟨finish, (Transition.exec_cons _ _ _ _ _).mpr ⟨later, taken, goesOn⟩, ends⟩

end Interleaving

section Runs

variable {σ α : Type} (step : σ → α → Option σ) (ok : σ → α → Prop) (inv good : σ → Prop)

-- An action that is not taken is ok, and so the rule does without the end of the run.
theorem good_iff_ok (kept : ∀ state action next, inv state → ok state action → step state action = some next → inv next)
    (implies : ∀ state, inv state → good state)
    (lost : ∀ state action next, inv state → step state action = some next → good next → ok state action)
    (stuck : ∀ state action, step state action = none → ok state action) (actions : List α) (start : σ) (initial : inv start) :
    Transition.Throughout step good start actions ↔ Transition.Along step ok start actions := by
  induction actions generalizing start with
  | nil => exact ⟨fun _ => trivial, fun _ => implies start initial⟩
  | cons action rest ih =>
      cases taken : step start action with
      | none =>
          have nothing : ∀ next, step start action ≠ some next := fun next other => nomatch taken.symm.trans other
          exact ⟨fun _ => ⟨stuck start action taken, fun next other => absurd other (nothing next)⟩,
            fun _ => ⟨implies start initial, fun next other => absurd other (nothing next)⟩⟩
      | some next =>
          have only : ∀ other, step start action = some other → other = next := fun other same =>
            Option.some.inj (same.symm.trans taken)
          constructor
          · rintro ⟨_, later⟩
            have fine := lost start action next initial taken (Transition.throughout_start step good next rest (later next taken))
            have onward := (ih next (kept start action next initial fine taken)).mp (later next taken)
            exact ⟨fine, fun other same => only other same ▸ onward⟩
          · rintro ⟨fine, later⟩
            have onward := (ih next (kept start action next initial fine taken)).mpr (later next taken)
            exact ⟨implies start initial, fun other same => only other same ▸ onward⟩

end Runs

end ToolchainUtils.AtomicCalls
