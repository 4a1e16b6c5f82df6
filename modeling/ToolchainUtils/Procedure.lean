import Mathlib.Logic.Basic

set_option autoImplicit false

-- Procedures that change a state and may raise an exception: the changes made before it stay.
namespace ToolchainUtils

def Procedure (State Raised Value : Type) : Type := State → Except Raised Value × State

namespace Procedure

variable {State Raised Value Result : Type}

def done (value : Value) : Procedure State Raised Value := fun state => (.ok value, state)

def raise (exception : Raised) : Procedure State Raised Value := fun state => (.error exception, state)

def andThen (first : Procedure State Raised Value) (next : Value → Procedure State Raised Result) :
    Procedure State Raised Result := fun state =>
  match first state with
  | (.ok value, changed) => next value changed
  | (.error exception, changed) => (.error exception, changed)

instance : Monad (Procedure State Raised) where
  pure := done
  bind := andThen

def get : Procedure State Raised State := fun state => (.ok state, state)

def modify (change : State → State) : Procedure State Raised Unit := fun state => (.ok (), change state)

def whenever (condition : Bool) (body : Procedure State Raised Unit) : Procedure State Raised Unit :=
  if condition then body else done ()

-- try: body, except: handler, raise.
def onRaise (body : Procedure State Raised Value) (handler : Procedure State Raised Unit) : Procedure State Raised Value :=
  fun state =>
    match body state with
    | (.ok value, changed) => (.ok value, changed)
    | (.error exception, changed) => (handler.andThen fun _ => raise exception) changed

def forEach {Item : Type} (body : Item → Procedure State Raised Unit) : List Item → Procedure State Raised Unit
  | [] => done ()
  | item :: rest => (body item).andThen fun _ => forEach body rest

-- What holds after a procedure, when it returns and when it raises.
structure Ends (after : Value → State → Prop) (raised : Raised → State → Prop) (ended : Except Raised Value × State) : Prop where
  returns : ∀ value, ended.1 = .ok value → after value ended.2
  raises : ∀ exception, ended.1 = .error exception → raised exception ended.2

def Meets (before : State → Prop) (body : Procedure State Raised Value) (after : Value → State → Prop)
    (raised : Raised → State → Prop) : Prop :=
  ∀ state, before state → Ends after raised (body state)

variable {before : State → Prop} {after : Value → State → Prop} {raised : Raised → State → Prop}

theorem meets_done (value : Value) (holds : ∀ state, before state → after value state) :
    Meets before (done value : Procedure State Raised Value) after raised := by
  intro state start
  refine ⟨?_, ?_⟩
  · rintro returned ⟨⟩
    exact holds state start
  · rintro exception ⟨⟩

theorem meets_raise (exception : Raised) (holds : ∀ state, before state → raised exception state) :
    Meets before (raise exception : Procedure State Raised Value) after raised := by
  intro state start
  refine ⟨?_, ?_⟩
  · rintro returned ⟨⟩
  · rintro other ⟨⟩
    exact holds state start

theorem meets_bind {Q : Value → State → Prop} {finish : Result → State → Prop} {first : Procedure State Raised Value}
    {next : Value → Procedure State Raised Result} (starts : Meets before first Q raised)
    (continues : ∀ value, Meets (Q value) (next value) finish raised) : Meets before (first >>= next) finish raised := by
  intro state start
  have ran := starts state start
  change Ends finish raised (andThen first next state)
  unfold andThen
  revert ran
  rcases first state with ⟨exception | value, changed⟩
  · intro ran
    refine ⟨?_, ?_⟩
    · rintro result ⟨⟩
    · rintro other ⟨⟩
      exact ran.raises exception rfl
  · intro ran
    exact continues _ changed (ran.returns _ rfl)

theorem meets_weaken {earlier : State → Prop} {later : Value → State → Prop} {late : Raised → State → Prop}
    {body : Procedure State Raised Value} (meets : Meets before body after raised) (starts : ∀ state, earlier state → before state)
    (returns : ∀ value state, after value state → later value state)
    (raises : ∀ exception state, raised exception state → late exception state) : Meets earlier body later late :=
  fun state start =>
    ⟨fun value same => returns value _ ((meets state (starts state start)).returns value same),
      fun exception same => raises exception _ ((meets state (starts state start)).raises exception same)⟩

theorem meets_absurd (body : Procedure State Raised Value) (never : ∀ state, ¬ before state) : Meets before body after raised :=
  fun state start => absurd start (never state)

theorem meets_nothing (body : Procedure State Raised Value) : Meets before body (fun _ _ => True) fun _ _ => True :=
  fun _ _ => ⟨fun _ _ => trivial, fun _ _ => trivial⟩

theorem meets_get : Meets before (get : Procedure State Raised State) (fun value state => value = state ∧ before state) raised := by
  intro state start
  refine ⟨?_, ?_⟩
  · rintro value ⟨⟩
    exact ⟨rfl, start⟩
  · rintro exception ⟨⟩

theorem meets_modify {Q : State → Prop} (change : State → State) (holds : ∀ state, before state → Q (change state)) :
    Meets before (modify change : Procedure State Raised Unit) (fun _ => Q) raised := by
  intro state start
  refine ⟨?_, ?_⟩
  · rintro value ⟨⟩
    exact holds state start
  · rintro exception ⟨⟩

theorem meets_whenever {Q : State → Prop} (condition : Bool) {body : Procedure State Raised Unit}
    (taken : condition = true → Meets before body (fun _ => Q) raised)
    (passed : condition = false → ∀ state, before state → Q state) :
    Meets before (whenever condition body) (fun _ => Q) raised := by
  cases condition with
  | true => exact taken rfl
  | false => exact meets_done () (passed rfl)

theorem meets_on_raise {Q : Raised → State → Prop} {body : Procedure State Raised Value}
    {handler : Procedure State Raised Unit} (meets : Meets before body after Q)
    (handles : ∀ exception, Meets (Q exception) handler (fun _ => raised exception) raised) :
    Meets before (onRaise body handler) after raised := by
  intro state start
  have ran := meets state start
  unfold onRaise
  revert ran
  rcases body state with ⟨exception | value, changed⟩
  · intro ran
    have again : Meets (Q exception) (handler >>= fun _ => raise exception) after raised :=
      meets_bind (handles exception) fun _ => meets_raise exception fun _ holds => holds
    exact again changed (ran.raises exception rfl)
  · intro ran
    refine ⟨ran.returns, ?_⟩
    rintro other ⟨⟩

theorem meets_and {before' : State → Prop} {after' : Value → State → Prop} {raised' : Raised → State → Prop}
    {body : Procedure State Raised Value} (first : Meets before body after raised) (second : Meets before' body after' raised') :
    Meets (fun state => before state ∧ before' state) body (fun value state => after value state ∧ after' value state)
      fun exception state => raised exception state ∧ raised' exception state :=
  fun state start =>
    ⟨fun value same => ⟨(first state start.1).returns value same, (second state start.2).returns value same⟩,
      fun exception same => ⟨(first state start.1).raises exception same, (second state start.2).raises exception same⟩⟩

-- A loop, by what holds when some of the items are left.
theorem meets_for_each_left {Item : Type} (holds : List Item → State → Prop) (body : Item → Procedure State Raised Unit)
    (items : List Item) (round : ∀ item rest, Meets (holds (item :: rest)) (body item) (fun _ => holds rest) raised) :
    Meets (holds items) (forEach body items) (fun _ => holds []) raised := by
  induction items with
  | nil => exact meets_done () fun _ start => start
  | cons item rest ih => exact meets_bind (round item rest) fun _ => ih

theorem meets_for_each {Item : Type} {holds : State → Prop} (body : Item → Procedure State Raised Unit) (items : List Item)
    (keeps : ∀ item, Meets holds (body item) (fun _ => holds) raised) :
    Meets holds (forEach body items) (fun _ => holds) raised :=
  meets_for_each_left (fun _ => holds) body items fun item _ => keeps item

-- A loop with a round that never returns does not return.
theorem meets_for_each_stopped {Item : Type} {holds : State → Prop} (body : Item → Procedure State Raised Unit) (items : List Item)
    (keeps : ∀ item, Meets holds (body item) (fun _ => holds) raised) (last : Item) (listed : last ∈ items)
    (stops : Meets holds (body last) (fun _ _ => False) raised) : Meets holds (forEach body items) (fun _ _ => False) raised := by
  induction items with
  | nil => exact absurd listed List.not_mem_nil
  | cons item rest ih =>
      rcases List.mem_cons.mp listed with here | later
      · subst here
        exact meets_bind stops fun _ _ impossible => impossible.elim
      · exact meets_bind (keeps item) fun _ => ih later

end Procedure

end ToolchainUtils
