import Mathlib.Data.List.Basic

set_option autoImplicit false

namespace ToolchainUtils.Transition

universe u v

variable {σ : Type u} {α : Type v}

-- A partial step function. Whatever a scheduler or an outside answer may choose
-- is part of the action, so a list of actions determines a run.
def exec (step : σ → α → Option σ) : σ → List α → Option σ
  | state, [] => some state
  | state, action :: rest => (step state action).bind fun next => exec step next rest

def Reachable (step : σ → α → Option σ) (start state : σ) : Prop :=
  ∃ actions, exec step start actions = some state

-- Every action of the run meets `ok` in the state it is taken from.
def Along (step : σ → α → Option σ) (ok : σ → α → Prop) : σ → List α → Prop
  | _, [] => True
  | state, action :: rest =>
      ok state action ∧ ∀ next, step state action = some next → Along step ok next rest

-- Every state the run passes through, both ends included, meets `good`.
def Throughout (step : σ → α → Option σ) (good : σ → Prop) : σ → List α → Prop
  | state, [] => good state
  | state, action :: rest =>
      good state ∧ ∀ next, step state action = some next → Throughout step good next rest

theorem exec_cons (step : σ → α → Option σ) (start finish : σ) (action : α) (rest : List α) :
    exec step start (action :: rest) = some finish ↔
      ∃ next, step start action = some next ∧ exec step next rest = some finish := by
  simp [exec, Option.bind_eq_some_iff]

theorem exec_total (step : σ → α → Option σ) (total : ∀ state action, ∃ next, step state action = some next)
    (start : σ) (actions : List α) : ∃ finish, exec step start actions = some finish := by
  induction actions generalizing start with
  | nil => exact ⟨start, rfl⟩
  | cons action rest ih =>
      obtain ⟨next, taken⟩ := total start action
      obtain ⟨finish, ran⟩ := ih next
      exact ⟨finish, (exec_cons step start finish action rest).mpr ⟨next, taken, ran⟩⟩

-- The invariant rule for runs whose actions are all allowed by `ok`.
theorem along_invariant (step : σ → α → Option σ) (ok : σ → α → Prop) (inv : σ → Prop)
    (preserved : ∀ state action next, inv state → ok state action → step state action = some next → inv next)
    (actions : List α) (start finish : σ) (initial : inv start)
    (allowed : Along step ok start actions) (run : exec step start actions = some finish) : inv finish := by
  induction actions generalizing start with
  | nil =>
      have same : start = finish := by simpa [exec] using run
      exact same ▸ initial
  | cons action rest ih =>
      obtain ⟨next, taken, remaining⟩ := (exec_cons step start finish action rest).mp run
      exact ih next (preserved start action next initial allowed.1 taken) (allowed.2 next taken) remaining

theorem along_of_forall (step : σ → α → Option σ) (ok : σ → α → Prop) (start : σ) (actions : List α)
    (allowed : ∀ action ∈ actions, ∀ state, ok state action) : Along step ok start actions := by
  induction actions generalizing start with
  | nil => trivial
  | cons action rest ih =>
      exact ⟨allowed action List.mem_cons_self start, fun next _ => ih next fun other member =>
        allowed other (List.mem_cons_of_mem _ member)⟩

theorem along_true (step : σ → α → Option σ) (start : σ) (actions : List α) :
    Along step (fun _ _ => True) start actions :=
  along_of_forall step _ start actions fun _ _ _ => trivial

theorem along_and (step : σ → α → Option σ) (first second : σ → α → Prop) (start : σ) (actions : List α)
    (one : Along step first start actions) (other : Along step second start actions) :
    Along step (fun state action => first state action ∧ second state action) start actions := by
  induction actions generalizing start with
  | nil => trivial
  | cons action rest ih =>
      exact ⟨⟨one.1, other.1⟩, fun next taken => ih next (one.2 next taken) (other.2 next taken)⟩

theorem along_cons (step : σ → α → Option σ) (ok : σ → α → Prop) (state next : σ) (action : α) (rest : List α)
    (taken : step state action = some next) (allowed : ok state action) (later : Along step ok next rest) :
    Along step ok state (action :: rest) :=
  ⟨allowed, fun _ same => Option.some.inj (taken.symm.trans same) ▸ later⟩

instance decidableAlong (step : σ → α → Option σ) (ok : σ → α → Prop) [∀ state action, Decidable (ok state action)] :
    ∀ (actions : List α) (state : σ), Decidable (Along step ok state actions)
  | [], _ => isTrue trivial
  | action :: rest, state =>
      match taken : step state action with
      | none => decidable_of_iff (ok state action)
          ⟨fun allowed => ⟨allowed, fun _ same => absurd (taken.symm.trans same) nofun⟩, And.left⟩
      | some next =>
          have := decidableAlong step ok rest next
          decidable_of_iff (ok state action ∧ Along step ok next rest)
            ⟨fun allowed => along_cons step ok state next action rest taken allowed.1 allowed.2,
              fun allowed => ⟨allowed.1, allowed.2 next taken⟩⟩

theorem along_append (step : σ → α → Option σ) (ok : σ → α → Prop) (start middle : σ) (first second : List α)
    (run : exec step start first = some middle) :
    Along step ok start (first ++ second) ↔ Along step ok start first ∧ Along step ok middle second := by
  induction first generalizing start with
  | nil =>
      have same : start = middle := by simpa [exec] using run
      simp [Along, same]
  | cons action rest ih =>
      obtain ⟨next, taken, remaining⟩ := (exec_cons step start middle action rest).mp run
      have only : ∀ other, step start action = some other → other = next := fun other eq =>
        Option.some.inj (eq.symm.trans taken)
      simp only [List.cons_append, Along]
      constructor
      · rintro ⟨here, later⟩
        have parts := (ih next remaining).mp (later next taken)
        exact ⟨⟨here, fun other eq => only other eq ▸ parts.1⟩, parts.2⟩
      · rintro ⟨⟨here, before⟩, after⟩
        exact ⟨here, fun other eq => only other eq ▸ (ih next remaining).mpr ⟨before next taken, after⟩⟩

theorem reachable_invariant (step : σ → α → Option σ) (inv : σ → Prop) (start state : σ)
    (preserved : ∀ state action next, inv state → step state action = some next → inv next)
    (initial : inv start) (reached : Reachable step start state) : inv state := by
  obtain ⟨actions, run⟩ := reached
  exact along_invariant step (fun _ _ => True) inv (fun before action after holds _ taken =>
    preserved before action after holds taken) actions start state initial (along_true step start actions) run

theorem reachable_more (step : σ → α → Option σ) (start state next : σ) (action : α) (reached : Reachable step start state)
    (taken : step state action = some next) : Reachable step start next := by
  obtain ⟨actions, run⟩ := reached
  refine ⟨actions ++ [action], ?_⟩
  induction actions generalizing start with
  | nil =>
      have same : start = state := by simpa [exec] using run
      rw [List.nil_append, exec, same, taken]
      rfl
  | cons first rest ih =>
      obtain ⟨middle, begun, remaining⟩ := (exec_cons step start state first rest).mp run
      exact (exec_cons step start next first (rest ++ [action])).mpr ⟨middle, begun, ih middle remaining⟩

-- A measure that every step raises by one counts the steps of a run.
theorem exec_counts (step : σ → α → Option σ) (measure : σ → Int)
    (raised : ∀ state action next, step state action = some next → measure next = measure state + 1)
    (actions : List α) (start finish : σ) (run : exec step start actions = some finish) :
    measure finish = measure start + actions.length := by
  induction actions generalizing start with
  | nil =>
      have same : start = finish := by simpa [exec] using run
      simp [same]
  | cons action rest ih =>
      obtain ⟨next, taken, remaining⟩ := (exec_cons step start finish action rest).mp run
      rw [ih next remaining, raised start action next taken, List.length_cons]
      omega

theorem throughout_start (step : σ → α → Option σ) (good : σ → Prop) (start : σ) (actions : List α)
    (always : Throughout step good start actions) : good start := by
  cases actions with
  | nil => exact always
  | cons action rest => exact always.1

theorem throughout_mono (step : σ → α → Option σ) (good better : σ → Prop) (implies : ∀ state, good state → better state)
    (start : σ) (actions : List α) (always : Throughout step good start actions) : Throughout step better start actions := by
  induction actions generalizing start with
  | nil => exact implies start always
  | cons action rest ih => exact ⟨implies start always.1, fun next taken => ih next (always.2 next taken)⟩

theorem throughout_of_along (step : σ → α → Option σ) (ok : σ → α → Prop) (good : σ → Prop)
    (preserved : ∀ state action next, good state → ok state action → step state action = some next → good next)
    (actions : List α) (start : σ) (initial : good start) (allowed : Along step ok start actions) :
    Throughout step good start actions := by
  induction actions generalizing start with
  | nil => exact initial
  | cons action rest ih =>
      exact ⟨initial, fun next taken => ih next (preserved start action next initial allowed.1 taken) (allowed.2 next taken)⟩

-- When an action that is not `ok` always loses `good` and the others keep an
-- invariant that implies it, `ok` says exactly which runs are good throughout.
theorem throughout_iff_along (step : σ → α → Option σ) (ok : σ → α → Prop) (inv good : σ → Prop)
    (kept : ∀ state action next, inv state → ok state action → step state action = some next → inv next)
    (implies : ∀ state, inv state → good state)
    (lost : ∀ state action next, inv state → step state action = some next → good next → ok state action)
    (actions : List α) (start finish : σ) (initial : inv start) (run : exec step start actions = some finish) :
    Throughout step good start actions ↔ Along step ok start actions := by
  induction actions generalizing start with
  | nil => exact ⟨fun _ => trivial, fun _ => implies start initial⟩
  | cons action rest ih =>
      obtain ⟨next, taken, remaining⟩ := (exec_cons step start finish action rest).mp run
      have only : ∀ other, step start action = some other → other = next := fun other eq =>
        Option.some.inj (eq.symm.trans taken)
      constructor
      · rintro ⟨_, later⟩
        have allowed := lost start action next initial taken (throughout_start step good next rest (later next taken))
        have after := (ih next (kept start action next initial allowed taken) remaining).mp (later next taken)
        exact ⟨allowed, fun other eq => only other eq ▸ after⟩
      · rintro ⟨allowed, later⟩
        have after := (ih next (kept start action next initial allowed taken) remaining).mpr (later next taken)
        exact ⟨implies start initial, fun other eq => only other eq ▸ after⟩

-- When an action that is not `ok` spoils the rest of the run for good, `ok` says
-- exactly which runs end well.
theorem finish_iff_along (step : σ → α → Option σ) (ok : σ → α → Prop) (inv spoiled good : σ → Prop)
    (kept : ∀ state action next, inv state → ok state action → step state action = some next → inv next)
    (lost : ∀ state action next, inv state → ¬ ok state action → step state action = some next → spoiled next)
    (stays : ∀ state action next, spoiled state → step state action = some next → spoiled next)
    (actions : List α) (start finish : σ) (implies : inv finish → good finish) (refutes : spoiled finish → ¬ good finish)
    (initial : inv start) (run : exec step start actions = some finish) :
    good finish ↔ Along step ok start actions := by
  constructor
  · intro ends
    induction actions generalizing start with
    | nil => trivial
    | cons action rest ih =>
        obtain ⟨next, taken, remaining⟩ := (exec_cons step start finish action rest).mp run
        by_cases allowed : ok start action
        · exact along_cons step ok start next action rest taken allowed
            (ih next (kept start action next initial allowed taken) remaining)
        · have spoils := lost start action next initial allowed taken
          have after := along_invariant step (fun _ _ => True) spoiled (fun state action next holds _ moved =>
            stays state action next holds moved) rest next finish spoils (along_true step next rest) remaining
          exact absurd ends (refutes after)
  · intro allowed
    exact implies (along_invariant step ok inv kept actions start finish initial allowed run)

theorem throughout_invariant (step : σ → α → Option σ) (inv : σ → Prop)
    (preserved : ∀ state action next, inv state → step state action = some next → inv next)
    (actions : List α) (start : σ) (initial : inv start) : Throughout step inv start actions :=
  throughout_of_along step (fun _ _ => True) inv
    (fun state action next holds _ taken => preserved state action next holds taken) actions start initial
    (along_true step start actions)

end ToolchainUtils.Transition
