import Mathlib.Data.List.Basic
import Mathlib.Data.Nat.Basic
import Mathlib.Order.Lattice

set_option autoImplicit false

namespace ToolchainUtils.Backtracking

variable {Level Choice State : Type}

-- The choices are tried in their order at every level.
structure Problem (Level Choice State : Type) where
  choices : List Choice
  allowed : State → Level → Choice → Prop
  place : State → Level → Choice → State

def Problem.search (problem : Problem Level Choice State) [∀ state level choice, Decidable (problem.allowed state level choice)] :
    List Level → State → Option State
  | [], state => some state
  | level :: rest, state => problem.choices.findSome? fun choice =>
      if problem.allowed state level choice then problem.search rest (problem.place state level choice) else none

-- The same search over one state that every level writes to: `undo` takes a choice back
-- when nothing was found below it, and the next choice meets the state this leaves.
def Problem.tryChoices (problem : Problem Level Choice State) [∀ state level choice, Decidable (problem.allowed state level choice)]
    (undo : State → Level → Choice → State) (deeper : State → State × Bool) (level : Level) :
    List Choice → State → State × Bool
  | [], state => (state, false)
  | choice :: rest, state =>
      if problem.allowed state level choice then
        match deeper (problem.place state level choice) with
        | (found, true) => (found, true)
        | (left, false) => problem.tryChoices undo deeper level rest (undo left level choice)
      else problem.tryChoices undo deeper level rest state

def Problem.searchInPlace (problem : Problem Level Choice State) [∀ state level choice, Decidable (problem.allowed state level choice)]
    (undo : State → Level → Choice → State) : List Level → State → State × Bool
  | [], state => (state, true)
  | level :: rest, state => problem.tryChoices undo (problem.searchInPlace undo rest) level problem.choices state

inductive Problem.Solves (problem : Problem Level Choice State) : List Level → List Choice → State → State → Prop
  | done (state : State) : problem.Solves [] [] state state
  | step (level : Level) (rest : List Level) (choice : Choice) (path : List Choice) (state result : State)
      (listed : choice ∈ problem.choices) (allowed : problem.allowed state level choice)
      (deeper : problem.Solves rest path (problem.place state level choice) result) :
      problem.Solves (level :: rest) (choice :: path) state result

-- A solution none of whose choices could have come earlier in the order.
inductive Problem.FirstSolution (problem : Problem Level Choice State) : List Level → List Choice → State → State → Prop
  | done (state : State) : problem.FirstSolution [] [] state state
  | step (level : Level) (rest : List Level) (earlier later : List Choice) (choice : Choice) (path : List Choice)
      (state result : State) (order : problem.choices = earlier ++ choice :: later)
      (allowed : problem.allowed state level choice)
      (dead : ∀ other ∈ earlier, problem.allowed state level other →
        ∀ otherPath otherResult, ¬ problem.Solves rest otherPath (problem.place state level other) otherResult)
      (deeper : problem.FirstSolution rest path (problem.place state level choice) result) :
      problem.FirstSolution (level :: rest) (choice :: path) state result

theorem first_solution_solves (problem : Problem Level Choice State) (levels : List Level) (path : List Choice)
    (state result : State) (first : problem.FirstSolution levels path state result) :
    problem.Solves levels path state result := by
  induction first with
  | done state => exact .done state
  | step level rest earlier later choice path state result order allowed _ _ ih =>
      have listed : choice ∈ problem.choices := by simp [order]
      exact .step level rest choice path state result listed allowed ih

section search

variable (problem : Problem Level Choice State) [∀ state level choice, Decidable (problem.allowed state level choice)]

theorem search_complete (levels : List Level) (path : List Choice) (state result : State)
    (solves : problem.Solves levels path state result) : (problem.search levels state).isSome := by
  induction solves with
  | done state => rfl
  | step level rest choice path state result listed allowed _ ih =>
      rw [Problem.search, List.findSome?_isSome_iff]
      exact ⟨choice, listed, by rw [if_pos allowed]; exact ih⟩

theorem search_first (levels : List Level) (state result : State) (found : problem.search levels state = some result) :
    ∃ path, problem.FirstSolution levels path state result := by
  induction levels generalizing state with
  | nil =>
      obtain rfl : state = result := Option.some.inj found
      exact ⟨[], .done state⟩
  | cons level rest ih =>
      rw [Problem.search, List.findSome?_eq_some_iff] at found
      obtain ⟨earlier, choice, later, order, inside, failed⟩ := found
      obtain ⟨allowed, deeper⟩ := Option.ite_none_right_eq_some.mp inside
      obtain ⟨path, first⟩ := ih _ deeper
      refine ⟨choice :: path, .step level rest earlier later choice path state result order allowed ?_ first⟩
      intro other before placed otherPath otherResult solves
      have none_below := failed other before
      rw [if_pos placed] at none_below
      have some_below := search_complete problem rest otherPath _ otherResult solves
      rw [none_below] at some_below
      cases some_below

-- What an attempt that works in place leaves, given the result of the same attempt on a copy.
def restoring (state : State) : Option State → State × Bool
  | some result => (result, true)
  | none => (state, false)

theorem try_choices_restore (undo : State → Level → Choice → State) (deeper : State → State × Bool) (level : Level)
    (copied : State → Option State) (choices : List Choice) (state : State)
    (undone : ∀ choice, problem.allowed state level choice → undo (problem.place state level choice) level choice = state)
    (below : ∀ other, deeper other = restoring other (copied other)) :
    problem.tryChoices undo deeper level choices state =
      restoring state (choices.findSome? fun choice =>
        if problem.allowed state level choice then copied (problem.place state level choice) else none) := by
  induction choices with
  | nil => rfl
  | cons choice rest ih =>
      rw [Problem.tryChoices, List.findSome?_cons]
      by_cases allowed : problem.allowed state level choice
      · rw [if_pos allowed, if_pos allowed, below]
        cases found : copied (problem.place state level choice) with
        | some result => rfl
        | none =>
            -- The branch failed, so the state is the one before the choice again.
            simp only [restoring, undone choice allowed]
            exact ih
      · rw [if_neg allowed, if_neg allowed]
        exact ih

theorem search_in_place_restores (undo : State → Level → Choice → State)
    (undone : ∀ state level choice, problem.allowed state level choice →
      undo (problem.place state level choice) level choice = state) (levels : List Level) (state : State) :
    problem.searchInPlace undo levels state = restoring state (problem.search levels state) := by
  induction levels generalizing state with
  | nil => rfl
  | cons level rest ih =>
      rw [Problem.searchInPlace, Problem.search]
      exact try_choices_restore problem undo (problem.searchInPlace undo rest) level (problem.search rest) problem.choices
        state (undone state level) ih

end search

-- What was tried before a choice when the choices go up.
theorem tried_before_iff_lt {α : Type} [LinearOrder α] (earlier later : List α) (choice other : α)
    (ascending : (earlier ++ choice :: later).Pairwise (· < ·)) (listed : other ∈ earlier ++ choice :: later) :
    other ∈ earlier ↔ other < choice := by
  obtain ⟨_, after, before⟩ := List.pairwise_append.mp ascending
  constructor
  · intro tried
    exact before other tried choice List.mem_cons_self
  · intro less
    rcases List.mem_append.mp listed with tried | untried
    · exact tried
    · rcases List.mem_cons.mp untried with rfl | untried
      · exact absurd less (lt_irrefl other)
      · exact absurd less (lt_asymm ((List.pairwise_cons.mp after).1 other untried))

theorem first_limit {β : Type} (attempt : Nat → Option β) (start count : Nat) (result : β)
    (found : (List.range' start count).findSome? attempt = some result) :
    ∃ limit, start ≤ limit ∧ limit < start + count ∧ attempt limit = some result ∧
      ∀ fewer, start ≤ fewer → fewer < limit → attempt fewer = none := by
  obtain ⟨earlier, limit, later, order, success, failed⟩ := List.findSome?_eq_some_iff.mp found
  have ascending : (earlier ++ limit :: later).Pairwise (· < ·) := order ▸ List.pairwise_lt_range'
  have bounds : limit ∈ List.range' start count := by simp [order]
  obtain ⟨above, below⟩ := List.mem_range'_1.mp bounds
  refine ⟨limit, above, below, success, fun fewer lower upper => failed fewer ?_⟩
  refine (tried_before_iff_lt earlier later limit fewer ascending ?_).mpr upper
  rw [← order, List.mem_range'_1]
  omega

end ToolchainUtils.Backtracking
