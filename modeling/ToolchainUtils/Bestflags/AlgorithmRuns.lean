import Mathlib.Data.Set.Card
import ToolchainUtils.Bestflags.Algorithm
import ToolchainUtils.Bestflags.SteeringAccounts

set_option autoImplicit false

namespace ToolchainUtils.Bestflags

open OutstandingWork Randomised Transition

variable {κ ρ σ : Type} [DecidableEq κ]

-- What `Next` may answer: no generation, or one with tasks that were never run.
def Continues (fits : Generation κ ρ σ → Finset κ → Prop) (cache : Finset κ) (next : List (NewGeneration κ ρ σ)) :
    Prop :=
  next = [] ∨ ∃ new, next = [new] ∧ new.exeSet.tasks ≠ [] ∧ (∀ flags ∈ new.exeSet.keys, flags ∉ cache) ∧
    fits new.init (cache ∪ new.exeSet.keys.toFinset)

-- An algorithm that keeps `fits` of its generations never fails on one that is
-- evaluated as long as `ok` holds, and all its tasks are in the universe.
structure Contract (algorithm : Algorithm κ ρ σ) (univ : Set κ) (fits ok : Generation κ ρ σ → Finset κ → Prop) :
    Prop where
  updated : ∀ generation after cache task, fits generation cache → generation.updateTask task = some after →
    fits after cache
  inside : ∀ generation cache, fits generation cache → ∀ flags ∈ generation.keys, flags ∈ univ
  answers : ∀ generation cache, fits generation cache → (∀ task ∈ generation.exeSet.tasks, task.result.isSome) →
    ok generation cache → ∃ improved own, algorithm.isImproved generation = .ok (improved, own) ∧
      (improved = true → Always (algorithm.next { generation with own } cache) (Continues fits cache))

def Completing (ok : Generation κ ρ σ → Finset κ → Prop) (state : SteeringState κ ρ σ) (returned : Returned κ ρ) :
    Prop :=
  ∀ generation ∈ state.completes returned.task, ok generation state.cache

instance (ok : Generation κ ρ σ → Finset κ → Prop) [∀ generation cache, Decidable (ok generation cache)]
    (state : SteeringState κ ρ σ) (returned : Returned κ ρ) : Decidable (Completing ok state returned) := by
  unfold Completing
  infer_instance

structure OneGeneration (univ : Set κ) (fits : Generation κ ρ σ → Finset κ → Prop) (state : SteeringState κ ρ σ) :
    Prop where
  sound : state.Sound
  waits : state.status = .running → ∃ generation, state.waiting = [generation] ∧ fits generation state.cache ∧
    ∀ task ∈ generation.exeSet.tasks, task.result = none → task.flags ∈ state.inFlight
  distinct : state.tasksPut.Nodup
  cached : ∀ flags ∈ state.tasksPut, flags ∈ state.cache
  inside : ∀ flags ∈ state.tasksPut, flags ∈ univ

theorem replaced_tasks (set : TaskSet κ ρ) (returned task : Task κ ρ) (member : task ∈ (set.replace returned).tasks) :
    task = returned ∨ task ∈ set.tasks ∧ task.flags ≠ returned.flags := by
  obtain ⟨old, present, same⟩ := List.mem_map.mp member
  by_cases equal : old.flags = returned.flags
  · rw [if_pos equal] at same
    exact .inl same.symm
  · rw [if_neg equal] at same
    exact .inr ⟨same ▸ present, same ▸ equal⟩

theorem update_task_tasks (generation after : Generation κ ρ σ) (task : Task κ ρ)
    (taken : generation.updateTask task = some after) : after.exeSet = generation.exeSet.replace task := by
  unfold Generation.updateTask at taken
  split at taken
  next => rw [← Option.some.inj taken]
  next => exact absurd taken nofun

section SingleStep

variable (state : SteeringState κ ρ σ) (generation : Generation κ ρ σ) (task : Task κ ρ)
  (running : state.status = .running) (alone : state.waiting = [generation])
  (books : Books state.waiting state.cache state.inFlight) (held : task.flags ∈ state.inFlight)

include alone books held

-- The only waiting generation takes every result.
theorem single_owner : ∃ after, generation.updateTask task = some after ∧
    findOwner task state.waiting = some ([], after, []) ∧ 0 ≤ after.pending := by
  obtain ⟨group, member, inside⟩ := owner_found (groups state.waiting) state.inFlight books.accounts task.flags held
  rw [alone] at member
  obtain ⟨owner, only, rfl⟩ := List.mem_map.mp member
  obtain rfl := List.mem_singleton.mp only
  have waiting : 0 < (outstanding state.inFlight owner.keys).length :=
    List.length_pos_iff.mpr (books_waiting_filled _ _ _ books owner (alone ▸ List.mem_cons_self))
  have counted := books.counted owner (alone ▸ List.mem_cons_self)
  have taken : owner.updateTask task = some { owner with
      exeSet := owner.exeSet.replace task
      pending := owner.pending - 1 } := if_pos inside
  refine ⟨_, taken, ?_, by dsimp only; omega⟩
  rw [alone, findOwner, taken]

theorem single_all_returned (after : Generation κ ρ σ) (taken : generation.updateTask task = some after)
    (done : after.done = true) (other : κ) (inside : other ∈ generation.keys) (flying : other ∈ state.inFlight) :
    other = task.flags := by
  obtain ⟨has, -, lowered, -⟩ := update_task_some generation after task taken
  have counted := books.counted generation (alone ▸ List.mem_cons_self)
  have zero : after.pending = 0 := by simpa [Generation.done] using done
  have single : (outstanding state.inFlight generation.keys).length = 1 := by omega
  obtain ⟨only, listed⟩ := List.length_eq_one_iff.mp single
  have here := (mem_outstanding state.inFlight generation.keys other).mpr ⟨inside, flying⟩
  have there := (mem_outstanding state.inFlight generation.keys task.flags).mpr ⟨has, held⟩
  rw [listed] at here there
  exact (List.mem_singleton.mp here).trans (List.mem_singleton.mp there).symm

omit alone books

include running

theorem single_step_waits (after : Generation κ ρ σ) (found : findOwner task state.waiting = some ([], after, []))
    (nonnegative : 0 ≤ after.pending) (waits : after.done = false) (improved : Bool) (next : List (NewGeneration κ ρ σ)) :
    state.step ⟨task, improved, next⟩ = some { state with
      waiting := [after]
      inFlight := state.inFlight.erase task.flags } := by
  rw [SteeringState.step, if_pos ⟨running, held⟩, SteeringState.receive]
  simp only [found, waits]
  rw [if_neg (by omega), if_neg (by simp)]
  rfl

theorem single_step_done (after : Generation κ ρ σ) (found : findOwner task state.waiting = some ([], after, []))
    (nonnegative : 0 ≤ after.pending) (done : after.done = true) (improved : Bool)
    (next : List (NewGeneration κ ρ σ)) :
    state.step ⟨task, improved, next⟩ = some (({ state with
      waiting := []
      inFlight := state.inFlight.erase task.flags } : SteeringState κ ρ σ).submit (if improved then next else [])) := by
  rw [SteeringState.step, if_pos ⟨running, held⟩, SteeringState.receive]
  simp only [found, done]
  rw [if_neg (by omega), if_pos trivial]
  rfl

end SingleStep

theorem single_completes (state : SteeringState κ ρ σ) (generation after : Generation κ ρ σ) (task : Task κ ρ)
    (alone : state.waiting = [generation]) (completed : state.completes task = some after) :
    generation.updateTask task = some after ∧ after.done = true := by
  obtain ⟨⟨before, other, later⟩, owns, done⟩ := Option.bind_eq_some_iff.mp completed
  obtain ⟨owner, split, updates, -⟩ := find_owner_some task state.waiting before later other owns
  rw [alone] at split
  have single := congrArg List.length split
  simp only [List.length_append, List.length_cons, List.length_nil] at single
  obtain rfl : before = [] := List.length_eq_zero_iff.mp (by omega)
  obtain ⟨isDone, same⟩ := Option.ite_none_right_eq_some.mp done
  obtain rfl := Option.some.inj same
  rw [(List.cons.inj split).1]
  exact ⟨updates, isDone⟩

theorem algorithm_step_enabled (algorithm : Algorithm κ ρ σ) (state next : SteeringState κ ρ σ)
    (returned : Returned κ ρ) (taken : algorithm.step state returned = some next) :
    state.status = .running ∧ returned.task.flags ∈ state.inFlight := by
  rw [Algorithm.step] at taken
  split at taken
  next => exact (Option.ite_none_right_eq_some.mp taken).1
  next => exact (Option.ite_none_right_eq_some.mp taken).1

-- Under the contract the evaluation of a generation succeeds.
theorem contract_answer (algorithm : Algorithm κ ρ σ) (univ : Set κ) (fits ok : Generation κ ρ σ → Finset κ → Prop)
    (contract : Contract algorithm univ fits ok) (state : SteeringState κ ρ σ) (returned : Returned κ ρ)
    (generation : Generation κ ρ σ) (completes : state.completes returned.task = some generation)
    (fit : fits generation state.cache) (evaluated : ∀ task ∈ generation.exeSet.tasks, task.result.isSome)
    (allowed : ok generation state.cache) :
    ∃ improved next, algorithm.answer state returned = .ok (improved, next) ∧ Continues fits state.cache next := by
  obtain ⟨improved, own, compared, continues⟩ := contract.answers generation state.cache fit evaluated allowed
  rw [Algorithm.answer, completes]
  cases improved with
  | false => exact ⟨false, [], by simp [compared, bind, Except.bind, pure, Except.pure], .inl rfl⟩
  | true =>
      obtain ⟨next, rest, ran, holds⟩ := continues rfl returned.source
      exact ⟨true, next, by simp [compared, ran, bind, Except.bind, pure, Except.pure], holds⟩

theorem submit_nothing (state : SteeringState κ ρ σ) (none_waits : state.waiting = []) :
    state.submit [] = { state with
      resultQueue := state.resultQueue ++ [.poisonpill]
      status := .finished } := by
  rw [SteeringState.submit, SteeringState.loopTest, if_pos none_waits]

theorem submit_single (state : SteeringState κ ρ σ) (new : NewGeneration κ ρ σ) (filled : new.exeSet.tasks ≠ []) :
    state.submit [new] = state.send new := by
  rw [SteeringState.submit, if_neg filled, SteeringState.submit, SteeringState.loopTest, if_neg]
  simp [SteeringState.send]

-- The generation that is completed is replaced by what `Next` answers.
theorem submit_one_generation (univ : Set κ) (fits : Generation κ ρ σ → Finset κ → Prop)
    (inside : ∀ generation cache, fits generation cache → ∀ flags ∈ generation.keys, flags ∈ univ)
    (state : SteeringState κ ρ σ) (none_waits : state.waiting = []) (sent : ∃ tasks : List κ, state.resultQueue = tasks.map .task)
    (next : List (NewGeneration κ ρ σ)) (continues : Continues fits state.cache next)
    (sound : (state.submit next).Sound) (distinct : state.tasksPut.Nodup)
    (cached : ∀ flags ∈ state.tasksPut, flags ∈ state.cache) (known : ∀ flags ∈ state.tasksPut, flags ∈ univ) :
    OneGeneration univ fits (state.submit next) := by
  obtain ⟨tasks, queue⟩ := sent
  have put := tasks_put_map tasks state queue
  cases continues with
  | inl stops =>
      subst stops
      have isOver := submit_nothing state none_waits
      have same : (state.submit []).tasksPut = state.tasksPut := by
        rw [put, isOver]
        exact tasks_put_poisoned tasks _ (by rw [queue])
      refine ⟨sound, ?_, ?_, ?_, ?_⟩
      · intro running
        rw [isOver] at running
        cases running
      · rw [same]
        exact distinct
      · rw [same, isOver]
        exact cached
      · rw [same]
        exact known
  | inr goesOn =>
      obtain ⟨new, rfl, filled, fresh, fit⟩ := goesOn
      have moved := submit_single state new filled
      have both : (state.send new).tasksPut = state.tasksPut ++ new.exeSet.keys := by
        rw [put]
        apply tasks_put_map
        rw [SteeringState.send, queue, List.map_append]
      rw [moved] at sound ⊢
      refine ⟨sound, ?_, ?_, ?_, ?_⟩
      · intro _
        refine ⟨new.init, ?_, fit, ?_⟩
        · rw [SteeringState.send, none_waits, List.nil_append]
        · intro task member _
          exact List.mem_append_right _ (List.mem_map_of_mem member)
      · rw [both]
        apply List.nodup_append.mpr ⟨distinct, new.exeSet.distinct, ?_⟩
        intro old before other added same
        exact fresh other added (same ▸ cached old before)
      · rw [both]
        intro flags member
        cases List.mem_append.mp member with
        | inl before => exact Finset.mem_union_left _ (cached flags before)
        | inr added => exact Finset.mem_union_right _ (List.mem_toFinset.mpr added)
      · rw [both]
        intro flags member
        cases List.mem_append.mp member with
        | inl before => exact known flags before
        | inr added => exact inside new.init _ fit flags added

theorem continues_fresh (fits : Generation κ ρ σ → Finset κ → Prop) (cache : Finset κ)
    (next : List (NewGeneration κ ρ σ)) (continues : Continues fits cache next) (new : NewGeneration κ ρ σ)
    (member : new ∈ next) : new.exeSet.tasks ≠ [] ∧ ∀ flags ∈ new.exeSet.keys, flags ∉ cache := by
  cases continues with
  | inl stops => exact absurd (stops ▸ member) nofun
  | inr goesOn =>
      obtain ⟨only, rfl, filled, fresh, -⟩ := goesOn
      rw [List.mem_singleton.mp member]
      exact ⟨filled, fresh⟩

theorem continues_apart (fits : Generation κ ρ σ → Finset κ → Prop) (cache : Finset κ)
    (next : List (NewGeneration κ ρ σ)) (continues : Continues fits cache next)
    (apart : NewGeneration κ ρ σ → NewGeneration κ ρ σ → Prop) : next.Pairwise apart := by
  cases continues with
  | inl stops => exact stops ▸ List.Pairwise.nil
  | inr goesOn =>
      obtain ⟨only, rfl, -⟩ := goesOn
      exact List.pairwise_singleton _ _

theorem algorithm_step_ok (algorithm : Algorithm κ ρ σ) (state : SteeringState κ ρ σ) (returned : Returned κ ρ)
    (improved : Bool) (next : List (NewGeneration κ ρ σ)) (answer : algorithm.answer state returned = .ok (improved, next)) :
    algorithm.step state returned = state.step ⟨returned.task, improved, next⟩ := by
  rw [Algorithm.step, answer]

-- What one result does to a single waiting generation: it is stored, or it completes
-- the generation, which is evaluated.
inductive SingleResult (algorithm : Algorithm κ ρ σ) (state : SteeringState κ ρ σ) (returned : Returned κ ρ)
    (after : Generation κ ρ σ) : SteeringState κ ρ σ → Prop where
  | waits (still : after.done = false) (answer : algorithm.answer state returned = .ok (false, [])) :
      SingleResult algorithm state returned after
        { state with waiting := [after], inFlight := state.inFlight.erase returned.task.flags }
  | completes (completed : state.completes returned.task = some after)
      (evaluated : ∀ task ∈ after.exeSet.tasks, task.result.isSome) (improved : Bool) (fresh : List (NewGeneration κ ρ σ))
      (answer : algorithm.answer state returned = .ok (improved, fresh)) :
      SingleResult algorithm state returned after
        (({ state with
          waiting := []
          inFlight := state.inFlight.erase returned.task.flags } : SteeringState κ ρ σ).submit (if improved then fresh else []))
  | raises (completed : state.completes returned.task = some after)
      (evaluated : ∀ task ∈ after.exeSet.tasks, task.result.isSome) (raised : Raised)
      (answer : algorithm.answer state returned = .error raised) :
      SingleResult algorithm state returned after
        (({ state with inFlight := state.inFlight.erase returned.task.flags } : SteeringState κ ρ σ).fail .raised)

theorem single_cases (algorithm : Algorithm κ ρ σ) (state next : SteeringState κ ρ σ) (returned : Returned κ ρ)
    (generation : Generation κ ρ σ) (alone : state.waiting = [generation])
    (books : Books state.waiting state.cache state.inFlight)
    (unreturned : ∀ task ∈ generation.exeSet.tasks, task.result = none → task.flags ∈ state.inFlight)
    (evaluated : returned.task.result.isSome) (taken : algorithm.step state returned = some next) :
    ∃ after, generation.updateTask returned.task = some after ∧
      (∀ task ∈ after.exeSet.tasks, task.result = none → task.flags ∈ state.inFlight.erase returned.task.flags) ∧
      SingleResult algorithm state returned after next := by
  obtain ⟨running, held⟩ := algorithm_step_enabled algorithm state next returned taken
  obtain ⟨after, updates, found, nonnegative⟩ := single_owner state generation returned.task alone books held
  have tasksAfter := update_task_tasks generation after returned.task updates
  have left : ∀ task ∈ after.exeSet.tasks, task.result = none → task.flags ∈ state.inFlight.erase returned.task.flags := by
    intro task member missing
    rw [tasksAfter] at member
    cases replaced_tasks generation.exeSet returned.task task member with
    | inl same => exact absurd (same ▸ missing) (Option.isSome_iff_ne_none.mp evaluated)
    | inr old => exact (List.mem_erase_of_ne old.2).mpr (unreturned task old.1 missing)
  refine ⟨after, updates, left, ?_⟩
  cases done : after.done with
  | false =>
      have noneCompletes : state.completes returned.task = none := by simp [SteeringState.completes, found, done]
      have answer : algorithm.answer state returned = .ok (false, []) := by rw [Algorithm.answer, noneCompletes]; rfl
      rw [algorithm_step_ok algorithm state returned _ _ answer,
        single_step_waits state returned.task running held after found nonnegative done false []] at taken
      rw [← Option.some.inj taken]
      exact .waits done answer
  | true =>
      have completes : state.completes returned.task = some after := by simp [SteeringState.completes, found, done]
      have allEvaluated : ∀ task ∈ after.exeSet.tasks, task.result.isSome := by
        intro task member
        rw [tasksAfter] at member
        cases replaced_tasks generation.exeSet returned.task task member with
        | inl same => exact same ▸ evaluated
        | inr old =>
            apply Option.isSome_iff_ne_none.mpr
            intro missing
            exact old.2 (single_all_returned state generation returned.task alone books held after updates done task.flags
              (List.mem_map_of_mem old.1) (unreturned task old.1 missing))
      cases answer : algorithm.answer state returned with
      | ok answered =>
          rw [algorithm_step_ok algorithm state returned answered.1 answered.2 answer,
            single_step_done state returned.task running held after found nonnegative done answered.1 answered.2] at taken
          rw [← Option.some.inj taken]
          exact .completes completes allEvaluated answered.1 answered.2 answer
      | error raised =>
          rw [Algorithm.step, answer] at taken
          rw [← Option.some.inj ((if_pos ⟨running, held⟩).symm.trans taken)]
          exact .raises completes allEvaluated raised answer

-- What one result does to a run that has a single generation: it is stored, or it
-- completes the generation, which is replaced by what `Next` answers.
inductive OneResult (algorithm : Algorithm κ ρ σ) (fits : Generation κ ρ σ → Finset κ → Prop) (state : SteeringState κ ρ σ)
    (returned : Returned κ ρ) (generation after : Generation κ ρ σ) : SteeringState κ ρ σ → Prop where
  | waits (still : after.done = false) (answer : algorithm.answer state returned = .ok (false, [])) :
      OneResult algorithm fits state returned generation after
        { state with waiting := [after], inFlight := state.inFlight.erase returned.task.flags }
  | completes (completed : state.completes returned.task = some after)
      (evaluated : ∀ task ∈ after.exeSet.tasks, task.result.isSome) (improved : Bool) (fresh : List (NewGeneration κ ρ σ))
      (answer : algorithm.answer state returned = .ok (improved, fresh)) (continues : Continues fits state.cache fresh) :
      OneResult algorithm fits state returned generation after
        (({ state with
          waiting := []
          inFlight := state.inFlight.erase returned.task.flags } : SteeringState κ ρ σ).submit (if improved then fresh else []))

section OneGenerationStep

variable (algorithm : Algorithm κ ρ σ) (univ : Set κ) (fits ok : Generation κ ρ σ → Finset κ → Prop)
  (state : SteeringState κ ρ σ) (returned : Returned κ ρ) (next : SteeringState κ ρ σ)

theorem running_books (one : OneGeneration univ fits state) (running : state.status = .running) :
    Books state.waiting state.cache state.inFlight ∧ ∃ tasks : List κ, state.resultQueue = tasks.map .task := by
  cases one.sound with
  | running _ _ books tasks queue => exact ⟨books, tasks, queue⟩
  | finished status _ _ _ _ => exact absurd (running.symm.trans status) nofun

theorem one_generation_cases (contract : Contract algorithm univ fits ok) (one : OneGeneration univ fits state)
    (allowed : returned.task.result.isSome ∧ Completing ok state returned) (taken : algorithm.step state returned = some next) :
    state.status = .running ∧ ∃ generation after, state.waiting = [generation] ∧ fits generation state.cache ∧
      generation.updateTask returned.task = some after ∧
      (∀ task ∈ after.exeSet.tasks, task.result = none → task.flags ∈ state.inFlight.erase returned.task.flags) ∧
      OneResult algorithm fits state returned generation after next := by
  obtain ⟨running, -⟩ := algorithm_step_enabled algorithm state next returned taken
  obtain ⟨generation, alone, fit, unreturned⟩ := one.waits running
  obtain ⟨books, -⟩ := running_books univ fits state one running
  obtain ⟨after, updates, left, result⟩ :=
    single_cases algorithm state next returned generation alone books unreturned allowed.1 taken
  have fitAfter := contract.updated generation after state.cache returned.task fit updates
  refine ⟨running, generation, after, alone, fit, updates, left, ?_⟩
  cases result with
  | waits still answer => exact .waits still answer
  | completes completed evaluated improved fresh answer =>
      obtain ⟨better, new, answered, continues⟩ := contract_answer algorithm univ fits ok contract state returned after
        completed fitAfter evaluated (allowed.2 after completed)
      obtain ⟨rfl, rfl⟩ := Prod.mk.inj (Except.ok.inj (answered.symm.trans answer))
      exact .completes completed evaluated better new answer continues
  | raises completed evaluated raised answer =>
      obtain ⟨better, new, answered, -⟩ := contract_answer algorithm univ fits ok contract state returned after
        completed fitAfter evaluated (allowed.2 after completed)
      rw [answered] at answer
      cases answer

theorem one_generation_step (contract : Contract algorithm univ fits ok) (one : OneGeneration univ fits state)
    (allowed : returned.task.result.isSome ∧ Completing ok state returned)
    (taken : algorithm.step state returned = some next) : OneGeneration univ fits next := by
  obtain ⟨running, generation, after, alone, fit, updates, left, result⟩ :=
    one_generation_cases algorithm univ fits ok state returned next contract one allowed taken
  obtain ⟨-, queue⟩ := running_books univ fits state one running
  cases result with
  | waits still answer =>
      rw [algorithm_step_ok algorithm state returned _ _ answer] at taken
      have noneFresh : ∀ new ∈ ([] : List (NewGeneration κ ρ σ)), new.exeSet.tasks ≠ [] ∧ ∀ flags ∈ new.exeSet.keys, flags ∉ state.cache :=
        nofun
      have sound := step_sound state ⟨returned.task, false, []⟩ _ one.sound (fun _ _ => noneFresh) (fun _ _ => List.Pairwise.nil) taken
      have fitAfter := contract.updated generation after state.cache returned.task fit updates
      exact ⟨sound, fun _ => ⟨after, rfl, fitAfter, left⟩, one.distinct, one.cached, one.inside⟩
  | completes completed evaluated improved fresh answer continues =>
      rw [algorithm_step_ok algorithm state returned _ _ answer] at taken
      have sound := step_sound state ⟨returned.task, improved, fresh⟩ _ one.sound
        (fun _ _ => continues_fresh fits state.cache fresh continues)
        (fun _ _ => continues_apart fits state.cache fresh continues _) taken
      have answered : Continues fits state.cache (if improved then fresh else []) := by
        cases improved with
        | false => exact .inl rfl
        | true => exact continues
      exact submit_one_generation univ fits contract.inside { state with
        waiting := []
        inFlight := state.inFlight.erase returned.task.flags } rfl queue _ answered sound one.distinct one.cached one.inside

end OneGenerationStep

theorem algorithm_step_results_read (algorithm : Algorithm κ ρ σ) (state : SteeringState κ ρ σ) (returned : Returned κ ρ)
    (next : SteeringState κ ρ σ) (taken : algorithm.step state returned = some next) :
    next.resultsRead = state.resultsRead + 1 := by
  rw [Algorithm.step] at taken
  split at taken
  next => exact step_results_read state _ next taken
  next =>
    obtain ⟨⟨-, held⟩, same⟩ := Option.ite_none_right_eq_some.mp taken
    have one := List.length_erase_add_one held
    rw [← Option.some.inj same]
    simp only [SteeringState.fail, SteeringState.resultsRead, SteeringState.tasksPut]
    omega

theorem start_single (generation : NewGeneration κ ρ σ) (filled : generation.exeSet.tasks ≠ []) :
    SteeringState.start ∅ [generation] = {
      waiting := [generation.init]
      cache := generation.exeSet.keys.toFinset
      resultQueue := generation.exeSet.keys.map .task
      inFlight := generation.exeSet.keys
      status := .running } := by
  have some_sent : ¬ generation.exeSet.keys.length = 0 := by
    rw [generation.exeSet.keys_length]
    exact fun none_sent => filled (List.length_eq_zero_iff.mp none_sent)
  have all_sent : initialTasks ∅ [generation] = generation.exeSet.keys := by simp [initialTasks]
  rw [SteeringState.start, all_sent, if_neg some_sent, Finset.empty_union]
  rfl

-- Where a run from one generation starts.
theorem start_one_generation (univ : Set κ) (fits : Generation κ ρ σ → Finset κ → Prop)
    (inside : ∀ generation cache, fits generation cache → ∀ flags ∈ generation.keys, flags ∈ univ)
    (generation : NewGeneration κ ρ σ) (filled : generation.exeSet.tasks ≠ [])
    (fit : fits generation.init generation.exeSet.keys.toFinset) : OneGeneration univ fits (.start ∅ [generation]) := by
  have starts := start_single generation filled
  have sound : (SteeringState.start ∅ [generation] : SteeringState κ ρ σ).Sound := by
    apply start_sound
    refine ⟨?_, ?_, List.pairwise_singleton _ _⟩
    · exact fun only member => List.mem_singleton.mp member ▸ filled
    · exact fun _ _ flags _ => Finset.notMem_empty flags
  have put : (SteeringState.start ∅ [generation] : SteeringState κ ρ σ).tasksPut = generation.exeSet.keys :=
    tasks_put_map _ _ (by rw [starts])
  refine ⟨sound, ?_, put ▸ generation.exeSet.distinct, ?_, put ▸ inside generation.init _ fit⟩
  · intro _
    rw [starts]
    exact ⟨generation.init, rfl, fit, fun task member _ => List.mem_map_of_mem member⟩
  · rw [put, starts]
    exact fun flags member => List.mem_toFinset.mpr member

-- A run from one generation ends by itself: it is accounted for, and it cannot take
-- more steps than there are tasks.
theorem contract_run (algorithm : Algorithm κ ρ σ) (univ : Set κ) (finite : univ.Finite)
    (fits ok : Generation κ ρ σ → Finset κ → Prop) (contract : Contract algorithm univ fits ok)
    (generation : NewGeneration κ ρ σ) (filled : generation.exeSet.tasks ≠ [])
    (fit : fits generation.init generation.exeSet.keys.toFinset) (returned : List (Returned κ ρ))
    (state : SteeringState κ ρ σ) (evaluated : ∀ result ∈ returned, result.task.result.isSome)
    (allowed : Along algorithm.step (Completing ok) (.start ∅ [generation]) returned)
    (run : exec algorithm.step (.start ∅ [generation]) returned = some state) :
    state.Accounted ∧ (state.inFlight = [] → state.status = .finished) ∧ returned.length ≤ univ.ncard := by
  have one := start_one_generation univ fits contract.inside generation filled fit
  have evaluatedAlong : Along algorithm.step (fun _ result => result.task.result.isSome = true) (.start ∅ [generation])
      returned := along_of_forall algorithm.step _ _ returned fun result member _ => evaluated result member
  have finish := along_invariant algorithm.step _ (OneGeneration univ fits)
    (fun state returned next one allowed taken =>
      one_generation_step algorithm univ fits ok state returned next contract one allowed taken) returned _ state one
    (along_and algorithm.step _ _ _ returned evaluatedAlong allowed) run
  have accounted := sound_accounted state finish.sound
  have counted := exec_counts algorithm.step SteeringState.resultsRead (algorithm_step_results_read algorithm) returned _
    state run
  rw [start_results_read, SteeringState.resultsRead] at counted
  refine ⟨accounted, ?_, ?_⟩
  · intro landed
    exact accounted.alive.resolve_left fun running => (accounted.moving running).1 landed
  · have fewer : state.tasksPut.length ≤ univ.ncard := by
      rw [← List.toFinset_card_of_nodup finish.distinct, ← Set.ncard_coe_finset]
      apply Set.ncard_le_ncard _ finite
      intro flags member
      exact finish.inside flags (List.mem_toFinset.mp member)
    omega

end ToolchainUtils.Bestflags
