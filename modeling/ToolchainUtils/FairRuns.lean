import Mathlib.Order.Basic

set_option autoImplicit false

-- Infinite runs under a fair schedule, where a turn that is blocked changes nothing.
namespace ToolchainUtils.FairRuns

universe u v w

variable {σ : Type u} {α : Type v} {β : Type w}

def run (next : σ → α → σ) (start : σ) (schedule : Nat → α) : Nat → σ
  | 0 => start
  | time + 1 => next (run next start schedule time) (schedule time)

-- Every live actor gets a turn again and again.
def Fair (actor : α → β) (live : β → Prop) (schedule : Nat → α) : Prop :=
  ∀ who, live who → ∀ time, ∃ later, time ≤ later ∧ actor (schedule later) = who

theorem run_invariant (next : σ → α → σ) (inv ok : σ → Prop)
    (kept : ∀ state turn, inv state → ok state → inv (next state turn)) (start : σ) (initial : inv start)
    (schedule : Nat → α) (allowed : ∀ time, ok (run next start schedule time)) (time : Nat) :
    inv (run next start schedule time) := by
  induction time with
  | zero => exact initial
  | succ time ih => exact kept _ _ ih (allowed time)

-- The termination rule. In every state that is not done some actor is helpful: its
-- turn lowers the rank, and no other turn raises the rank or changes who is helpful
-- without lowering it.
theorem fair_run_ends (next : σ → α → σ) (actor : α → β) (live : β → Prop) (inv done : σ → Prop) (rank : σ → Nat)
    (helpful : σ → β)
    (isLive : ∀ state, inv state → ¬ done state → live (helpful state))
    (never_up : ∀ state turn, inv state → ¬ done state → rank (next state turn) ≤ rank state)
    (stays : ∀ state turn, inv state → ¬ done state → rank (next state turn) = rank state →
      helpful (next state turn) = helpful state)
    (drops : ∀ state turn, inv state → ¬ done state → actor turn = helpful state → rank (next state turn) < rank state)
    (start : σ) (schedule : Nat → α) (holds : ∀ time, inv (run next start schedule time))
    (fair : Fair actor live schedule) :
    ∃ time, done (run next start schedule time) := by
  apply Classical.byContradiction
  intro endless
  have running : ∀ time, ¬ done (run next start schedule time) := fun time isOver => endless ⟨time, isOver⟩
  have lowered : ∀ delay time, actor (schedule (time + delay)) = helpful (run next start schedule time) →
      ∃ later, rank (run next start schedule later) < rank (run next start schedule time) := by
    intro delay
    induction delay with
    | zero => exact fun time turn => ⟨time + 1, drops _ _ (holds time) (running time) turn⟩
    | succ delay ih =>
        intro time turn
        have bound := never_up _ (schedule time) (holds time) (running time)
        by_cases lower : rank (run next start schedule (time + 1)) < rank (run next start schedule time)
        · exact ⟨time + 1, lower⟩
        · have same : rank (run next start schedule (time + 1)) = rank (run next start schedule time) :=
            Nat.le_antisymm bound (Nat.le_of_not_lt lower)
          have who := stays _ (schedule time) (holds time) (running time) same
          have later : time + 1 + delay = time + (delay + 1) := by omega
          obtain ⟨final, less⟩ := ih (time + 1) (by rw [later, turn]; exact who.symm)
          exact ⟨final, same ▸ less⟩
  have unbounded : ∀ bound time, rank (run next start schedule time) < bound → False := by
    intro bound
    induction bound with
    | zero => exact fun time less => absurd less (Nat.not_lt_zero _)
    | succ bound ih =>
        intro time less
        obtain ⟨turnTime, after, turn⟩ := fair _ (isLive _ (holds time) (running time)) time
        obtain ⟨later, lower⟩ := lowered (turnTime - time) time (by rw [Nat.add_sub_cancel' after]; exact turn)
        exact ih later (by omega)
  exact unbounded _ 0 (Nat.lt_succ_self _)

end ToolchainUtils.FairRuns
