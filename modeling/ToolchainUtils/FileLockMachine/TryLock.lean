import Mathlib.Algebra.Order.Group.Int
import Mathlib.Data.Nat.Find
import Mathlib.Tactic.Ring

set_option autoImplicit false

namespace ToolchainUtils.FileLockMachine

-- The loop of TryLock with the answers that Lock gives, call by call: what is returned,
-- and the number of calls. none stands for a loop that goes on.
def tryLockFrom (answers : Nat → Bool) (sleep : Int) : Nat → Int → Nat → Option (Bool × Nat)
  | 0, _, _ => none
  | fuel + 1, timeout, attempts =>
      let locked := answers attempts
      if locked || !decide (0 ≤ timeout) then some (locked, attempts + 1)
      else tryLockFrom answers sleep fuel (timeout - sleep) (attempts + 1)

-- timeout / 10 rounds down.
def tryLock (answers : Nat → Bool) (timeout : Int) (fuel : Nat) : Option (Bool × Nat) :=
  tryLockFrom answers (timeout / 10) fuel timeout 0

section Rounds

variable (answers : Nat → Bool) (sleep : Int)

theorem another_round (fuel : Nat) (timeout : Int) (attempts : Nat) (failed : answers attempts = false) (left : 0 ≤ timeout) :
    tryLockFrom answers sleep (fuel + 1) timeout attempts = tryLockFrom answers sleep fuel (timeout - sleep) (attempts + 1) := by
  rw [tryLockFrom]
  simp only [failed, decide_eq_true left, Bool.not_true, Bool.or_self, if_neg Bool.false_ne_true]

theorem last_round (fuel : Nat) (timeout : Int) (attempts : Nat) (ended : answers attempts = true ∨ timeout < 0) :
    tryLockFrom answers sleep (fuel + 1) timeout attempts = some (answers attempts, attempts + 1) := by
  rw [tryLockFrom]
  apply if_pos
  cases ended with
  | inl locked => rw [locked, Bool.true_or]
  | inr passed => rw [decide_eq_false (not_le.mpr passed), Bool.not_false, Bool.or_true]

-- What is left of the timeout behind a number of rounds.
def left (timeout : Int) (rounds : Nat) : Int := timeout - rounds * sleep

def GoesOn (timeout : Int) (round : Nat) : Prop := answers round = false ∧ 0 ≤ left sleep timeout round

theorem some_rounds (timeout : Int) (rounds fuel : Nat) (on : ∀ round < rounds, GoesOn answers sleep timeout round) :
    tryLockFrom answers sleep (fuel + rounds) timeout 0 = tryLockFrom answers sleep fuel (left sleep timeout rounds) rounds := by
  induction rounds generalizing fuel with
  | zero =>
      have whole : left sleep timeout 0 = timeout := by simp [left]
      rw [whole, Nat.add_zero]
  | succ rounds ih =>
      obtain ⟨failed, enough⟩ := on rounds (Nat.lt_succ_self rounds)
      have next : left sleep timeout rounds - sleep = left sleep timeout (rounds + 1) := by
        unfold left
        push_cast
        ring
      rw [Nat.add_comm rounds 1, ← Nat.add_assoc, ih (fuel + 1) fun round before => on round (Nat.lt_succ_of_lt before),
        another_round answers sleep fuel _ rounds failed enough, next, Nat.add_comm 1 rounds]

theorem goes_on_or_over (timeout : Int) (round : Nat) :
    ¬ GoesOn answers sleep timeout round ↔ answers round = true ∨ left sleep timeout round < 0 := by
  rw [GoesOn, not_and_or, Bool.not_eq_false, not_le]

-- The loop ends with the first round that does not go on.
theorem ends_at (timeout : Int) (round : Nat) (on : ∀ earlier < round, GoesOn answers sleep timeout earlier)
    (ended : ¬ GoesOn answers sleep timeout round) :
    tryLockFrom answers sleep (1 + round) timeout 0 = some (answers round, round + 1) := by
  rw [some_rounds answers sleep timeout round 1 on]
  exact last_round answers sleep 0 _ round ((goes_on_or_over answers sleep timeout round).mp ended)

theorem goes_on_forever (timeout : Int) (on : ∀ round, GoesOn answers sleep timeout round) (fuel : Nat) :
    tryLockFrom answers sleep fuel timeout 0 = none := by
  have ran := some_rounds answers sleep timeout fuel 0 fun round _ => on round
  rwa [Nat.zero_add] at ran

end Rounds

variable (answers : Nat → Bool) (timeout : Int)

-- A call that returns in time.
structure EndsInTime (locked : Bool) (attempts : Nat) : Prop where
  returned : ∃ fuel, tryLock answers timeout fuel = some (locked, attempts)
  locked_iff : locked = true ↔ ∃ attempt < attempts, answers attempt = true
  few : (∀ attempt < attempts, answers attempt = false) → (attempts : Int) ≤ 12 + timeout / max 1 (timeout / 10)

-- The waits are at least a second long, and none is begun without time left.
theorem few_rounds (start : 0 ≤ timeout) (round : Nat) (before : ∀ earlier < round, 0 ≤ left (timeout / 10) timeout earlier)
    (ended : left (timeout / 10) timeout round < 0) : ((round + 1 : Nat) : Int) ≤ 12 + timeout / max 1 (timeout / 10) := by
  have step : 1 ≤ timeout / 10 := by
    by_contra short
    have still : timeout / 10 = 0 := by omega
    rw [left, still, Int.mul_zero, Int.sub_zero] at ended
    exact absurd start (not_le.mpr ended)
  rw [max_eq_right step]
  cases round with
  | zero =>
      have whole := Int.ediv_nonneg start (Int.le_trans (by decide) step)
      omega
  | succ earlier =>
      have enough := before earlier (Nat.lt_succ_self earlier)
      have counted : (earlier : Int) ≤ timeout / (timeout / 10) :=
        Int.le_ediv_of_mul_le (Int.lt_of_lt_of_le (by decide) step) (Int.sub_nonneg.mp enough)
      push_cast
      omega

theorem try_lock_ends_iff (start : 0 ≤ timeout) :
    (∃ locked attempts, EndsInTime answers timeout locked attempts) ↔ 10 ≤ timeout ∨ ∃ attempt, answers attempt = true := by
  constructor
  · rintro ⟨locked, attempts, ends⟩
    by_contra neither
    obtain ⟨short, never⟩ := not_or.mp neither
    obtain ⟨fuel, returned⟩ := ends.returned
    have still : timeout / 10 = 0 := Int.ediv_eq_zero_of_lt start (not_le.mp short)
    have on : ∀ round, GoesOn answers (timeout / 10) timeout round := by
      intro round
      refine ⟨Bool.eq_false_iff.mpr fun here => never ⟨round, here⟩, ?_⟩
      rw [left, still, Int.mul_zero, Int.sub_zero]
      exact start
    rw [tryLock, goes_on_forever answers _ timeout on fuel] at returned
    cases returned
  · intro condition
    have ended : ∃ round, ¬ GoesOn answers (timeout / 10) timeout round := by
      cases condition with
      | inl long =>
          refine ⟨timeout.toNat + 1, fun on => ?_⟩
          have enough : 0 ≤ timeout - (timeout.toNat + 1 : Nat) * (timeout / 10) := on.2
          have step : 1 ≤ timeout / 10 := Int.le_ediv_of_mul_le (by decide) (by omega)
          have rounds : ((timeout.toNat + 1 : Nat) : Int) = timeout + 1 := by omega
          rw [rounds] at enough
          have waited := Int.mul_le_mul_of_nonneg_left step (by omega : 0 ≤ timeout + 1)
          omega
      | inr granted =>
          obtain ⟨attempt, granted⟩ := granted
          exact ⟨attempt, fun on => Bool.false_ne_true (on.1.symm.trans granted)⟩
    classical
    have first : ∀ round < Nat.find ended, GoesOn answers (timeout / 10) timeout round := fun round before =>
      not_not.mp (Nat.find_min ended before)
    refine ⟨answers (Nat.find ended), Nat.find ended + 1, ⟨_, ends_at answers _ timeout _ first (Nat.find_spec ended)⟩, ?_, ?_⟩
    · constructor
      · exact fun locked => ⟨_, Nat.lt_succ_self _, locked⟩
      · rintro ⟨attempt, made, locked⟩
        cases Nat.lt_succ_iff_lt_or_eq.mp made with
        | inl earlier => exact absurd ((first attempt earlier).1.symm.trans locked) Bool.false_ne_true
        | inr last => rwa [← last]
    · intro failed
      apply few_rounds timeout start _ fun earlier before => (first earlier before).2
      have stopped := (goes_on_or_over answers _ timeout _).mp (Nat.find_spec ended)
      exact stopped.resolve_left fun locked => Bool.false_ne_true ((failed _ (Nat.lt_succ_self _)).symm.trans locked)

-- Nobody gives the lock back.
def taken : Nat → Bool := fun _ => false

theorem long_try_ends : ∃ locked attempts, EndsInTime taken 300 locked attempts :=
  (try_lock_ends_iff taken 300 (by decide)).mpr (.inl (by decide))

theorem short_try_goes_on : ¬ ∃ locked attempts, EndsInTime taken 5 locked attempts := by
  rintro ⟨locked, attempts, ends⟩
  obtain ⟨fuel, returned⟩ := ends.returned
  rw [tryLock, goes_on_forever taken _ 5 (fun _ => ⟨rfl, by simp [left]⟩) fuel] at returned
  cases returned

end ToolchainUtils.FileLockMachine
