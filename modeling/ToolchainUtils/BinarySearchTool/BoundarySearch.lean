import ToolchainUtils.BinarySearchTool.SearchLoop

set_option autoImplicit false

namespace ToolchainUtils.BinarySearchTool

open BinarySearcher

variable {α : Type}

def BinarySearcher.answers (searcher : BinarySearcher α) : List (Nat × Int) := searcher.indexLog.zip searcher.statusLog

-- Both ends come from the log of the answers. The last index is taken to be bad without
-- a test.
structure Bracketed (items : List α) (searcher : BinarySearcher α) : Prop where
  listed : searcher.sortedList = items
  unskipped : searcher.skippedIndices = []
  logged : searcher.indexLog.length = searcher.statusLog.length
  bounded : searcher.hi < items.length
  bad : searcher.hi = items.length - 1 ∨ (searcher.hi, 1) ∈ searcher.answers
  good : searcher.lo = 0 ∨ (searcher.lo - 1, 0) ∈ searcher.answers

structure Boundary (items : List α) (searcher : BinarySearcher α) : Prop where
  met : searcher.lo = searcher.hi
  placed : searcher.current = searcher.lo
  bad : searcher.lo = items.length - 1 ∨ (searcher.lo, 1) ∈ searcher.answers
  good : searcher.lo = 0 ∨ (searcher.lo - 1, 0) ∈ searcher.answers

theorem zip_concat (indices : List Nat) (statuses : List Int) (index : Nat) (status : Int)
    (same : indices.length = statuses.length) :
    (indices ++ [index]).zip (statuses ++ [status]) = indices.zip statuses ++ [(index, status)] := by
  rw [List.zip_append same]
  rfl

-- One answer about an index between the ends moves one end next to it or onto it.
theorem record_bracketed (items : List α) (searcher : BinarySearcher α) (bracketed : Bracketed items searcher)
    (high : searcher.current < searcher.hi) (status : Int)
    (binary : status = 0 ∨ status = 1) : Bracketed items (searcher.recordStatus status) := by
  have bounded := bracketed.bounded
  have zipped := zip_concat searcher.indexLog searcher.statusLog searcher.current status bracketed.logged
  have length : (searcher.indexLog ++ [searcher.current]).length = (searcher.statusLog ++ [status]).length := by
    simp [bracketed.logged]
  obtain rfl | rfl := binary
  · rw [record_good]
    refine ⟨bracketed.listed, bracketed.unskipped, length, bounded, ?_, Or.inr ?_⟩
    · refine bracketed.bad.imp_right fun old => ?_
      rw [BinarySearcher.answers, zipped]
      exact List.mem_append_left _ old
    · rw [BinarySearcher.answers, zipped]
      exact List.mem_append_right _ List.mem_cons_self
  · rw [record_bad]
    refine ⟨bracketed.listed, bracketed.unskipped, length, by dsimp only; omega, Or.inr ?_, ?_⟩
    · rw [BinarySearcher.answers, zipped]
      exact List.mem_append_right _ List.mem_cons_self
    · refine bracketed.good.imp_right fun old => ?_
      rw [BinarySearcher.answers, zipped]
      exact List.mem_append_left _ old

theorem record_halves (searcher : BinarySearcher α) (open_interval : searcher.lo < searcher.hi)
    (middle : searcher.current = (searcher.hi + searcher.lo) / 2) (status : Int) (binary : status = 0 ∨ status = 1) :
    (searcher.recordStatus status).lo ≤ (searcher.recordStatus status).hi ∧
      (searcher.recordStatus status).hi - (searcher.recordStatus status).lo ≤ (searcher.hi - searcher.lo) / 2 ∧
        (searcher.recordStatus status).current = ((searcher.recordStatus status).lo + (searcher.recordStatus status).hi) / 2 := by
  obtain rfl | rfl := binary
  · rw [record_good]
    exact ⟨by dsimp only; omega, by dsimp only; omega, rfl⟩
  · rw [record_bad]
    exact ⟨by dsimp only; omega, by dsimp only; omega, rfl⟩

theorem bracketed_round (items : List α) (searcher : BinarySearcher α) (bracketed : Bracketed items searcher)
    (open_interval : searcher.lo < searcher.hi) (answer : Int) (binary : answer = 0 ∨ answer = 1) :
    ∃ after, searchRound searcher answer = .ok (after, decide (after.lo = after.hi)) ∧ Bracketed items after ∧
      after.lo ≤ after.hi ∧ after.hi - after.lo ≤ (searcher.hi - searcher.lo) / 2 ∧
        after.current = (after.lo + after.hi) / 2 ∧ after.indexLog.length = searcher.indexLog.length + 1 := by
  have middle := Halving.middle_bounds searcher.lo searcher.hi open_interval
  have bounded := bracketed.bounded
  have listed := bracketed.listed
  have inside : (searcher.hi + searcher.lo) / 2 < searcher.sortedList.length := by
    rw [listed]
    omega
  have next := get_next_unskipped searcher searcher.sortedList[(searcher.hi + searcher.lo) / 2] bracketed.unskipped
    open_interval (List.getElem?_eq_getElem inside)
  have placed : Bracketed items { searcher with current := (searcher.hi + searcher.lo) / 2 } := { bracketed with }
  have answered := set_status_unskipped { searcher with current := (searcher.hi + searcher.lo) / 2 } answer binary
    bracketed.unskipped middle.1 middle.2 (listed ▸ bounded)
  obtain ⟨ordered, halved, centred⟩ := record_halves { searcher with current := (searcher.hi + searcher.lo) / 2 }
    open_interval rfl answer binary
  refine ⟨_, ?_, record_bracketed items _ placed middle.2 answer binary, ordered, halved, centred, ?_⟩
  · simp only [searchRound, next, bind, Except.bind, answered]
  · obtain rfl | rfl := binary
    · simp [record_good]
    · simp [record_bad]

-- A searching loop has halvings left for the width of its interval.
def SearchLoop.Halved (items : List α) (calls : Nat) : SearchLoop α → Prop
  | .searching searcher => Bracketed items searcher ∧ searcher.lo < searcher.hi ∧ searcher.indexLog.length = calls ∧
      ∃ rounds, calls + rounds = Nat.clog 2 items.length ∧ searcher.hi - searcher.lo < 2 ^ rounds
  | .finished searcher => searcher.indexLog.length ≤ Nat.clog 2 items.length ∧ Boundary items searcher
  | .raised _ => False

theorem answer_halved (items : List α) (calls : Nat) (loop : SearchLoop α) (answer : Int)
    (binary : answer = 0 ∨ answer = 1) (halved : loop.Halved items calls) : (loop.answer answer).Halved items (calls + 1) := by
  cases loop with
  | searching searcher =>
      obtain ⟨bracketed, open_interval, counted, rounds, total, fits⟩ := halved
      obtain ⟨after, round, still, ordered, narrow, centred, logged⟩ :=
        bracketed_round items searcher bracketed open_interval answer binary
      cases rounds with
      | zero =>
          rw [Nat.pow_zero] at fits
          omega
      | succ rounds =>
          have width := Halving.halved_width _ _ rounds fits narrow
          by_cases met : after.lo = after.hi
          · simp only [SearchLoop.answer, round, met, decide_true]
            refine ⟨by omega, met, by omega, ?_, still.good⟩
            rw [met]
            exact still.bad
          · simp only [SearchLoop.answer, round, met, decide_false]
            exact ⟨still, by omega, by omega, rounds, by omega, width⟩
  | finished searcher => exact halved
  | raised failure => exact halved

theorem answers_halved (items : List α) (answers : List Int) (binary : ∀ answer ∈ answers, answer = 0 ∨ answer = 1)
    (calls : Nat) (loop : SearchLoop α) (halved : loop.Halved items calls) :
    (answers.foldl SearchLoop.answer loop).Halved items (calls + answers.length) := by
  induction answers generalizing calls loop with
  | nil => exact halved
  | cons answer rest ih =>
      have next := answer_halved items calls loop answer (binary answer List.mem_cons_self) halved
      have later := ih (fun other member => binary other (List.mem_cons_of_mem _ member)) (calls + 1) _ next
      rw [List.length_cons, Nat.add_comm rest.length 1, ← Nat.add_assoc]
      exact later

theorem any_answers_find_a_boundary (items : List α) (several : 2 ≤ items.length) (answers : List Int)
    (binary : ∀ answer ∈ answers, answer = 0 ∨ answer = 1) (enough : Nat.clog 2 items.length ≤ answers.length) :
    ∃ start searcher, BinarySearcher.init.setSortedList items = .ok start ∧
      searchLoop start answers = .finished searcher ∧ searcher.indexLog.length ≤ Nat.clog 2 items.length ∧
        Boundary items searcher := by
  have accepted : (BinarySearcher.init : BinarySearcher α).setSortedList items =
      .ok { (BinarySearcher.init : BinarySearcher α) with sortedList := items, hi := items.length - 1 } := by
    have nonempty : items.length > 0 := by omega
    simp [setSortedList, nonempty, BinarySearcher.init]
  have width := Halving.last_lt_pow_clog items.length (by omega)
  have start : SearchLoop.Halved items 0
      (.searching { (BinarySearcher.init : BinarySearcher α) with sortedList := items, hi := items.length - 1 }) := by
    refine ⟨⟨rfl, rfl, rfl, by dsimp only; omega, Or.inl rfl, Or.inl rfl⟩, ?_, rfl, Nat.clog 2 items.length, by omega, width⟩
    simp only [BinarySearcher.init]
    omega
  have halved := answers_halved items answers binary 0 _ start
  rw [Nat.zero_add] at halved
  cases ended : searchLoop { (BinarySearcher.init : BinarySearcher α) with sortedList := items, hi := items.length - 1 } answers with
  | searching searcher =>
      rw [← searchLoop, ended] at halved
      obtain ⟨_, open_interval, _, rounds, total, fits⟩ := halved
      obtain rfl : rounds = 0 := by omega
      rw [Nat.pow_zero] at fits
      omega
  | finished searcher =>
      rw [← searchLoop, ended] at halved
      exact ⟨_, searcher, accepted, ended, halved.1, halved.2⟩
  | raised failure =>
      rw [← searchLoop, ended] at halved
      cases halved

theorem contradicting_answers_find_a_boundary :
    ∃ start searcher, BinarySearcher.init.setSortedList [10, 20, 30, 40, 50] = .ok start ∧
      searchLoop start [0, 1, 1] = .finished searcher ∧ searcher.indexLog.length ≤ Nat.clog 2 5 ∧
        Boundary [10, 20, 30, 40, 50] searcher :=
  any_answers_find_a_boundary [10, 20, 30, 40, 50] (by decide) [0, 1, 1] (by decide) (Nat.clog_le_of_le_pow (by decide))

end ToolchainUtils.BinarySearchTool
