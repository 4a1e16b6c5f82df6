import Mathlib.Tactic.Ring
import ToolchainUtils.Halving

set_option autoImplicit false

namespace ToolchainUtils.BinarySearchTool

-- What stops the tool with a Python exception. `queueStillRunning` stands for a
-- breadth-first search that never ends; getNextFlakyBinary explains its bound.
inductive SearchFailure where
  | emptySortedList
  | statusAssertion (status : Int)
  | indexError
  | valueError
  | logDomain
  | emptyQueue
  | queueStillRunning
  | switchAssertion (ret : Int)
  | verifyAssertion (message : String)
deriving DecidableEq, Repr

structure BinarySearcher (α : Type) where
  sortedList : List α
  indexLog : List Nat
  statusLog : List Int
  skippedIndices : List Nat
  current : Nat
  lo : Nat
  hi : Nat
deriving DecidableEq, Repr

variable {α : Type}

namespace BinarySearcher

def init : BinarySearcher α :=
  { sortedList := [], indexLog := [], statusLog := [], skippedIndices := [], current := 0, lo := 0, hi := 0 }

def setSortedList (searcher : BinarySearcher α) (sortedList : List α) : Except SearchFailure (BinarySearcher α) :=
  if sortedList.length > 0 then
    .ok { searcher with sortedList := sortedList, indexLog := [], hi := sortedList.length - 1, lo := 0 }
  else .error .emptySortedList

-- self.sorted_list[self.current]
def revision (searcher : BinarySearcher α) : Except SearchFailure α :=
  match searcher.sortedList[searcher.current]? with
  | some item => .ok item
  | none => .error .indexError

def recordStatus (searcher : BinarySearcher α) (status : Int) : BinarySearcher α :=
  let logged := { searcher with
    indexLog := searcher.indexLog ++ [searcher.current]
    statusLog := searcher.statusLog ++ [status] }
  if status = 125 then { logged with skippedIndices := logged.skippedIndices ++ [logged.current] }
  else
    let bounded := if status = 0 then { logged with lo := logged.current + 1 } else { logged with hi := logged.current }
    { bounded with current := (bounded.lo + bounded.hi) / 2 }

def allSkipped (searcher : BinarySearcher α) : Bool :=
  (List.range' searcher.lo (searcher.hi - searcher.lo)).all fun index => searcher.skippedIndices.contains index

-- The message of the first line reads the current revision before the assertion.
def setStatus (searcher : BinarySearcher α) (status : Int) : Except SearchFailure (BinarySearcher α × Bool) := do
  let _ ← searcher.revision
  if ¬ (status = 0 ∨ status = 1 ∨ status = 125) then throw (.statusAssertion status)
  let updated := searcher.recordStatus status
  if updated.lo = updated.hi then
    let _ ← updated.revision
    return (updated, true)
  return (updated, updated.allSkipped)

end BinarySearcher

-- The tuples of GetNextFlakyBinary's queue.
structure QueueElement where
  first : Nat
  middle : Nat
  last : Nat
deriving DecidableEq, Repr

def QueueElement.goTop (element : QueueElement) : QueueElement :=
  ⟨element.first, (element.first + element.middle) / 2, element.middle⟩

def QueueElement.goBottom (element : QueueElement) : QueueElement :=
  ⟨element.middle, (element.middle + element.last) / 2, element.last⟩

-- The while loop over the queue; `rounds` bounds how many elements are popped.
def flakyQueue (skipped : List Nat) : Nat → List QueueElement → Except SearchFailure Nat
  | _, [] => .error .emptyQueue
  | 0, _ :: _ => .error .queueStillRunning
  | rounds + 1, element :: queue =>
      if skipped.contains element.middle then
        flakyQueue skipped rounds (queue ++ [element.goTop, element.goBottom])
      else .ok element.middle

namespace BinarySearcher

-- The source has no bound. An interval of n indices that holds an unskipped one
-- is searched to the end in fewer than 4 * n rounds (flaky_queue_finds), so the
-- bound only cuts off searches that would run for ever.
def getNextFlakyBinary (searcher : BinarySearcher α) : Except SearchFailure (BinarySearcher α) := do
  let found ← flakyQueue searcher.skippedIndices (4 * (searcher.hi - searcher.lo))
    [⟨searcher.lo, searcher.current, searcher.hi⟩]
  return { searcher with current := found }

def getNext (searcher : BinarySearcher α) : Except SearchFailure (BinarySearcher α × α) := do
  let centred := { searcher with current := (searcher.hi + searcher.lo) / 2 }
  let placed ← if centred.skippedIndices.contains centred.current then centred.getNextFlakyBinary else pure centred
  if placed.hi ≤ placed.lo then throw .logDomain
  let item ← placed.revision
  return (placed, item)

end BinarySearcher

-- A queue level is popped as a whole: either an unskipped middle is found in it or
-- its intervals are replaced by their halves.
theorem flaky_queue_level (skipped : List Nat) (level later : List QueueElement) (rounds : Nat) :
    (∃ index, flakyQueue skipped (rounds + level.length) (level ++ later) = .ok index) ∨
      ((∀ element ∈ level, element.middle ∈ skipped) ∧
        flakyQueue skipped (rounds + level.length) (level ++ later) =
          flakyQueue skipped rounds (later ++ level.flatMap fun element => [element.goTop, element.goBottom])) := by
  induction level generalizing later with
  | nil => exact .inr ⟨by simp, by simp⟩
  | cons element rest ih =>
      by_cases seen : element.middle ∈ skipped
      · have popped : flakyQueue skipped (rounds + (element :: rest).length) (element :: rest ++ later) =
            flakyQueue skipped (rounds + rest.length) (rest ++ (later ++ [element.goTop, element.goBottom])) := by
          simp [flakyQueue, ← Nat.add_assoc, seen, List.append_assoc]
        rw [popped]
        rcases ih (later ++ [element.goTop, element.goBottom]) with found | ⟨allSeen, replaced⟩
        · exact .inl found
        · refine .inr ⟨by simpa using And.intro seen allSeen, ?_⟩
          rw [replaced]
          simp [List.append_assoc]
      · exact .inl ⟨element.middle, by simp [flakyQueue, ← Nat.add_assoc, seen]⟩

def QueueElement.Centred (element : QueueElement) : Prop := element.middle = (element.first + element.last) / 2

theorem go_top_or_bottom (element : QueueElement) (index depth : Nat) (centred : element.Centred)
    (inside : element.first ≤ index ∧ index < element.last) (narrow : element.last - element.first ≤ 2 ^ (depth + 1)) :
    ∃ half ∈ [element.goTop, element.goBottom], half.Centred ∧ (half.first ≤ index ∧ index < half.last) ∧
      half.last - half.first ≤ 2 ^ depth := by
  rw [Nat.pow_succ] at narrow
  unfold QueueElement.Centred at centred
  by_cases top : index < element.middle
  · exact ⟨element.goTop, by simp, rfl, ⟨inside.1, top⟩, by simp only [QueueElement.goTop]; omega⟩
  · exact ⟨element.goBottom, by simp, rfl, ⟨by simp only [QueueElement.goBottom]; omega, inside.2⟩,
      by simp only [QueueElement.goBottom]; omega⟩

-- The induction is on how often the interval around the unskipped index can still
-- be halved; every level is at most twice as long as the one before.
theorem flaky_queue_descends (skipped : List Nat) (index : Nat) (unskipped : index ∉ skipped) (depth : Nat)
    (level : List QueueElement) (extra : Nat) (element : QueueElement) (member : element ∈ level)
    (centred : element.Centred) (inside : element.first ≤ index ∧ index < element.last)
    (narrow : element.last - element.first ≤ 2 ^ depth) :
    ∃ found, flakyQueue skipped (extra + level.length * (2 ^ (depth + 1) - 1)) level = .ok found := by
  induction depth generalizing level element with
  | zero =>
      have middle : element.middle = index := by
        unfold QueueElement.Centred at centred
        omega
      rcases flaky_queue_level skipped level [] extra with found | ⟨allSeen, _⟩
      · simpa using found
      · exact absurd (middle ▸ allSeen element member) unskipped
  | succ depth ih =>
      obtain ⟨half, isHalf, halfCentred, halfInside, halfNarrow⟩ := go_top_or_bottom element index depth centred inside narrow
      let halves := level.flatMap fun element => [element.goTop, element.goBottom]
      have count : halves.length = 2 * level.length := by
        simp [halves, List.length_flatMap, List.map_const', Nat.mul_comm]
      have rounds : extra + level.length * (2 ^ (depth + 1 + 1) - 1) =
          (extra + halves.length * (2 ^ (depth + 1) - 1)) + level.length := by
        have positive : 0 < 2 ^ (depth + 1) := Nat.two_pow_pos _
        have expand : 2 ^ (depth + 1 + 1) - 1 = 2 * (2 ^ (depth + 1) - 1) + 1 := by
          rw [Nat.pow_succ]
          omega
        rw [count, expand]
        ring
      have next := ih halves half (List.mem_flatMap.mpr ⟨element, member, isHalf⟩) halfCentred halfInside halfNarrow
      rw [rounds]
      rcases flaky_queue_level skipped level [] (extra + halves.length * (2 ^ (depth + 1) - 1)) with found | ⟨_, replaced⟩
      · simpa using found
      · rw [List.append_nil] at replaced
        rw [replaced, List.nil_append]
        exact next

-- The bound in getNextFlakyBinary is never what ends a search that could succeed.
theorem flaky_queue_finds (skipped : List Nat) (lo hi index : Nat) (inside : lo ≤ index ∧ index < hi)
    (unskipped : index ∉ skipped) :
    ∃ found, flakyQueue skipped (4 * (hi - lo)) [⟨lo, (hi + lo) / 2, hi⟩] = .ok found := by
  have small := Halving.pow_clog_lt_double (hi - lo) (by omega)
  have fits := Nat.le_pow_clog (by decide : 1 < 2) (hi - lo)
  obtain ⟨extra, enough⟩ : ∃ extra, 4 * (hi - lo) = extra + 1 * (2 ^ (Nat.clog 2 (hi - lo) + 1) - 1) :=
    ⟨4 * (hi - lo) - (2 ^ (Nat.clog 2 (hi - lo) + 1) - 1), by rw [Nat.pow_succ]; omega⟩
  rw [enough]
  exact flaky_queue_descends skipped index unskipped (Nat.clog 2 (hi - lo)) [⟨lo, (hi + lo) / 2, hi⟩] extra
    ⟨lo, (hi + lo) / 2, hi⟩ (by simp) (by simp [QueueElement.Centred, Nat.add_comm]) inside fits

namespace BinarySearcher

theorem get_next_unskipped (searcher : BinarySearcher α) (item : α) (unskipped : searcher.skippedIndices = [])
    (open_interval : searcher.lo < searcher.hi) (listed : searcher.sortedList[(searcher.hi + searcher.lo) / 2]? = some item) :
    searcher.getNext = .ok ({ searcher with current := (searcher.hi + searcher.lo) / 2 }, item) := by
  simp [getNext, revision, unskipped, listed, open_interval, bind, Except.bind, pure, Except.pure, Nat.not_le.mpr]

theorem revision_ok (searcher : BinarySearcher α) (inside : searcher.current < searcher.sortedList.length) :
    ∃ item, searcher.revision = .ok item := by
  exact ⟨searcher.sortedList[searcher.current], by simp [revision, inside]⟩

theorem set_status_unskipped (searcher : BinarySearcher α) (status : Int) (binary : status = 0 ∨ status = 1)
    (unskipped : searcher.skippedIndices = []) (low : searcher.lo ≤ searcher.current)
    (high : searcher.current < searcher.hi) (inside : searcher.hi < searcher.sortedList.length) :
    searcher.setStatus status = .ok (searcher.recordStatus status,
      decide ((searcher.recordStatus status).lo = (searcher.recordStatus status).hi)) := by
  obtain ⟨item, revised⟩ := revision_ok searcher (by omega)
  have allowed : status = 0 ∨ status = 1 ∨ status = 125 := by omega
  have notSkip : status ≠ 125 := by omega
  have within : (searcher.recordStatus status).current < (searcher.recordStatus status).sortedList.length := by
    rcases binary with rfl | rfl <;> simp [recordStatus] <;> omega
  obtain ⟨last, revisedAfter⟩ := revision_ok (searcher.recordStatus status) within
  by_cases met : (searcher.recordStatus status).lo = (searcher.recordStatus status).hi
  · simp [setStatus, revised, allowed, met, revisedAfter, bind, Except.bind, pure, Except.pure]
  · have apart : (searcher.recordStatus status).lo < (searcher.recordStatus status).hi := by
      rcases binary with rfl | rfl <;> simp [recordStatus] at met ⊢ <;> omega
    have left : (searcher.recordStatus status).allSkipped = false := by
      have none_skipped : (searcher.recordStatus status).skippedIndices = [] := by
        rcases binary with rfl | rfl <;> simp [recordStatus, unskipped]
      simp only [allSkipped, none_skipped, List.contains_nil, List.all_eq_false]
      exact ⟨(searcher.recordStatus status).lo, by simp [List.mem_range']; omega, by simp⟩
    simp [setStatus, revised, allowed, met, left, bind, Except.bind, pure, Except.pure]

end BinarySearcher

end ToolchainUtils.BinarySearchTool
