import Mathlib.Data.List.Nodup
import Mathlib.Data.List.Perm.Subperm
import ToolchainUtils.BinarySearchTool.Searcher

set_option autoImplicit false

namespace ToolchainUtils.BinarySearchTool

variable {α : Type}

-- What GetNextFlakyBinary can reach from (lo, middle, hi). The degenerate tuples
-- (l, l, l) and (l, l, l + 1) it queues again and again are among them.
structure QueueElement.Within (lo hi : Nat) (element : QueueElement) : Prop where
  low : lo ≤ element.first
  below : element.first < hi
  ordered : element.first ≤ element.last
  high : element.last ≤ hi
  centred : element.Centred

theorem within_middle (lo hi : Nat) (element : QueueElement) (within : element.Within lo hi) :
    lo ≤ element.middle ∧ element.middle < hi := by
  have centred : element.middle = (element.first + element.last) / 2 := within.centred
  have bounds := And.intro within.low (And.intro within.below (And.intro within.ordered within.high))
  omega

theorem within_go_top (lo hi : Nat) (element : QueueElement) (within : element.Within lo hi) :
    element.goTop.Within lo hi := by
  have centred : element.middle = (element.first + element.last) / 2 := within.centred
  have ordered := within.ordered
  have high := within.high
  exact ⟨within.low, within.below, by simp only [QueueElement.goTop]; omega, by simp only [QueueElement.goTop]; omega, rfl⟩

theorem within_go_bottom (lo hi : Nat) (element : QueueElement) (within : element.Within lo hi) :
    element.goBottom.Within lo hi := by
  have middle := within_middle lo hi element within
  have centred : element.middle = (element.first + element.last) / 2 := within.centred
  have ordered := within.ordered
  exact ⟨middle.1, middle.2, by simp only [QueueElement.goBottom]; omega, within.high, rfl⟩

theorem flaky_queue_within (skipped : List Nat) (lo hi rounds : Nat) (queue : List QueueElement) (found : Nat)
    (within : ∀ element ∈ queue, element.Within lo hi) (result : flakyQueue skipped rounds queue = .ok found) :
    lo ≤ found ∧ found < hi ∧ found ∉ skipped := by
  induction rounds generalizing queue with
  | zero => cases queue <;> cases result
  | succ rounds ih =>
      cases queue with
      | nil => cases result
      | cons element rest =>
          have here := within element List.mem_cons_self
          by_cases seen : element.middle ∈ skipped
          · apply ih (rest ++ [element.goTop, element.goBottom])
            · intro other member
              rcases List.mem_append.mp member with old | halves
              · exact within other (List.mem_cons_of_mem _ old)
              · rcases List.mem_cons.mp halves with top | bottom
                · exact top ▸ within_go_top lo hi element here
                · exact List.mem_singleton.mp bottom ▸ within_go_bottom lo hi element here
            · simpa [flakyQueue, seen] using result
          · have same : element.middle = found := by simpa [flakyQueue, seen] using result
            have middle := within_middle lo hi element here
            exact same ▸ ⟨middle.1, middle.2, seen⟩

namespace BinarySearcher

-- What holds between two calls of the searcher whatever the answers were.
structure Bisecting (items : List α) (searcher : BinarySearcher α) : Prop where
  listed : searcher.sortedList = items
  ordered : searcher.lo ≤ searcher.hi
  bounded : searcher.hi < items.length
  distinct : searcher.indexLog.Nodup
  inner : ∀ index ∈ searcher.indexLog, index < items.length - 1
  settled : ∀ index ∈ searcher.indexLog, index < searcher.lo ∨ searcher.hi ≤ index ∨ index ∈ searcher.skippedIndices

def Undecided (searcher : BinarySearcher α) : Prop :=
  ∃ index, searcher.lo ≤ index ∧ index < searcher.hi ∧ index ∉ searcher.skippedIndices

-- An index that GetNext may leave in `current`.
structure Untested (searcher : BinarySearcher α) (index : Nat) : Prop where
  low : searcher.lo ≤ index
  high : index < searcher.hi
  unskipped : index ∉ searcher.skippedIndices
  fresh : index ∉ searcher.indexLog

theorem all_skipped_iff (searcher : BinarySearcher α) : searcher.allSkipped = true ↔ ¬ searcher.Undecided := by
  simp only [allSkipped, List.all_eq_true, List.mem_range'_1, List.contains_iff_mem, Undecided, not_exists, not_and, not_not]
  constructor
  · intro all index low high
    exact all index ⟨low, by omega⟩
  · intro all index inside
    exact all index inside.1 (by omega)

-- What SetSortedList makes of a new searcher.
theorem fresh_bisecting (items : List α) (nonempty : 0 < items.length) :
    Bisecting items { (BinarySearcher.init : BinarySearcher α) with sortedList := items, hi := items.length - 1 } :=
  ⟨rfl, Nat.zero_le _, by simp only; omega, List.nodup_nil, by simp [BinarySearcher.init], by simp [BinarySearcher.init]⟩

theorem fresh_undecided (items : List α) (several : 1 < items.length) :
    Undecided { (BinarySearcher.init : BinarySearcher α) with sortedList := items, hi := items.length - 1 } :=
  ⟨0, Nat.le_refl _, by simp only; omega, by simp [BinarySearcher.init]⟩

theorem untested_of_open (items : List α) (searcher : BinarySearcher α) (bisecting : searcher.Bisecting items) (index : Nat)
    (low : searcher.lo ≤ index) (high : index < searcher.hi) (unskipped : index ∉ searcher.skippedIndices) :
    searcher.Untested index := by
  refine ⟨low, high, unskipped, ?_⟩
  intro tested
  rcases bisecting.settled index tested with under | past | skipped
  · omega
  · omega
  · exact unskipped skipped

theorem get_next_untested (items : List α) (searcher : BinarySearcher α) (bisecting : searcher.Bisecting items)
    (undecided : searcher.Undecided) :
    ∃ index item, searcher.getNext = .ok ({ searcher with current := index }, item) ∧ searcher.Untested index ∧
      items[index]? = some item := by
  obtain ⟨free, low, high, unskipped⟩ := undecided
  have bounded := bisecting.bounded
  have nonempty : ¬ searcher.hi ≤ searcher.lo := by omega
  by_cases seen : (searcher.hi + searcher.lo) / 2 ∈ searcher.skippedIndices
  · obtain ⟨found, result⟩ := flaky_queue_finds searcher.skippedIndices searcher.lo searcher.hi free ⟨low, high⟩ unskipped
    have start : QueueElement.Within searcher.lo searcher.hi ⟨searcher.lo, (searcher.hi + searcher.lo) / 2, searcher.hi⟩ :=
      ⟨Nat.le_refl _, by simp only; omega, bisecting.ordered, Nat.le_refl _, by simp [QueueElement.Centred, Nat.add_comm]⟩
    obtain ⟨foundLow, foundHigh, foundUnskipped⟩ := flaky_queue_within _ searcher.lo searcher.hi _ _ found
      (fun element member => List.mem_singleton.mp member ▸ start) result
    have inside : found < items.length := by omega
    refine ⟨found, items[found], ?_, untested_of_open items searcher bisecting found foundLow foundHigh foundUnskipped,
      List.getElem?_eq_getElem inside⟩
    simp [getNext, seen, getNextFlakyBinary, result, bind, Except.bind, pure, Except.pure, nonempty, revision, bisecting.listed, inside]
  · have inside : (searcher.hi + searcher.lo) / 2 < items.length := by omega
    refine ⟨(searcher.hi + searcher.lo) / 2, items[(searcher.hi + searcher.lo) / 2], ?_,
      untested_of_open items searcher bisecting _ (by omega) (by omega) seen, List.getElem?_eq_getElem inside⟩
    simp [getNext, seen, bind, Except.bind, pure, Except.pure, nonempty, revision, bisecting.listed, inside]

theorem record_skipped (searcher : BinarySearcher α) : searcher.recordStatus 125 = { searcher with
    indexLog := searcher.indexLog ++ [searcher.current], statusLog := searcher.statusLog ++ [125]
    skippedIndices := searcher.skippedIndices ++ [searcher.current] } := rfl

theorem record_good (searcher : BinarySearcher α) : searcher.recordStatus 0 = { searcher with
    indexLog := searcher.indexLog ++ [searcher.current], statusLog := searcher.statusLog ++ [0]
    lo := searcher.current + 1, current := (searcher.current + 1 + searcher.hi) / 2 } := rfl

theorem record_bad (searcher : BinarySearcher α) : searcher.recordStatus 1 = { searcher with
    indexLog := searcher.indexLog ++ [searcher.current], statusLog := searcher.statusLog ++ [1]
    hi := searcher.current, current := (searcher.lo + searcher.current) / 2 } := rfl

theorem record_status_bisecting (items : List α) (searcher : BinarySearcher α) (bisecting : searcher.Bisecting items)
    (untested : searcher.Untested searcher.current) (status : Int) (allowed : status = 0 ∨ status = 1 ∨ status = 125) :
    (searcher.recordStatus status).Bisecting items ∧
      (searcher.recordStatus status).current < items.length := by
  have bounded := bisecting.bounded
  have low := untested.low
  have high := untested.high
  have distinct : (searcher.indexLog ++ [searcher.current]).Nodup :=
    List.nodup_append.mpr ⟨bisecting.distinct, List.nodup_singleton _, fun old member new same =>
      fun equal => untested.fresh (List.mem_singleton.mp same ▸ equal ▸ member)⟩
  have inner : ∀ index ∈ searcher.indexLog ++ [searcher.current], index < items.length - 1 := by
    intro index member
    rcases List.mem_append.mp member with old | new
    · exact bisecting.inner index old
    · have same := List.mem_singleton.mp new
      omega
  have settled : ∀ index ∈ searcher.indexLog ++ [searcher.current], index = searcher.current ∨ index < searcher.lo ∨
      searcher.hi ≤ index ∨ index ∈ searcher.skippedIndices := by
    intro index member
    rcases List.mem_append.mp member with old | new
    · exact .inr (bisecting.settled index old)
    · exact .inl (List.mem_singleton.mp new)
  rcases allowed with rfl | rfl | rfl
  · rw [record_good]
    refine ⟨⟨bisecting.listed, by simp only; omega, bounded, distinct, inner, ?_⟩, by simp only; omega⟩
    intro index member
    rcases settled index member with here | under | past | skipped
    · exact .inl (by simp only; omega)
    · exact .inl (by simp only; omega)
    · exact .inr (.inl past)
    · exact .inr (.inr skipped)
  · rw [record_bad]
    refine ⟨⟨bisecting.listed, low, by simp only; omega, distinct, inner, ?_⟩, by simp only; omega⟩
    intro index member
    rcases settled index member with here | under | past | skipped
    · exact .inr (.inl (by simp only; omega))
    · exact .inl under
    · exact .inr (.inl (by simp only; omega))
    · exact .inr (.inr skipped)
  · rw [record_skipped]
    refine ⟨⟨bisecting.listed, bisecting.ordered, bounded, distinct, inner, ?_⟩, by simp only; omega⟩
    intro index member
    rcases settled index member with here | under | past | skipped
    · exact .inr (.inr (List.mem_append_right _ (List.mem_singleton.mpr here)))
    · exact .inl under
    · exact .inr (.inl past)
    · exact .inr (.inr (List.mem_append_left _ skipped))

-- SetStatus on an index that GetNext placed: what it records, and whether the search is over.
theorem set_status_untested (items : List α) (searcher : BinarySearcher α) (bisecting : searcher.Bisecting items)
    (untested : searcher.Untested searcher.current) (status : Int) (allowed : status = 0 ∨ status = 1 ∨ status = 125) :
    ∃ done, searcher.setStatus status = .ok (searcher.recordStatus status, done) ∧
      (done = true ↔ ¬ (searcher.recordStatus status).Undecided) := by
  obtain ⟨recorded, inside⟩ := record_status_bisecting items searcher bisecting untested status allowed
  obtain ⟨item, revised⟩ := revision_ok searcher (by
    have bounded := bisecting.bounded
    have high := untested.high
    rw [bisecting.listed]
    omega)
  obtain ⟨last, revisedAfter⟩ := revision_ok (searcher.recordStatus status) (recorded.listed ▸ inside)
  by_cases met : (searcher.recordStatus status).lo = (searcher.recordStatus status).hi
  · refine ⟨true, ?_, ?_⟩
    · simp [setStatus, revised, allowed, met, revisedAfter, bind, Except.bind, pure, Except.pure]
    · refine ⟨fun _ => ?_, fun _ => rfl⟩
      rintro ⟨index, low, high, _⟩
      omega
  · refine ⟨(searcher.recordStatus status).allSkipped, ?_, all_skipped_iff _⟩
    simp [setStatus, revised, allowed, met, bind, Except.bind, pure, Except.pure]

theorem distinct_below (indices : List Nat) (bound : Nat) (distinct : indices.Nodup) (below : ∀ index ∈ indices, index < bound) :
    indices.length ≤ bound := by
  have within : indices ⊆ List.range bound := fun index member => List.mem_range.mpr (below index member)
  simpa using (List.subperm_of_subset distinct within).length_le

theorem undecided_calls (items : List α) (searcher : BinarySearcher α) (bisecting : searcher.Bisecting items)
    (undecided : searcher.Undecided) : searcher.indexLog.length < items.length - 1 := by
  obtain ⟨index, item, _, untested, _⟩ := get_next_untested items searcher bisecting undecided
  have bounded := bisecting.bounded
  have high := untested.high
  apply distinct_below (index :: searcher.indexLog) _ (List.nodup_cons.mpr ⟨untested.fresh, bisecting.distinct⟩)
  intro other member
  rcases List.mem_cons.mp member with here | old
  · omega
  · exact bisecting.inner other old

end BinarySearcher

open BinarySearcher

-- The loop that alternates GetNext and SetStatus until SetStatus returns True.
-- `indexLog` of the searcher holds one entry for each call of SetStatus.
inductive SearchLoop (α : Type) where
  | searching (searcher : BinarySearcher α)
  | finished (searcher : BinarySearcher α)
  | raised (failure : SearchFailure)
deriving DecidableEq, Repr

def searchRound (searcher : BinarySearcher α) (answer : Int) : Except SearchFailure (BinarySearcher α × Bool) := do
  let next ← searcher.getNext
  next.1.setStatus answer

def SearchLoop.answer : SearchLoop α → Int → SearchLoop α
  | .searching searcher, answer => match searchRound searcher answer with
      | .ok (after, false) => .searching after
      | .ok (after, true) => .finished after
      | .error failure => .raised failure
  | .finished searcher, _ => .finished searcher
  | .raised failure, _ => .raised failure

def searchLoop (searcher : BinarySearcher α) (answers : List Int) : SearchLoop α :=
  answers.foldl SearchLoop.answer (.searching searcher)

-- The next round places `current` on a new index; a finished loop made few calls.
def SearchLoop.Right (items : List α) (calls : Nat) : SearchLoop α → Prop
  | .searching searcher => searcher.indexLog.length = calls ∧ calls < items.length - 1 ∧
      ∃ index item, searcher.getNext = .ok ({ searcher with current := index }, item) ∧ searcher.Untested index
  | .finished searcher => searcher.indexLog.length ≤ items.length - 1
  | .raised _ => False

def SearchLoop.Kept (items : List α) (calls : Nat) : SearchLoop α → Prop
  | .searching searcher => searcher.Bisecting items ∧ searcher.Undecided ∧ searcher.indexLog.length = calls
  | .finished searcher => searcher.indexLog.length ≤ items.length - 1
  | .raised _ => False

theorem kept_right (items : List α) (calls : Nat) (loop : SearchLoop α) (kept : loop.Kept items calls) :
    loop.Right items calls := by
  cases loop with
  | searching searcher =>
      obtain ⟨bisecting, undecided, counted⟩ := kept
      obtain ⟨index, item, next, untested, _⟩ := get_next_untested items searcher bisecting undecided
      exact ⟨counted, counted ▸ undecided_calls items searcher bisecting undecided, index, item, next, untested⟩
  | finished searcher => exact kept
  | raised failure => exact kept

theorem search_round_spec (items : List α) (searcher : BinarySearcher α) (bisecting : searcher.Bisecting items)
    (undecided : searcher.Undecided) (answer : Int) (allowed : answer = 0 ∨ answer = 1 ∨ answer = 125) :
    ∃ after done, searchRound searcher answer = .ok (after, done) ∧ after.Bisecting items ∧
      (done = true ↔ ¬ after.Undecided) ∧ after.indexLog.length = searcher.indexLog.length + 1 := by
  obtain ⟨index, item, next, untested, _⟩ := get_next_untested items searcher bisecting undecided
  have placed : BinarySearcher.Bisecting items { searcher with current := index } :=
    ⟨bisecting.listed, bisecting.ordered, bisecting.bounded, bisecting.distinct, bisecting.inner, bisecting.settled⟩
  have current : BinarySearcher.Untested { searcher with current := index } index :=
    ⟨untested.low, untested.high, untested.unskipped, untested.fresh⟩
  obtain ⟨done, taken, past⟩ := set_status_untested items { searcher with current := index } placed current answer allowed
  obtain ⟨recorded, _⟩ := record_status_bisecting items { searcher with current := index } placed current answer allowed
  refine ⟨_, done, ?_, recorded, past, ?_⟩
  · simp only [searchRound, next, bind, Except.bind, taken]
  · rcases allowed with rfl | rfl | rfl <;> simp [record_good, record_bad, record_skipped]

theorem answer_kept (items : List α) (calls : Nat) (loop : SearchLoop α) (answer : Int)
    (allowed : answer = 0 ∨ answer = 1 ∨ answer = 125) (kept : loop.Kept items calls) :
    (loop.answer answer).Kept items (calls + 1) := by
  cases loop with
  | searching searcher =>
      obtain ⟨bisecting, undecided, counted⟩ := kept
      obtain ⟨after, done, round, still, past, logged⟩ := search_round_spec items searcher bisecting undecided answer allowed
      have bound := undecided_calls items searcher bisecting undecided
      cases done with
      | false =>
          have further : after.Undecided := by simpa using past
          simp only [SearchLoop.answer, round]
          exact ⟨still, further, by omega⟩
      | true =>
          simp only [SearchLoop.answer, round]
          change after.indexLog.length ≤ items.length - 1
          omega
  | finished searcher => exact kept
  | raised failure => exact kept

theorem answers_kept (items : List α) (answers : List Int) (allowed : ∀ answer ∈ answers, answer = 0 ∨ answer = 1 ∨ answer = 125)
    (calls : Nat) (loop : SearchLoop α) (kept : loop.Kept items calls) :
    (answers.foldl SearchLoop.answer loop).Kept items (calls + answers.length) := by
  induction answers generalizing calls loop with
  | nil => exact kept
  | cons answer rest ih =>
      have next := answer_kept items calls loop answer (allowed answer List.mem_cons_self) kept
      have later := ih (fun other member => allowed other (List.mem_cons_of_mem _ member)) (calls + 1) _ next
      rw [List.length_cons, Nat.add_comm rest.length 1, ← Nat.add_assoc]
      exact later

theorem bisection_ends_untested (items : List α) (several : 2 ≤ items.length) (answers : List Int)
    (allowed : ∀ answer ∈ answers, answer = 0 ∨ answer = 1 ∨ answer = 125) :
    ∃ start, BinarySearcher.init.setSortedList items = .ok start ∧
      (searchLoop start answers).Right items answers.length ∧
      (items.length - 1 ≤ answers.length → ∃ searcher, searchLoop start answers = .finished searcher) := by
  have accepted : (BinarySearcher.init : BinarySearcher α).setSortedList items =
      .ok { (BinarySearcher.init : BinarySearcher α) with sortedList := items, hi := items.length - 1 } := by
    have nonempty : items.length > 0 := by omega
    simp [setSortedList, nonempty, BinarySearcher.init]
  have kept := answers_kept items answers allowed 0 (.searching _)
    ⟨fresh_bisecting items (by omega), fresh_undecided items several, rfl⟩
  rw [Nat.zero_add] at kept
  refine ⟨_, accepted, kept_right items answers.length _ kept, ?_⟩
  intro enough
  cases ended : searchLoop { (BinarySearcher.init : BinarySearcher α) with sortedList := items, hi := items.length - 1 } answers with
  | searching searcher =>
      rw [← searchLoop, ended] at kept
      have bound := undecided_calls items searcher kept.1 kept.2.1
      have counted := kept.2.2
      omega
  | finished searcher => exact ⟨searcher, rfl⟩
  | raised failure =>
      rw [← searchLoop, ended] at kept
      exact kept.elim

theorem bisection_of_three_skipped : ∃ start, BinarySearcher.init.setSortedList ["a", "b", "c"] = .ok start ∧
    (searchLoop start [125, 125]).Right ["a", "b", "c"] 2 ∧
    (["a", "b", "c"].length - 1 ≤ [(125 : Int), 125].length → ∃ searcher, searchLoop start [125, 125] = .finished searcher) :=
  bisection_ends_untested ["a", "b", "c"] (by decide) [125, 125] (by decide)

end ToolchainUtils.BinarySearchTool
