import Mathlib.Data.Finset.Card
import Mathlib.Data.Finset.Dedup
import ToolchainUtils.BinarySearchTool.Environment

set_option autoImplicit false

namespace ToolchainUtils.BinarySearchTool

open Halving

variable {α : Type} [DecidableEq α]

def badSetTest (bad : Finset α) (env : Environment α) : Int :=
  if ∃ item ∈ bad, env item = true then 1 else 0

-- The optional test setup script is one that succeeds.
def badSetScripts (setup : Bool) (bad : Finset α) : Scripts α (Environment α) :=
  environmentScripts (if setup then some fun _ => 0 else none) (badSetTest bad)

-- The items that the exits of DoSearch leave as the answer.
def reportedItems {σ : Type} (session : Session α σ) : Finset α :=
  if .firstBadItemIsLast ∈ session.log then (session.bss.foundItems ++ session.bss.allItems.getLast?.toList).toFinset
  else session.bss.foundItems.toFinset

def BadPrefix (bad : Finset α) (allItems : List α) (index : Nat) : Prop :=
  ∃ item ∈ bad, item ∈ allItems.take (index + 1)

omit [DecidableEq α] in
theorem bad_prefix_upward (bad : Finset α) (allItems : List α) (first second : Nat) (le : first ≤ second)
    (found : BadPrefix bad allItems first) : BadPrefix bad allItems second := by
  obtain ⟨item, isBad, member⟩ := found
  refine ⟨item, isBad, ?_⟩
  exact (List.take_prefix_take_left (by omega : first + 1 ≤ second + 1)).subset member

omit [DecidableEq α] in
theorem bad_set_answer (setup : Bool) (bad : Finset α) (env : Environment α) :
    environmentAnswer (if setup then some fun _ => 0 else none) (badSetTest bad) env = badSetTest bad env := by
  cases setup <;> simp [environmentAnswer]

-- Everything bad is either in the prefix or switched to good by this very test.
theorem bad_set_test_prefix (bad : Finset α) (allItems known : List α) (env : Environment α) (index : Nat)
    (covered : ∀ item ∈ bad, item ∈ allItems) :
    (BadPrefix bad allItems index →
      badSetTest bad (environmentFor ⟨allItems.drop (index + 1) ++ known, allItems.take (index + 1)⟩ env) = 1) ∧
    (¬ BadPrefix bad allItems index →
      badSetTest bad (environmentFor ⟨allItems.drop (index + 1) ++ known, allItems.take (index + 1)⟩ env) = 0) := by
  constructor
  · rintro ⟨item, isBad, member⟩
    exact if_pos ⟨item, isBad, by simp [environmentFor, setItems, member]⟩
  · intro clean
    apply if_neg
    rintro ⟨item, isBad, switched⟩
    have outside : item ∉ allItems.take (index + 1) := fun member => clean ⟨item, isBad, member⟩
    have listed : item ∈ allItems.take (index + 1) ++ allItems.drop (index + 1) := by
      rw [List.take_append_drop]
      exact covered item isBad
    have inside : item ∈ allItems.drop (index + 1) := (List.mem_append.mp listed).resolve_left outside
    simp [environmentFor, setItems, outside, inside] at switched

-- A searcher in the middle of a cycle in which nothing was skipped.
structure Narrowing (bss : BinarySearchState α) : Prop where
  listed : bss.binarySearch.sortedList = bss.allItems
  unskipped : bss.binarySearch.skippedIndices = []
  apart : bss.binarySearch.lo < bss.binarySearch.hi
  inside : bss.binarySearch.hi < bss.allItems.length

def BinarySearcher.atMiddle (searcher : BinarySearcher α) : BinarySearcher α :=
  { searcher with current := (searcher.hi + searcher.lo) / 2 }

theorem iterate_narrowing (bss : BinarySearchState α) (answer : SetFiles α → Int) (status : Int)
    (narrowing : Narrowing bss) (distinct : bss.allItems.Nodup) (binary : status = 0 ∨ status = 1)
    (answered : answer ⟨bss.allItems.drop (bss.binarySearch.atMiddle.current + 1) ++ bss.knownGood,
      bss.allItems.take (bss.binarySearch.atMiddle.current + 1)⟩ = status) :
    iterate answer bss = .ok ({ bss with
        searchCycles := bss.searchCycles + 1, binarySearch := bss.binarySearch.atMiddle.recordStatus status },
      decide ((bss.binarySearch.atMiddle.recordStatus status).lo = (bss.binarySearch.atMiddle.recordStatus status).hi)) := by
  have middle := middle_bounds bss.binarySearch.lo bss.binarySearch.hi narrowing.apart
  have within : bss.binarySearch.atMiddle.current < bss.allItems.length := Nat.lt_trans middle.2 narrowing.inside
  have moved : bss.binarySearch.getNext = .ok (bss.binarySearch.atMiddle, bss.allItems[bss.binarySearch.atMiddle.current]) :=
    BinarySearcher.get_next_unskipped bss.binarySearch _ narrowing.unskipped narrowing.apart
      (by rw [narrowing.listed]; exact List.getElem?_eq_getElem within)
  have position : itemIndex bss.allItems bss.allItems[bss.binarySearch.atMiddle.current] =
      .ok bss.binarySearch.atMiddle.current := item_index_distinct _ _ distinct within
  have taken := BinarySearcher.set_status_unskipped bss.binarySearch.atMiddle status binary narrowing.unskipped middle.1 middle.2
    (by rw [show bss.binarySearch.atMiddle.sortedList = bss.allItems from narrowing.listed]; exact narrowing.inside)
  simp only [iterate, nextTest, moved, position, answered, taken, bind, Except.bind, pure, Except.pure]

-- Whatever the test answers, the first bad prefix stays between lo and hi.
structure Bracket (bss : BinarySearchState α) (index : Nat) (searcher : BinarySearcher α) : Prop where
  listed : searcher.sortedList = bss.allItems
  unskipped : searcher.skippedIndices = []
  low : searcher.lo ≤ index
  high : index ≤ searcher.hi
  inside : searcher.hi < bss.allItems.length

theorem iterate_bracket (setup : Bool) (bad : Finset α) (index : Nat) (bss : BinarySearchState α) (env : Environment α)
    (narrowing : Narrowing bss) (distinct : bss.allItems.Nodup) (covered : ∀ item ∈ bad, item ∈ bss.allItems)
    (first : FirstHit (BadPrefix bad bss.allItems) (bss.allItems.length - 1) index)
    (bracket : Bracket bss index bss.binarySearch) :
    ∃ searcher,
      iterate (fun files => environmentAnswer (if setup then some fun _ => 0 else none) (badSetTest bad)
          (environmentFor files env)) bss =
        .ok ({ bss with searchCycles := bss.searchCycles + 1, binarySearch := searcher }, decide (searcher.lo = searcher.hi)) ∧
      Bracket bss index searcher ∧ searcher.current = (searcher.lo + searcher.hi) / 2 ∧
      searcher.hi - searcher.lo ≤ (bss.binarySearch.hi - bss.binarySearch.lo) / 2 := by
  have middle := middle_bounds bss.binarySearch.lo bss.binarySearch.hi narrowing.apart
  have inside := narrowing.inside
  have answers := bad_set_test_prefix bad bss.allItems bss.knownGood env bss.binarySearch.atMiddle.current covered
  by_cases found : BadPrefix bad bss.allItems bss.binarySearch.atMiddle.current
  · obtain ⟨⟨low, high⟩, halved⟩ := narrow_hit _ _ index _ bss.binarySearch.hi first bracket.low found
    exact ⟨_, iterate_narrowing bss _ 1 narrowing distinct (.inr rfl) ((bad_set_answer setup bad _).trans (answers.1 found)),
      ⟨bracket.listed, bracket.unskipped, low, high, Nat.lt_trans middle.2 inside⟩, rfl, halved⟩
  · obtain ⟨⟨low, high⟩, halved⟩ := narrow_miss _ _ index _ _ first (bad_prefix_upward bad bss.allItems) bracket.high
      (by omega) narrowing.apart found
    exact ⟨_, iterate_narrowing bss _ 0 narrowing distinct (.inl rfl) ((bad_set_answer setup bad _).trans (answers.2 found)),
      ⟨bracket.listed, bracket.unskipped, low, high, inside⟩, rfl, halved⟩

-- Induction on the rounds that the width of the bracket still needs.
theorem search_iterations_find (setup : Bool) (bad : Finset α) (index rounds remaining : Nat) (enough : rounds ≤ remaining)
    (session : Session α (Environment α)) (truthful : Truthful session.bss session.world)
    (distinct : session.bss.allItems.Nodup) (covered : ∀ item ∈ bad, item ∈ session.bss.allItems)
    (first : FirstHit (BadPrefix bad session.bss.allItems) (session.bss.allItems.length - 1) index)
    (bracket : Bracket session.bss index session.bss.binarySearch)
    (apart : session.bss.binarySearch.lo < session.bss.binarySearch.hi)
    (width : session.bss.binarySearch.hi - session.bss.binarySearch.lo < 2 ^ rounds) :
    ∃ cycles searcher good other env saves,
      searchIterations (badSetScripts setup bad) remaining session = .ok true {
        bss := { session.bss.withCurrent good other with searchCycles := cycles, binarySearch := searcher }
        world := env, saves := saves, log := session.log ++ [.terminated] } ∧
      searcher.current = index ∧ Truthful (session.bss.withCurrent good other) env := by
  induction rounds generalizing remaining session with
  | zero =>
      simp only [Nat.pow_zero] at width
      omega
  | succ rounds ih =>
      obtain ⟨remaining, rfl⟩ : ∃ fewer, remaining = fewer + 1 := ⟨remaining - 1, by omega⟩
      obtain ⟨searcher, iterated, within, current, halved⟩ := iterate_bracket setup bad index session.bss session.world
        ⟨bracket.listed, bracket.unskipped, apart, bracket.inside⟩ distinct covered first bracket
      obtain ⟨good, other, env, step, still⟩ := search_iteration_ok _ _ session _ _ truthful iterated
      have low := within.low
      have high := within.high
      by_cases met : searcher.lo = searcher.hi
      · rw [decide_eq_true met] at step
        refine ⟨session.bss.searchCycles + 1, searcher, good, other, env, session.saves ++ [session.bss], ?_, by omega, ⟨still.current⟩⟩
        simp only [searchIterations, badSetScripts, run_bind, step, if_true, run_pure]
        rfl
      · rw [decide_eq_false met] at step
        let next : Session α (Environment α) := {
          bss := ({ session.bss with searchCycles := session.bss.searchCycles + 1, binarySearch := searcher }).withCurrent good other
          world := env, saves := session.saves ++ [session.bss], log := session.log ++ terminatedLine false }
        obtain ⟨cycles, last, lastGood, lastOther, lastEnv, saves, later, found, truth⟩ := ih remaining (by omega) next still
          distinct covered first ⟨within.listed, within.unskipped, low, high, within.inside⟩
          (by change searcher.lo < searcher.hi; omega) (halved_width _ _ rounds width halved)
        refine ⟨cycles, last, lastGood, lastOther, lastEnv, saves, ?_, found, ⟨truth.current⟩⟩
        simp only [searchIterations, run_bind]
        rw [badSetScripts, step]
        simp only [Bool.false_eq_true, if_false]
        refine later.trans ?_
        simp only [next, terminatedLine, Bool.false_eq_true, if_false, List.append_nil]
        rfl

-- The shape DoSearch keeps from cycle to cycle: the found items stand rotated to
-- the end of all_items, and no bad item has left the list.
structure Pruning (items : List α) (bad : Finset α) (bss : BinarySearchState α) (rest found : List α) : Prop where
  split : bss.allItems = rest ++ found
  distinct : bss.allItems.Nodup
  several : 2 ≤ bss.allItems.length
  bounded : bss.allItems.length ≤ items.length
  foundItems : ∀ item, item ∈ bss.foundItems ↔ item ∈ found
  foundBad : ∀ item ∈ found, item ∈ bad
  covered : ∀ item ∈ bad, item ∈ bss.allItems
  fresh : bss.binarySearch = { (BinarySearcher.init : BinarySearcher α) with
    sortedList := bss.allItems, hi := bss.allItems.length - 1 }
  pruning : bss.prune = true
  started : bss.resumed = false
  rounds : Nat.clog 2 items.length ≤ bss.iterations

theorem do_binary_search_finds (setup : Bool) (items : List α) (bad : Finset α) (index : Nat) (rest found : List α)
    (session : Session α (Environment α)) (truthful : Truthful session.bss session.world)
    (pruning : Pruning items bad session.bss rest found)
    (first : FirstHit (BadPrefix bad session.bss.allItems) (session.bss.allItems.length - 1) index) :
    ∃ cycles searcher good other env saves,
      doBinarySearch (badSetScripts setup bad) session = .ok true {
        bss := { session.bss.withCurrent good other with searchCycles := cycles, binarySearch := searcher }
        world := env, saves := saves, log := session.log ++ [.terminated] } ∧
      searcher.current = index ∧ Truthful (session.bss.withCurrent good other) env := by
  have several := pruning.several
  have searcher := pruning.fresh
  have enough : Nat.clog 2 session.bss.allItems.length ≤ session.bss.iterations :=
    (Nat.clog_mono_right 2 pruning.bounded).trans pruning.rounds
  have width := last_lt_pow_clog session.bss.allItems.length (by omega)
  let begun : Session α (Environment α) := { session with bss := { session.bss with searchCycles := 0 } }
  have cycle : begun = { session with bss := session.bss.beginCycle } := by
    simp only [BinarySearchState.beginCycle, pruning.started, Bool.false_eq_true, if_false, begun]
  obtain ⟨cycles, last, good, other, env, saves, run, current, truth⟩ := search_iterations_find setup bad index
    (Nat.clog 2 session.bss.allItems.length) (begun.bss.iterations - begun.bss.searchCycles) enough begun ⟨truthful.current⟩
    pruning.distinct pruning.covered first
    ⟨by rw [searcher], by rw [searcher]; rfl, by rw [searcher]; exact Nat.zero_le _, by rw [searcher]; exact first.bounded,
      by rw [searcher]; exact Nat.sub_lt (by exact Nat.lt_of_lt_of_le Nat.zero_lt_two several) Nat.one_pos⟩
    (by rw [searcher]; exact Nat.sub_pos_of_lt several) (by rw [searcher]; exact width)
  refine ⟨cycles, last, good, other, env, saves, ?_, current, ⟨truth.current⟩⟩
  rw [do_binary_search_eq _ session begun cycle, run_bind, run]
  rfl

omit [DecidableEq α] in
theorem bad_after_first_hit (bad : Finset α) (allItems : List α) (last index : Nat)
    (first : FirstHit (BadPrefix bad allItems) last index) (item : α) (isBad : item ∈ bad) (listed : item ∈ allItems) :
    item ∈ allItems.drop index := by
  rw [← List.take_append_drop index allItems] at listed
  rcases List.mem_append.mp listed with before | after
  · cases index with
    | zero => simp at before
    | succ previous => exact absurd ⟨item, isBad, before⟩ (first.below previous (Nat.lt_succ_self previous))
  · exact after

omit [DecidableEq α] in
theorem first_hit_is_bad (bad : Finset α) (allItems : List α) (index : Nat) (within : index < allItems.length)
    (first : FirstHit (BadPrefix bad allItems) (allItems.length - 1) index) (inner : index ≠ allItems.length - 1) :
    allItems[index] ∈ bad := by
  obtain ⟨item, isBad, member⟩ := first.reached.resolve_left inner
  rw [List.take_succ_eq_append_getElem within] at member
  rcases List.mem_append.mp member with before | here
  · cases index with
    | zero => simp at before
    | succ previous => exact absurd ⟨item, isBad, before⟩ (first.below previous (Nat.lt_succ_self previous))
  · have same : item = allItems[index] := by simpa using here
    exact same ▸ isBad

omit [DecidableEq α] in
theorem prune_last_item (items : List α) (bad : Finset α) (rest found : List α) (bss : BinarySearchState α)
    (pruning : Pruning items bad bss rest found) (nonempty : bad.Nonempty)
    (first : FirstHit (BadPrefix bad bss.allItems) (bss.allItems.length - 1) (bss.allItems.length - 1)) :
    ∃ last, bss.allItems.drop (bss.allItems.length - 1) = [last] ∧ bss.allItems.getLast? = some last ∧ bad = {last} := by
  have several := pruning.several
  have present : bss.allItems ≠ [] := by
    intro empty
    simp [empty] at several
  have single := List.drop_length_sub_one present
  refine ⟨bss.allItems.getLast present, single, List.getLast?_eq_getLast_of_ne_nil present, ?_⟩
  apply (Finset.Nonempty.subset_singleton_iff nonempty).mp
  intro item isBad
  have member := bad_after_first_hit bad bss.allItems _ _ first item isBad (pruning.covered item isBad)
  rw [single] at member
  simpa using member

-- An item found before lies in the rotated part, so nothing bad is left before it.
theorem prune_again (items : List α) (bad : Finset α) (rest found : List α) (bss : BinarySearchState α) (index : Nat)
    (pruning : Pruning items bad bss rest found) (within : index < bss.allItems.length)
    (first : FirstHit (BadPrefix bad bss.allItems) (bss.allItems.length - 1) index)
    (known : bss.allItems[index] ∈ bss.foundItems) : bss.foundItems.toFinset = bad := by
  have isFound : bss.allItems[index] ∈ found := (pruning.foundItems _).mp known
  have behind : rest.length ≤ index := by
    by_contra before
    have inRest : bss.allItems[index] ∈ rest := by
      simp only [pruning.split, List.getElem_append_left (Nat.lt_of_not_le before), List.getElem_mem]
    have distinct := pruning.distinct
    rw [pruning.split] at distinct
    exact List.disjoint_of_nodup_append distinct inRest isFound
  ext item
  rw [List.mem_toFinset, pruning.foundItems]
  constructor
  · exact pruning.foundBad item
  · intro isBad
    have member := bad_after_first_hit bad bss.allItems _ _ first item isBad (pruning.covered item isBad)
    rw [pruning.split, List.drop_append, List.drop_eq_nil_of_le behind, List.nil_append] at member
    exact List.mem_of_mem_drop member

theorem prune_new (items : List α) (bad : Finset α) (rest found : List α) (bss next : BinarySearchState α) (index : Nat)
    (pruning : Pruning items bad bss rest found) (within : index < bss.allItems.length)
    (first : FirstHit (BadPrefix bad bss.allItems) (bss.allItems.length - 1) index) (inner : index ≠ bss.allItems.length - 1)
    (unknown : bss.allItems[index] ∉ bss.foundItems)
    (itemsNext : next.allItems = rotateItems bss.allItems index bss.allItems[index])
    (foundNext : next.foundItems = [bss.allItems[index]] ∪ bss.foundItems)
    (freshNext : next.binarySearch = { (BinarySearcher.init : BinarySearcher α) with
      sortedList := next.allItems, hi := next.allItems.length - 1 })
    (settings : next.prune = bss.prune ∧ next.resumed = bss.resumed ∧ next.iterations = bss.iterations) :
    Pruning items bad next (rest.drop (index + 1)) (found ++ [bss.allItems[index]]) := by
  have several := pruning.several
  have bounded := pruning.bounded
  have isBad := first_hit_is_bad bad bss.allItems index within first inner
  have rotated : next.allItems = bss.allItems.drop (index + 1) ++ [bss.allItems[index]] :=
    itemsNext.trans (rotate_items_eq _ _ _ (Nat.le_of_lt within))
  have behind : bss.allItems.drop index = bss.allItems[index] :: bss.allItems.drop (index + 1) :=
    List.drop_eq_getElem_cons within
  have inRest : index < rest.length := by
    by_contra after
    have member : bss.allItems[index] ∈ found := by
      simp only [pruning.split, List.getElem_append_right (Nat.le_of_not_lt after), List.getElem_mem]
    exact unknown ((pruning.foundItems _).mpr member)
  have count : next.allItems.length = bss.allItems.length - index := by
    rw [rotated, List.length_append, List.length_drop, List.length_singleton]
    omega
  refine ⟨?_, ?_, by omega, by omega, ?_, ?_, ?_, freshNext, settings.1.trans pruning.pruning,
    settings.2.1.trans pruning.started, settings.2.2 ▸ pruning.rounds⟩
  · rw [rotated, ← List.append_assoc]
    congr 1
    rw [pruning.split, List.drop_append_of_le_length inRest]
  · have distinct := pruning.distinct.sublist (List.drop_sublist index bss.allItems)
    rw [behind] at distinct
    rw [rotated]
    exact (List.perm_append_singleton _ _).nodup_iff.mpr distinct
  · intro item
    rw [foundNext, List.mem_union_iff, pruning.foundItems, List.mem_append, or_comm]
  · intro item member
    rcases List.mem_append.mp member with old | last
    · exact pruning.foundBad item old
    · have same : item = bss.allItems[index] := by simpa using last
      exact same ▸ isBad
  · intro item bad_item
    have member := bad_after_first_hit bad bss.allItems _ _ first item bad_item (pruning.covered item bad_item)
    rw [behind] at member
    rw [rotated]
    exact (List.perm_append_singleton _ _).mem_iff.mpr member

-- Found items are distinct members of the bad set, so there is always a cycle left.
theorem found_count (items : List α) (bad : Finset α) (rest found : List α) (bss : BinarySearchState α)
    (pruning : Pruning items bad bss rest found) : found.length ≤ bad.card := by
  have distinct := pruning.distinct
  rw [pruning.split] at distinct
  have nodup := distinct.of_append_right
  rw [← List.toFinset_card_of_nodup nodup]
  exact Finset.card_le_card fun item member => pruning.foundBad item (List.mem_toFinset.mp member)

theorem search_cycles_find (setup : Bool) (items : List α) (bad : Finset α) (nonempty : bad.Nonempty) (remaining : Nat)
    (rest found : List α) (session : Session α (Environment α)) (truthful : Truthful session.bss session.world)
    (pruning : Pruning items bad session.bss rest found) (enough : bad.card < remaining + found.length)
    (unfinished : .firstBadItemIsLast ∉ session.log) :
    ∃ final report, searchCycles (badSetScripts setup bad) remaining session = .ok () final ∧
      reportedItems final = bad ∧ final.log.getLast? = some (.badItemsAre report) ∧ report.toFinset = bad := by
  induction remaining generalizing rest found session with
  | zero =>
      have count := found_count items bad rest found session.bss pruning
      omega
  | succ remaining ih =>
      have several := pruning.several
      obtain ⟨index, first⟩ := first_hit_exists (BadPrefix bad session.bss.allItems) (session.bss.allItems.length - 1)
      have within : index < session.bss.allItems.length := by have bound := first.bounded; omega
      obtain ⟨cycles, searcher, good, other, env, saves, run, current, truth⟩ :=
        do_binary_search_finds setup items bad index rest found session truthful pruning first
      let middle : Session α (Environment α) := {
        bss := { session.bss.withCurrent good other with
          searchCycles := cycles, binarySearch := searcher, pruneCycles := session.bss.pruneCycles + 1 }
        world := env, saves := saves, log := session.log ++ [.terminated] }
      have step : searchCycles (badSetScripts setup bad) (remaining + 1) session = (do
          let goesOn ← pruneFoundItem
          if goesOn then searchCycles (badSetScripts setup bad) remaining) middle := by
        rw [search_cycles_succ _ remaining session several, run_bind, run]
        rfl
      have listed : middle.bss.allItems[middle.bss.binarySearch.current]? = some session.bss.allItems[index] := by
        change session.bss.allItems[searcher.current]? = _
        rw [current, List.getElem?_eq_getElem within]
      have stillUnfinished : .firstBadItemIsLast ∉ middle.log := by simpa [middle] using unfinished
      rw [step, run_bind]
      by_cases atLast : index = session.bss.allItems.length - 1
      · obtain ⟨last, dropped, final, single⟩ := prune_last_item items bad rest found session.bss pruning nonempty (atLast ▸ first)
        rw [prune_found_last middle (current.trans atLast)]
        refine ⟨_, [last], rfl, ?_, ?_, by simp [single]⟩
        · have onlyBad : session.bss.foundItems.toFinset ⊆ bad := fun item member =>
            pruning.foundBad item ((pruning.foundItems item).mp (List.mem_toFinset.mp member))
          have listedLast : middle.bss.allItems.getLast? = some last := final
          simp only [reportedItems, List.mem_append, List.mem_singleton, or_true, true_or, if_true, listedLast,
            Option.toList_some, List.toFinset_append]
          rw [show [last].toFinset = bad by simp [single]]
          exact Finset.union_eq_right.mpr onlyBad
        · have shown : middle.bss.allItems.drop middle.bss.binarySearch.current = [last] := by
            change session.bss.allItems.drop searcher.current = _
            rw [current, atLast, dropped]
          simp [shown]
      · have inner : middle.bss.binarySearch.current ≠ middle.bss.allItems.length - 1 := fun same => atLast (current.symm.trans same)
        by_cases known : session.bss.allItems[index] ∈ session.bss.foundItems
        · have all := prune_again items bad rest found session.bss index pruning within first known
          rw [prune_found_again middle _ inner listed known]
          refine ⟨_, session.bss.foundItems, rfl, ?_, ?_, all⟩
          · rw [reportedItems, if_neg (by simp [stillUnfinished])]
            exact all
          · simp [middle, BinarySearchState.withCurrent]
        · rw [prune_found_new middle _ inner listed known pruning.pruning]
          simp only [if_true]
          refine ih (rest.drop (index + 1)) (found ++ [session.bss.allItems[index]]) _ ⟨truth.current⟩
            (prune_new items bad rest found session.bss _ index pruning within first atLast known ?_ rfl rfl ⟨rfl, rfl, rfl⟩)
            (by rw [List.length_append, List.length_singleton]; omega) stillUnfinished
          change rotateItems session.bss.allItems searcher.current _ = _
          rw [current]

theorem bad_set_test_all (items : List α) (bad : Finset α) (env : Environment α) (subset : ∀ item ∈ bad, item ∈ items)
    (nonempty : bad.Nonempty) :
    badSetTest bad (setItems items false env) = 0 ∧ badSetTest bad (setItems items true env) = 1 := by
  constructor
  · apply if_neg
    rintro ⟨item, isBad, switched⟩
    simp [setItems, subset item isBad] at switched
  · obtain ⟨item, isBad⟩ := nonempty
    exact if_pos ⟨item, isBad, by simp [setItems, subset item isBad]⟩

theorem do_verify_passes (setup : Bool) (bad : Finset α) (nonempty : bad.Nonempty) (session : Session α (Environment α))
    (truthful : Truthful session.bss session.world) (subset : ∀ item ∈ bad, item ∈ session.bss.allItems) :
    ∃ good other env, doVerify (badSetScripts setup bad) session = .ok () { session with
        bss := session.bss.withCurrent good other, world := env } ∧
      Truthful (session.bss.withCurrent good other) env := by
  by_cases verify : session.bss.verify = true
  · let prepare : Option (Environment α → Int) := if setup then some fun _ => 0 else none
    have ready : ∀ env, environmentSetup prepare env = 0 := by cases setup <;> simp [prepare, environmentSetup]
    obtain ⟨good, other, reset, same, truthGood, goodSet⟩ := verify_good_spec prepare (badSetTest bad) session truthful
    obtain ⟨lastGood, lastOther, last, sameLast, truthBad, badSet⟩ := verify_bad_spec prepare (badSetTest bad) reset truthGood
    have answerGood : badSetTest bad reset.world = 0 := by
      rw [same]
      exact (bad_set_test_all session.bss.allItems bad session.world subset nonempty).1
    have answerBad : environmentAnswer prepare (badSetTest bad) last.world = 1 := by
      rw [sameLast, same]
      exact (bad_set_answer setup bad _).trans (bad_set_test_all session.bss.allItems bad _ subset nonempty).2
    refine ⟨lastGood, lastOther, last.world, ?_, ?_⟩
    · simp only [doVerify, badSetScripts, run_bind, run_get_bss, verify, if_true]
      rw [goodSet]
      simp only [run_bind, ready, answerGood, assertStatus, if_true, run_pure]
      rw [badSet, answerBad, sameLast, same]
      rfl
    · rw [sameLast, same] at truthBad ⊢
      exact ⟨truthBad.current⟩
  · refine ⟨session.bss.currentlyGoodItems, session.bss.currentlyBadItems, session.world, ?_, ⟨truthful.current⟩⟩
    simp only [doVerify, run_bind, run_get_bss, verify]
    rfl

theorem pruned_search_finds_bad_set (setup : Bool) (options : Options) (items : List α) (bad : Finset α)
    (world : Environment α) (several : 2 ≤ items.length) (distinct : items.Nodup) (subset : ∀ item ∈ bad, item ∈ items)
    (nonempty : bad.Nonempty) (prune : options.prune = true) (enough : Nat.clog 2 items.length ≤ options.iterations)
    (rounds : bad.card < options.pruneIterations) :
    ∃ start final report, newState options items = .ok start ∧
      run (badSetScripts setup bad) { bss := start, world := world, saves := [], log := [] } = .ok () final ∧
      reportedItems final = bad ∧ final.log.getLast? = some (.badItemsAre report) ∧ report.toFinset = bad := by
  obtain ⟨start, created, settings⟩ := new_state_ok options items (by omega)
  obtain ⟨good, other, env, verified, truthful⟩ := do_verify_passes setup bad nonempty
    { bss := start, world := world, saves := [], log := [] } (by rw [settings]; exact ⟨by intro side; cases side <;> simp [BinarySearchState.current]⟩)
    (by rw [settings]; exact subset)
  have pruning : Pruning items bad (start.withCurrent good other) items [] := by
    rw [settings]
    exact ⟨(List.append_nil items).symm, distinct, several, Nat.le_refl _, by simp [BinarySearchState.withCurrent], by simp, subset,
      rfl, prune, rfl, enough⟩
  obtain ⟨final, report, run, found, shown, same⟩ := search_cycles_find setup items bad nonempty options.pruneIterations items []
    { bss := start.withCurrent good other, world := env, saves := [], log := [] } truthful pruning rounds (by simp)
  refine ⟨start, final, report, created, ?_, found, shown, same⟩
  rw [BinarySearchTool.run, run_bind, verified]
  simp only [doSearch, run_bind, run_get_bss]
  rw [← run, settings]
  rfl

theorem pruned_search_finds_first_and_last : ∃ start final report,
    newState ⟨true, true, 2, 3, true⟩ ["a", "b", "c"] = .ok start ∧
    run (badSetScripts false {"a", "c"}) { bss := start, world := fun _ => false, saves := [], log := [] } = .ok () final ∧
    reportedItems final = {"a", "c"} ∧ final.log.getLast? = some (.badItemsAre report) ∧ report.toFinset = {"a", "c"} :=
  pruned_search_finds_bad_set false ⟨true, true, 2, 3, true⟩ ["a", "b", "c"] {"a", "c"} (fun _ => false) (by decide) (by decide)
    (by decide) ⟨"a", by decide⟩ rfl (Nat.clog_le_of_le_pow (by decide)) (by decide)

end ToolchainUtils.BinarySearchTool
