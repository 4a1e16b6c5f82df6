import Mathlib.Algebra.Order.Floor.Div
import Mathlib.Data.List.FinRange
import Mathlib.Data.List.Forall2
import ToolchainUtils.Crosperf.CacheReaders

set_option autoImplicit false

namespace ToolchainUtils.Crosperf

open ToolchainUtils.Transition

variable {β γ : Type} {runs : Nat}

-- What _read_br_cache starts its readers with; none is the assertion on the aggregation.
def readBrCache (benchmarkRuns : List β) : Option (List (List β)) :=
  let segments := benchmarkrunSegments benchmarkRuns
  if benchmarkRuns.length ≤ 4 ∨ (segments.map List.length).sum = benchmarkRuns.length then some segments else none

theorem read_br_cache_some (benchmarkRuns : List β) : readBrCache benchmarkRuns = some (benchmarkrunSegments benchmarkRuns) := by
  rw [readBrCache, ← List.length_flatten, segments_flatten]
  exact if_pos (.inr rfl)

theorem segments_length (benchmarkRuns : List β) (many : 4 < benchmarkRuns.length) :
    (benchmarkrunSegments benchmarkRuns).length = max 2 (min 20 ((benchmarkRuns.length + 3) / 4)) := by
  rw [benchmarkrunSegments]
  dsimp only
  rw [if_neg (by omega), List.length_append, List.length_map, List.length_range, List.length_singleton]
  omega

theorem slice_short (items : List β) (size i : Nat) : ((items.take ((i + 1) * size)).drop (i * size)).length ≤ size := by
  rw [List.length_drop, List.length_take, Nat.succ_mul]
  omega

-- Where the size is rounded up, the segments before the last leave at most one size.
theorem last_slice_short (items : List β) (count : Nat) (some : 0 < count) :
    (items.drop ((count - 1) * (items.length ⌈/⌉ count))).length ≤ items.length ⌈/⌉ count := by
  have enough : items.length ≤ count * (items.length ⌈/⌉ count) := le_smul_ceilDiv some
  rw [List.length_drop, Nat.sub_one_mul]
  omega

theorem segment_short (benchmarkRuns segment : List β) (many : 4 < benchmarkRuns.length)
    (inside : segment ∈ benchmarkrunSegments benchmarkRuns) :
    segment.length ≤ benchmarkRuns.length ⌈/⌉ (benchmarkrunSegments benchmarkRuns).length := by
  rw [segments_length benchmarkRuns many]
  rw [benchmarkrunSegments] at inside
  dsimp only at inside
  rw [if_neg (by omega), List.mem_append, List.mem_map, List.mem_singleton] at inside
  rcases inside with ⟨i, _, rfl⟩ | rfl
  · exact slice_short benchmarkRuns _ i
  · exact last_slice_short benchmarkRuns _ (by omega)

-- How ReadCache of a run ends. BenchmarkRunCacheReader.run catches a RuntimeError only:
-- any other exception is the end of the thread.
inductive ReadCache where
  | hit
  | miss
  | runtimeError
  | otherError
deriving DecidableEq, Repr

-- The append is made under the lock, some time after ReadCache has come back.
inductive CacheReader (runs : Nat) where
  | reading (brList : List (Fin runs))
  | appending (br : Fin runs) (brList : List (Fin runs))
deriving DecidableEq, Repr

def CacheReader.afterReadCache (outcome : ReadCache) (br : Fin runs) (rest : List (Fin runs)) : CacheReader runs :=
  match outcome with
  | .hit => .appending br rest
  | .miss => .reading rest
  | .runtimeError => .reading rest
  | .otherError => .reading []

structure CacheReading (runs : Nat) where
  cacheReaders : List (CacheReader runs)
  cachedBrList : List (Fin runs)
deriving DecidableEq, Repr

def startCacheReading (runs : Nat) : CacheReading runs where
  cacheReaders := (benchmarkrunSegments (List.finRange runs)).map .reading
  cachedBrList := []

-- The next thing that one of the readers does, in whatever order they take turns.
def CacheReading.step (readCache : Fin runs → ReadCache) (state : CacheReading runs) (reader : Nat) : Option (CacheReading runs) :=
  match state.cacheReaders[reader]? with
  | some (.reading (br :: rest)) =>
      some { state with cacheReaders := state.cacheReaders.set reader (.afterReadCache (readCache br) br rest) }
  | some (.appending br rest) => some {
      cacheReaders := state.cacheReaders.set reader (.reading rest)
      cachedBrList := state.cachedBrList ++ [br] }
  | _ => none

def CacheReading.Joined (state : CacheReading runs) : Prop := ∀ reader ∈ state.cacheReaders, reader = .reading []

instance (state : CacheReading runs) : Decidable state.Joined :=
  inferInstanceAs (Decidable (∀ reader ∈ state.cacheReaders, reader = .reading []))

-- The runs whose ReadCache a reader calls on its way through the list.
def called (readCache : Fin runs → ReadCache) : List (Fin runs) → List (Fin runs)
  | [] => []
  | br :: rest => br :: if readCache br = .otherError then [] else called readCache rest

def ReadCacheHit (readCache : Fin runs → ReadCache) (segments : List (List (Fin runs))) (br : Fin runs) : Prop :=
  br ∈ segments.flatMap (called readCache) ∧ readCache br = .hit

instance (readCache : Fin runs → ReadCache) (segments : List (List (Fin runs))) (br : Fin runs) :
    Decidable (ReadCacheHit readCache segments br) :=
  inferInstanceAs (Decidable (_ ∧ _))

def hits (readCache : Fin runs → ReadCache) (brList : List (Fin runs)) : List (Fin runs) :=
  (called readCache brList).filter fun br => readCache br = .hit

theorem called_sublist (readCache : Fin runs → ReadCache) (brList : List (Fin runs)) : (called readCache brList).Sublist brList := by
  induction brList with
  | nil => exact .refl []
  | cons br rest ih =>
      rw [called]
      split
      · exact (List.nil_sublist rest).cons_cons br
      · exact ih.cons_cons br

-- The hits that a reader has still to append.
def CacheReader.pending (readCache : Fin runs → ReadCache) : CacheReader runs → List (Fin runs)
  | .reading brList => hits readCache brList
  | .appending br brList => br :: hits readCache brList

theorem after_read_cache_pending (readCache : Fin runs → ReadCache) (br : Fin runs) (rest : List (Fin runs)) :
    (CacheReader.afterReadCache (readCache br) br rest).pending readCache = hits readCache (br :: rest) := by
  rw [hits, called, List.filter_cons]
  cases outcome : readCache br with
  | hit => rfl
  | miss => rfl
  | runtimeError => rfl
  | otherError => rfl

theorem set_split (items : List γ) (i : Nat) (item : γ) (here : items[i]? = some item) :
    ∃ front back : List γ, items = front ++ item :: back ∧ ∀ other : γ, items.set i other = front ++ other :: back := by
  induction items generalizing i with
  | nil => cases here
  | cons head tail ih =>
      cases i with
      | zero =>
          cases here
          exact ⟨[], tail, rfl, fun other => rfl⟩
      | succ i =>
          obtain ⟨front, back, now, later⟩ := ih i here
          exact ⟨head :: front, back, congrArg (head :: ·) now, fun other => congrArg (head :: ·) (later other)⟩

-- The hits are all either appended or pending.
def CacheReading.Complete (readCache : Fin runs → ReadCache) (state : CacheReading runs) : Prop :=
  (state.cachedBrList ++ state.cacheReaders.flatMap (CacheReader.pending readCache)).Perm
    ((benchmarkrunSegments (List.finRange runs)).flatMap (hits readCache))

theorem start_complete (readCache : Fin runs → ReadCache) : (startCacheReading runs).Complete readCache := by
  rw [CacheReading.Complete, startCacheReading, List.nil_append, List.flatMap_map]
  exact .refl _

theorem reading_step_complete (readCache : Fin runs → ReadCache) (state : CacheReading runs) (reader : Nat) (next : CacheReading runs)
    (complete : state.Complete readCache) (taken : state.step readCache reader = some next) : next.Complete readCache := by
  rw [CacheReading.step] at taken
  split at taken
  · next br rest here =>
      cases taken
      obtain ⟨front, back, now, later⟩ := set_split _ _ _ here
      rw [CacheReading.Complete, later, List.flatMap_append, List.flatMap_cons, after_read_cache_pending]
      rwa [CacheReading.Complete, now, List.flatMap_append, List.flatMap_cons] at complete
  · next br rest here =>
      cases taken
      obtain ⟨front, back, now, later⟩ := set_split _ _ _ here
      rw [CacheReading.Complete, later, List.flatMap_append, List.flatMap_cons, List.append_assoc]
      rw [CacheReading.Complete, now, List.flatMap_append, List.flatMap_cons] at complete
      generalize front.flatMap (CacheReader.pending readCache) = before at complete
      generalize back.flatMap (CacheReader.pending readCache) = after at complete
      have moved : (br :: (before ++ (hits readCache rest ++ after))).Perm (before ++ br :: (hits readCache rest ++ after)) :=
        List.perm_middle.symm
      exact (moved.append_left state.cachedBrList).trans complete
  · cases taken

-- A reader as the coarser readers see it: a hit that is not appended yet is not read yet.
inductive CacheReader.Follows (readCache : Fin runs → ReadCache) : CacheReader runs → List (Fin runs) → Prop where
  | reading (brList : List (Fin runs)) : Follows readCache (.reading brList) brList
  | stopped (brList : List (Fin runs)) : Follows readCache (.reading []) brList
  | appending (br : Fin runs) (brList : List (Fin runs)) (hit : readCache br = .hit) :
      Follows readCache (.appending br brList) (br :: brList)

def CacheReading.Follows (readCache : Fin runs → ReadCache) (state : CacheReading runs) (readers : CacheReaders runs) : Prop :=
  List.Forall₂ (CacheReader.Follows readCache) state.cacheReaders readers.brLists ∧ state.cachedBrList = readers.cachedBrList

theorem follows_at {δ : Type} (follows : γ → δ → Prop) (items : List γ) (others : List δ) (each : List.Forall₂ follows items others)
    (i : Nat) (item : γ) (here : items[i]? = some item) :
    ∃ other : δ, others[i]? = some other ∧ follows item other ∧
      ∀ (after : γ) (behind : δ), follows after behind → List.Forall₂ follows (items.set i after) (others.set i behind) := by
  induction each generalizing i with
  | nil => cases here
  | @cons head first tail rest now later ih =>
      cases i with
      | zero =>
          cases here
          exact ⟨first, rfl, now, fun after behind still => .cons still later⟩
      | succ i =>
          obtain ⟨other, there, same, replaced⟩ := ih i here
          exact ⟨other, there, same, fun after behind still => .cons now (replaced after behind still)⟩

theorem start_follows (readCache : Fin runs → ReadCache) : (startCacheReading runs).Follows readCache (startCacheReaders runs) := by
  refine ⟨?_, rfl⟩
  rw [startCacheReading, startCacheReaders, List.forall₂_map_left_iff, List.forall₂_same]
  exact fun brList _ => .reading brList

theorem reading_step_follows (readCache : Fin runs → ReadCache) (state next : CacheReading runs) (readers : CacheReaders runs)
    (reader : Nat)
    (follows : state.Follows readCache readers) (taken : state.step readCache reader = some next) :
    next.Follows readCache readers ∨
      ∃ (read : CacheRead) (after : CacheReaders runs),
        readers.step (fun br => readCache br = .hit) read = some after ∧ next.Follows readCache after := by
  obtain ⟨each, cached⟩ := follows
  rw [CacheReading.step] at taken
  split at taken
  · next br rest here =>
      cases taken
      obtain ⟨brList, there, now, replaced⟩ := follows_at _ _ _ each reader _ here
      have unchanged : readers.brLists.set reader brList = readers.brLists := by
        obtain ⟨within, rfl⟩ := List.getElem?_eq_some_iff.mp there
        exact List.set_getElem_self within
      cases now
      have moves (raised : Bool) (none : (decide (readCache br = .hit) && !raised) = false) :
          readers.step (fun br => readCache br = .hit) ⟨reader, raised⟩ =
            some ⟨readers.brLists.set reader rest, readers.cachedBrList⟩ := by
        rw [CacheReaders.step, there]
        simp only [none, Bool.false_eq_true, if_false]
      cases outcome : readCache br with
      | hit =>
          refine .inl ⟨?_, cached⟩
          rw [← unchanged]
          exact replaced _ _ (.appending br rest outcome)
      | miss => exact .inr ⟨_, _, moves false (by rw [outcome]; rfl), replaced _ _ (.reading rest), cached⟩
      | runtimeError => exact .inr ⟨_, _, moves true (by rw [outcome]; rfl), replaced _ _ (.reading rest), cached⟩
      | otherError =>
          refine .inl ⟨?_, cached⟩
          rw [← unchanged]
          exact replaced _ _ (.stopped (br :: rest))
  · next br rest here =>
      cases taken
      obtain ⟨brList, there, now, replaced⟩ := follows_at _ _ _ each reader _ here
      cases now with
      | appending br rest hit =>
          refine .inr ⟨⟨reader, false⟩, ⟨readers.brLists.set reader rest, readers.cachedBrList ++ [br]⟩, ?_,
            replaced _ _ (.reading rest), ?_⟩
          · rw [CacheReaders.step, there]
            simp only [hit, decide_true, Bool.not_false, Bool.and_self, if_true]
          · rw [← cached]
  · cases taken

-- Whatever the readers do here, the coarser readers can do.
theorem reading_follows (readCache : Fin runs → ReadCache) (state : CacheReading runs)
    (reached : Reachable (CacheReading.step readCache) (startCacheReading runs) state) :
    ∃ readers : CacheReaders runs,
      Reachable (CacheReaders.step fun br => readCache br = .hit) (startCacheReaders runs) readers ∧
        state.Follows readCache readers := by
  refine reachable_invariant (CacheReading.step readCache) (fun state => ∃ readers : CacheReaders runs,
    Reachable (CacheReaders.step fun br => readCache br = .hit) (startCacheReaders runs) readers ∧ state.Follows readCache readers)
    (startCacheReading runs) state ?_ ⟨startCacheReaders runs, ⟨[], rfl⟩, start_follows readCache⟩ reached
  rintro before reader after ⟨readers, came, follows⟩ taken
  rcases reading_step_follows readCache before after readers reader follows taken with still | ⟨read, next, moved, follows⟩
  · exact ⟨readers, came, still⟩
  · exact ⟨next, reachable_more _ _ _ _ read came moved, follows⟩

theorem joined_pending (readCache : Fin runs → ReadCache) (state : CacheReading runs) (joined : state.Joined) :
    state.cacheReaders.flatMap (CacheReader.pending readCache) = [] := by
  refine List.flatMap_eq_nil_iff.mpr fun reader inside => ?_
  rw [joined reader inside]
  rfl

theorem mem_hits (readCache : Fin runs → ReadCache) (segments : List (List (Fin runs))) (br : Fin runs) :
    br ∈ segments.flatMap (hits readCache) ↔ ReadCacheHit readCache segments br := by
  rw [ReadCacheHit, List.mem_flatMap, List.mem_flatMap]
  simp only [hits, List.mem_filter, decide_eq_true_eq]
  constructor
  · rintro ⟨segment, inside, came, hit⟩
    exact ⟨⟨segment, inside, came⟩, hit⟩
  · rintro ⟨⟨segment, inside, came⟩, hit⟩
    exact ⟨segment, inside, came, hit⟩

theorem hits_nodup (readCache : Fin runs → ReadCache) :
    ((benchmarkrunSegments (List.finRange runs)).flatMap (hits readCache)).Nodup := by
  have within : ((benchmarkrunSegments (List.finRange runs)).flatMap (hits readCache)).Sublist
      (benchmarkrunSegments (List.finRange runs)).flatten := by
    induction benchmarkrunSegments (List.finRange runs) with
    | nil => exact .refl []
    | cons segment segments ih => exact (List.filter_sublist.trans (called_sublist readCache segment)).append ih
  rw [segments_flatten] at within
  exact within.nodup (List.nodup_finRange runs)

theorem joined_count (readCache : Fin runs → ReadCache) (state : CacheReading runs) (br : Fin runs)
    (reached : Reachable (CacheReading.step readCache) (startCacheReading runs) state) (joined : state.Joined) :
    state.cachedBrList.count br = if ReadCacheHit readCache (benchmarkrunSegments (List.finRange runs)) br then 1 else 0 := by
  have complete := reachable_invariant (CacheReading.step readCache) (CacheReading.Complete readCache) (startCacheReading runs) state
    (reading_step_complete readCache) (start_complete readCache) reached
  rw [CacheReading.Complete, joined_pending readCache state joined, List.append_nil] at complete
  rw [complete.count_eq, (hits_nodup readCache).count]
  exact if_congr (mem_hits readCache _ br) rfl rfl

theorem cache_is_read_without_loss (runs : Nat) (many : 4 < runs) :
    ∃ segments : List (List (Fin runs)), readBrCache (List.finRange runs) = some segments ∧
      2 ≤ segments.length ∧ segments.length ≤ 20 ∧ segments.flatten = List.finRange runs ∧
      (∀ segment ∈ segments, segment.length ≤ runs ⌈/⌉ segments.length) ∧
      (startCacheReading runs).cacheReaders = segments.map .reading ∧
      ∀ (readCache : Fin runs → ReadCache) (state : CacheReading runs),
        Reachable (CacheReading.step readCache) (startCacheReading runs) state → state.Joined →
          ∀ br : Fin runs, state.cachedBrList.count br = if ReadCacheHit readCache segments br then 1 else 0 := by
  have enough : 4 < (List.finRange runs).length := by rwa [List.length_finRange]
  have count := segments_length (List.finRange runs) enough
  refine ⟨benchmarkrunSegments (List.finRange runs), read_br_cache_some _, ?_, ?_, segments_flatten _, fun segment inside => ?_, rfl,
    fun readCache state reached joined br => joined_count readCache state br reached joined⟩
  · omega
  · omega
  · simpa only [List.length_finRange] using segment_short (List.finRange runs) segment enough inside

def fiveReadCache (br : Fin 5) : ReadCache :=
  if br = 0 ∨ br = 3 then .hit else if br = 1 then .miss else if br = 2 then .runtimeError else .otherError

theorem five_runs_are_read : 4 < 5 ∧ ∃ segments : List (List (Fin 5)), readBrCache (List.finRange 5) = some segments ∧
    segments.flatten = List.finRange 5 ∧
    (⟨[.reading [], .reading []], [3, 0]⟩ : CacheReading 5).cachedBrList.count 3 =
      if ReadCacheHit fiveReadCache segments 3 then 1 else 0 := by
  obtain ⟨segments, made, _, _, whole, _, _, counted⟩ := cache_is_read_without_loss 5 (by decide)
  exact ⟨by decide, segments, made, whole, counted fiveReadCache _ ⟨[0, 1, 1, 0, 0, 0, 1], by decide⟩ (by decide) 3⟩

end ToolchainUtils.Crosperf
