import Mathlib.Data.List.Nodup
import Mathlib.Data.List.Perm.Basic
import ToolchainUtils.Transition

set_option autoImplicit false

namespace ToolchainUtils.Crosperf

open ToolchainUtils.Transition

variable {β : Type} {runs : Nat}

-- The segments of benchmark_runs in _read_br_cache; up to four runs are not split.
def benchmarkrunSegments (benchmarkRuns : List β) : List (List β) :=
  let nBenchmarkruns := benchmarkRuns.length
  if nBenchmarkruns ≤ 4 then [benchmarkRuns]
  else
    let nThreads := max 2 (min 20 ((nBenchmarkruns + 3) / 4))
    let benchmarkrunsPerThread := (nBenchmarkruns + nThreads - 1) / nThreads
    (List.range (nThreads - 1)).map (fun i =>
      (benchmarkRuns.take ((i + 1) * benchmarkrunsPerThread)).drop (i * benchmarkrunsPerThread)) ++
      [benchmarkRuns.drop ((nThreads - 1) * benchmarkrunsPerThread)]

theorem slices_flatten (items : List β) (size count : Nat) :
    ((List.range count).map fun i => (items.take ((i + 1) * size)).drop (i * size)).flatten = items.take (count * size) := by
  induction count with
  | zero => simp
  | succ count ih =>
      have split : items.take ((count + 1) * size) =
          items.take (count * size) ++ (items.take ((count + 1) * size)).drop (count * size) := by
        have shorter : (items.take ((count + 1) * size)).take (count * size) = items.take (count * size) := by
          rw [List.take_take, Nat.min_eq_left (Nat.mul_le_mul_right size (Nat.le_succ count))]
        rw [← shorter, List.take_append_drop]
      rw [List.range_succ, List.map_append, List.flatten_append, ih, split]
      simp

-- The assertion on the segments' lengths, and more: they are benchmark_runs in order.
theorem segments_flatten (benchmarkRuns : List β) : (benchmarkrunSegments benchmarkRuns).flatten = benchmarkRuns := by
  unfold benchmarkrunSegments
  dsimp only
  split
  · simp
  · rw [List.flatten_append, slices_flatten, List.flatten_singleton, List.take_append_drop]

-- brLists is what each reader still has to read.
structure CacheReaders (runs : Nat) where
  brLists : List (List (Fin runs))
  cachedBrList : List (Fin runs)
deriving DecidableEq, Repr

def startCacheReaders (runs : Nat) : CacheReaders runs where
  brLists := benchmarkrunSegments (List.finRange runs)
  cachedBrList := []

-- One round of a reader's loop; ReadCache may raise a RuntimeError.
structure CacheRead where
  reader : Nat
  raised : Bool
deriving DecidableEq, Repr

def CacheReaders.step (cacheHit : Fin runs → Bool) (readers : CacheReaders runs) (read : CacheRead) :
    Option (CacheReaders runs) :=
  match readers.brLists[read.reader]? with
  | some (br :: rest) => some {
      brLists := readers.brLists.set read.reader rest
      cachedBrList := if cacheHit br && !read.raised then readers.cachedBrList ++ [br] else readers.cachedBrList }
  | _ => none

theorem flatten_set_tail (lists : List (List β)) (i : Nat) (first : β) (rest : List β)
    (here : lists[i]? = some (first :: rest)) : List.Perm lists.flatten (first :: (lists.set i rest).flatten) := by
  induction lists generalizing i with
  | nil => cases here
  | cons head tail ih =>
      cases i with
      | zero =>
          rw [List.getElem?_cons_zero, Option.some.injEq] at here
          rw [here]
          rfl
      | succ i =>
          have later := ih i here
          simp only [List.flatten_cons, List.set_cons_succ]
          exact (later.append_left head).trans List.perm_middle

def CacheReaders.Distinct (readers : CacheReaders runs) : Prop :=
  (readers.cachedBrList ++ readers.brLists.flatten).Nodup

theorem start_distinct (runs : Nat) : (startCacheReaders runs).Distinct := by
  rw [CacheReaders.Distinct, startCacheReaders, segments_flatten]
  exact List.nodup_finRange runs

theorem cache_step_distinct (cacheHit : Fin runs → Bool) (readers : CacheReaders runs) (read : CacheRead)
    (next : CacheReaders runs) (inv : readers.Distinct) (taken : readers.step cacheHit read = some next) : next.Distinct := by
  rw [CacheReaders.step] at taken
  split at taken
  · next br rest here =>
      have moved := flatten_set_tail readers.brLists read.reader br rest here
      have whole : (readers.cachedBrList ++ br :: (readers.brLists.set read.reader rest).flatten).Nodup :=
        (moved.append_left readers.cachedBrList).nodup inv
      cases taken
      rw [CacheReaders.Distinct]
      dsimp only
      split
      · rwa [List.append_assoc, List.singleton_append]
      · exact whole.sublist ((List.sublist_cons_self br _).append_left readers.cachedBrList)
  · cases taken

-- However the readers take turns, no run gets onto _cached_br_list twice.
theorem cached_br_list_nodup (cacheHit : Fin runs → Bool) (readers : CacheReaders runs)
    (reached : Reachable (CacheReaders.step cacheHit) (startCacheReaders runs) readers) : readers.cachedBrList.Nodup := by
  have distinct := reachable_invariant (CacheReaders.step cacheHit) CacheReaders.Distinct (startCacheReaders runs) readers
    (cache_step_distinct cacheHit) (start_distinct runs) reached
  exact distinct.of_append_left

end ToolchainUtils.Crosperf
