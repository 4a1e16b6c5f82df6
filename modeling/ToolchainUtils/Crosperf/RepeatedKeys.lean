import Mathlib.Algebra.GroupWithZero.Nat
import ToolchainUtils.FailingFold
import ToolchainUtils.Relabelling
import ToolchainUtils.Crosperf.ResultsOrganizer

set_option autoImplicit false

namespace ToolchainUtils.Crosperf.ResultsOrganizer

open PyString CachedResults

def Indexed (key : Text) : Prop := (dupKey key).isSome

instance (key : Text) : Decidable (Indexed key) := inferInstanceAs (Decidable ((dupKey key).isSome = true))

def repeatName (key : Text) : Text := key.takeWhile wordChar

def repeatIndex (key : Text) : Nat := indexOf (((key.dropWhile wordChar).drop 1).takeWhile Char.isDigit)

-- What stands behind the braces.
def repeatRest (key : Text) : Text := (((key.dropWhile wordChar).drop 1).dropWhile Char.isDigit).drop 1

-- The key without its index.
def fullName (key : Text) : Text := repeatName key ++ repeatRest key

theorem dup_key_parts (key : Text) (indexed : Indexed key) :
    ∃ indexStr, dupKey key = some (repeatName key, indexStr) ∧ indexOf indexStr = repeatIndex key := by
  obtain ⟨⟨name, indexStr⟩, found⟩ := Option.isSome_iff_exists.mp indexed
  refine ⟨indexStr, ?_⟩
  rw [found]
  unfold dupKey at found
  split at found
  · rename_i rest opened
    split at found
    · split at found
      · cases found
      · obtain ⟨rfl, rfl⟩ := Prod.mk.inj (Option.some.inj found)
        rw [repeatIndex, opened]
        exact ⟨rfl, rfl⟩
    · cases found
  · cases found

-- A position among the added runs; index 0 is taken from the end.
def position (maxDup index : Nat) : Nat := if index = 0 then maxDup - 1 else index - 1

theorem py_index_position (maxDup index : Nat) (some_added : 1 ≤ maxDup) (bounded : index ≤ maxDup) :
    pyIndex maxDup ((index : Int) - 1) = some (position maxDup index) := by
  cases index with
  | zero =>
      have last : (-((0 : Nat) - 1 : Int)).toNat = 1 := rfl
      rw [pyIndex, if_neg (by omega), last, if_pos some_added]
      rfl
  | succ n =>
      have index : (((n + 1 : Nat) : Int) - 1).toNat = n := by omega
      rw [pyIndex, if_pos (by omega), index, if_pos (by omega)]
      rfl

theorem position_inside (maxDup index : Nat) (some_added : 1 ≤ maxDup) (bounded : index ≤ maxDup) : position maxDup index < maxDup := by
  unfold position
  split <;> omega

-- Only the first and the last index share a position.
theorem position_shared (maxDup first second : Nat) (bounded : first ≤ maxDup) (limited : second ≤ maxDup)
    (same : position maxDup first = position maxDup second) (different : first ≠ second) :
    first = 0 ∧ second = maxDup ∨ first = maxDup ∧ second = 0 := by
  unfold position at same
  split at same <;> split at same <;> omega

-- What the loop of _GetNonDupLabel over the keys has made of those it has seen.
structure SplitSoFar (str : Value → Option Text) (maxDup : Nat) (done : List (Σ _ : Text, Value)) (own : Keyvals)
    (added : List Keyvals) : Prop where
  length : added.length = maxDup
  own : ∀ key, own.lookup key = if Indexed key then none else done.dlookup key
  printed : ∀ entry ∈ done, Indexed entry.1 → ∃ text, str entry.2 = some text
  stored : ∀ entry ∈ done, Indexed entry.1 → ∃ slot, added[position maxDup (repeatIndex entry.1)]? = some slot ∧ repeatName entry.1 ∈ slot
  source : ∀ (p : Nat) slot name value, added[p]? = some slot → slot.lookup name = some value → ∃ entry ∈ done, Indexed entry.1 ∧
    position maxDup (repeatIndex entry.1) = p ∧ repeatName entry.1 = name ∧ ∃ text, str entry.2 = some text ∧ value = .str text

theorem split_start (str : Value → Option Text) (maxDup : Nat) :
    SplitSoFar str maxDup [] newKeyvals (.replicate maxDup newKeyvals) := by
  refine ⟨List.length_replicate, fun key => by simp [newKeyvals], nofun, nofun, fun p slot name value listed found => ?_⟩
  rw [List.eq_of_mem_replicate (List.mem_of_getElem? listed), newKeyvals] at found
  cases found

theorem split_own (str : Value → Option Text) (maxDup : Nat) (done : List (Σ _ : Text, Value)) (entry : Σ _ : Text, Value)
    (fresh : entry.1 ∉ done.keys) (own : Keyvals) (added : List Keyvals) (unindexed : ¬ Indexed entry.1)
    (before : SplitSoFar str maxDup done own added) :
    SplitSoFar str maxDup (done ++ [entry]) (own.insert entry.1 entry.2) added := by
  have earlier {other : Σ _ : Text, Value} (member : other ∈ done ++ [entry]) (indexedOther : Indexed other.1) : other ∈ done :=
    (List.mem_append.mp member).resolve_right fun final => unindexed (List.mem_singleton.mp final ▸ indexedOther)
  refine ⟨before.length, fun key => ?_, fun other member indexed => before.printed other (earlier member indexed) indexed,
    fun other member indexed => before.stored other (earlier member indexed) indexed, fun p slot name value listed found => ?_⟩
  · by_cases same : key = entry.1
    · subst same
      have only : List.dlookup entry.1 [entry] = some entry.2 := @List.dlookup_cons_eq Text (fun _ => Value) _ [] entry.1 entry.2
      rw [AList.lookup_insert, if_neg unindexed, List.dlookup_append, List.dlookup_eq_none.mpr fresh, only]
      rfl
    · rw [AList.lookup_insert_ne same, before.own key, List.dlookup_append, List.dlookup_cons_ne _ _ same]
      simp
  · obtain ⟨other, member, rest⟩ := before.source p slot name value listed found
    exact ⟨other, List.mem_append_left _ member, rest⟩

theorem split_added (str : Value → Option Text) (maxDup : Nat) (done : List (Σ _ : Text, Value)) (entry : Σ _ : Text, Value)
    (own : Keyvals) (added : List Keyvals) (indexed : Indexed entry.1) (some_added : 1 ≤ maxDup)
    (bounded : repeatIndex entry.1 ≤ maxDup) (text : Text) (prints : str entry.2 = some text)
    (before : SplitSoFar str maxDup done own added) :
    SplitSoFar str maxDup (done ++ [entry]) own (added.modify (position maxDup (repeatIndex entry.1)) fun slot =>
      slot.insert (repeatName entry.1) (.str text)) := by
  have inside := position_inside maxDup (repeatIndex entry.1) some_added bounded
  have final : entry ∈ done ++ [entry] := List.mem_append_right _ List.mem_cons_self
  refine ⟨by rw [List.length_modify, before.length], fun key => ?_, fun other member isIndexed => ?_, fun other member isIndexed => ?_,
    fun p slot name value listed found => ?_⟩
  · rw [before.own key, List.dlookup_append]
    by_cases same : key = entry.1
    · rw [same, if_pos indexed, if_pos indexed]
    · rw [List.dlookup_cons_ne _ _ same]
      simp
  · rcases List.mem_append.mp member with earlier | last
    · exact before.printed other earlier isIndexed
    · rw [List.mem_singleton.mp last]
      exact ⟨text, prints⟩
  · rcases List.mem_append.mp member with earlier | last
    · obtain ⟨slot, listed, held⟩ := before.stored other earlier isIndexed
      by_cases here : position maxDup (repeatIndex entry.1) = position maxDup (repeatIndex other.1)
      · rw [here, List.getElem?_modify_eq, listed]
        exact ⟨_, rfl, (AList.mem_insert _).mpr (.inr held)⟩
      · rw [List.getElem?_modify_ne _ _ here, listed]
        exact ⟨slot, rfl, held⟩
    · rw [List.mem_singleton.mp last, List.getElem?_modify_eq, List.getElem?_eq_getElem (before.length ▸ inside)]
      exact ⟨_, rfl, (AList.mem_insert _).mpr (.inl rfl)⟩
  · rw [List.getElem?_modify] at listed
    obtain ⟨old, was, rfl⟩ := Option.map_eq_some_iff.mp listed
    by_cases here : position maxDup (repeatIndex entry.1) = p ∧ repeatName entry.1 = name
    · obtain ⟨rfl, rfl⟩ := here
      simp only [if_true, AList.lookup_insert] at found
      exact ⟨entry, final, indexed, rfl, rfl, text, prints, (Option.some.inj found).symm⟩
    · have kept : old.lookup name = some value := by
        by_cases place : position maxDup (repeatIndex entry.1) = p
        · simpa [place, AList.lookup_insert_ne fun same : name = repeatName entry.1 => here ⟨place, same.symm⟩] using found
        · simpa [place] using found
      obtain ⟨other, member, rest⟩ := before.source p old name value was kept
      exact ⟨other, List.mem_append_left _ member, rest⟩

theorem split_key_so_far (str : Value → Option Text) (maxDup : Nat) (done : List (Σ _ : Text, Value)) (entry : Σ _ : Text, Value)
    (fresh : entry.1 ∉ done.keys) (some_added : Indexed entry.1 → 1 ≤ maxDup) (bounded : Indexed entry.1 → repeatIndex entry.1 ≤ maxDup)
    (state : Keyvals × List Keyvals) (before : SplitSoFar str maxDup done state.1 state.2) :
    (∀ next, splitKey str state entry = some next → SplitSoFar str maxDup (done ++ [entry]) next.1 next.2) ∧
      ((Indexed entry.1 → ∃ text, str entry.2 = some text) → ∃ next, splitKey str state entry = some next) := by
  by_cases indexed : Indexed entry.1
  · obtain ⟨indexStr, found, index⟩ := dup_key_parts entry.1 indexed
    have place := py_index_position maxDup (repeatIndex entry.1) (some_added indexed) (bounded indexed)
    have step : splitKey str state entry = (str entry.2).map fun text =>
        (state.1, state.2.modify (position maxDup (repeatIndex entry.1)) fun slot => slot.insert (repeatName entry.1) (.str text)) := by
      simp only [splitKey, found, index, before.length, place, Option.map_some]
      cases str entry.2 <;> rfl
    rw [step]
    refine ⟨fun next ran => ?_, fun printable => ?_⟩
    · obtain ⟨text, prints, rfl⟩ := Option.map_eq_some_iff.mp ran
      exact split_added str maxDup done entry state.1 state.2 indexed (some_added indexed) (bounded indexed) text prints before
    · obtain ⟨text, prints⟩ := printable indexed
      exact ⟨_, by rw [prints]; rfl⟩
  · have step : splitKey str state entry = some (state.1.insert entry.1 entry.2, state.2) := by
      rw [splitKey, Option.not_isSome_iff_eq_none.mp indexed]
    rw [step]
    refine ⟨fun next ran => ?_, fun _ => ⟨_, rfl⟩⟩
    obtain rfl := Option.some.inj ran
    exact split_own str maxDup done entry fresh state.1 state.2 indexed before

-- The largest index bounds those of the run, and an index of its own leaves it above 0.
def Bounded (maxDup : Nat) (run : Keyvals) : Prop := ∀ key ∈ run, Indexed key → 1 ≤ maxDup ∧ repeatIndex key ≤ maxDup

theorem split_entries (str : Value → Option Text) (maxDup : Nat) (entries : List (Σ _ : Text, Value)) (distinct : entries.NodupKeys)
    (bounded : ∀ entry ∈ entries, Indexed entry.1 → 1 ≤ maxDup ∧ repeatIndex entry.1 ≤ maxDup) :
    (∀ out, entries.foldlM (splitKey str) (newKeyvals, .replicate maxDup newKeyvals) = some out →
      SplitSoFar str maxDup entries out.1 out.2) ∧
      ((∀ entry ∈ entries, Indexed entry.1 → ∃ text, str entry.2 = some text) →
        ∃ out, entries.foldlM (splitKey str) (newKeyvals, .replicate maxDup newKeyvals) = some out) := by
  induction entries using List.reverseRecOn with
  | nil =>
      refine ⟨fun out ran => ?_, fun _ => ⟨_, rfl⟩⟩
      obtain rfl := Option.some.inj ran
      exact split_start str maxDup
  | append_singleton before last ih =>
      have final : last ∈ before ++ [last] := List.mem_append_right _ List.mem_cons_self
      have keys : (before.keys ++ [last.1]).Nodup := by simpa [List.NodupKeys, List.keys] using distinct
      obtain ⟨earlier, _, apart⟩ := List.nodup_append.mp keys
      have fresh : last.1 ∉ before.keys := fun member => apart _ member _ (List.mem_singleton_self _) rfl
      obtain ⟨so_far, succeeds⟩ := ih earlier fun entry member => bounded entry (List.mem_append_left _ member)
      have step := split_key_so_far str maxDup before last fresh (fun indexed => (bounded last final indexed).1)
        fun indexed => (bounded last final indexed).2
      have run (state : Keyvals × List Keyvals) (ran : before.foldlM (splitKey str) (newKeyvals, .replicate maxDup newKeyvals) = some state) :
          (before ++ [last]).foldlM (splitKey str) (newKeyvals, .replicate maxDup newKeyvals) = splitKey str state last := by
        simp [List.foldlM_append, ran]
      refine ⟨fun out ran => ?_, fun printable => ?_⟩
      · cases reached : before.foldlM (splitKey str) (newKeyvals, .replicate maxDup newKeyvals) with
        | none =>
            rw [List.foldlM_append, reached] at ran
            cases ran
        | some state =>
            rw [run state reached] at ran
            exact (step state (so_far state reached)).1 out ran
      · obtain ⟨state, reached⟩ := succeeds fun entry member => printable entry (List.mem_append_left _ member)
        rw [run state reached]
        exact (step state (so_far state reached)).2 (printable last final)

theorem split_run_spec (str : Value → Option Text) (maxDup : Nat) (run : Keyvals) (bounded : Bounded maxDup run) (own : Keyvals)
    (added : List Keyvals) (split : splitRun str maxDup run = some (own, added)) : SplitSoFar str maxDup run.entries own added :=
  (split_entries str maxDup run.entries run.nodupKeys fun entry member =>
    bounded entry.1 (List.mem_keys_of_mem member)).1 (own, added) split

-- What the claims of the docstring come to for one run.
structure RunKept (run own : Keyvals) (added : List Keyvals) (place : Nat → Nat) : Prop where
  unindexed : ∀ key, own.lookup key = if Indexed key then none else run.lookup key
  apart : ∀ first ∈ run, ∀ second ∈ run, Indexed first → Indexed second →
    place (repeatIndex first) = place (repeatIndex second) → repeatIndex first = repeatIndex second
  found : ∀ key value, run.lookup key = some value → Indexed key →
    ∃ slot, added[place (repeatIndex key)]? = some slot ∧ slot.lookup (fullName key) = some value
  nothing_else : ∀ (p : Nat) slot, added[p]? = some slot → ∀ name ∈ slot,
    ∃ key ∈ run, Indexed key ∧ place (repeatIndex key) = p ∧ fullName key = name
  pairs : own.keys.length + (added.map fun slot => slot.keys.length).sum = run.keys.length

structure RunOk (str : Value → Option Text) (maxDup : Nat) (run : Keyvals) : Prop where
  ends_with_index : ∀ key ∈ run, Indexed key → repeatRest key = []
  texts : ∀ key value, run.lookup key = some value → Indexed key → ∃ text, value = .str text ∧ str value = some text
  once : ∀ first ∈ run, ∀ second ∈ run, Indexed first → Indexed second → repeatName first = repeatName second →
    repeatIndex first = repeatIndex second → first = second
  ends_apart : ∀ first ∈ run, ∀ second ∈ run, Indexed first → Indexed second → repeatIndex first = 0 → repeatIndex second ≠ maxDup

section Cells

-- The places of added runs that hold something, each by the position of the run and the name.
def cellsFrom : Nat → List Keyvals → List (Nat × Text)
  | _, [] => []
  | offset, slot :: rest => (slot.keys.map fun name => (offset, name)) ++ cellsFrom (offset + 1) rest

theorem mem_cells (offset : Nat) (added : List Keyvals) (p : Nat) (name : Text) :
    (p, name) ∈ cellsFrom offset added ↔ ∃ slot, offset ≤ p ∧ added[p - offset]? = some slot ∧ name ∈ slot := by
  induction added generalizing offset with
  | nil => simp [cellsFrom]
  | cons first rest ih =>
      rw [cellsFrom, List.mem_append, ih]
      constructor
      · rintro (held | ⟨slot, above, listed, member⟩)
        · obtain ⟨other, key, same⟩ := List.mem_map.mp held
          obtain ⟨rfl, rfl⟩ := Prod.mk.inj same
          exact ⟨first, le_rfl, by simp, key⟩
        · have next : p - offset = p - (offset + 1) + 1 := by omega
          exact ⟨slot, by omega, by rw [next]; exact listed, member⟩
      · rintro ⟨slot, above, listed, member⟩
        by_cases here : p = offset
        · subst here
          obtain rfl : first = slot := by simpa using listed
          exact .inl (List.mem_map_of_mem member)
        · have next : p - offset = p - (offset + 1) + 1 := by omega
          rw [next] at listed
          exact .inr ⟨slot, by omega, listed, member⟩

theorem cells_length (offset : Nat) (added : List Keyvals) :
    (cellsFrom offset added).length = (added.map fun slot => slot.keys.length).sum := by
  induction added generalizing offset with
  | nil => rfl
  | cons first rest ih => simp [cellsFrom, ih]

theorem cells_distinct (offset : Nat) (added : List Keyvals) : (cellsFrom offset added).Nodup := by
  induction added generalizing offset with
  | nil => exact List.nodup_nil
  | cons first rest ih =>
      refine List.nodup_append.mpr ⟨?_, ih (offset + 1), ?_⟩
      · exact first.keys_nodup.map fun one other same => (Prod.mk.inj same).2
      · rintro ⟨p, name⟩ held ⟨q, other⟩ later same
        obtain ⟨_, _, equal⟩ := List.mem_map.mp held
        obtain ⟨_, above, _⟩ := (mem_cells (offset + 1) rest q other).mp later
        have first_place := (Prod.mk.inj equal).1
        have second_place := (Prod.mk.inj same).1
        omega

end Cells

def indexedKeys (run : Keyvals) : List Text := run.keys.filter fun key => Indexed key

theorem mem_indexed_keys (run : Keyvals) (key : Text) : key ∈ indexedKeys run ↔ key ∈ run ∧ Indexed key := by
  rw [indexedKeys, List.mem_filter, AList.mem_keys, decide_eq_true_iff]

-- The keys without an index stay, whatever becomes of the others.
theorem own_keys_length (run own : Keyvals) (unindexed : ∀ key, own.lookup key = if Indexed key then none else run.lookup key) :
    own.keys.length + (indexedKeys run).length = run.keys.length := by
  have kept : own.keys.Perm (run.keys.filter fun key => ! decide (Indexed key)) := by
    refine (List.perm_ext_iff_of_nodup own.keys_nodup (run.keys_nodup.filter _)).mpr fun key => ?_
    rw [List.mem_filter, ← AList.mem_keys, ← AList.mem_keys, ← AList.lookup_isSome, ← AList.lookup_isSome, unindexed key]
    by_cases indexed : Indexed key <;> simp [indexed]
  rw [kept.length_eq, indexedKeys, Nat.add_comm]
  exact (List.length_eq_length_filter_add _).symm

section OneRun

variable (str : Value → Option Text) (maxDup : Nat) (run own : Keyvals) (added : List Keyvals)

def storedCell (key : Text) : Nat × Text := (position maxDup (repeatIndex key), repeatName key)

theorem entry_lookup (entry : Σ _ : Text, Value) (member : entry ∈ run.entries) : run.lookup entry.1 = some entry.2 :=
  AList.mem_lookup_iff.mpr member

theorem entry_of_lookup (key : Text) (value : Value) (found : run.lookup key = some value) : (⟨key, value⟩ : Σ _ : Text, Value) ∈ run.entries :=
  AList.mem_lookup_iff.mp found

theorem mem_of_lookup (key : Text) (value : Value) (found : run.lookup key = some value) : key ∈ run :=
  AList.lookup_isSome.mp (by rw [found]; rfl)

theorem stored_cells (split : SplitSoFar str maxDup run.entries own added) (cell : Nat × Text) :
    cell ∈ cellsFrom 0 added ↔ ∃ key ∈ indexedKeys run, storedCell maxDup key = cell := by
  obtain ⟨p, name⟩ := cell
  rw [mem_cells]
  constructor
  · rintro ⟨slot, _, listed, member⟩
    obtain ⟨value, found⟩ := Option.isSome_iff_exists.mp (AList.lookup_isSome.mpr member)
    obtain ⟨entry, held, indexed, rfl, rfl, _⟩ := split.source p slot name value listed found
    exact ⟨entry.1, (mem_indexed_keys run entry.1).mpr ⟨mem_of_lookup run _ _ (entry_lookup run entry held), indexed⟩, rfl⟩
  · rintro ⟨key, member, same⟩
    obtain ⟨rfl, rfl⟩ := Prod.mk.inj same
    obtain ⟨held, indexed⟩ := (mem_indexed_keys run key).mp member
    obtain ⟨value, found⟩ := Option.isSome_iff_exists.mp (AList.lookup_isSome.mpr held)
    obtain ⟨slot, listed, named⟩ := split.stored ⟨key, value⟩ (entry_of_lookup run key value found) indexed
    exact ⟨slot, Nat.zero_le _, listed, named⟩

theorem ok_index_apart (bounded : Bounded maxDup run) (ok : RunOk str maxDup run) (first second : Text) (member : first ∈ run)
    (listed : second ∈ run) (indexed : Indexed first) (others : Indexed second)
    (same : position maxDup (repeatIndex first) = position maxDup (repeatIndex second)) : repeatIndex first = repeatIndex second := by
  by_contra different
  rcases position_shared maxDup _ _ (bounded first member indexed).2 (bounded second listed others).2 same different with
    ⟨zero, last⟩ | ⟨last, zero⟩
  · exact ok.ends_apart first member second listed indexed others zero last
  · exact ok.ends_apart second listed first member others indexed zero last

theorem ok_stored_once (bounded : Bounded maxDup run) (ok : RunOk str maxDup run) (first second : Text)
    (member : first ∈ indexedKeys run) (listed : second ∈ indexedKeys run)
    (same : storedCell maxDup first = storedCell maxDup second) : first = second := by
  obtain ⟨held, indexed⟩ := (mem_indexed_keys run first).mp member
  obtain ⟨kept, others⟩ := (mem_indexed_keys run second).mp listed
  obtain ⟨place, name⟩ := Prod.mk.inj same
  exact ok.once first held second kept indexed others name
    (ok_index_apart str maxDup run bounded ok first second held kept indexed others place)

theorem ok_run_kept (bounded : Bounded maxDup run) (split : SplitSoFar str maxDup run.entries own added)
    (ok : RunOk str maxDup run) : RunKept run own added (position maxDup) := by
  have full (key : Text) (held : key ∈ run) (indexed : Indexed key) : fullName key = repeatName key := by
    rw [fullName, ok.ends_with_index key held indexed, List.append_nil]
  refine ⟨split.own, fun first held second kept indexed others =>
    ok_index_apart str maxDup run bounded ok first second held kept indexed others, fun key value found indexed => ?_,
    fun p slot listed name member => ?_, ?_⟩
  · have held := mem_of_lookup run key value found
    obtain ⟨slot, listed, named⟩ := split.stored ⟨key, value⟩ (entry_of_lookup run key value found) indexed
    obtain ⟨other, stored⟩ := Option.isSome_iff_exists.mp (AList.lookup_isSome.mpr named)
    obtain ⟨entry, member, isIndexed, place, name, text, prints, rfl⟩ := split.source _ slot _ other listed stored
    have entryHeld := mem_of_lookup run _ _ (entry_lookup run entry member)
    obtain rfl : entry.1 = key := ok_stored_once str maxDup run bounded ok entry.1 key
      ((mem_indexed_keys run _).mpr ⟨entryHeld, isIndexed⟩) ((mem_indexed_keys run _).mpr ⟨held, indexed⟩)
      (Prod.ext place name)
    obtain rfl : value = entry.2 := Option.some.inj (found.symm.trans (entry_lookup run entry member))
    obtain ⟨printed, asText, same⟩ := ok.texts entry.1 entry.2 found indexed
    obtain rfl : text = printed := Option.some.inj (prints.symm.trans same)
    refine ⟨slot, listed, ?_⟩
    rw [full entry.1 held indexed, stored, asText]
  · obtain ⟨value, found⟩ := Option.isSome_iff_exists.mp (AList.lookup_isSome.mpr member)
    obtain ⟨entry, held, indexed, rfl, rfl, _⟩ := split.source p slot name value listed found
    have entryHeld := mem_of_lookup run _ _ (entry_lookup run entry held)
    exact ⟨entry.1, entryHeld, indexed, rfl, full entry.1 entryHeld indexed⟩
  · have distinct : ((indexedKeys run).map (storedCell maxDup)).Nodup := (run.keys_nodup.filter _).map_on
      fun first member second listed => ok_stored_once str maxDup run bounded ok first second member listed
    have filled : (cellsFrom 0 added).Perm ((indexedKeys run).map (storedCell maxDup)) :=
      (List.perm_ext_iff_of_nodup (cells_distinct 0 added) distinct).mpr fun cell =>
        (stored_cells str maxDup run own added split cell).trans List.mem_map.symm
    rw [← cells_length 0 added, filled.length_eq, List.length_map]
    exact own_keys_length run own split.own

theorem kept_run_ok (plain : ∀ text printed, str (.str text) = some printed → printed = text) (bounded : Bounded maxDup run)
    (split : SplitSoFar str maxDup run.entries own added) (place : Nat → Nat) (kept : RunKept run own added place) :
    RunOk str maxDup run := by
  have distinct := cells_distinct 0 added
  have few : (indexedKeys run).length ≤ (cellsFrom 0 added).length := by
    have total := own_keys_length run own kept.unindexed
    have pairs := kept.pairs
    rw [cells_length]
    omega
  have stored := Relabelling.covering_perm _ distinct (indexedKeys run) (storedCell maxDup) few fun cell member =>
    (stored_cells str maxDup run own added split cell).mp member
  have claimed := Relabelling.covering_perm _ distinct (indexedKeys run) (fun key => (place (repeatIndex key), fullName key)) few
    fun cell member => by
      obtain ⟨p, name⟩ := cell
      obtain ⟨slot, _, listed, named⟩ := (mem_cells 0 added p name).mp member
      obtain ⟨key, held, indexed, rfl, rfl⟩ := kept.nothing_else p slot listed name named
      exact ⟨key, (mem_indexed_keys run key).mpr ⟨held, indexed⟩, rfl⟩
  have both := stored.symm.trans claimed
  have weights : ((indexedKeys run).map fun key => (repeatName key).length).sum =
      ((indexedKeys run).map fun key => (fullName key).length).sum := by
    have lengths := (both.map fun cell => cell.2.length).sum_eq
    rwa [List.map_map, List.map_map] at lengths
  have names := Relabelling.same_weights (indexedKeys run) _ _ (fun key _ => by simp [fullName]) weights
  refine ⟨fun key held indexed => ?_, fun key value found indexed => ?_, fun first held second listed indexed others name index => ?_,
    fun first held second listed indexed others zero last => ?_⟩
  · have length := names key ((mem_indexed_keys run key).mpr ⟨held, indexed⟩)
    rw [fullName, List.length_append] at length
    exact List.length_eq_zero_iff.mp (by omega)
  · obtain ⟨slot, listed, stored⟩ := kept.found key value found indexed
    obtain ⟨_, _, _, _, _, text, _, rfl⟩ := split.source _ slot _ value listed stored
    obtain ⟨printed, prints⟩ := split.printed ⟨key, .str text⟩ (entry_of_lookup run key _ found) indexed
    exact ⟨text, rfl, by rw [prints, plain text printed prints]⟩
  · exact Relabelling.injective_of_perm _ distinct _ _ stored first second ((mem_indexed_keys run _).mpr ⟨held, indexed⟩)
      ((mem_indexed_keys run _).mpr ⟨listed, others⟩) (by rw [storedCell, storedCell, name, index])
  · have places := both.map Prod.fst
    rw [List.map_map, List.map_map] at places
    have some_added := (bounded first held indexed).1
    have shared : position maxDup (repeatIndex first) = position maxDup (repeatIndex second) := by
      rw [zero, last, position, position, if_pos rfl, if_neg (by omega)]
    have equal := Relabelling.places_separate (indexedKeys run) repeatIndex (position maxDup) place places
      (fun one member other inside => by
        obtain ⟨memberHeld, memberIndexed⟩ := (mem_indexed_keys run one).mp member
        obtain ⟨otherHeld, otherIndexed⟩ := (mem_indexed_keys run other).mp inside
        exact kept.apart one memberHeld other otherHeld memberIndexed otherIndexed)
      first second ((mem_indexed_keys run _).mpr ⟨held, indexed⟩) ((mem_indexed_keys run _).mpr ⟨listed, others⟩) shared
    omega

end OneRun

end ToolchainUtils.Crosperf.ResultsOrganizer
