import Mathlib.Data.List.Induction
import Mathlib.Data.List.Nodup
import Mathlib.Data.List.Perm.Basic
import Mathlib.Order.Lattice

set_option autoImplicit false

namespace ToolchainUtils

-- A dictionary as the list of its items in the order of the keys, so that two
-- dictionaries with the same items are equal.
structure SortedDict (κ ν : Type) [LinearOrder κ] where
  entries : List (κ × ν)
  sorted : entries.Pairwise fun left right => left.1 < right.1
  deriving DecidableEq

namespace SortedDict

variable {κ ν : Type} [LinearOrder κ]

def lookup (key : κ) : List (κ × ν) → Option ν
  | [] => none
  | entry :: rest => if entry.1 = key then some entry.2 else lookup key rest

def insertEntry (key : κ) (value : ν) : List (κ × ν) → List (κ × ν)
  | [] => [(key, value)]
  | entry :: rest =>
      if key < entry.1 then (key, value) :: entry :: rest
      else if key = entry.1 then (key, value) :: rest
      else entry :: insertEntry key value rest

theorem mem_insert_entry (key : κ) (value : ν) (entries : List (κ × ν))
    (sorted : entries.Pairwise fun left right => left.1 < right.1) (entry : κ × ν) :
    entry ∈ insertEntry key value entries ↔ entry = (key, value) ∨ (entry ∈ entries ∧ entry.1 ≠ key) := by
  induction entries with
  | nil => simp [insertEntry]
  | cons first rest ih =>
      obtain ⟨above, sortedRest⟩ := List.pairwise_cons.mp sorted
      rw [insertEntry]
      by_cases less : key < first.1
      · have outside : ∀ other ∈ first :: rest, other.1 ≠ key := by
          intro other member same
          cases List.mem_cons.mp member with
          | inl here => exact absurd (here ▸ same) less.ne'
          | inr there => exact absurd same (less.trans (above other there)).ne'
        rw [if_pos less, List.mem_cons]
        constructor
        · exact fun member => member.imp_right fun present => ⟨present, outside entry present⟩
        · exact fun member => member.imp_right And.left
      · by_cases same : key = first.1
        · have outside : ∀ other ∈ rest, other.1 ≠ key := fun other member => same ▸ (above other member).ne'
          rw [if_neg less, if_pos same, List.mem_cons, List.mem_cons]
          constructor
          · exact fun member => member.imp_right fun present => ⟨.inr present, outside entry present⟩
          · rintro (here | ⟨here | there, different⟩)
            · exact .inl here
            · exact absurd (here ▸ same.symm) different
            · exact .inr there
        · rw [if_neg less, if_neg same, List.mem_cons, ih sortedRest, List.mem_cons]
          constructor
          · rintro (here | here | ⟨there, different⟩)
            · exact .inr ⟨.inl here, here ▸ fun again => same again.symm⟩
            · exact .inl here
            · exact .inr ⟨.inr there, different⟩
          · rintro (here | ⟨here | there, different⟩)
            · exact .inr (.inl here)
            · exact .inl here
            · exact .inr (.inr ⟨there, different⟩)

theorem insert_entry_sorted (key : κ) (value : ν) (entries : List (κ × ν))
    (sorted : entries.Pairwise fun left right => left.1 < right.1) :
    (insertEntry key value entries).Pairwise fun left right => left.1 < right.1 := by
  induction entries with
  | nil => exact List.pairwise_singleton _ _
  | cons first rest ih =>
      obtain ⟨above, sortedRest⟩ := List.pairwise_cons.mp sorted
      rw [insertEntry]
      by_cases less : key < first.1
      · rw [if_pos less]
        apply List.pairwise_cons.mpr ⟨?_, sorted⟩
        intro other member
        cases List.mem_cons.mp member with
        | inl here => exact here ▸ less
        | inr there => exact less.trans (above other there)
      · by_cases same : key = first.1
        · rw [if_neg less, if_pos same]
          apply List.pairwise_cons.mpr ⟨?_, sortedRest⟩
          intro other member
          exact same ▸ above other member
        · rw [if_neg less, if_neg same]
          apply List.pairwise_cons.mpr ⟨?_, ih sortedRest⟩
          intro other member
          cases (mem_insert_entry key value rest sortedRest other).mp member with
          | inl here => exact here ▸ lt_of_le_of_ne (not_lt.mp less) (Ne.symm same)
          | inr there => exact above other there.1

def empty : SortedDict κ ν := ⟨[], List.Pairwise.nil⟩

def get? (dict : SortedDict κ ν) (key : κ) : Option ν := lookup key dict.entries

def keys (dict : SortedDict κ ν) : List κ := dict.entries.map (·.1)

def insert (dict : SortedDict κ ν) (key : κ) (value : ν) : SortedDict κ ν :=
  ⟨insertEntry key value dict.entries, insert_entry_sorted key value dict.entries dict.sorted⟩

def erase (dict : SortedDict κ ν) (key : κ) : SortedDict κ ν :=
  ⟨dict.entries.filter fun entry => entry.1 ≠ key, dict.sorted.filter _⟩

-- dict(items): of two items with one key the later one stays.
def ofItems (items : List (κ × ν)) : SortedDict κ ν :=
  items.foldl (fun dict item => dict.insert item.1 item.2) empty

theorem mem_entries (dict : SortedDict κ ν) (key : κ) (value : ν) :
    (key, value) ∈ dict.entries ↔ dict.get? key = some value := by
  obtain ⟨entries, sorted⟩ := dict
  rw [get?]
  induction entries with
  | nil => simp [lookup]
  | cons first rest ih =>
      obtain ⟨above, sortedRest⟩ := List.pairwise_cons.mp sorted
      rw [lookup, List.mem_cons, ih sortedRest]
      by_cases same : first.1 = key
      · have absent : lookup key rest ≠ some value := by
          intro found
          exact absurd same (above (key, value) ((ih sortedRest).mpr found)).ne
        rw [if_pos same]
        constructor
        · rintro (here | there)
          · rw [← here]
          · exact absurd there absent
        · intro found
          left
          rw [← same, ← Option.some.inj found]
      · rw [if_neg same]
        constructor
        · rintro (here | there)
          · exact absurd (congrArg Prod.fst here.symm) same
          · exact there
        · exact Or.inr

theorem get_ext (first second : SortedDict κ ν) (same : ∀ key, first.get? key = second.get? key) : first = second := by
  have members : ∀ entry, entry ∈ first.entries ↔ entry ∈ second.entries := by
    intro entry
    rw [mem_entries first entry.1 entry.2, mem_entries second entry.1 entry.2, same entry.1]
  have distinct : ∀ dict : SortedDict κ ν, dict.entries.Nodup := fun dict =>
    dict.sorted.imp fun less same => absurd (congrArg Prod.fst same) less.ne
  have perm := (List.perm_ext_iff_of_nodup (distinct first) (distinct second)).mpr members
  have equal := perm.eq_of_pairwise (fun left right _ _ less greater => absurd less greater.not_gt) first.sorted second.sorted
  cases first
  cases second
  congr

theorem get_insert (dict : SortedDict κ ν) (key : κ) (value : ν) (other : κ) :
    (dict.insert key value).get? other = if other = key then some value else dict.get? other := by
  apply Option.ext
  intro found
  rw [← mem_entries, insert, mem_insert_entry key value dict.entries dict.sorted, mem_entries]
  by_cases same : other = key
  · simp [same, eq_comm]
  · simp [same]

theorem get_erase (dict : SortedDict κ ν) (key other : κ) :
    (dict.erase key).get? other = if other = key then none else dict.get? other := by
  apply Option.ext
  intro found
  rw [← mem_entries, erase, List.mem_filter, mem_entries]
  by_cases same : other = key
  · simp [same]
  · simp [same]

theorem mem_keys (dict : SortedDict κ ν) (key : κ) : key ∈ dict.keys ↔ ∃ value, dict.get? key = some value := by
  rw [keys, List.mem_map]
  constructor
  · rintro ⟨entry, member, rfl⟩
    exact ⟨entry.2, (mem_entries dict entry.1 entry.2).mp member⟩
  · rintro ⟨value, found⟩
    exact ⟨(key, value), (mem_entries dict key value).mpr found, rfl⟩

-- The values that the items give a key, in their order.
def given (key : κ) (items : List (κ × ν)) : List ν := items.filterMap fun item => if item.1 = key then some item.2 else none

theorem given_append (key : κ) (first second : List (κ × ν)) : given key (first ++ second) = given key first ++ given key second :=
  List.filterMap_append

theorem given_single (key : κ) (item : κ × ν) : given key [item] = if item.1 = key then [item.2] else [] := by
  rw [given, List.filterMap_cons]
  by_cases same : item.1 = key
  · rw [if_pos same, if_pos same]
    rfl
  · rw [if_neg same, if_neg same]
    rfl

theorem of_items_last (items : List (κ × ν)) (key : κ) : (ofItems items).get? key = (given key items).getLast? := by
  induction items using List.reverseRecOn with
  | nil => rfl
  | append_singleton items item ih =>
      have added : ofItems (items ++ [item]) = (ofItems items).insert item.1 item.2 := List.foldl_concat _ _ _ _
      rw [added, get_insert, ih, given_append, given_single]
      by_cases same : item.1 = key
      · rw [if_pos same.symm, if_pos same, List.getLast?_concat]
      · rw [if_neg (Ne.symm same), if_neg same, List.append_nil]

theorem mem_given (items : List (κ × ν)) (key : κ) (value : ν) : value ∈ given key items ↔ (key, value) ∈ items := by
  rw [given, List.mem_filterMap]
  constructor
  · intro found
    obtain ⟨item, member, here⟩ := found
    split at here
    · rename_i same
      rw [← same, ← Option.some.inj here]
      exact member
    · exact absurd here nofun
  · exact fun member => ⟨(key, value), member, if_pos rfl⟩

theorem of_items_get (items : List (κ × ν)) (key : κ) (value : ν) (found : (ofItems items).get? key = some value) :
    (key, value) ∈ items := by
  rw [of_items_last] at found
  exact (mem_given items key value).mp (List.mem_of_getLast? found)

theorem of_items_agree (items : List (κ × ν))
    (agree : ∀ first ∈ items, ∀ second ∈ items, first.1 = second.1 → first.2 = second.2) (key : κ) (value : ν) :
    (ofItems items).get? key = some value ↔ (key, value) ∈ items := by
  refine ⟨of_items_get items key value, fun member => ?_⟩
  rw [of_items_last]
  have given := (mem_given items key value).mpr member
  obtain ⟨last, found⟩ := Option.isSome_iff_exists.mp (List.getLast?_isSome.mpr (List.ne_nil_of_mem given))
  have there := (mem_given items key last).mp (List.mem_of_getLast? found)
  exact found.trans (congrArg some (agree (key, last) there (key, value) member rfl))

theorem of_items_mem (items : List (κ × ν)) (distinct : (items.map (·.1)).Nodup) (key : κ) (value : ν) :
    (ofItems items).get? key = some value ↔ (key, value) ∈ items :=
  of_items_agree items (fun _ first _ second same => congrArg Prod.snd (List.inj_on_of_nodup_map distinct first second same)) key value

theorem of_items_perm (items others : List (κ × ν)) (distinct : (items.map (·.1)).Nodup) (perm : items.Perm others) :
    ofItems items = ofItems others := by
  apply get_ext
  intro key
  apply Option.ext
  intro value
  rw [of_items_mem items distinct, of_items_mem others ((perm.map _).nodup_iff.mp distinct), perm.mem_iff]

theorem erase_perm (dict : SortedDict κ ν) (key : κ) (value : ν) (found : dict.get? key = some value) :
    dict.entries.Perm ((key, value) :: (dict.erase key).entries) := by
  have distinct : ∀ dict : SortedDict κ ν, dict.entries.Nodup := fun dict =>
    dict.sorted.imp fun less same => absurd (congrArg Prod.fst same) less.ne
  have outside : (key, value) ∉ (dict.erase key).entries := by simp [erase]
  apply (List.perm_ext_iff_of_nodup (distinct dict) (List.nodup_cons.mpr ⟨outside, distinct _⟩)).mpr
  intro entry
  rw [List.mem_cons, erase, List.mem_filter]
  by_cases same : entry.1 = key
  · constructor
    · intro member
      have here := (mem_entries dict entry.1 entry.2).mp member
      rw [same, found] at here
      left
      rw [← same, Option.some.inj here]
    · rintro (here | ⟨-, different⟩)
      · exact here ▸ (mem_entries dict key value).mpr found
      · exact absurd same (of_decide_eq_true different)
  · constructor
    · exact fun member => .inr ⟨member, decide_eq_true same⟩
    · rintro (here | ⟨there, -⟩)
      · exact absurd (congrArg Prod.fst here) same
      · exact there

theorem insert_erase (dict : SortedDict κ ν) (key : κ) (value : ν) : (dict.insert key value).erase key = dict.erase key := by
  apply get_ext
  intro other
  rw [get_erase, get_erase, get_insert]
  by_cases same : other = key
  · simp [same]
  · simp [same]

theorem insert_perm (dict : SortedDict κ ν) (key : κ) (value : ν) :
    (dict.insert key value).entries.Perm ((key, value) :: (dict.erase key).entries) := by
  have found : (dict.insert key value).get? key = some value := by
    rw [get_insert, if_pos rfl]
  rw [← insert_erase dict key value]
  exact erase_perm (dict.insert key value) key value found

def mapValues {ω : Type} (change : ν → ω) (dict : SortedDict κ ν) : SortedDict κ ω :=
  ⟨dict.entries.map fun entry => (entry.1, change entry.2), List.pairwise_map.mpr dict.sorted⟩

theorem get_map_values {ω : Type} (change : ν → ω) (dict : SortedDict κ ν) (key : κ) :
    (dict.mapValues change).get? key = (dict.get? key).map change := by
  apply Option.ext
  intro value
  rw [← mem_entries, Option.map_eq_some_iff, mapValues, List.mem_map]
  constructor
  · rintro ⟨entry, member, same⟩
    obtain ⟨rfl, rfl⟩ := Prod.mk.inj same
    exact ⟨entry.2, (mem_entries dict entry.1 entry.2).mp member, rfl⟩
  · rintro ⟨old, found, rfl⟩
    exact ⟨(key, old), (mem_entries dict key old).mpr found, rfl⟩

end SortedDict

end ToolchainUtils
