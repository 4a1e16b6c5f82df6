import ToolchainUtils.SortedDict

set_option autoImplicit false

-- A loop that adds each item to the entry of the item's key.
namespace ToolchainUtils.GroupedFold

open SortedDict

variable {κ ν μ : Type} [LinearOrder κ] (add : Option ν → μ → ν)

def addTo (dict : SortedDict κ ν) (item : κ × μ) : SortedDict κ ν := dict.insert item.1 (add (dict.get? item.1) item.2)

theorem get_fold (dict : SortedDict κ ν) (items : List (κ × μ)) (key : κ) :
    (items.foldl (addTo add) dict).get? key =
      (given key items).foldl (fun value added => some (add value added)) (dict.get? key) := by
  induction items generalizing dict with
  | nil => rfl
  | cons item rest ih =>
      have parted : given key (item :: rest) = given key [item] ++ given key rest := given_append key [item] rest
      rw [List.foldl_cons, ih, addTo, get_insert, parted, given_single]
      by_cases same : item.1 = key
      · rw [if_pos same.symm, if_pos same, same]
        rfl
      · rw [if_neg (Ne.symm same), if_neg same]
        rfl

-- What relates a key's entry to the items of the key, when each addition keeps it so.
theorem entry_related (related : List μ → ν → Prop) (first : ∀ added, related [added] (add none added))
    (more : ∀ value all added, related all value → related (all ++ [added]) (add (some value) added)) (all : List μ)
    (filled : all ≠ []) : ∃ value, all.foldl (fun value added => some (add value added)) none = some value ∧ related all value := by
  induction all using List.reverseRecOn with
  | nil => exact absurd rfl filled
  | append_singleton all added ih =>
      rw [List.foldl_concat]
      by_cases empty : all = []
      · rw [empty]
        exact ⟨add none added, rfl, first added⟩
      · obtain ⟨value, found, holds⟩ := ih empty
        rw [found]
        exact ⟨add (some value) added, rfl, more value all added holds⟩

theorem entry_total {β : Type} (summary : ν → β) (total : List μ → β)
    (first : ∀ added, summary (add none added) = total [added])
    (more : ∀ value all added, summary value = total all → summary (add (some value) added) = total (all ++ [added]))
    (all : List μ) :
    (all.foldl (fun value added => some (add value added)) none).map summary = if all = [] then none else some (total all) := by
  by_cases empty : all = []
  · rw [if_pos empty, empty]
    rfl
  · obtain ⟨value, found, seen⟩ := entry_related add (fun all value => summary value = total all) first more all empty
    rw [if_neg empty, found, Option.map_some, seen]

section Nested

variable {κ' : Type} [LinearOrder κ']

-- The entries are dictionaries that the items' second keys divide further.
def addWithin (inner : Option (SortedDict κ' ν)) (item : κ' × μ) : SortedDict κ' ν := addTo add (inner.getD empty) item

def gathered (items : List (κ × κ' × μ)) : SortedDict κ (SortedDict κ' ν) := items.foldl (addTo (addWithin add)) empty

theorem gathered_entry (items : List (κ × κ' × μ)) (key : κ) :
    (gathered add items).get? key =
      if given key items = [] then none else some ((given key items).foldl (addTo add) empty) := by
  have entry := entry_total (addWithin add) id (fun all : List (κ' × μ) => all.foldl (addTo add) empty) (fun added => rfl)
    (fun value all added same => by
      rw [List.foldl_concat, ← same]
      rfl) (given key items)
  rw [Option.map_id_apply] at entry
  rw [gathered, get_fold]
  exact entry

theorem gathered_find (items : List (κ × κ' × μ)) (key : κ) (second : κ') :
    ((gathered add items).get? key).bind (fun inner => inner.get? second) =
      (given second (given key items)).foldl (fun value added => some (add value added)) none := by
  rw [gathered_entry]
  by_cases empty : given key items = []
  · rw [if_pos empty, empty]
    rfl
  · rw [if_neg empty]
    exact get_fold add SortedDict.empty (given key items) second

end Nested

end ToolchainUtils.GroupedFold
