import Mathlib.Algebra.BigOperators.Group.Finset.Sigma
import ToolchainUtils.SortedDict

set_option autoImplicit false

-- Sums along a dictionary, and along a dictionary of dictionaries, as sums over the keys.
namespace ToolchainUtils.NestedTotals

variable {κ κ' ν M : Type} [LinearOrder κ] [LinearOrder κ'] [AddCommMonoid M]

theorem keys_nodup (dict : SortedDict κ ν) : dict.keys.Nodup :=
  List.pairwise_map.mpr (dict.sorted.imp fun less => less.ne)

def keySet (dict : SortedDict κ ν) : Finset κ := ⟨dict.keys, keys_nodup dict⟩

theorem mem_key_set (dict : SortedDict κ ν) (key : κ) : key ∈ keySet dict ↔ ∃ value, dict.get? key = some value :=
  SortedDict.mem_keys dict key

theorem entries_sum (dict : SortedDict κ ν) (value : κ → ν → M) :
    (dict.entries.map fun entry => value entry.1 entry.2).sum = ∑ key ∈ keySet dict, (dict.get? key).elim 0 (value key) := by
  change _ = (dict.keys.map fun key => (dict.get? key).elim 0 (value key)).sum
  rw [SortedDict.keys, List.map_map]
  refine congrArg List.sum (List.map_congr_left fun entry member => ?_)
  rw [Function.comp_apply, (SortedDict.mem_entries dict entry.1 entry.2).mp member]
  rfl

-- A running total.
theorem added_total {ι : Type} (items : List ι) (amount : ι → M) (start : M) :
    items.foldl (fun total item => total + amount item) start = start + (items.map amount).sum := by
  induction items generalizing start with
  | nil => exact (add_zero start).symm
  | cons item rest ih => rw [List.foldl_cons, ih, List.map_cons, List.sum_cons, add_assoc]

variable (dict : SortedDict κ (SortedDict κ' ν)) (pairs : Finset (κ × κ'))

def nestedGet (first : κ) (second : κ') : Option ν := (dict.get? first).bind fun inner => inner.get? second

-- Dictionaries without empty inner ones are equal where their inner entries are.
theorem nested_ext (other : SortedDict κ (SortedDict κ' ν))
    (filled : ∀ first inner, dict.get? first = some inner → ∃ second value, nestedGet dict first second = some value)
    (otherFilled : ∀ first inner, other.get? first = some inner → ∃ second value, nestedGet other first second = some value)
    (same : ∀ first second, nestedGet dict first second = nestedGet other first second) : dict = other := by
  apply SortedDict.get_ext
  intro first
  cases here : dict.get? first with
  | none =>
      cases there : other.get? first with
      | none => rfl
      | some inner =>
          obtain ⟨second, value, found⟩ := otherFilled first inner there
          rw [← same, nestedGet, here] at found
          exact absurd found.symm (Option.some_ne_none value)
  | some inner =>
      obtain ⟨second, value, found⟩ := filled first inner here
      rw [same] at found
      obtain ⟨others, there, -⟩ := Option.bind_eq_some_iff.mp found
      refine there.symm ▸ congrArg some (SortedDict.get_ext inner others fun key => ?_)
      have agree := same first key
      rwa [nestedGet, nestedGet, here, there] at agree

variable (all : ∀ first second, (first, second) ∈ pairs ↔ ∃ value, nestedGet dict first second = some value)

include all

theorem inner_sum (default : ν) (first : κ) [DecidablePred fun pair : κ × κ' => pair.1 = first] (inner : SortedDict κ' ν)
    (found : dict.get? first = some inner) (value : ν → M) :
    (inner.entries.map fun entry => value entry.2).sum =
      ∑ pair ∈ pairs.filter fun pair => pair.1 = first, value ((nestedGet dict pair.1 pair.2).getD default) := by
  have paired : Function.Injective fun second : κ' => (first, second) := fun _ _ same => (Prod.mk.inj same).2
  have seconds : (pairs.filter fun pair => pair.1 = first) = (keySet inner).map ⟨fun second => (first, second), paired⟩ := by
    ext pair
    rw [Finset.mem_filter, Finset.mem_map]
    constructor
    · rintro ⟨member, rfl⟩
      obtain ⟨value, there⟩ := (all pair.1 pair.2).mp member
      rw [nestedGet, found] at there
      exact ⟨pair.2, (mem_key_set inner pair.2).mpr ⟨value, there⟩, rfl⟩
    · rintro ⟨second, member, rfl⟩
      obtain ⟨value, there⟩ := (mem_key_set inner second).mp member
      exact ⟨(all first second).mpr ⟨value, by rw [nestedGet, found]; exact there⟩, rfl⟩
  rw [seconds, Finset.sum_map, entries_sum inner fun _ => value]
  refine Finset.sum_congr rfl fun second member => ?_
  obtain ⟨held, there⟩ := (mem_key_set inner second).mp member
  rw [Function.Embedding.coeFn_mk, nestedGet, found, Option.bind_some, there]
  rfl

theorem nested_sum (default : ν) (value : ν → M) :
    (dict.entries.map fun entry => (entry.2.entries.map fun inner => value inner.2).sum).sum =
      ∑ pair ∈ pairs, value ((nestedGet dict pair.1 pair.2).getD default) := by
  have within : ∀ pair ∈ pairs, pair.1 ∈ keySet dict := by
    intro pair member
    obtain ⟨value, there⟩ := (all pair.1 pair.2).mp member
    obtain ⟨inner, found, -⟩ := Option.bind_eq_some_iff.mp there
    exact (mem_key_set dict pair.1).mpr ⟨inner, found⟩
  rw [entries_sum dict fun _ inner => (inner.entries.map fun entry => value entry.2).sum, ← Finset.sum_fiberwise_of_maps_to within]
  refine Finset.sum_congr rfl fun first member => ?_
  obtain ⟨inner, found⟩ := (mem_key_set dict first).mp member
  rw [found]
  exact inner_sum dict pairs all default first inner found value

end ToolchainUtils.NestedTotals
