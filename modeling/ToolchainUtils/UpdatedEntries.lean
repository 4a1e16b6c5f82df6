import Mathlib.Data.List.AList

set_option autoImplicit false

-- A loop over the entries of a dictionary that gives each key a new value, or raises.
namespace ToolchainUtils.UpdatedEntries

variable {Key Val : Type} [DecidableEq Key] (update : Key → Val → Option Val)

def updateFrom (entries : List (Σ _ : Key, Val)) (dict : AList fun _ : Key => Val) : Option (AList fun _ : Key => Val) :=
  entries.foldlM (fun changed entry => (update entry.1 entry.2).map fun value => changed.insert entry.1 value) dict

def updateEach (dict : AList fun _ : Key => Val) : Option (AList fun _ : Key => Val) := updateFrom update dict.entries dict

theorem update_from_cons (entry : Σ _ : Key, Val) (rest : List (Σ _ : Key, Val)) (dict final : AList fun _ : Key => Val) :
    updateFrom update (entry :: rest) dict = some final ↔
      ∃ value, update entry.1 entry.2 = some value ∧ updateFrom update rest (dict.insert entry.1 value) = some final := by
  rw [updateFrom, List.foldlM_cons]
  constructor
  · intro ran
    obtain ⟨next, stepped, ran⟩ := Option.bind_eq_some_iff.mp ran
    obtain ⟨value, updated, rfl⟩ := Option.map_eq_some_iff.mp stepped
    exact ⟨value, updated, ran⟩
  · rintro ⟨value, updated, ran⟩
    rw [updated]
    exact ran

theorem update_from_other (entries : List (Σ _ : Key, Val)) (dict final : AList fun _ : Key => Val)
    (ran : updateFrom update entries dict = some final) (key : Key) (other : key ∉ entries.keys) :
    final.lookup key = dict.lookup key := by
  induction entries generalizing dict with
  | nil =>
      obtain rfl := Option.some.inj ran
      rfl
  | cons entry rest ih =>
      obtain ⟨value, _, ran⟩ := (update_from_cons update entry rest dict final).mp ran
      obtain ⟨apart, later⟩ := List.ne_and_not_mem_of_not_mem_cons other
      rw [ih _ ran later, AList.lookup_insert_ne apart]

theorem update_from_entry (entries : List (Σ _ : Key, Val)) (once : entries.NodupKeys) (dict final : AList fun _ : Key => Val)
    (ran : updateFrom update entries dict = some final) (entry : Σ _ : Key, Val) (member : entry ∈ entries) :
    ∃ value, update entry.1 entry.2 = some value ∧ final.lookup entry.1 = some value := by
  induction entries generalizing dict with
  | nil => exact absurd member List.not_mem_nil
  | cons first rest ih =>
      obtain ⟨fresh, once⟩ := List.nodupKeys_cons.mp once
      obtain ⟨value, updated, ran⟩ := (update_from_cons update first rest dict final).mp ran
      rcases List.mem_cons.mp member with rfl | later
      · refine ⟨value, updated, ?_⟩
        rw [update_from_other update rest _ final ran _ fresh, AList.lookup_insert]
      · exact ih once _ ran later

theorem update_each_lookup (dict final : AList fun _ : Key => Val) (ran : updateEach update dict = some final) (key : Key) :
    final.lookup key = (dict.lookup key).bind (update key) := by
  cases found : dict.lookup key with
  | none =>
      have absent : key ∉ dict.entries.keys := AList.lookup_eq_none.mp found
      rw [update_from_other update dict.entries dict final ran key absent, found]
      rfl
  | some old =>
      obtain ⟨value, updated, now⟩ := update_from_entry update dict.entries dict.nodupKeys dict final ran ⟨key, old⟩
        (AList.mem_lookup_iff.mp found)
      rw [now]
      exact updated.symm

theorem update_each_raises_nowhere (dict final : AList fun _ : Key => Val) (ran : updateEach update dict = some final) (key : Key)
    (old : Val) (found : dict.lookup key = some old) : ∃ value, update key old = some value ∧ final.lookup key = some value :=
  update_from_entry update dict.entries dict.nodupKeys dict final ran ⟨key, old⟩ (AList.mem_lookup_iff.mp found)

theorem update_each_keys (dict final : AList fun _ : Key => Val) (ran : updateEach update dict = some final) (key : Key) :
    key ∈ final ↔ key ∈ dict := by
  rw [← AList.lookup_isSome, ← AList.lookup_isSome]
  cases found : dict.lookup key with
  | none =>
      rw [update_each_lookup update dict final ran key, found]
      rfl
  | some old =>
      obtain ⟨value, _, now⟩ := update_each_raises_nowhere update dict final ran key old found
      rw [now]
      rfl

theorem update_from_runs (entries : List (Σ _ : Key, Val)) (each : ∀ entry ∈ entries, ∃ value, update entry.1 entry.2 = some value)
    (dict : AList fun _ : Key => Val) : ∃ final, updateFrom update entries dict = some final := by
  induction entries generalizing dict with
  | nil => exact ⟨dict, rfl⟩
  | cons entry rest ih =>
      obtain ⟨⟨value, updated⟩, later⟩ := List.forall_mem_cons.mp each
      obtain ⟨final, ran⟩ := ih later (dict.insert entry.1 value)
      exact ⟨final, (update_from_cons update entry rest dict final).mpr ⟨value, updated, ran⟩⟩

theorem update_each_runs (dict : AList fun _ : Key => Val)
    (each : ∀ key old, dict.lookup key = some old → ∃ value, update key old = some value) :
    ∃ final, updateEach update dict = some final :=
  update_from_runs update dict.entries (fun entry member => each entry.1 entry.2 (AList.mem_lookup_iff.mpr member)) dict

section Comprehension

variable {Other : Type} (change : Val → Other)

omit [DecidableEq Key] in
theorem changed_keys (entries : List (Σ _ : Key, Val)) :
    (entries.map fun entry => (⟨entry.1, change entry.2⟩ : Σ _ : Key, Other)).keys = entries.keys := by
  simp [List.keys, Function.comp_def]

def mapValues (dict : AList fun _ : Key => Val) : AList fun _ : Key => Other where
  entries := dict.entries.map fun entry => ⟨entry.1, change entry.2⟩
  nodupKeys := by
    rw [List.NodupKeys, changed_keys]
    exact dict.nodupKeys

theorem changed_lookup (entries : List (Σ _ : Key, Val)) (key : Key) :
    (entries.map fun entry => (⟨entry.1, change entry.2⟩ : Σ _ : Key, Other)).dlookup key = (entries.dlookup key).map change := by
  induction entries with
  | nil => rfl
  | cons entry rest ih =>
      by_cases same : key = entry.1
      · subst same
        rw [List.map_cons, List.dlookup_cons_eq, @List.dlookup_cons_eq Key (fun _ => Val) _ rest entry.1 entry.2]
        rfl
      · have skipped : (entry :: rest).dlookup key = rest.dlookup key := List.dlookup_cons_ne _ _ same
        rw [skipped, ← ih]
        exact List.dlookup_cons_ne _ _ same

theorem map_values_lookup (dict : AList fun _ : Key => Val) (key : Key) :
    (mapValues change dict).lookup key = (dict.lookup key).map change :=
  changed_lookup change dict.entries key

theorem map_values_mem (dict : AList fun _ : Key => Val) (key : Key) : key ∈ mapValues change dict ↔ key ∈ dict := by
  rw [← AList.lookup_isSome, ← AList.lookup_isSome, map_values_lookup, Option.isSome_map]

end Comprehension

end ToolchainUtils.UpdatedEntries
