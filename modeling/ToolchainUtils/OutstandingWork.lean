import Mathlib.Data.List.Count
import Mathlib.Data.List.Nodup
import Mathlib.Data.List.Pairwise

set_option autoImplicit false

namespace ToolchainUtils.OutstandingWork

universe u

variable {κ : Type u} [DecidableEq κ]

-- Keys are handed out in groups and come back one at a time. A key that comes
-- back settles the first group that has it.
def outstanding (inFlight group : List κ) : List κ := group.filter fun key => key ∈ inFlight

structure Accounts (groups : List (List κ)) (inFlight : List κ) : Prop where
  distinct : ∀ group ∈ groups, group.Nodup
  waits : ∀ group ∈ groups, outstanding inFlight group ≠ []
  -- A group may share a key with a later one only when it has no other key:
  -- otherwise the second return of the key settles the wrong group.
  alone : groups.Pairwise fun early late => ∀ key ∈ early, key ∈ late → early = [key]
  owned : ∀ key ∈ inFlight, inFlight.count key = groups.countP fun group => key ∈ group

theorem outstanding_congr (before after group : List κ) (same : ∀ key ∈ group, key ∈ after ↔ key ∈ before) :
    outstanding after group = outstanding before group := by
  apply List.filter_congr
  intro key member
  simp only [same key member]

theorem outstanding_all (inFlight group : List κ) (all : ∀ key ∈ group, key ∈ inFlight) :
    outstanding inFlight group = group := by
  apply List.filter_eq_self.mpr
  intro key member
  exact decide_eq_true (all key member)

theorem mem_outstanding (inFlight group : List κ) (key : κ) :
    key ∈ outstanding inFlight group ↔ key ∈ group ∧ key ∈ inFlight := by
  simp [outstanding]

theorem accounts_nil : Accounts ([] : List (List κ)) [] :=
  ⟨nofun, nofun, List.Pairwise.nil, nofun⟩

theorem count_flatten (groups : List (List κ)) (distinct : ∀ group ∈ groups, group.Nodup) (key : κ) :
    groups.flatten.count key = groups.countP fun group => key ∈ group := by
  induction groups with
  | nil => rfl
  | cons group rest ih =>
      have later := ih fun other member => distinct other (List.mem_cons_of_mem _ member)
      rw [List.flatten_cons, List.count_append, later, List.countP_cons]
      have here := (distinct group List.mem_cons_self).count (a := key)
      rw [here]
      simp only [decide_eq_true_eq]
      omega

-- Groups of keys that were never handed out are added as a whole.
theorem accounts_append (groups fresh : List (List κ)) (inFlight : List κ) (accounts : Accounts groups inFlight)
    (distinct : ∀ group ∈ fresh, group.Nodup) (filled : ∀ group ∈ fresh, group ≠ [])
    (alone : fresh.Pairwise fun early late => ∀ key ∈ early, key ∈ late → early = [key])
    (unused : ∀ group ∈ fresh, ∀ key ∈ group, key ∉ inFlight ∧ ∀ old ∈ groups, key ∉ old) :
    Accounts (groups ++ fresh) (inFlight ++ fresh.flatten) := by
  have apart : ∀ old ∈ groups, ∀ key ∈ old, key ∉ fresh.flatten := by
    intro old member key inside again
    obtain ⟨group, added, held⟩ := List.mem_flatten.mp again
    exact (unused group added key held).2 old member inside
  refine ⟨?_, ?_, ?_, ?_⟩
  · intro group member
    exact (List.mem_append.mp member).elim (accounts.distinct group) (distinct group)
  · intro group member
    cases List.mem_append.mp member with
    | inl old =>
        rw [outstanding_congr inFlight]
        · exact accounts.waits group old
        · intro key inside
          simp [apart group old key inside]
    | inr added =>
        rw [outstanding_all]
        · exact filled group added
        · intro key inside
          exact List.mem_append_right _ (List.mem_flatten.mpr ⟨group, added, inside⟩)
  · refine List.pairwise_append.mpr ⟨accounts.alone, alone, ?_⟩
    intro old member group added key inside shared
    exact absurd inside ((unused group added key shared).2 old member)
  · intro key member
    rw [List.count_append, List.countP_append, count_flatten fresh distinct]
    by_cases held : key ∈ inFlight
    · rw [accounts.owned key held]
    · have none_old : groups.countP (fun group => decide (key ∈ group)) = 0 := by
        apply List.countP_eq_zero.mpr
        intro old present
        have added := (List.mem_append.mp member).resolve_left held
        exact fun inside => apart old present key (of_decide_eq_true inside) added
      rw [none_old, List.count_eq_zero.mpr held]

theorem owner_found (groups : List (List κ)) (inFlight : List κ) (accounts : Accounts groups inFlight) (key : κ)
    (held : key ∈ inFlight) : ∃ group ∈ groups, key ∈ group := by
  have positive : 0 < inFlight.count key := List.count_pos_iff.mpr held
  rw [accounts.owned key held] at positive
  obtain ⟨group, member, inside⟩ := List.countP_pos_iff.mp positive
  exact ⟨group, member, of_decide_eq_true inside⟩

section Settling

variable (before after : List (List κ)) (owner inFlight : List κ) (key : κ)
  (accounts : Accounts (before ++ owner :: after) inFlight) (held : key ∈ inFlight) (inside : key ∈ owner)
  (first : ∀ group ∈ before, key ∉ group)

include accounts held inside first

theorem copies_in_flight :
    inFlight.count key = after.countP (fun group => key ∈ group) + 1 := by
  have none_before : before.countP (fun group => decide (key ∈ group)) = 0 := by
    apply List.countP_eq_zero.mpr
    intro group member
    simpa using first group member
  rw [accounts.owned key held, List.countP_append, none_before, List.countP_cons]
  simp [inside]

theorem shared_still_in_flight (group : List κ) (member : group ∈ after) (shared : key ∈ group) :
    key ∈ inFlight.erase key := by
  have copies := copies_in_flight before after owner inFlight key accounts held inside first
  have positive : 0 < after.countP fun group => decide (key ∈ group) :=
    List.countP_pos_iff.mpr ⟨group, member, decide_eq_true shared⟩
  apply List.count_pos_iff.mp
  rw [List.count_erase_self]
  omega

-- The return of a key changes nothing for the groups that are not settled.
theorem others_unchanged (group : List κ) (member : group ∈ before ++ after) :
    outstanding (inFlight.erase key) group = outstanding inFlight group := by
  apply outstanding_congr
  intro other inGroup
  by_cases same : other = key
  · subst same
    cases List.mem_append.mp member with
    | inl early => exact absurd inGroup (first group early)
    | inr late =>
        have still := shared_still_in_flight before after owner inFlight other accounts held inside first group late inGroup
        exact ⟨fun _ => held, fun _ => still⟩
  · exact List.mem_erase_of_ne same

theorem owner_loses_one :
    (outstanding inFlight owner).length = 1 ∨
      key ∉ inFlight.erase key ∧
        (outstanding (inFlight.erase key) owner).length + 1 = (outstanding inFlight owner).length := by
  have copies := copies_in_flight before after owner inFlight key accounts held inside first
  by_cases gone : key ∈ inFlight.erase key
  · left
    have more : 0 < (inFlight.erase key).count key := List.count_pos_iff.mpr gone
    rw [List.count_erase_self] at more
    have shared : 0 < after.countP fun group => decide (key ∈ group) := by omega
    obtain ⟨late, member, again⟩ := List.countP_pos_iff.mp shared
    have ordered := (List.pairwise_append.mp accounts.alone).2.1
    have single := List.rel_of_pairwise_cons ordered member key inside (of_decide_eq_true again)
    simp [single, outstanding, held]
  · right
    refine ⟨gone, ?_⟩
    have distinct := (accounts.distinct owner (by simp)).filter fun other => decide (other ∈ inFlight)
    have lost : outstanding (inFlight.erase key) owner = (outstanding inFlight owner).erase key := by
      rw [outstanding, outstanding, distinct.erase_eq_filter, List.filter_filter]
      apply List.filter_congr
      intro other _
      by_cases same : other = key
      · simp [same, gone]
      · simp [same, List.mem_erase_of_ne]
    rw [lost, List.length_erase_of_mem ((mem_outstanding inFlight owner key).mpr ⟨inside, held⟩)]
    have waiting : 0 < (outstanding inFlight owner).length :=
      List.length_pos_of_mem ((mem_outstanding inFlight owner key).mpr ⟨inside, held⟩)
    omega

theorem accounts_settled (last : (outstanding inFlight owner).length = 1) :
    Accounts (before ++ after) (inFlight.erase key) := by
  have sub : (before ++ after).Sublist (before ++ owner :: after) :=
    List.Sublist.append_left (List.sublist_cons_self owner after) before
  refine ⟨?_, ?_, accounts.alone.sublist sub, ?_⟩
  · exact fun group member => accounts.distinct group (sub.subset member)
  · intro group member
    rw [others_unchanged before after owner inFlight key accounts held inside first group member]
    exact accounts.waits group (sub.subset member)
  · intro other still
    have copies := accounts.owned other (List.mem_of_mem_erase still)
    rw [List.countP_append, List.countP_cons] at copies
    rw [List.countP_append]
    by_cases same : other = key
    · subst same
      rw [List.count_erase_self, copies]
      simp [inside]
    · obtain ⟨only, single⟩ := List.length_eq_one_iff.mp last
      have outside : other ∉ owner := by
        intro member
        have here := (mem_outstanding inFlight owner other).mpr ⟨member, List.mem_of_mem_erase still⟩
        have there := (mem_outstanding inFlight owner key).mpr ⟨inside, held⟩
        rw [single] at here there
        exact same ((List.mem_singleton.mp here).trans (List.mem_singleton.mp there).symm)
      rw [List.count_erase_of_ne same, copies]
      simp [outside]

theorem accounts_continue (more : (outstanding inFlight owner).length ≠ 1) :
    Accounts (before ++ owner :: after) (inFlight.erase key) := by
  obtain ⟨gone, fewer⟩ :=
    (owner_loses_one before after owner inFlight key accounts held inside first).resolve_left more
  refine ⟨accounts.distinct, ?_, accounts.alone, ?_⟩
  · intro group member
    by_cases other : group ∈ before ++ after
    · rw [others_unchanged before after owner inFlight key accounts held inside first group other]
      exact accounts.waits group member
    · have same : group = owner := by
        simp only [List.mem_append, List.mem_cons] at member other
        tauto
      have waiting : 0 < (outstanding inFlight owner).length :=
        List.length_pos_iff.mpr (accounts.waits owner (by simp))
      subst same
      apply List.ne_nil_of_length_pos
      omega
  · intro other still
    have different : other ≠ key := fun same => gone (same ▸ still)
    rw [List.count_erase_of_ne different]
    exact accounts.owned other (List.mem_of_mem_erase still)

end Settling

end ToolchainUtils.OutstandingWork
