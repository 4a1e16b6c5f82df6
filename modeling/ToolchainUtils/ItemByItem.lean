import Mathlib.Data.List.Forall2

set_option autoImplicit false

-- A list made from another item by item, where making an item may raise.
namespace ToolchainUtils.ItemByItem

variable {First Second : Type}

theorem related_to_member (relation : First → Second → Prop) (firsts : List First) (seconds : List Second)
    (matched : List.Forall₂ relation firsts seconds) (second : Second) (member : second ∈ seconds) :
    ∃ first ∈ firsts, relation first second := by
  induction matched with
  | nil => exact absurd member List.not_mem_nil
  | cons related _ ih =>
      rcases List.mem_cons.mp member with rfl | later
      · exact ⟨_, List.mem_cons_self, related⟩
      · obtain ⟨first, among, found⟩ := ih later
        exact ⟨first, List.mem_cons_of_mem _ among, found⟩

theorem related_twice (relation other : First → Second → Prop) (firsts : List First) (seconds : List Second)
    (matched : List.Forall₂ relation firsts seconds) (again : List.Forall₂ other firsts seconds) (first : First)
    (member : first ∈ firsts) : ∃ second, relation first second ∧ other first second := by
  induction matched with
  | nil => exact absurd member List.not_mem_nil
  | cons related _ ih =>
      cases again with
      | cons copy again =>
          rcases List.mem_cons.mp member with rfl | later
          · exact ⟨_, related, copy⟩
          · exact ih again later

theorem relate_each (relation : First → Second → Prop) (firsts : List First) (each : ∀ first ∈ firsts, ∃ second, relation first second) :
    ∃ seconds, List.Forall₂ relation firsts seconds := by
  induction firsts with
  | nil => exact ⟨[], .nil⟩
  | cons first rest ih =>
      obtain ⟨⟨second, related⟩, later⟩ := List.forall_mem_cons.mp each
      obtain ⟨seconds, matched⟩ := ih later
      exact ⟨second :: seconds, .cons related matched⟩

theorem made_iff (make : First → Option Second) (firsts : List First) (seconds : List Second) :
    firsts.mapM make = some seconds ↔ List.Forall₂ (fun first second => make first = some second) firsts seconds := by
  induction firsts generalizing seconds with
  | nil => simp [eq_comm]
  | cons first rest ih =>
      rw [List.mapM_cons]
      constructor
      · intro ran
        obtain ⟨second, made, ran⟩ := Option.bind_eq_some_iff.mp ran
        obtain ⟨others, later, ended⟩ := Option.bind_eq_some_iff.mp ran
        obtain rfl := Option.some.inj ended
        exact .cons made ((ih others).mp later)
      · intro each
        cases each with
        | cons made each =>
            rw [made, (ih _).mpr each]
            rfl

theorem made_each_iff (make : First → Option Second) (firsts : List First) :
    (∃ seconds, firsts.mapM make = some seconds) ↔ ∀ first ∈ firsts, ∃ second, make first = some second := by
  constructor
  · rintro ⟨seconds, ran⟩ first member
    have each := (made_iff make firsts seconds).mp ran
    obtain ⟨second, made, -⟩ := related_twice _ _ firsts seconds each each first member
    exact ⟨second, made⟩
  · intro each
    obtain ⟨seconds, related⟩ := relate_each (fun first second => make first = some second) firsts each
    exact ⟨seconds, (made_iff make firsts seconds).mpr related⟩

theorem mem_made (make : First → Option Second) (firsts : List First) (seconds : List Second)
    (ran : firsts.mapM make = some seconds) (second : Second) : second ∈ seconds ↔ ∃ first ∈ firsts, make first = some second := by
  have each := (made_iff make firsts seconds).mp ran
  constructor
  · exact related_to_member _ firsts seconds each second
  · rintro ⟨first, member, made⟩
    obtain ⟨other, among, same⟩ :=
      related_to_member (fun second first => make first = some second) seconds firsts each.flip first member
    rw [made] at same
    exact Option.some.inj same ▸ among

-- A loop that adds to a state what it makes.
theorem fold_made {State : Type} (make : First → Option Second) (add : State → Second → State) (firsts : List First) (start : State) :
    firsts.foldlM (fun state first => (make first).map (add state)) start =
      (firsts.mapM make).map fun seconds => seconds.foldl add start := by
  induction firsts generalizing start with
  | nil => rfl
  | cons first rest ih =>
      rw [List.foldlM_cons, List.mapM_cons]
      cases make first with
      | none => rfl
      | some second =>
          change rest.foldlM _ (add start second) = _
          rw [ih]
          cases rest.mapM make with
          | none => rfl
          | some seconds => rfl

-- A loop that appends what it makes.
theorem appended_iff (make : First → Option Second) (firsts : List First) (start final : List Second) :
    firsts.foldlM (fun done first => (make first).map fun second => done ++ [second]) start = some final ↔
      ∃ seconds, final = start ++ seconds ∧ List.Forall₂ (fun first second => make first = some second) firsts seconds := by
  induction firsts generalizing start with
  | nil => simp [eq_comm]
  | cons first rest ih =>
      rw [List.foldlM_cons]
      constructor
      · intro ran
        obtain ⟨next, stepped, ran⟩ := Option.bind_eq_some_iff.mp ran
        obtain ⟨second, made, rfl⟩ := Option.map_eq_some_iff.mp stepped
        obtain ⟨seconds, rfl, each⟩ := (ih _).mp ran
        exact ⟨second :: seconds, by rw [List.append_assoc, List.singleton_append], .cons made each⟩
      · rintro ⟨seconds, rfl, each⟩
        cases each with
        | cons made each =>
            rw [made]
            exact (ih _).mpr ⟨_, by rw [List.append_assoc, List.singleton_append], each⟩

end ToolchainUtils.ItemByItem
