import Mathlib.Data.List.Induction

set_option autoImplicit false

-- A loop over a list whose body may raise, as a fold in Option.
namespace ToolchainUtils.FailingFold

variable {Item State Seen : Type} (step : State → Item → Option State) (seen : State → Seen)

theorem kept_by_fold (items : List Item) (start finish : State)
    (keeps : ∀ item ∈ items, ∀ before after, step before item = some after → seen after = seen before)
    (ran : items.foldlM step start = some finish) : seen finish = seen start := by
  induction items generalizing start with
  | nil =>
      have same : start = finish := by simpa using ran
      rw [same]
  | cons item rest ih =>
      rw [List.foldlM_cons] at ran
      obtain ⟨middle, first, ran⟩ := Option.bind_eq_some_iff.mp ran
      rw [ih middle (fun item member => keeps item (List.mem_cons_of_mem _ member)) ran]
      exact keeps item List.mem_cons_self start middle first

theorem last_setting_wins (before after : List Item) (item : Item) (start finish : State) (value : Seen)
    (sets : ∀ state next, step state item = some next → seen next = value)
    (keeps : ∀ item ∈ after, ∀ state next, step state item = some next → seen next = seen state)
    (ran : (before ++ item :: after).foldlM step start = some finish) : seen finish = value := by
  rw [List.foldlM_append] at ran
  obtain ⟨middle, -, ran⟩ := Option.bind_eq_some_iff.mp ran
  rw [List.foldlM_cons] at ran
  obtain ⟨next, set, ran⟩ := Option.bind_eq_some_iff.mp ran
  rw [kept_by_fold step seen after next finish keeps ran]
  exact sets middle next set

theorem seen_after_last (before after : List Item) (start finish : State) (value : Item → Seen)
    (sets : ∀ item, before.getLast? = some item → ∀ state next, step state item = some next → seen next = value item)
    (keeps : ∀ item ∈ after, ∀ state next, step state item = some next → seen next = seen state)
    (ran : (before ++ after).foldlM step start = some finish) :
    seen finish = (before.getLast?.map value).getD (seen start) := by
  rcases List.eq_nil_or_concat before with empty | ⟨first, item, split⟩
  · subst empty
    exact kept_by_fold step seen after start finish keeps ran
  · rw [List.concat_eq_append] at split
    subst split
    have last : (first ++ [item]).getLast? = some item := List.getLast?_concat
    rw [List.append_assoc] at ran
    rw [last]
    exact last_setting_wins step seen first after item start finish (value item) (sets item last) keeps ran

theorem fold_succeeds (items : List Item) (start : State)
    (succeeds : ∀ item ∈ items, ∀ state, ∃ next, step state item = some next) :
    ∃ finish, items.foldlM step start = some finish := by
  induction items generalizing start with
  | nil => exact ⟨start, rfl⟩
  | cons item rest ih =>
      obtain ⟨next, first⟩ := succeeds item List.mem_cons_self start
      obtain ⟨finish, ran⟩ := ih next fun item member => succeeds item (List.mem_cons_of_mem _ member)
      exact ⟨finish, by rw [List.foldlM_cons, first]; exact ran⟩

-- A loop whose rounds do not raise is an ordinary fold.
theorem fold_total (next : State → Item → State) (items : List Item) (start : State)
    (total : ∀ item ∈ items, ∀ state, step state item = some (next state item)) :
    items.foldlM step start = some (items.foldl next start) := by
  induction items generalizing start with
  | nil => rfl
  | cons item rest ih =>
      rw [List.foldlM_cons, total item List.mem_cons_self start, List.foldl_cons]
      exact ih (next start item) fun item member => total item (List.mem_cons_of_mem _ member)

theorem member_succeeded (items : List Item) (item : Item) (member : item ∈ items) (start finish : State)
    (ran : items.foldlM step start = some finish) : ∃ state next, step state item = some next := by
  induction items generalizing start with
  | nil => exact absurd member List.not_mem_nil
  | cons head rest ih =>
      rw [List.foldlM_cons] at ran
      obtain ⟨next, stepped, ran⟩ := Option.bind_eq_some_iff.mp ran
      rcases List.mem_cons.mp member with same | later
      · rw [same]
        exact ⟨start, next, stepped⟩
      · exact ih later next ran

-- Where a round raises depends on its item, as long as the states keep an invariant.
theorem fold_succeeds_within_iff (kept : State → Prop) (good : Item → Prop) (items : List Item) (start : State) (first : kept start)
    (keeps : ∀ item ∈ items, ∀ state next, kept state → step state item = some next → kept next)
    (succeeds : ∀ item ∈ items, ∀ state, kept state → ((∃ next, step state item = some next) ↔ good item)) :
    (∃ finish, items.foldlM step start = some finish) ↔ ∀ item ∈ items, good item := by
  induction items generalizing start with
  | nil => exact iff_of_true ⟨start, rfl⟩ (List.forall_mem_nil _)
  | cons item rest ih =>
      have later := fun next held => ih next held (fun item member => keeps item (List.mem_cons_of_mem _ member))
        (fun item member => succeeds item (List.mem_cons_of_mem _ member))
      rw [List.forall_mem_cons, ← succeeds item List.mem_cons_self start first]
      constructor
      · rintro ⟨finish, ran⟩
        rw [List.foldlM_cons] at ran
        obtain ⟨next, stepped, ran⟩ := Option.bind_eq_some_iff.mp ran
        exact ⟨⟨next, stepped⟩, (later next (keeps item List.mem_cons_self start next first stepped)).mp ⟨finish, ran⟩⟩
      · rintro ⟨⟨next, stepped⟩, each⟩
        obtain ⟨finish, ran⟩ := (later next (keeps item List.mem_cons_self start next first stepped)).mpr each
        exact ⟨finish, by rw [List.foldlM_cons, stepped]; exact ran⟩

theorem fold_succeeds_iff (good : Item → Prop) (items : List Item) (start : State)
    (succeeds : ∀ item state, (∃ next, step state item = some next) ↔ good item) :
    (∃ finish, items.foldlM step start = some finish) ↔ ∀ item ∈ items, good item :=
  fold_succeeds_within_iff step (fun _ => True) good items start trivial (fun _ _ _ _ _ _ => trivial)
    fun item _ state _ => succeeds item state

theorem fold_invariant (good : State → Prop) (items : List Item) (start finish : State) (first : good start)
    (keeps : ∀ item ∈ items, ∀ state next, good state → step state item = some next → good next)
    (ran : items.foldlM step start = some finish) : good finish := by
  induction items generalizing start with
  | nil =>
      have same : start = finish := by simpa using ran
      rwa [← same]
  | cons item rest ih =>
      rw [List.foldlM_cons] at ran
      obtain ⟨next, stepped, ran⟩ := Option.bind_eq_some_iff.mp ran
      exact ih next (keeps item List.mem_cons_self start next first stepped)
        (fun item member => keeps item (List.mem_cons_of_mem _ member)) ran

theorem fold_establishes (good : State → Prop) (items : List Item) (item : Item) (member : item ∈ items) (start finish : State)
    (sets : ∀ state next, step state item = some next → good next)
    (keeps : ∀ other ∈ items, ∀ state next, good state → step state other = some next → good next)
    (ran : items.foldlM step start = some finish) : good finish := by
  obtain ⟨before, after, split⟩ := List.append_of_mem member
  rw [split, List.foldlM_append] at ran
  obtain ⟨middle, -, ran⟩ := Option.bind_eq_some_iff.mp ran
  rw [List.foldlM_cons] at ran
  obtain ⟨next, stepped, ran⟩ := Option.bind_eq_some_iff.mp ran
  refine fold_invariant step good after next finish (sets middle next stepped) (fun other later => ?_) ran
  exact keeps other (by rw [split]; exact List.mem_append_right _ (List.mem_cons_of_mem _ later))

-- A loop inside the loop is one loop over all its rounds.
theorem fold_of_parts {Part : Type} (round : State → Part → Option State) (parts : Item → List Part) (items : List Item)
    (start : State) :
    (items.flatMap parts).foldlM round start = items.foldlM (fun state item => (parts item).foldlM round state) start := by
  induction items generalizing start with
  | nil => rfl
  | cons item rest ih => simp only [List.flatMap_cons, List.foldlM_append, List.foldlM_cons, ih]

section Errors

variable {Error : Type} (raising : State → Item → Except Error State)

theorem fold_never_raises (next : State → Item → State) (items : List Item) (start : State)
    (total : ∀ item ∈ items, ∀ state, raising state item = .ok (next state item)) :
    items.foldlM raising start = .ok (items.foldl next start) := by
  induction items generalizing start with
  | nil => rfl
  | cons item rest ih =>
      rw [List.foldlM_cons, total item List.mem_cons_self start, List.foldl_cons]
      exact ih (next start item) fun item member => total item (List.mem_cons_of_mem _ member)

-- A round that always raises ends the loop, if an earlier one did not.
theorem fold_raises (expected : Error → Prop) (items : List Item) (item : Item) (member : item ∈ items) (start : State)
    (raises : ∀ state, ∃ error, expected error ∧ raising state item = .error error)
    (only : ∀ other ∈ items, ∀ state error, raising state other = .error error → expected error) :
    ∃ error, expected error ∧ items.foldlM raising start = .error error := by
  induction items generalizing start with
  | nil => exact absurd member List.not_mem_nil
  | cons first rest ih =>
      rw [List.foldlM_cons]
      cases ran : raising start first with
      | error error => exact ⟨error, only first List.mem_cons_self start error ran, rfl⟩
      | ok next =>
          cases List.mem_cons.mp member with
          | inl here =>
              obtain ⟨error, _, raised⟩ := raises start
              rw [here, ran] at raised
              cases raised
          | inr later => exact ih later next fun other member => only other (List.mem_cons_of_mem _ member)

end Errors

-- Two different lists have a last place in which they differ.
theorem last_difference {α : Type} (first second : List α) (different : first ≠ second) :
    ∃ before other after, first = before ++ after ∧ second = other ++ after ∧ before.getLast? ≠ other.getLast? := by
  induction first using List.reverseRecOn generalizing second with
  | nil => exact ⟨[], second, [], rfl, (List.append_nil _).symm, fun same => different (by simpa using same.symm)⟩
  | append_singleton initial x ih =>
      rcases List.eq_nil_or_concat second with empty | ⟨rest, y, split⟩
      · subst empty
        exact ⟨initial ++ [x], [], [], (List.append_nil _).symm, rfl, by simp⟩
      · rw [List.concat_eq_append] at split
        subst split
        by_cases same : x = y
        · subst same
          obtain ⟨before, other, after, firstSplit, secondSplit, ends⟩ :=
            ih rest fun equal => different (by rw [equal])
          refine ⟨before, other, after ++ [x], ?_, ?_, ends⟩
          · rw [firstSplit, List.append_assoc]
          · rw [secondSplit, List.append_assoc]
        · refine ⟨initial ++ [x], rest ++ [y], [], (List.append_nil _).symm, (List.append_nil _).symm, ?_⟩
          simpa using same

theorem last_not_after {α : Type} (before after : List α) (item : α) (distinct : (before ++ after).Nodup)
    (last : before.getLast? = some item) : item ∉ after :=
  fun member => (List.nodup_append.mp distinct).2.2 item (List.mem_of_getLast? last) item member rfl

end ToolchainUtils.FailingFold
