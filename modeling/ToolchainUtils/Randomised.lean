import Mathlib.Data.List.Forall2
import Mathlib.Data.List.InsertIdx
import Mathlib.Data.List.Perm.Basic

set_option autoImplicit false

-- Programs that draw numbers from a source and may raise. A result holds whatever
-- is drawn when it holds for every source.
namespace ToolchainUtils.Randomised

variable {ε α β : Type}

abbrev Source := Nat → Nat

abbrev Program (ε α : Type) := StateT Source (Except ε) α

def draw (bound : Nat) : Program ε Nat := fun source =>
  .ok (source 0 % (bound + 1), fun n => source (n + 1))

-- The program returns, and with a value that meets `post`.
def Always (program : Program ε α) (post : α → Prop) : Prop :=
  ∀ source, ∃ value rest, program source = .ok (value, rest) ∧ post value

theorem always_pure (value : α) (post : α → Prop) (holds : post value) :
    Always (pure value : Program ε α) post :=
  fun source => ⟨value, source, rfl, holds⟩

theorem always_bind (first : Program ε α) (next : α → Program ε β) (middle : α → Prop) (post : β → Prop)
    (begins : Always first middle) (continues : ∀ value, middle value → Always (next value) post) :
    Always (first >>= next) post := by
  intro source
  obtain ⟨value, rest, ran, holds⟩ := begins source
  obtain ⟨result, final, ended, reached⟩ := continues value holds rest
  refine ⟨result, final, ?_, reached⟩
  rw [← ended]
  change (first source >>= fun pair => next pair.1 pair.2) = _
  rw [ran]
  rfl

theorem always_imp (program : Program ε α) (weak strong : α → Prop) (holds : Always program strong)
    (implies : ∀ value, strong value → weak value) : Always program weak := by
  intro source
  obtain ⟨value, rest, ran, reached⟩ := holds source
  exact ⟨value, rest, ran, implies value reached⟩

theorem always_draw (bound : Nat) : Always (draw bound : Program ε Nat) fun value => value ≤ bound :=
  fun source => ⟨source 0 % (bound + 1), fun n => source (n + 1), rfl, Nat.lt_succ_iff.mp (Nat.mod_lt _ bound.succ_pos)⟩

-- One program for each element, from the left.
def each (program : α → Program ε β) : List α → Program ε (List β)
  | [] => pure []
  | element :: rest => do
      let value ← program element
      let values ← each program rest
      pure (value :: values)

theorem always_each (program : α → Program ε β) (post : α → β → Prop) (elements : List α)
    (holds : ∀ element ∈ elements, Always (program element) (post element)) :
    Always (each program elements) (List.Forall₂ post elements) := by
  induction elements with
  | nil => exact always_pure [] _ List.Forall₂.nil
  | cons element rest ih =>
      apply always_bind _ _ (post element) _ (holds element List.mem_cons_self)
      intro value here
      apply always_bind _ _ (List.Forall₂ post rest) _
        (ih fun other member => holds other (List.mem_cons_of_mem _ member))
      intro values later
      exact always_pure _ _ (List.Forall₂.cons here later)

theorem always_each_eq (program : α → Program ε β) (result : α → β) (elements : List α)
    (holds : ∀ element ∈ elements, Always (program element) fun value => value = result element) :
    Always (each program elements) fun values => values = elements.map result := by
  apply always_imp _ _ _ (always_each program (fun element value => value = result element) elements holds)
  intro values related
  induction related with
  | nil => rfl
  | cons same _ ih =>
      rw [List.map_cons, same, ih fun other member => holds other (List.mem_cons_of_mem _ member)]

theorem always_each_all (program : α → Program ε β) (post : β → Prop) (elements : List α)
    (holds : ∀ element ∈ elements, Always (program element) post) :
    Always (each program elements) fun values => ∀ value ∈ values, post value := by
  apply always_imp _ _ _ (always_each program (fun _ value => post value) elements holds)
  intro values related
  induction related with
  | nil => exact nofun
  | cons here _ ih =>
      intro value member
      cases List.mem_cons.mp member with
      | inl same => exact same ▸ here
      | inr later => exact ih (fun other present => holds other (List.mem_cons_of_mem _ present)) value later

-- Every order of the elements is drawn from some source.
def shuffle : List α → Program ε (List α)
  | [] => pure []
  | element :: rest => do
      let shuffled ← shuffle rest
      let place ← draw shuffled.length
      pure (shuffled.insertIdx place element)

theorem always_shuffle (elements : List α) :
    Always (shuffle elements : Program ε (List α)) fun shuffled => shuffled.Perm elements := by
  induction elements with
  | nil => exact always_pure [] _ (List.Perm.refl [])
  | cons element rest ih =>
      apply always_bind _ _ _ _ ih
      intro shuffled perm
      apply always_bind _ _ _ _ (always_draw shuffled.length)
      intro place bound
      apply always_pure
      exact (List.perm_insertIdx element shuffled bound).trans (perm.cons element)

-- random.choice
def choice (error : ε) : List α → Program ε α
  | [] => throw error
  | first :: rest => do
      let place ← draw rest.length
      pure ((first :: rest).getD place first)

theorem always_choice (error : ε) (elements : List α) (filled : elements ≠ []) :
    Always (choice error elements) fun chosen => chosen ∈ elements := by
  cases elements with
  | nil => exact absurd rfl filled
  | cons first rest =>
      apply always_bind _ _ _ _ (always_draw rest.length)
      intro place bound
      apply always_pure
      have inside : place < (first :: rest).length := Nat.lt_succ_of_le bound
      simp only [List.getD_eq_getElem?_getD, List.getElem?_eq_getElem inside, Option.getD_some]
      exact List.getElem_mem inside

section Whenever

-- What the program returns, if it does not raise, meets `post`.
def Whenever (program : Program ε α) (post : α → Prop) : Prop :=
  ∀ source value rest, program source = .ok (value, rest) → post value

theorem whenever_of_always (program : Program ε α) (post : α → Prop) (holds : Always program post) : Whenever program post := by
  intro source value rest ran
  obtain ⟨result, final, ended, reached⟩ := holds source
  rw [ran] at ended
  rw [(Prod.mk.inj (Except.ok.inj ended)).1]
  exact reached

theorem whenever_pure (value : α) (post : α → Prop) (holds : post value) : Whenever (pure value : Program ε α) post :=
  whenever_of_always _ _ (always_pure value post holds)

theorem whenever_throw (error : ε) (post : α → Prop) : Whenever (throw error : Program ε α) post :=
  fun _ _ _ ran => absurd ran nofun

theorem bind_ran (first : Program ε α) (next : α → Program ε β) (source rest : Source) (result : β) :
    (first >>= next) source = .ok (result, rest) ↔
      ∃ value middle, first source = .ok (value, middle) ∧ next value middle = .ok (result, rest) := by
  change (first source >>= fun pair => next pair.1 pair.2) = _ ↔ _
  cases first source with
  | error raised => exact ⟨nofun, fun ⟨_, _, ran, _⟩ => absurd ran nofun⟩
  | ok pair =>
      constructor
      · exact fun ran => ⟨pair.1, pair.2, rfl, ran⟩
      · intro ran
        obtain ⟨value, middle, same, ended⟩ := ran
        rw [Except.ok.inj same]
        exact ended

theorem whenever_bind (first : Program ε α) (next : α → Program ε β) (middle : α → Prop) (post : β → Prop)
    (begins : Whenever first middle) (continues : ∀ value, middle value → Whenever (next value) post) :
    Whenever (first >>= next) post := by
  intro source result rest ran
  obtain ⟨value, between, began, ended⟩ := (bind_ran first next source rest result).mp ran
  exact continues value (begins source value between began) between result rest ended

theorem whenever_each (program : α → Program ε β) (post : α → β → Prop) (elements : List α)
    (holds : ∀ element ∈ elements, Whenever (program element) (post element)) :
    Whenever (each program elements) (List.Forall₂ post elements) := by
  induction elements with
  | nil => exact whenever_pure [] _ List.Forall₂.nil
  | cons element rest ih =>
      refine whenever_bind _ _ (post element) _ (holds element List.mem_cons_self) fun value here => ?_
      refine whenever_bind _ _ (List.Forall₂ post rest) _
        (ih fun other member => holds other (List.mem_cons_of_mem _ member)) fun values later => ?_
      exact whenever_pure _ _ (List.Forall₂.cons here later)

theorem whenever_choice (error : ε) (elements : List α) : Whenever (choice error elements) fun chosen => chosen ∈ elements := by
  cases elements with
  | nil => exact whenever_throw error _
  | cons first rest => exact whenever_of_always _ _ (always_choice error (first :: rest) (List.cons_ne_nil _ _))

theorem each_ran_length (program : α → Program ε β) (elements : List α) (source rest : Source) (values : List β)
    (ran : each program elements source = .ok (values, rest)) : values.length = elements.length :=
  (whenever_each program (fun _ _ => True) elements (fun _ _ _ _ _ _ => trivial) source values rest ran).length_eq.symm

theorem each_append_ran (program : α → Program ε β) (first second : List α) (source rest : Source) (values : List β) :
    each program (first ++ second) source = .ok (values, rest) ↔
      ∃ early middle late, each program first source = .ok (early, middle) ∧ each program second middle = .ok (late, rest) ∧
        values = early ++ late := by
  induction first generalizing source values with
  | nil =>
      constructor
      · exact fun ran => ⟨[], source, values, rfl, ran, rfl⟩
      · rintro ⟨early, middle, late, none, ran, rfl⟩
        obtain ⟨rfl, rfl⟩ := Prod.mk.inj (Except.ok.inj none)
        exact ran
  | cons element others ih =>
      rw [List.cons_append, each, each]
      constructor
      · intro ran
        obtain ⟨value, between, here, ran⟩ := (bind_ran _ _ source rest values).mp ran
        obtain ⟨more, final, later, ran⟩ := (bind_ran _ _ between rest values).mp ran
        obtain ⟨same, rfl⟩ := Prod.mk.inj (Except.ok.inj ran)
        obtain ⟨early, middle, late, begins, ends, split⟩ := (ih between more).mp later
        refine ⟨value :: early, middle, late, ?_, ends, by rw [← same, split, List.cons_append]⟩
        exact (bind_ran _ _ source middle _).mpr ⟨value, between, here, (bind_ran _ _ between middle _).mpr
          ⟨early, middle, begins, rfl⟩⟩
      · rintro ⟨early, middle, late, begins, ends, rfl⟩
        obtain ⟨value, between, here, begins⟩ := (bind_ran _ _ source middle early).mp begins
        obtain ⟨more, final, later, begins⟩ := (bind_ran _ _ between middle early).mp begins
        obtain ⟨rfl, rfl⟩ := Prod.mk.inj (Except.ok.inj begins)
        exact (bind_ran _ _ source rest _).mpr ⟨value, between, here, (bind_ran _ _ between rest _).mpr
          ⟨more ++ late, rest, (ih between (more ++ late)).mpr ⟨more, final, late, later, ends, rfl⟩, rfl⟩⟩

-- What is drawn for the first elements does not depend on those that follow.
theorem each_prefix_ran (program : α → Program ε β) (part elements : List α) (starts : part <+: elements)
    (source middle rest : Source) (early values : List β) (began : each program part source = .ok (early, middle))
    (ran : each program elements source = .ok (values, rest)) : early <+: values := by
  obtain ⟨others, rfl⟩ := starts
  obtain ⟨again, between, late, same, -, rfl⟩ := (each_append_ran program part others source rest values).mp ran
  rw [began] at same
  rw [(Prod.mk.inj (Except.ok.inj same)).1]
  exact List.prefix_append _ _

end Whenever

section Predrawn

theorem map_ran (f : α → β) (program : Program ε α) (source rest : Source) (result : β)
    (ran : (f <$> program) source = .ok (result, rest)) : ∃ value, program source = .ok (value, rest) ∧ f value = result := by
  rw [map_eq_pure_bind] at ran
  obtain ⟨value, middle, began, ended⟩ := (bind_ran program _ source rest result).mp ran
  obtain ⟨same, rfl⟩ := Prod.mk.inj (Except.ok.inj ended)
  exact ⟨value, began, same⟩

-- All the draws can be made first and what they mean be worked out afterwards.
theorem each_predrawn {γ : Type} (program : α → Program ε γ) (meaning : α → γ → β) (elements : List α) :
    each (fun element => meaning element <$> program element) elements =
      (fun drawn => List.zipWith meaning elements drawn) <$> each program elements := by
  induction elements with
  | nil => rfl
  | cons element rest ih =>
      rw [each, each, ih]
      simp only [map_eq_pure_bind, bind_assoc, pure_bind]
      rfl

end Predrawn

end ToolchainUtils.Randomised
