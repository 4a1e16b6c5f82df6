import ToolchainUtils.Transition
import ToolchainUtils.Bestflags.IterativeElimination
import ToolchainUtils.Bestflags.MutatedFlags

set_option autoImplicit false

namespace ToolchainUtils.Bestflags

open PyString Randomised Transition

-- The code that makes or changes the value of a flag.
inductive Operation where
  | construct (spec : Text)
  | climbNext (spec : Text)
  | randomMutate (specs : List Text) (odds : Int)
  | decreaseFlag (spec : Text)

def perform (flags : FlagSet) : Operation → Drawn (List FlagSet)
  | .construct spec => do
      let value ← flag spec (-1)
      pure [flags.insert spec value]
  | .climbNext spec => climbNext flags spec
  | .randomMutate specs odds => do
      let mutated ← randomMutate specs flags (some odds)
      pure [mutated]
  | .decreaseFlag spec => do
      let decreased ← decreaseFlag flags spec
      pure [decreased]

-- One step of a sequence of operations: the numbers it draws, and which of the
-- neighbours it goes on with.
structure Performed where
  operation : Operation
  source : Source
  chosen : Nat

def performStep (flags : FlagSet) (performed : Performed) : Option FlagSet :=
  match perform flags performed.operation performed.source with
  | .ok results => results.1[performed.chosen]?
  | .error _ => none

def RangedAt (spec : Text) (value : Int) : Prop :=
  ∀ start last, search spec = some (start, last) → start < last → start ≤ value ∧ value < last

def Ranged (flags : FlagSet) : Prop := ∀ spec value, flags.get? spec = some value → RangedAt spec value

-- No value that is drawn for a new numeric flag is the end of its range.
def AvoidsEnd (flags : FlagSet) (performed : Performed) : Prop :=
  match performed.operation with
  | .construct spec =>
      ∀ value rest, flag spec (-1) performed.source = .ok (value, rest) →
        ∀ start last, search spec = some (start, last) → start < last → value ≠ last
  | .randomMutate specs odds =>
      ∀ picks rest, each (pickSpec flags odds) specs performed.source = .ok (picks, rest) →
        ∀ spec ∈ specs, flags.get? spec = none → ∀ start last, search spec = some (start, last) → start < last →
          (picksOf spec specs picks).getLast?.map (·.2) ≠ some last
  | _ => True

theorem performed_iff (flags next : FlagSet) (performed : Performed) :
    performStep flags performed = some next ↔
      ∃ results rest, perform flags performed.operation performed.source = .ok (results, rest) ∧
        results[performed.chosen]? = some next := by
  rw [performStep]
  cases perform flags performed.operation performed.source with
  | error raised => exact ⟨nofun, fun ⟨_, _, ran, _⟩ => absurd ran nofun⟩
  | ok results =>
      constructor
      · exact fun chosen => ⟨results.1, results.2, rfl, chosen⟩
      · intro ran
        obtain ⟨values, rest, same, chosen⟩ := ran
        rw [Except.ok.inj same]
        exact chosen

theorem ranged_insert_iff (flags : FlagSet) (ranged : Ranged flags) (spec : Text) (value : Int) :
    Ranged (flags.insert spec value) ↔ RangedAt spec value := by
  constructor
  · intro inserted
    exact inserted spec value (by rw [SortedDict.get_insert, if_pos rfl])
  · intro here other found present
    rw [SortedDict.get_insert] at present
    split at present
    · rename_i same
      rw [same, ← Option.some.inj present]
      exact here
    · exact ranged other found present

theorem ranged_erase (flags : FlagSet) (ranged : Ranged flags) (spec : Text) : Ranged (flags.erase spec) := by
  intro other found present
  rw [SortedDict.get_erase] at present
  split at present
  · exact absurd present nofun
  · exact ranged other found present

theorem whenever_given (spec : Text) (value : Int)
    (known : ∀ start last, search spec = some (start, last) → start < last → start ≤ value) :
    Whenever (flag spec value) fun made => made = value ∨ ∀ start last, search spec = some (start, last) → ¬ start < last := by
  by_cases redrawn : value = -1
  · refine fun _ _ _ _ => .inr fun start last numeric filled => ?_
    have above := known start last numeric filled
    have nonnegative := search_nonnegative spec start last numeric
    omega
  · exact whenever_of_always _ _ (always_imp _ _ _ (always_flag spec value redrawn) fun _ same => .inl same)

-- A value that steps inside its range, or belongs to a spec without one, is in range.
theorem inserted_ranged (flags : FlagSet) (ranged : Ranged flags) (spec : Text) (value : Int) (inside : RangedAt spec value) :
    Whenever (flag spec value) fun made => Ranged (flags.insert spec made) := by
  intro source made rest ran
  rw [ranged_insert_iff flags ranged]
  have drawn := whenever_given spec value (fun start last numeric filled => (inside start last numeric filled).1) source made rest ran
  cases drawn with
  | inl same =>
      rw [same]
      exact inside
  | inr empty => exact fun start last numeric filled => absurd filled (empty start last numeric)

section Steps

variable (flags : FlagSet)

theorem climb_next_ranged (spec : Text) (ranged : Ranged flags) :
    Whenever (climbNext flags spec) fun found => ∀ next ∈ found, Ranged next := by
  have single : ∀ next, Ranged next → ∀ other ∈ [next], Ranged other :=
    fun next here other member => List.mem_singleton.mp member ▸ here
  rw [climbNext]
  cases present : flags.get? spec with
  | none =>
      cases numeric : search spec with
      | none =>
          refine whenever_bind _ _ _ _ (whenever_flag spec) fun value _ => whenever_pure _ _ (single _ ?_)
          rw [ranged_insert_iff flags ranged]
          intro start last other
          cases numeric.symm.trans other
      | some ends =>
          have inside : RangedAt spec ends.1 := by
            intro start last same filled
            obtain rfl := Option.some.inj (numeric.symm.trans same)
            exact ⟨Int.le_refl start, filled⟩
          exact whenever_bind _ _ _ _ (inserted_ranged flags ranged spec ends.1 inside) fun value here =>
            whenever_pure _ _ (single _ here)
  | some value =>
      cases numeric : search spec with
      | none => exact whenever_pure _ _ (single _ (ranged_erase flags ranged spec))
      | some ends =>
          obtain ⟨start, last⟩ := ends
          have own := ranged spec value present start last numeric
          have upper : Whenever (climbUp flags spec value last) fun found => ∀ next ∈ found, Ranged next := by
            rw [climbUp]
            split
            · rename_i room
              have inside : RangedAt spec (value + 1) := by
                intro _ _ same filled
                obtain ⟨rfl, rfl⟩ := Prod.mk.inj (Option.some.inj (numeric.symm.trans same))
                exact ⟨by have := own filled; omega, room⟩
              exact whenever_bind _ _ _ _ (inserted_ranged flags ranged spec (value + 1) inside) fun more here =>
                whenever_pure _ _ (single _ here)
            · exact whenever_pure _ _ (List.forall_mem_nil _)
          have lower : Whenever (climbDown flags spec value start) fun found => ∀ next ∈ found, Ranged next := by
            rw [climbDown]
            split
            · rename_i room
              have inside : RangedAt spec (value - 1) := by
                intro _ _ same filled
                obtain ⟨rfl, rfl⟩ := Prod.mk.inj (Option.some.inj (numeric.symm.trans same))
                have := own filled
                omega
              exact whenever_bind _ _ _ _ (inserted_ranged flags ranged spec (value - 1) inside) fun less here =>
                whenever_pure _ _ (single _ here)
            · exact whenever_pure _ _ (single _ (ranged_erase flags ranged spec))
          refine whenever_bind _ _ _ _ upper fun above larger => whenever_bind _ _ _ _ lower fun below lesser => ?_
          refine whenever_pure _ _ fun next member => ?_
          exact (List.mem_append.mp member).elim (larger next) (lesser next)

theorem decrease_flag_ranged (spec : Text) (ranged : Ranged flags) : Whenever (decreaseFlag flags spec) Ranged := by
  rw [decreaseFlag]
  cases present : flags.get? spec with
  | none => exact whenever_throw _ _
  | some value =>
      cases numeric : search spec with
      | none => exact whenever_pure _ _ (ranged_erase flags ranged spec)
      | some ends =>
          dsimp only
          split
          · exact whenever_pure _ _ (ranged_erase flags ranged spec)
          · rename_i above
            have inside : RangedAt spec (value - 1) := by
              intro start last same filled
              obtain rfl := Option.some.inj (numeric.symm.trans same)
              have own := ranged spec value present start last numeric filled
              have other : value ≠ start := above
              omega
            exact whenever_bind _ _ _ _ (inserted_ranged flags ranged spec (value - 1) inside) fun less here =>
              whenever_pure _ _ here

theorem constructed_ranged_iff (spec : Text) (source rest : Source) (value : Int) (ranged : Ranged flags)
    (ran : flag spec (-1) source = .ok (value, rest)) (chosen : Nat) :
    Ranged (flags.insert spec value) ↔ AvoidsEnd flags ⟨.construct spec, source, chosen⟩ := by
  rw [ranged_insert_iff flags ranged, AvoidsEnd]
  have within := whenever_flag spec source value rest ran
  constructor
  · intro inside other final again start last numeric filled
    obtain ⟨rfl, -⟩ := Prod.mk.inj (Except.ok.inj (ran.symm.trans again))
    have own := inside start last numeric filled
    omega
  · intro avoids start last numeric filled
    rw [numeric] at within
    have other := avoids value rest ran start last numeric filled
    have bounds : start ≤ value ∧ value ≤ last := within
    omega

-- A value that mutation keeps, from the draws it comes from.
theorem kept_ranged (spec : Text) (picked : List (Int × Int)) (value : Int) (ranged : Ranged flags)
    (possible : ∀ one ∈ picked, Possible flags spec one)
    (final : (picked.filterMap (kept flags spec)).getLast? = some value)
    (avoids : flags.get? spec = none → ∀ start last, search spec = some (start, last) → start < last →
      picked.getLast?.map (·.2) ≠ some last) : RangedAt spec value := by
  intro start last numeric filled
  obtain ⟨one, member, made⟩ := List.mem_filterMap.mp (List.mem_of_getLast? final)
  have own := possible one member
  rw [Possible, numeric] at own
  cases present : flags.get? spec with
  | none =>
      rw [present] at own
      rw [kept, present] at made
      have bounds : start ≤ one.2 ∧ one.2 ≤ last := own
      have other := avoids present start last numeric filled
      rw [← List.getLast?_map, ← kept_new flags spec picked present, final] at other
      have same : one.2 = value := Option.some.inj made
      have different : value ≠ last := fun same => other (congrArg some same)
      omega
  | some old =>
      rw [present] at own
      rw [kept, present, numeric] at made
      have inside := ranged spec old present start last numeric filled
      have nonnegative := search_nonnegative spec start last numeric
      obtain ⟨⟨above, below, room⟩, drawn⟩ := own
      dsimp only at made
      split at made
      · rename_i stays
        have drawn := drawn stays
        have roomy := room inside.2
        have same : one.2 = value := Option.some.inj made
        have other : one.1 ≠ start - 1 := stays
        omega
      · cases made

theorem mutated_ranged_iff (specs : List Text) (odds : Int) (source rest : Source) (result : FlagSet) (ranged : Ranged flags)
    (ran : randomMutate specs flags (some odds) source = .ok (result, rest)) (chosen : Nat) :
    Ranged result ↔ AvoidsEnd flags ⟨.randomMutate specs odds, source, chosen⟩ := by
  obtain ⟨picks, drawn, shown⟩ := mutated_picks flags odds specs source rest result ran
  have possible := whenever_each _ _ specs (fun spec _ => pick_possible flags odds spec) source picks rest drawn
  have possible_of := fun spec => picks_possible flags specs picks possible spec
  rw [AvoidsEnd]
  constructor
  · intro inside others final again spec _ absent start last numeric filled isEnd
    obtain ⟨rfl, -⟩ := Prod.mk.inj (Except.ok.inj (drawn.symm.trans again))
    rw [← List.getLast?_map, ← kept_new flags spec _ absent, ← shown spec] at isEnd
    exact absurd (inside spec last isEnd start last numeric filled).2 (Int.lt_irrefl last)
  · intro avoids spec value present
    rw [shown spec] at present
    have listed : spec ∈ specs := by
      obtain ⟨one, member, -⟩ := List.mem_filterMap.mp (List.mem_of_getLast? present)
      exact picks_of_listed spec specs picks one member
    exact kept_ranged flags spec _ value ranged (possible_of spec) present (avoids picks rest drawn spec listed)

theorem performed_ranged_iff (next : FlagSet) (performed : Performed) (ranged : Ranged flags)
    (taken : performStep flags performed = some next) : Ranged next ↔ AvoidsEnd flags performed := by
  obtain ⟨results, rest, ran, found⟩ := (performed_iff flags next performed).mp taken
  have member := List.mem_of_getElem? found
  obtain ⟨operation, source, chosen⟩ := performed
  cases operation with
  | construct spec =>
      obtain ⟨value, middle, drawn, ended⟩ := (bind_ran _ _ source rest results).mp ran
      rw [← (Prod.mk.inj (Except.ok.inj ended)).1] at member
      rw [List.mem_singleton.mp member]
      exact constructed_ranged_iff flags spec source middle value ranged drawn chosen
  | climbNext spec => exact iff_of_true (climb_next_ranged flags spec ranged source results rest ran next member) trivial
  | randomMutate specs odds =>
      obtain ⟨mutated, middle, drawn, ended⟩ := (bind_ran _ _ source rest results).mp ran
      rw [← (Prod.mk.inj (Except.ok.inj ended)).1] at member
      rw [List.mem_singleton.mp member]
      exact mutated_ranged_iff flags specs odds source middle mutated ranged drawn chosen
  | decreaseFlag spec =>
      obtain ⟨decreased, middle, drawn, ended⟩ := (bind_ran _ _ source rest results).mp ran
      rw [← (Prod.mk.inj (Except.ok.inj ended)).1] at member
      rw [List.mem_singleton.mp member]
      exact iff_of_true (decrease_flag_ranged flags spec ranged source decreased middle drawn) trivial

end Steps

-- Every sequence of the operations that runs, from any flags in range.
theorem values_ranged_iff (first finish : FlagSet) (steps : List Performed) (ranged : Ranged first)
    (ran : exec performStep first steps = some finish) :
    Throughout performStep Ranged first steps ↔ Along performStep AvoidsEnd first steps :=
  throughout_iff_along performStep AvoidsEnd Ranged Ranged
    (fun flags performed next inside avoids taken => (performed_ranged_iff flags next performed inside taken).mpr avoids)
    (fun _ inside => inside)
    (fun flags performed next inside taken after => (performed_ranged_iff flags next performed inside taken).mp after)
    steps first finish ranged ran

section Sample

def numericSpec : Text := "-finline-limit=[1-2]".toList

theorem no_flags_ranged : Ranged SortedDict.empty := fun _ _ present => absurd present nofun

def constructed (number : Nat) : List Performed := [⟨.construct numericSpec, fun _ => number, 0⟩]

theorem constructed_start_ranged :
    exec performStep .empty (constructed 0) = some (SortedDict.empty.insert numericSpec 1) ∧
      (Throughout performStep Ranged .empty (constructed 0) ↔ Along performStep AvoidsEnd .empty (constructed 0)) :=
  ⟨rfl, values_ranged_iff .empty (SortedDict.empty.insert numericSpec 1) (constructed 0) no_flags_ranged rfl⟩

-- random.randint(1, 2) can give 2.
theorem constructed_end_out_of_range :
    exec performStep .empty (constructed 1) = some (SortedDict.empty.insert numericSpec 2) ∧
      ¬ Ranged (SortedDict.empty.insert numericSpec 2) := by
  refine ⟨rfl, fun ranged => ?_⟩
  have inside := ranged numericSpec 2 (by decide) 1 2 (by decide) (by decide)
  exact absurd inside.2 (by decide)

end Sample

end ToolchainUtils.Bestflags
