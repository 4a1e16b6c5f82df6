import ToolchainUtils.Bestflags.FlagUniverse
import ToolchainUtils.Bestflags.GeneticAlgorithm

set_option autoImplicit false

namespace ToolchainUtils.Bestflags

open PyString Randomised

-- What is drawn for one spec: none if it is not selected, else the value that was
-- sampled and the value of the flag that is made of it.
abbrev Pick := Option (Int × Int)

def pickSpec (flagSet : FlagSet) (odds : Int) (spec : Text) : Drawn Pick := do
  let skipped ← randint 0 odds
  if skipped ≠ 0 then
    pure none
  else
    match flagSet.get? spec, search spec with
    | none, _ => do
        let value ← flag spec (-1)
        pure (some (value, value))
    | some _, none => pure (some (0, 0))
    | some value, some (start, last) => do
        let nearby := [value] ++ (if value + 1 < last then [value + 1] else []) ++ [value - 1]
        let chosen ← choice .valueError nearby
        if chosen ≠ start - 1 then do
          let made ← flag spec chosen
          pure (some (chosen, made))
        else
          pure (some (chosen, chosen))

-- The value that a selected spec is kept with.
def kept (flagSet : FlagSet) (spec : Text) (picked : Int × Int) : Option Int :=
  match flagSet.get? spec, search spec with
  | none, _ => some picked.2
  | some _, none => none
  | some _, some (start, _) => if picked.1 ≠ start - 1 then some picked.2 else none

def madeOf (flagSet : FlagSet) (spec : Text) (pick : Pick) : List (Text × Int) :=
  ((pick.bind (kept flagSet spec)).map fun value => (spec, value)).toList

def picksOf (spec : Text) (specs : List Text) (picks : List Pick) : List (Int × Int) :=
  (List.zipWith (fun own pick => if own = spec then pick else none) specs picks).filterMap id

section Picks

variable (flagSet : FlagSet) (odds : Int)

theorem mutate_spec_picks (spec : Text) : mutateSpec flagSet (some odds) spec = madeOf flagSet spec <$> pickSpec flagSet odds spec := by
  rw [mutateSpec, pickSpec, map_bind]
  refine congrArg _ (funext fun skipped => ?_)
  by_cases skips : skipped ≠ 0
  · rw [if_pos skips, if_pos skips]
    rfl
  · rw [if_neg skips, if_neg skips]
    cases present : flagSet.get? spec with
    | none => simp only [map_bind, map_pure, madeOf, kept, present, Option.bind_some, Option.map_some, Option.toList_some]
    | some value =>
        cases range : search spec with
        | none => simp only [map_pure, madeOf, kept, present, range, Option.bind_some, Option.map_none, Option.toList_none]
        | some ends =>
            simp only [map_bind]
            refine congrArg _ (funext fun chosen => ?_)
            by_cases stays : chosen ≠ ends.1 - 1
            · simp only [if_pos stays, map_bind, map_pure, madeOf, kept, present, range, Option.bind_some, Option.map_some,
                Option.toList_some]
            · simp only [if_neg stays, map_pure, madeOf, kept, present, range, Option.bind_some, Option.map_none, Option.toList_none]

theorem random_mutate_picks (specs : List Text) :
    randomMutate specs flagSet (some odds) =
      (fun picks => .ofItems (List.zipWith (madeOf flagSet) specs picks).flatten) <$> each (pickSpec flagSet odds) specs := by
  have each_spec : mutateSpec flagSet (some odds) = fun spec => madeOf flagSet spec <$> pickSpec flagSet odds spec :=
    funext (mutate_spec_picks flagSet odds)
  rw [randomMutate, each_spec, each_predrawn, ← map_eq_pure_bind, Functor.map_map]

theorem given_made (spec own : Text) (pick : Pick) :
    SortedDict.given spec (madeOf flagSet own pick) = if own = spec then (pick.bind (kept flagSet spec)).toList else [] := by
  by_cases same : own = spec
  · rw [if_pos same, madeOf, same]
    cases pick.bind (kept flagSet spec) with
    | none => rfl
    | some value => exact (SortedDict.given_single spec (spec, value)).trans (if_pos rfl)
  · rw [if_neg same, madeOf]
    cases pick.bind (kept flagSet own) with
    | none => rfl
    | some value => exact (SortedDict.given_single spec (own, value)).trans (if_neg same)

theorem picks_of_cons (spec own : Text) (specs : List Text) (pick : Pick) (picks : List Pick) :
    picksOf spec (own :: specs) (pick :: picks) = (if own = spec then pick else none).toList ++ picksOf spec specs picks := by
  rw [picksOf, List.zipWith_cons_cons, List.filterMap_cons]
  cases (if own = spec then pick else none) <;> rfl

theorem given_picks (spec : Text) (specs : List Text) (picks : List Pick) :
    SortedDict.given spec (List.zipWith (madeOf flagSet) specs picks).flatten =
      (picksOf spec specs picks).filterMap (kept flagSet spec) := by
  induction specs generalizing picks with
  | nil => rfl
  | cons own specs ih =>
      cases picks with
      | nil => rfl
      | cons pick picks =>
          rw [List.zipWith_cons_cons, List.flatten_cons, SortedDict.given_append, ih, given_made, picks_of_cons, List.filterMap_append]
          by_cases same : own = spec
          · rw [if_pos same, if_pos same]
            cases pick with
            | none => rfl
            | some picked =>
                cases value : kept flagSet spec picked <;> simp [value]
          · rw [if_neg same, if_neg same]
            rfl

-- The mutated flag set, spec by spec, from what was drawn.
theorem mutated_picks (specs : List Text) (source rest : Source) (result : FlagSet)
    (ran : randomMutate specs flagSet (some odds) source = .ok (result, rest)) :
    ∃ picks, each (pickSpec flagSet odds) specs source = .ok (picks, rest) ∧
      ∀ spec, result.get? spec = ((picksOf spec specs picks).filterMap (kept flagSet spec)).getLast? := by
  rw [random_mutate_picks] at ran
  obtain ⟨picks, drawn, made⟩ := map_ran _ _ source rest result ran
  refine ⟨picks, drawn, fun spec => ?_⟩
  rw [← made, SortedDict.of_items_last, given_picks]

end Picks

-- What the draws of one selected spec can be.
def Possible (flagSet : FlagSet) (spec : Text) (picked : Int × Int) : Prop :=
  match flagSet.get? spec, search spec with
  | none, none => picked.2 = 0
  | none, some (start, last) => start ≤ picked.2 ∧ picked.2 ≤ last
  | some _, none => True
  | some old, some (start, last) =>
      (picked.1 ≤ old + 1 ∧ old ≤ picked.1 + 1 ∧ (old < last → picked.1 < last)) ∧
        (picked.1 ≠ start - 1 → picked.2 = picked.1 ∨ picked.1 = -1 ∧ start ≤ picked.2 ∧ picked.2 ≤ last)

theorem whenever_flag (spec : Text) :
    Whenever (flag spec (-1)) fun made =>
      match search spec with
      | none => made = 0
      | some (start, last) => start ≤ made ∧ made ≤ last := by
  cases range : search spec with
  | none => exact whenever_of_always _ _ (always_boolean_flag spec range)
  | some ends =>
      by_cases filled : ends.1 < ends.2
      · exact whenever_of_always _ _ (always_numeric_flag spec ends.1 ends.2 range filled)
      · rw [flag, if_pos rfl, range]
        dsimp only
        rw [if_neg filled]
        exact whenever_throw _ _

theorem pick_possible (flagSet : FlagSet) (odds : Int) (spec : Text) :
    Whenever (pickSpec flagSet odds spec) fun pick => ∀ picked, pick = some picked → Possible flagSet spec picked := by
  rw [pickSpec]
  refine whenever_bind _ _ (fun _ => True) _ (fun _ _ _ _ => trivial) fun skipped _ => ?_
  by_cases skips : skipped ≠ 0
  · rw [if_pos skips]
    exact whenever_pure _ _ nofun
  · rw [if_neg skips]
    have new := whenever_flag spec
    cases present : flagSet.get? spec with
    | none =>
        refine whenever_bind _ _ _ _ new fun value within => whenever_pure _ _ fun picked same => ?_
        rw [← Option.some.inj same, Possible, present]
        cases range : search spec with
        | none => simpa only [range] using within
        | some ends => simpa only [range] using within
    | some old =>
        cases range : search spec with
        | none =>
            refine whenever_pure _ _ fun picked _ => ?_
            rw [Possible, present, range]
            trivial
        | some ends =>
            rw [range] at new
            refine whenever_bind _ _ _ _ (whenever_choice Raised.valueError _) fun chosen among => ?_
            have near : chosen ≤ old + 1 ∧ old ≤ chosen + 1 ∧ (old < ends.2 → chosen < ends.2) := by
              by_cases room : old + 1 < ends.2
              · rw [if_pos room] at among
                simp only [List.mem_append, List.mem_singleton] at among
                omega
              · rw [if_neg room] at among
                simp only [List.append_nil, List.mem_append, List.mem_singleton] at among
                omega
            by_cases stays : chosen ≠ ends.1 - 1
            · rw [if_pos stays]
              refine whenever_bind _ _ (fun made => made = chosen ∨ chosen = -1 ∧ ends.1 ≤ made ∧ made ≤ ends.2) _ ?_ fun made fits =>
                whenever_pure _ _ fun picked same => ?_
              · by_cases redrawn : chosen = -1
                · rw [redrawn]
                  exact fun source value rest ran => .inr ⟨rfl, new source value rest ran⟩
                · exact whenever_of_always _ _ (always_imp _ _ _ (always_flag spec chosen redrawn) fun _ same => .inl same)
              · rw [← Option.some.inj same, Possible, present, range]
                exact ⟨near, fun _ => fits⟩
            · rw [if_neg stays]
              refine whenever_pure _ _ fun picked same => ?_
              rw [← Option.some.inj same, Possible, present, range]
              exact ⟨near, fun other => absurd other stays⟩

theorem picks_possible (flagSet : FlagSet) (specs : List Text) (picks : List Pick)
    (possible : List.Forall₂ (fun spec pick => ∀ picked, pick = some picked → Possible flagSet spec picked) specs picks)
    (spec : Text) : ∀ picked ∈ picksOf spec specs picks, Possible flagSet spec picked := by
  induction possible with
  | nil => exact nofun
  | cons here _ ih =>
      intro picked member
      rw [picks_of_cons, List.mem_append] at member
      cases member with
      | inl first =>
          rw [Option.mem_toList] at first
          split at first
          · rename_i same
            rw [← same]
            exact here picked first
          · exact absurd first nofun
      | inr later => exact ih picked later

-- The documented range of a flag, whose end is exclusive; a boolean flag has the value 0.
def InRange (spec : Text) (value : Int) : Prop :=
  match search spec with
  | none => value = 0
  | some (start, last) => start ≤ value ∧ value < last

def Beside (old value : Int) : Prop := value ≤ old + 1 ∧ old ≤ value + 1

-- What mutation is to do with one spec: nothing unless it is selected.
structure MutatedRight (flagSet result : FlagSet) (selected : Prop) (spec : Text) : Prop where
  unselected : ¬ selected → result.get? spec = flagSet.get? spec
  selected : selected →
    match flagSet.get? spec, search spec with
    | none, _ => ∃ value, result.get? spec = some value ∧ InRange spec value
    | some _, none => result.get? spec = none
    | some old, some (start, _) =>
        (∃ value, result.get? spec = some value ∧ start ≤ value ∧ Beside old value) ∨
          result.get? spec = none ∧ ∃ value, Beside old value ∧ value < start

-- When mutation does it: an unselected spec had no flag, the last value drawn for a new
-- numeric flag is not the end, and a flag below its start is dropped or steps to it.
def DrawnRight (flagSet : FlagSet) (spec : Text) (picked : List (Int × Int)) : Prop :=
  if picked = [] then flagSet.get? spec = none
  else
    match flagSet.get? spec, search spec with
    | none, some (_, last) => picked.getLast?.map (·.2) ≠ some last
    | some old, some (start, _) =>
        old < start → ∀ value, (picked.filterMap (kept flagSet spec)).getLast? = some value → old + 1 = start ∧ value = start
    | _, _ => True

theorem picks_of_listed (spec : Text) (specs : List Text) (picks : List Pick) (picked : Int × Int)
    (member : picked ∈ picksOf spec specs picks) : spec ∈ specs := by
  induction specs generalizing picks with
  | nil => exact absurd member nofun
  | cons own specs ih =>
      cases picks with
      | nil => exact absurd member nofun
      | cons pick picks =>
          rw [picks_of_cons, List.mem_append] at member
          by_cases same : own = spec
          · rw [same]
            exact List.mem_cons_self
          · rw [if_neg same] at member
            exact List.mem_cons_of_mem own (ih picks (member.resolve_left nofun))

theorem kept_new (flagSet : FlagSet) (spec : Text) (picked : List (Int × Int)) (absent : flagSet.get? spec = none) :
    picked.filterMap (kept flagSet spec) = picked.map (·.2) := by
  have always : kept flagSet spec = fun one => some one.2 := funext fun one => by rw [kept, absent]
  rw [always]
  exact congrFun List.filterMap_eq_map' picked

section Drawn

variable (flagSet result : FlagSet) (spec : Text) (picked : List (Int × Int))

theorem new_flag_right_iff (absent : flagSet.get? spec = none) (some_pick : picked ≠ [])
    (possible : ∀ one ∈ picked, Possible flagSet spec one)
    (shown : result.get? spec = (picked.filterMap (kept flagSet spec)).getLast?) :
    (∃ value, result.get? spec = some value ∧ InRange spec value) ↔ DrawnRight flagSet spec picked := by
  obtain ⟨last, final⟩ := Option.isSome_iff_exists.mp (List.getLast?_isSome.mpr some_pick)
  have own := possible last (List.mem_of_getLast? final)
  rw [kept_new flagSet spec picked absent, List.getLast?_map, final] at shown
  rw [DrawnRight, if_neg some_pick, absent, final, shown]
  rw [Possible, absent] at own
  cases range : search spec with
  | none =>
      rw [range] at own
      exact iff_of_true ⟨last.2, rfl, by rw [InRange, range]; exact own⟩ trivial
  | some ends =>
      rw [range] at own
      simp only [InRange, range, Option.map_some, Option.some.injEq, exists_eq_left', ne_eq]
      omega

theorem stepped_flag_right_iff (old start last : Int) (present : flagSet.get? spec = some old)
    (numeric : search spec = some (start, last)) (some_pick : picked ≠ [])
    (possible : ∀ one ∈ picked, Possible flagSet spec one)
    (shown : result.get? spec = (picked.filterMap (kept flagSet spec)).getLast?) :
    ((∃ value, result.get? spec = some value ∧ start ≤ value ∧ Beside old value) ∨
        result.get? spec = none ∧ ∃ value, Beside old value ∧ value < start) ↔ DrawnRight flagSet spec picked := by
  have nonnegative := search_nonnegative spec start last numeric
  have kept_eq : ∀ one, kept flagSet spec one = if one.1 ≠ start - 1 then some one.2 else none :=
    fun one => by rw [kept, present, numeric]
  have near : ∀ one ∈ picked, Beside old one.1 ∧
      (one.1 ≠ start - 1 → one.2 = one.1 ∨ one.1 = -1 ∧ start ≤ one.2 ∧ one.2 ≤ last) := by
    intro one member
    have own := possible one member
    rw [Possible, present, numeric] at own
    exact ⟨⟨own.1.1, own.1.2.1⟩, own.2⟩
  rw [DrawnRight, if_neg some_pick, present, numeric, shown]
  cases final : (picked.filterMap (kept flagSet spec)).getLast? with
  | none =>
      refine iff_of_true (.inr ⟨rfl, ?_⟩) nofun
      obtain ⟨one, member⟩ := List.exists_mem_of_ne_nil picked some_pick
      have dropped := List.filterMap_eq_nil_iff.mp (List.getLast?_eq_none_iff.mp final) one member
      rw [kept_eq] at dropped
      have below : one.1 = start - 1 := by
        by_contra other
        rw [if_pos other] at dropped
        exact absurd dropped nofun
      exact ⟨one.1, (near one member).1, by omega⟩
  | some value =>
      obtain ⟨one, member, made⟩ := List.mem_filterMap.mp (List.mem_of_getLast? final)
      rw [kept_eq] at made
      split at made
      · rename_i stays
        obtain ⟨beside, drawn⟩ := near one member
        have drawn := drawn stays
        rw [Option.some.inj made] at drawn
        simp only [Beside, Option.some.injEq, exists_eq_left', reduceCtorEq, false_and, or_false, forall_eq'] at beside ⊢
        omega
      · exact absurd made nofun

theorem mutated_right_iff (possible : ∀ one ∈ picked, Possible flagSet spec one)
    (shown : result.get? spec = (picked.filterMap (kept flagSet spec)).getLast?) :
    MutatedRight flagSet result (picked ≠ []) spec ↔ DrawnRight flagSet spec picked := by
  by_cases empty : picked = []
  · rw [DrawnRight, if_pos empty]
    rw [empty] at shown
    constructor
    · exact fun right => (right.unselected (not_not.mpr empty)).symm.trans shown
    · exact fun absent => ⟨fun _ => shown.trans absent.symm, fun some_pick => absurd empty some_pick⟩
  · have selected : MutatedRight flagSet result (picked ≠ []) spec ↔
        (match flagSet.get? spec, search spec with
        | none, _ => ∃ value, result.get? spec = some value ∧ InRange spec value
        | some _, none => result.get? spec = none
        | some old, some (start, _) =>
            (∃ value, result.get? spec = some value ∧ start ≤ value ∧ Beside old value) ∨
              result.get? spec = none ∧ ∃ value, Beside old value ∧ value < start) :=
      ⟨fun right => right.selected empty, fun right => ⟨fun unselected => absurd empty unselected, fun _ => right⟩⟩
    rw [selected]
    cases present : flagSet.get? spec with
    | none => exact new_flag_right_iff flagSet result spec picked present empty possible shown
    | some old =>
        cases numeric : search spec with
        | none =>
            have dropped : picked.filterMap (kept flagSet spec) = [] := by
              refine List.filterMap_eq_nil_iff.mpr fun one _ => ?_
              rw [kept, present, numeric]
            rw [DrawnRight, if_neg empty, present, numeric, shown, dropped]
            exact iff_of_true rfl trivial
        | some ends => exact stepped_flag_right_iff flagSet result spec picked old ends.1 ends.2 present numeric empty possible shown

end Drawn

theorem random_mutate_right_iff (specs : List Text) (flagSet result : FlagSet) (odds : Int) (source rest : Source)
    (ran : randomMutate specs flagSet (some odds) source = .ok (result, rest)) :
    ∃ picks, each (pickSpec flagSet odds) specs source = .ok (picks, rest) ∧
      ((∀ spec ∈ specs, MutatedRight flagSet result (picksOf spec specs picks ≠ []) spec) ↔
        ∀ spec ∈ specs, DrawnRight flagSet spec (picksOf spec specs picks)) := by
  obtain ⟨picks, drawn, shown⟩ := mutated_picks flagSet odds specs source rest result ran
  have possible := whenever_each _ _ specs (fun spec _ => pick_possible flagSet odds spec) source picks rest drawn
  refine ⟨picks, drawn, forall₂_congr fun spec _ => ?_⟩
  exact mutated_right_iff flagSet result spec _ (picks_possible flagSet specs picks possible spec) (shown spec)

section Sample

def boolSpec : Text := "-falign-jumps".toList

def boolFlags : FlagSet := SortedDict.empty.insert boolSpec 0

-- One boolean flag at the rate 1, and the numbers 0, 0, … or 1, 1, … drawn.
theorem selected_flag_right :
    ∃ result rest, randomMutate [boolSpec] boolFlags (some 1) (fun _ => 0) = .ok (result, rest) ∧
      ∃ picks, each (pickSpec boolFlags 1) [boolSpec] (fun _ => 0) = .ok (picks, rest) ∧
        ((∀ spec ∈ [boolSpec], MutatedRight boolFlags result (picksOf spec [boolSpec] picks ≠ []) spec) ↔
          ∀ spec ∈ [boolSpec], DrawnRight boolFlags spec (picksOf spec [boolSpec] picks)) :=
  ⟨_, _, rfl, random_mutate_right_iff [boolSpec] boolFlags _ 1 (fun _ => 0) _ rfl⟩

theorem unselected_flag_is_lost :
    ∃ result rest picks, randomMutate [boolSpec] boolFlags (some 1) (fun _ => 1) = .ok (result, rest) ∧
      each (pickSpec boolFlags 1) [boolSpec] (fun _ => 1) = .ok (picks, rest) ∧
      ¬ ∀ spec ∈ [boolSpec], MutatedRight boolFlags result (picksOf spec [boolSpec] picks ≠ []) spec := by
  refine ⟨_, _, _, rfl, rfl, fun right => ?_⟩
  have kept := (right boolSpec List.mem_cons_self).unselected (by decide)
  exact absurd kept (by decide)

end Sample

end ToolchainUtils.Bestflags
