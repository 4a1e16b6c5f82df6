import Mathlib.Data.Finset.Order
import Mathlib.Data.Fintype.Pi
import Mathlib.Data.Int.Interval
import Mathlib.Data.Set.Finite.Basic
import Mathlib.Order.Interval.Set.Infinite
import ToolchainUtils.Bestflags.Flags

set_option autoImplicit false

namespace ToolchainUtils.Bestflags

open PyString Randomised

-- No numeric flag is below the start of its range.
def Legal (flags : FlagSet) : Prop :=
  ∀ spec value, flags.get? spec = some value → ∀ start last, search spec = some (start, last) → start ≤ value

-- A box of flags that no step of the algorithms leaves.
structure Bounds where
  specs : Finset Text
  low : Int
  high : Int
  lowNonpositive : low ≤ 0
  highNonnegative : 0 ≤ high
  ceiling : ∀ spec ∈ specs, ∀ start last, search spec = some (start, last) → start ≤ high ∧ last ≤ high

def Bounds.Admits (bounds : Bounds) (spec : Text) (value : Int) : Prop :=
  spec ∈ bounds.specs ∧ bounds.low ≤ value ∧ value ≤ bounds.high ∧
    ∀ start last, search spec = some (start, last) → start ≤ value

def Bounds.Holds (bounds : Bounds) (flags : FlagSet) : Prop :=
  ∀ spec value, flags.get? spec = some value → bounds.Admits spec value

theorem search_here_nonnegative (text : Text) (start last : Int) (found : searchHere text = some (start, last)) :
    0 ≤ start := by
  unfold searchHere at found
  split at found
  case h_2 => exact absurd found nofun
  split at found
  case h_2 => exact absurd found nofun
  split at found
  case h_2 => exact absurd found nofun
  split at found
  case h_2 => exact absurd found nofun
  next low high _ _ =>
    rw [← (Prod.mk.inj (Option.some.inj found)).1]
    exact Int.natCast_nonneg low

theorem search_nonnegative (spec : Text) (start last : Int) (found : search spec = some (start, last)) : 0 ≤ start := by
  induction spec with
  | nil => exact absurd found nofun
  | cons c rest ih =>
      rw [search] at found
      split at found
      next range here => exact search_here_nonnegative (c :: rest) start last (here.trans found)
      next => exact ih found

theorem holds_legal (bounds : Bounds) (flags : FlagSet) (held : bounds.Holds flags) : Legal flags :=
  fun spec value found => (held spec value found).2.2.2

theorem holds_insert (bounds : Bounds) (flags : FlagSet) (spec : Text) (value : Int) (held : bounds.Holds flags)
    (admitted : bounds.Admits spec value) : bounds.Holds (flags.insert spec value) := by
  intro other found present
  rw [SortedDict.get_insert] at present
  by_cases same : other = spec
  · rw [if_pos same] at present
    exact same ▸ Option.some.inj present ▸ admitted
  · rw [if_neg same] at present
    exact held other found present

theorem holds_erase (bounds : Bounds) (flags : FlagSet) (spec : Text) (held : bounds.Holds flags) :
    bounds.Holds (flags.erase spec) := by
  intro other found present
  rw [SortedDict.get_erase] at present
  by_cases same : other = spec
  · rw [if_pos same] at present
    exact absurd present nofun
  · rw [if_neg same] at present
    exact held other found present

theorem holds_of_items (bounds : Bounds) (items : List (Text × Int))
    (admitted : ∀ item ∈ items, bounds.Admits item.1 item.2) : bounds.Holds (.ofItems items) := by
  intro spec value found
  exact admitted (spec, value) (SortedDict.of_items_get items spec value found)

theorem holds_entries (bounds : Bounds) (flags : FlagSet) (held : bounds.Holds flags) (item : Text × Int)
    (member : item ∈ flags.entries) : bounds.Admits item.1 item.2 :=
  held item.1 item.2 ((SortedDict.mem_entries flags item.1 item.2).mp member)

theorem zero_admitted (bounds : Bounds) (spec : Text) (known : spec ∈ bounds.specs) (boolean : search spec = none) :
    bounds.Admits spec 0 := by
  refine ⟨known, bounds.lowNonpositive, bounds.highNonnegative, ?_⟩
  intro start last found
  exact absurd (boolean.symm.trans found) nofun

theorem start_admitted (bounds : Bounds) (spec : Text) (known : spec ∈ bounds.specs) (value start last : Int)
    (found : search spec = some (start, last)) (above : start ≤ value) (below : value ≤ bounds.high) :
    bounds.Admits spec value := by
  have nonnegative := search_nonnegative spec start last found
  have low := bounds.lowNonpositive
  refine ⟨known, by omega, below, ?_⟩
  intro otherStart otherLast again
  have same := Option.some.inj (found.symm.trans again)
  rw [← (Prod.mk.inj same).1]
  exact above

-- A flag set of the box is determined by the value, if any, at each of finitely
-- many specs.
theorem bounds_finite (bounds : Bounds) : {flags | bounds.Holds flags}.Finite := by
  let values : Set (Option Int) := insert none (some '' Set.Icc bounds.low bounds.high)
  have valuesFinite : values.Finite := ((Set.finite_Icc bounds.low bounds.high).image some).insert none
  let table : FlagSet → bounds.specs → Option Int := fun flags spec => flags.get? spec
  have tablesFinite : (Set.univ.pi fun _ : bounds.specs => values).Finite := Set.Finite.pi fun _ => valuesFinite
  apply Set.Finite.of_injOn (f := table) _ _ tablesFinite
  · intro flags held spec _
    cases found : flags.get? spec with
    | none => simp [table, found, values]
    | some value =>
        have admitted := held spec value found
        simp [table, found, values, admitted.2.1, admitted.2.2.1]
  · intro first heldFirst second heldSecond same
    have unknown : ∀ flags, bounds.Holds flags → ∀ spec, spec ∉ bounds.specs → flags.get? spec = none := by
      intro flags held spec outside
      exact Option.eq_none_iff_forall_ne_some.mpr fun value found => outside (held spec value found).1
    apply SortedDict.get_ext
    intro spec
    by_cases known : spec ∈ bounds.specs
    · exact congrFun same ⟨spec, known⟩
    · rw [unknown first heldFirst spec known, unknown second heldSecond spec known]

-- Specs and legal flag sets to start from always lie in some box.
theorem bounds_exist (specs : List Text) (flagSets : List FlagSet) (legal : ∀ flags ∈ flagSets, Legal flags) :
    ∃ bounds : Bounds, (∀ spec ∈ specs, spec ∈ bounds.specs) ∧ ∀ flags ∈ flagSets, bounds.Holds flags := by
  let known := specs ++ flagSets.flatMap SortedDict.keys
  let ends := known.flatMap fun spec => (search spec).toList.flatMap fun range => [range.1, range.2]
  let values := flagSets.flatMap fun flags => flags.entries.map (·.2)
  obtain ⟨high, above⟩ := (0 :: (ends ++ values)).toFinset.exists_le
  obtain ⟨depth, below⟩ := (0 :: values.map fun value => -value).toFinset.exists_le
  have zeroBelow := below 0 (by simp)
  have ceiling : ∀ spec ∈ known.toFinset, ∀ start last, search spec = some (start, last) →
      start ≤ high ∧ last ≤ high := by
    intro spec member start last found
    have range : ∀ bound ∈ [start, last], bound ∈ ends := by
      intro bound inside
      refine List.mem_flatMap.mpr ⟨spec, List.mem_toFinset.mp member, ?_⟩
      simpa [found] using inside
    constructor
    · exact above start (by simp [range start (by simp)])
    · exact above last (by simp [range last (by simp)])
  refine ⟨⟨known.toFinset, -depth, high, by omega, above 0 (by simp), ceiling⟩, ?_, ?_⟩
  · intro spec member
    simp [known, member]
  · intro flags member spec value found
    have isValue : value ∈ values := by
      refine List.mem_flatMap.mpr ⟨flags, member, List.mem_map.mpr ⟨(spec, value), ?_, rfl⟩⟩
      exact (SortedDict.mem_entries flags spec value).mpr found
    have isKey : spec ∈ flags.keys := (SortedDict.mem_keys flags spec).mpr ⟨value, found⟩
    have low := below (-value) (by simp [isValue])
    have isHigh := above value (by simp [isValue])
    refine ⟨?_, by dsimp only; omega, isHigh, legal flags member spec value found⟩
    simp only [List.mem_toFinset, known, List.mem_append, List.mem_flatMap]
    exact .inr ⟨flags, member, isKey⟩

theorem always_randint (low high : Int) (filled : low ≤ high) :
    Always (randint low high) fun value => low ≤ value ∧ value ≤ high := by
  rw [randint, if_pos filled]
  apply always_bind _ _ _ _ (always_draw (high - low).toNat)
  intro offset bound
  apply always_pure
  omega

theorem always_flag (spec : Text) (value : Int) (given : value ≠ -1) :
    Always (flag spec value) fun made => made = value := by
  rw [flag, if_neg given]
  exact always_pure value _ rfl

theorem always_boolean_flag (spec : Text) (boolean : search spec = none) :
    Always (flag spec (-1)) fun made => made = 0 := by
  rw [flag, if_pos rfl, boolean]
  exact always_pure 0 _ rfl

theorem always_numeric_flag (spec : Text) (start last : Int) (numeric : search spec = some (start, last))
    (filled : start < last) : Always (flag spec (-1)) fun made => start ≤ made ∧ made ≤ last := by
  rw [flag, if_pos rfl, numeric]
  dsimp only
  rw [if_pos filled]
  exact always_randint start last (by omega)

-- What climbNext returns for legal flags, which draws nothing.
def neighbours (flags : FlagSet) (spec : Text) : List FlagSet :=
  match flags.get? spec, search spec with
  | none, some (start, _) => [flags.insert spec start]
  | none, none => [flags.insert spec 0]
  | some _, none => [flags.erase spec]
  | some value, some (start, last) =>
      (if value + 1 < last then [flags.insert spec (value + 1)] else []) ++
        [if start < value then flags.insert spec (value - 1) else flags.erase spec]

theorem climb_next_legal (flags : FlagSet) (legal : Legal flags) (spec : Text) :
    Always (climbNext flags spec) fun found => found = neighbours flags spec := by
  rw [climbNext, neighbours]
  cases present : flags.get? spec with
  | none =>
      cases range : search spec with
      | none =>
          apply always_bind _ _ _ _ (always_boolean_flag spec range)
          intro value same
          exact always_pure _ _ (same ▸ rfl)
      | some range' =>
          obtain ⟨start, last⟩ := range'
          have nonnegative := search_nonnegative spec start last range
          apply always_bind _ _ _ _ (always_flag spec start (by omega))
          intro value same
          exact always_pure _ _ (same ▸ rfl)
  | some value =>
      cases range : search spec with
      | none => exact always_pure _ _ rfl
      | some range' =>
          obtain ⟨start, last⟩ := range'
          have nonnegative := search_nonnegative spec start last range
          have above := legal spec value present start last range
          dsimp only
          have upper : Always (climbUp flags spec value last) fun found =>
              found = if value + 1 < last then [flags.insert spec (value + 1)] else [] := by
            rw [climbUp]
            by_cases room : value + 1 < last
            · rw [if_pos room, if_pos room]
              apply always_bind _ _ _ _ (always_flag spec (value + 1) (by omega))
              intro more same
              exact always_pure _ _ (same ▸ rfl)
            · rw [if_neg room, if_neg room]
              exact always_pure [] _ rfl
          have lower : Always (climbDown flags spec value start) fun found =>
              found = [if start < value then flags.insert spec (value - 1) else flags.erase spec] := by
            rw [climbDown]
            by_cases room : start < value
            · rw [if_pos room, if_pos room]
              apply always_bind _ _ _ _ (always_flag spec (value - 1) (by omega))
              intro less same
              exact always_pure _ _ (same ▸ rfl)
            · rw [if_neg room, if_neg room]
              exact always_pure _ _ rfl
          apply always_bind _ _ _ _ upper
          intro larger isUpper
          apply always_bind _ _ _ _ lower
          intro lesser isLower
          exact always_pure _ _ (by rw [isUpper, isLower])

theorem neighbours_held (bounds : Bounds) (flags : FlagSet) (spec : Text) (held : bounds.Holds flags)
    (known : spec ∈ bounds.specs) (neighbour : FlagSet) (member : neighbour ∈ neighbours flags spec) :
    bounds.Holds neighbour := by
  rw [neighbours] at member
  cases present : flags.get? spec with
  | none =>
      cases range : search spec with
      | none =>
          simp only [present, range, List.mem_singleton] at member
          rw [member]
          exact holds_insert bounds flags spec 0 held (zero_admitted bounds spec known range)
      | some range' =>
          obtain ⟨start, last⟩ := range'
          simp only [present, range, List.mem_singleton] at member
          rw [member]
          exact holds_insert bounds flags spec start held (start_admitted bounds spec known start start last range
            (Int.le_refl start) (bounds.ceiling spec known start last range).1)
  | some value =>
      have admitted := held spec value present
      cases range : search spec with
      | none =>
          simp only [present, range, List.mem_singleton] at member
          rw [member]
          exact holds_erase bounds flags spec held
      | some range' =>
          obtain ⟨start, last⟩ := range'
          have above := admitted.2.2.2 start last range
          have ceiling := bounds.ceiling spec known start last range
          simp only [present, range, List.mem_append, List.mem_singleton] at member
          cases member with
          | inl upper =>
              by_cases room : value + 1 < last
              · rw [if_pos room, List.mem_singleton] at upper
                rw [upper]
                exact holds_insert bounds flags spec _ held
                  (start_admitted bounds spec known (value + 1) start last range (by omega) (by omega))
              · rw [if_neg room] at upper
                exact absurd upper nofun
          | inr lower =>
              rw [lower]
              by_cases room : start < value
              · rw [if_pos room]
                have below := admitted.2.2.1
                exact holds_insert bounds flags spec _ held
                  (start_admitted bounds spec known (value - 1) start last range (by omega) (by omega))
              · rw [if_neg room]
                exact holds_erase bounds flags spec held

end ToolchainUtils.Bestflags
