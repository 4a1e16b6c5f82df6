import ToolchainUtils.Bestflags.FlagUniverse

set_option autoImplicit false

namespace ToolchainUtils.Bestflags

open PyString Randomised

-- A boolean flag that is on has the value 0.
def ValueInRange (spec : Text) (value : Int) : Prop :=
  match search spec with
  | none => value = 0
  | some (start, last) => start ≤ value ∧ value < last

-- A dictionary over the specs with values in range.
def Over (specs : List Text) (flags : FlagSet) : Prop :=
  ∀ spec value, flags.get? spec = some value → spec ∈ specs ∧ ValueInRange spec value

def Filled (spec : Text) : Prop := ∀ start last, search spec = some (start, last) → start < last

-- The flag of a spec with another value, or turned off.
def withValue (flags : FlagSet) (spec : Text) : Option Int → FlagSet
  | none => flags.erase spec
  | some value => flags.insert spec value

-- The values next to a value, where none is the flag that is off.
def nextValues (spec : Text) (value : Option Int) : List (Option Int) :=
  match value, search spec with
  | none, some (start, _) => [some start]
  | none, none => [some 0]
  | some _, none => [none]
  | some value, some (start, last) =>
      (if value + 1 < last then [some (value + 1)] else []) ++ [if start < value then some (value - 1) else none]

theorem with_value_here (flags : FlagSet) (spec : Text) (value : Option Int) : (withValue flags spec value).get? spec = value := by
  cases value with
  | none => rw [withValue, SortedDict.get_erase, if_pos rfl]
  | some value => rw [withValue, SortedDict.get_insert, if_pos rfl]

theorem with_value_elsewhere (flags : FlagSet) (spec : Text) (value : Option Int) (other : Text) (different : other ≠ spec) :
    (withValue flags spec value).get? other = flags.get? other := by
  cases value with
  | none => rw [withValue, SortedDict.get_erase, if_neg different]
  | some value => rw [withValue, SortedDict.get_insert, if_neg different]

theorem neighbours_with_value (flags : FlagSet) (spec : Text) :
    neighbours flags spec = (nextValues spec (flags.get? spec)).map (withValue flags spec) := by
  unfold neighbours nextValues
  cases flags.get? spec with
  | none => cases search spec <;> rfl
  | some value =>
      cases search spec with
      | none => rfl
      | some range =>
          obtain ⟨start, last⟩ := range
          by_cases room : value + 1 < last
          · by_cases below : start < value <;> simp [room, below, withValue]
          · by_cases below : start < value <;> simp [room, below, withValue]

theorem with_value_injective (flags : FlagSet) (spec : Text) : Function.Injective (withValue flags spec) := by
  intro first second same
  rw [← with_value_here flags spec first, same, with_value_here]

def SameElsewhere (spec : Text) (first second : FlagSet) : Prop := ∀ other, other ≠ spec → first.get? other = second.get? other

theorem mem_neighbours_iff (first second : FlagSet) (spec : Text) :
    second ∈ neighbours first spec ↔ second.get? spec ∈ nextValues spec (first.get? spec) ∧ SameElsewhere spec first second := by
  rw [neighbours_with_value, List.mem_map]
  constructor
  · rintro ⟨value, next, rfl⟩
    rw [with_value_here]
    exact ⟨next, fun other different => (with_value_elsewhere first spec value other different).symm⟩
  · rintro ⟨next, same⟩
    refine ⟨second.get? spec, next, SortedDict.get_ext _ _ fun other => ?_⟩
    by_cases here : other = spec
    · rw [here, with_value_here]
    · rw [with_value_elsewhere _ _ _ _ here, same other here]

section Values

variable (spec : Text) (filled : Filled spec)

def InsideRange (value : Option Int) : Prop := ∀ found, value = some found → ValueInRange spec found

theorem mem_next_numeric (start last value : Int) (numeric : search spec = some (start, last)) (next : Option Int) :
    next ∈ nextValues spec (some value) ↔
      (value + 1 < last ∧ next = some (value + 1)) ∨ (start < value ∧ next = some (value - 1)) ∨ (value ≤ start ∧ next = none) := by
  simp only [nextValues, numeric, List.mem_append, List.mem_singleton]
  by_cases room : value + 1 < last
  · by_cases below : start < value <;> simp [room, below, not_lt.mp, not_le.mpr]
  · by_cases below : start < value <;> simp [room, below, not_lt.mp, not_le.mpr]

theorem inside_boolean (boolean : search spec = none) (value : Option Int) (inside : InsideRange spec value) :
    value = none ∨ value = some 0 := by
  cases value with
  | none => exact .inl rfl
  | some value =>
      have zero := inside value rfl
      rw [ValueInRange, boolean] at zero
      exact .inr (congrArg some zero)

theorem inside_numeric (start last value : Int) (numeric : search spec = some (start, last)) :
    InsideRange spec (some value) ↔ start ≤ value ∧ value < last := by
  simp only [InsideRange, ValueInRange, numeric, Option.some_inj, forall_eq']

include filled

-- Up pairs with down, and off with the start of the range.
theorem next_symmetric (first second : Option Int) (firstInside : InsideRange spec first) (secondInside : InsideRange spec second)
    (next : second ∈ nextValues spec first) : first ∈ nextValues spec second := by
  cases range : search spec with
  | none =>
      simp only [nextValues, range] at next ⊢
      cases inside_boolean spec range first firstInside with
      | inl off =>
          cases inside_boolean spec range second secondInside with
          | inl stays => simp [off, stays] at next
          | inr on => simp [off, on]
      | inr on =>
          cases inside_boolean spec range second secondInside with
          | inl off => simp [off, on]
          | inr stays => simp [on, stays] at next
  | some ends =>
      obtain ⟨start, last⟩ := ends
      have room := filled start last range
      cases first with
      | none =>
          simp only [nextValues, range, List.mem_singleton] at next
          rw [next, mem_next_numeric spec start last start range]
          exact .inr (.inr ⟨le_refl _, rfl⟩)
      | some value =>
          rw [inside_numeric spec start last value range] at firstInside
          rw [mem_next_numeric spec start last value range] at next
          rcases next with ⟨_, up⟩ | ⟨_, down⟩ | ⟨least, off⟩
          · rw [up, mem_next_numeric spec start last _ range]
            exact .inr (.inl ⟨by omega, by rw [Int.add_sub_cancel]⟩)
          · rw [down, mem_next_numeric spec start last _ range]
            exact .inl ⟨by omega, by rw [Int.sub_add_cancel]⟩
          · have least : value = start := le_antisymm least firstInside.1
            simp only [off, nextValues, range, least, List.mem_singleton]

theorem next_inside (first next : Option Int) (inside : InsideRange spec first) (member : next ∈ nextValues spec first) :
    InsideRange spec next := by
  cases range : search spec with
  | none =>
      intro value found
      rw [ValueInRange, range]
      cases first with
      | none => simpa [nextValues, range, found] using member
      | some _ => simp [nextValues, range, found] at member
  | some ends =>
      obtain ⟨start, last⟩ := ends
      have room := filled start last range
      cases first with
      | none =>
          simp only [nextValues, range, List.mem_singleton] at member
          rw [member, inside_numeric spec start last start range]
          exact ⟨le_refl start, room⟩
      | some value =>
          rw [inside_numeric spec start last value range] at inside
          rw [mem_next_numeric spec start last value range] at member
          rcases member with ⟨above, up⟩ | ⟨below, down⟩ | ⟨_, off⟩
          · rw [up, inside_numeric spec start last _ range]
            omega
          · rw [down, inside_numeric spec start last _ range]
            omega
          · rw [off]
            exact fun found same => absurd same.symm (Option.some_ne_none found)

omit filled in
theorem next_different (value : Option Int) : value ∉ nextValues spec value := by
  cases range : search spec with
  | none => cases value <;> simp [nextValues, range]
  | some ends =>
      obtain ⟨start, last⟩ := ends
      cases value with
      | none => simp [nextValues, range]
      | some value =>
          rw [mem_next_numeric spec start last value range]
          rintro (⟨_, up⟩ | ⟨_, down⟩ | ⟨_, off⟩)
          · have same := Option.some.inj up
            omega
          · have same := Option.some.inj down
            omega
          · exact absurd off (Option.some_ne_none value)

omit filled in
theorem next_distinct (value : Option Int) : (nextValues spec value).Nodup := by
  unfold nextValues
  cases value with
  | none => cases search spec <;> exact List.nodup_singleton _
  | some value =>
      cases search spec with
      | none => exact List.nodup_singleton _
      | some ends =>
          obtain ⟨start, last⟩ := ends
          have apart : value + 1 ≠ value - 1 := by omega
          by_cases room : value + 1 < last
          · by_cases below : start < value <;> simp [room, below, apart]
          · simp [room]

end Values

theorem over_with_value (specs : List Text) (flags next : FlagSet) (spec : Text) (known : spec ∈ specs) (allowed : Over specs flags)
    (same : SameElsewhere spec flags next) (inside : InsideRange spec (next.get? spec)) : Over specs next := by
  intro other value found
  by_cases here : other = spec
  · subst here
    exact ⟨known, inside value found⟩
  · exact allowed other value (by rw [same other here, found])

theorem neighbourhood_symmetric (specs : List Text) (filled : ∀ spec ∈ specs, Filled spec) (first second : FlagSet)
    (firstOver : Over specs first) (secondOver : Over specs second) (spec : Text) (known : spec ∈ specs) :
    Always (climbNext first spec) fun found => Always (climbNext second spec) fun back =>
      (second ∈ found ↔ first ∈ back) ∧
        (second ∈ found → first.get? spec ≠ second.get? spec ∧ SameElsewhere spec first second) ∧
        found.Nodup ∧ ∀ next ∈ found, Over specs next := by
  have legal : ∀ flags, Over specs flags → Legal flags := by
    intro flags allowed other value found start last range
    have inside := (allowed other value found).2
    rw [ValueInRange, range] at inside
    exact inside.1
  have inside : ∀ flags, Over specs flags → InsideRange spec (flags.get? spec) :=
    fun flags allowed value found => (allowed spec value found).2
  apply always_imp _ _ _ (climb_next_legal first (legal first firstOver) spec)
  rintro found rfl
  apply always_imp _ _ _ (climb_next_legal second (legal second secondOver) spec)
  rintro back rfl
  refine ⟨?_, fun member => ?_, ?_, fun next member => ?_⟩
  · rw [mem_neighbours_iff, mem_neighbours_iff]
    constructor
    · rintro ⟨next, same⟩
      exact ⟨next_symmetric spec (filled spec known) _ _ (inside first firstOver) (inside second secondOver) next,
        fun other different => (same other different).symm⟩
    · rintro ⟨next, same⟩
      exact ⟨next_symmetric spec (filled spec known) _ _ (inside second secondOver) (inside first firstOver) next,
        fun other different => (same other different).symm⟩
  · obtain ⟨next, same⟩ := (mem_neighbours_iff first second spec).mp member
    exact ⟨fun stays => next_different spec _ (stays ▸ next), same⟩
  · rw [neighbours_with_value]
    exact (next_distinct spec _).map (with_value_injective first spec)
  · obtain ⟨value, same⟩ := (mem_neighbours_iff first next spec).mp member
    exact over_with_value specs first next spec known firstOver same
      (next_inside spec (filled spec known) _ _ (inside first firstOver) value)

theorem over_single (spec : Text) (value : Int) (inside : ValueInRange spec value) :
    Over [spec] (SortedDict.empty.insert spec value) := by
  intro other found present
  rw [SortedDict.get_insert] at present
  by_cases here : other = spec
  · rw [if_pos here] at present
    rw [here, ← Option.some.inj present]
    exact ⟨List.mem_singleton_self spec, inside⟩
  · rw [if_neg here] at present
    cases present

theorem symmetric_example : Always (climbNext (SortedDict.empty.insert "a[1-3]".toList 1) "a[1-3]".toList) fun found =>
    Always (climbNext (SortedDict.empty.insert "a[1-3]".toList 2) "a[1-3]".toList) fun back =>
      (SortedDict.empty.insert "a[1-3]".toList 2 ∈ found ↔ SortedDict.empty.insert "a[1-3]".toList 1 ∈ back) ∧
        (SortedDict.empty.insert "a[1-3]".toList 2 ∈ found →
          (SortedDict.empty.insert "a[1-3]".toList 1).get? "a[1-3]".toList ≠
              (SortedDict.empty.insert "a[1-3]".toList (2 : Int)).get? "a[1-3]".toList ∧
            SameElsewhere "a[1-3]".toList (SortedDict.empty.insert "a[1-3]".toList 1) (SortedDict.empty.insert "a[1-3]".toList 2)) ∧
        found.Nodup ∧ ∀ next ∈ found, Over ["a[1-3]".toList] next := by
  have range : search "a[1-3]".toList = some (1, 3) := by decide
  have inside : ∀ value : Int, 1 ≤ value ∧ value < 3 → ValueInRange "a[1-3]".toList value := by
    intro value within
    rw [ValueInRange, range]
    exact within
  refine neighbourhood_symmetric ["a[1-3]".toList] (List.forall_mem_singleton.mpr ?_) _ _
    (over_single _ 1 (inside 1 (by decide))) (over_single _ 2 (inside 2 (by decide))) _ (List.mem_singleton_self _)
  intro start last found
  cases Option.some.inj (range.symm.trans found)
  decide

end ToolchainUtils.Bestflags
