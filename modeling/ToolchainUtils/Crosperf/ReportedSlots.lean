import ToolchainUtils.Crosperf.JsonReport
import ToolchainUtils.Crosperf.OrganizedResults

set_option autoImplicit false

namespace ToolchainUtils.Crosperf.JsonReport

open PyString CachedResults ItemByItem FailingFold
open ResultsOrganizer (Results SummaryFile isZero machineKey slotAt)

section Values

def Numeric : Value → Prop
  | .bool _ => True
  | .int n => n.natAbs < floatLimit
  | .float _ => True
  | .str text => floatText text = true
  | _ => False

-- A number, or a list that begins with one or with a list that does.
def OverallValue : Value → Prop
  | .null => True
  | .list (.list (item :: _) :: _) => Numeric item
  | .list (item :: _) => Numeric item
  | value => Numeric value

-- A number or nothing, or a list that begins with one of these or with a list of numbers only.
def DetailValue : Value → Prop
  | .null => True
  | .list (.list items :: _) => ∀ item ∈ items, Numeric item
  | .list (.null :: _) => True
  | .list (item :: _) => Numeric item
  | value => Numeric value

def MachineValue (value : Value) : Prop := value ≠ .list []

-- The values of a slot whose test passed.
structure Reportable (defaults : SummaryFile) (test : Text) (iterResults : Keyvals) : Prop where
  overall : ∀ fields, defaults.lookup test = some fields → ∀ f ∈ fields, ∀ v, iterResults.lookup f = some v → OverallValue v
  machine : ∀ k v, iterResults.lookup k = some v → skips k v = false → aboutMachine k = true → MachineValue v
  details : ∀ k v, iterResults.lookup k = some v → skips k v = false → aboutMachine k = false → DetailValue v

theorem float_runs (value : Value) : (∃ number, float value = some number) ↔ Numeric value := by
  rw [← Option.isSome_iff_exists]
  cases value with
  | null => exact iff_of_false Bool.false_ne_true id
  | bool b => exact iff_of_true rfl trivial
  | int n =>
      rw [float, Numeric]
      split
      · exact iff_of_true rfl ‹_›
      · exact iff_of_false Bool.false_ne_true ‹_›
  | float repr => exact iff_of_true rfl trivial
  | str text =>
      rw [float, Numeric]
      split
      · exact iff_of_true rfl ‹_›
      · exact iff_of_false Bool.false_ne_true ‹_›
  | list items => exact iff_of_false Bool.false_ne_true id
  | dict entries => exact iff_of_false Bool.false_ne_true id

theorem overall_value_iff (value : Value) (notNull : value ≠ .null) :
    OverallValue value ↔ ∃ inner, (unlist value).bind unlist = some inner ∧ Numeric inner := by
  match value with
  | .null => exact absurd rfl notNull
  | .list [] => simp [OverallValue, unlist, Numeric]
  | .list (.list [] :: _) => simp [OverallValue, unlist, Numeric]
  | .list (.list (_ :: _) :: _) => simp [OverallValue, unlist]
  | .list (.null :: _) => simp [OverallValue, unlist]
  | .list (.bool _ :: _) => simp [OverallValue, unlist]
  | .list (.int _ :: _) => simp [OverallValue, unlist]
  | .list (.float _ :: _) => simp [OverallValue, unlist]
  | .list (.str _ :: _) => simp [OverallValue, unlist]
  | .list (.dict _ :: _) => simp [OverallValue, unlist]
  | .bool _ => simp [OverallValue, unlist]
  | .int _ => simp [OverallValue, unlist]
  | .float _ => simp [OverallValue, unlist]
  | .str _ => simp [OverallValue, unlist]
  | .dict _ => simp [OverallValue, unlist]

theorem overall_field_value (iterResults : Keyvals) (f : Text) (value : List (Text × Number)) (v : Value) (notNull : v ≠ .null)
    (found : iterResults.lookup f = some v) : overallField iterResults value f =
      ((unlist v).bind unlist).bind fun inner => (float inner).map fun number => value ++ [(f, number)] := by
  rw [overallField, found, Option.bind_assoc]
  cases v with
  | null => exact absurd rfl notNull
  | _ => rfl

theorem overall_field_runs (iterResults : Keyvals) (f : Text) (value : List (Text × Number)) :
    (∃ next, overallField iterResults value f = some next) ↔ ∀ v, iterResults.lookup f = some v → OverallValue v := by
  cases found : iterResults.lookup f with
  | none =>
      rw [overallField, found]
      exact ⟨fun _ _ => nofun, fun _ => ⟨_, rfl⟩⟩
  | some v =>
      simp only [Option.some.injEq, forall_eq']
      by_cases null : v = .null
      · subst null
        rw [overallField, found]
        exact ⟨fun _ => trivial, fun _ => ⟨_, rfl⟩⟩
      · rw [overall_field_value iterResults f value v null found, overall_value_iff v null]
        constructor
        · rintro ⟨next, ran⟩
          obtain ⟨inner, unlisted, ran⟩ := Option.bind_eq_some_iff.mp ran
          obtain ⟨number, converted, _⟩ := Option.map_eq_some_iff.mp ran
          exact ⟨inner, unlisted, (float_runs inner).mp ⟨number, converted⟩⟩
        · rintro ⟨inner, unlisted, numeric⟩
          obtain ⟨number, converted⟩ := (float_runs inner).mpr numeric
          exact ⟨value ++ [(f, number)], by rw [unlisted, Option.bind_some, converted]; rfl⟩

theorem floats_run (items : List Value) : (∃ numbers, items.mapM float = some numbers) ↔ ∀ item ∈ items, Numeric item :=
  (made_each_iff float items).trans (forall₂_congr fun item _ => float_runs item)

theorem detail_of_one (value : Value) (notNull : value ≠ .null) (notList : ∀ items, value ≠ .list items) :
    (∃ detail, detailOf value = some detail) ↔ Numeric value := by
  rw [← float_runs]
  have one : detailOf value = (float value).map fun number => some (.one number) := by
    cases value with
    | null => exact absurd rfl notNull
    | list items => exact absurd rfl (notList items)
    | _ => rfl
  rw [one]
  simp

theorem detail_of_runs (value : Value) : (∃ detail, detailOf value = some detail) ↔ DetailValue (.list [value]) := by
  cases value with
  | null => exact ⟨fun _ => trivial, fun _ => ⟨_, rfl⟩⟩
  | list items =>
      rw [DetailValue, ← floats_run]
      simp [detailOf]
  | bool b => exact detail_of_one _ nofun nofun
  | int n => exact detail_of_one _ nofun nofun
  | float repr => exact detail_of_one _ nofun nofun
  | str text => exact detail_of_one _ nofun nofun
  | dict entries => exact detail_of_one _ nofun nofun

theorem detail_value_iff (value : Value) : DetailValue value ↔ ∃ v, unlist value = some v ∧ DetailValue (.list [v]) := by
  match value with
  | .null => simp [DetailValue, unlist]
  | .list [] => simp [DetailValue, unlist, Numeric]
  | .list (.list _ :: _) => simp [DetailValue, unlist]
  | .list (.null :: _) => simp [DetailValue, unlist]
  | .list (.bool _ :: _) => simp [DetailValue, unlist]
  | .list (.int _ :: _) => simp [DetailValue, unlist]
  | .list (.float _ :: _) => simp [DetailValue, unlist]
  | .list (.str _ :: _) => simp [DetailValue, unlist]
  | .list (.dict _ :: _) => simp [DetailValue, unlist]
  | .bool _ => simp [DetailValue, unlist]
  | .int _ => simp [DetailValue, unlist]
  | .float _ => simp [DetailValue, unlist]
  | .str _ => simp [DetailValue, unlist]
  | .dict _ => simp [DetailValue, unlist]

theorem detail_field_runs (state : JsonResults × Details) (entry : Σ _ : Text, Value) :
    (∃ next, detailField state entry = some next) ↔ (skips entry.1 entry.2 = false →
      if aboutMachine entry.1 then MachineValue entry.2 else DetailValue entry.2) := by
  by_cases skipped : skips entry.1 entry.2
  · simp [detailField, skipped]
  · rw [detailField, if_neg skipped]
    by_cases about : aboutMachine entry.1
    · have unlisted : MachineValue entry.2 ↔ ∃ v, unlist entry.2 = some v := by
        match entry.2 with
        | .list [] => exact ⟨fun other => absurd rfl other, nofun⟩
        | .list (_ :: _) => exact ⟨fun _ => ⟨_, rfl⟩, fun _ => nofun⟩
        | .null | .bool _ | .int _ | .float _ | .str _ | .dict _ => exact ⟨fun _ => ⟨_, rfl⟩, fun _ => nofun⟩
      simp only [skipped, about, if_true, forall_const, unlisted]
      cases unlist entry.2 <;> simp
    · simp only [skipped, about, Bool.false_eq_true, if_false, forall_const, detail_value_iff entry.2, ← detail_of_runs]
      cases unlist entry.2 <;> simp

end Values

section Entry

variable (defaults : SummaryFile) (date time label test : Text) (iterResults : Keyvals)

-- The entry of the report for one slot.
structure EntryFor (made : JsonResults) : Prop where
  label : made.lookup labelKey = some (.text label)
  test : made.lookup testNameKey = some (.text test)
  pass : made.lookup passKey = some (.flag (passed iterResults))

theorem required_entry : EntryFor label test iterResults (required date time label test iterResults) := by
  refine ⟨?_, ?_, AList.lookup_insert _⟩
  · rw [required, AList.lookup_insert_ne (by decide), AList.lookup_insert_ne (by decide), AList.lookup_insert]
  · rw [required, AList.lookup_insert_ne (by decide), AList.lookup_insert]

theorem add_keeps_entry (made : JsonResults) (key : Text) (field : Field) (otherLabel : labelKey ≠ key) (otherTest : testNameKey ≠ key)
    (otherPass : passKey ≠ key) (entry : EntryFor label test iterResults made) :
    EntryFor label test iterResults (made.insert key field) :=
  ⟨by rw [AList.lookup_insert_ne otherLabel, entry.label], by rw [AList.lookup_insert_ne otherTest, entry.test],
    by rw [AList.lookup_insert_ne otherPass, entry.pass]⟩

theorem detail_keeps_entry (state next : JsonResults × Details) (entry : Σ _ : Text, Value)
    (ran : detailField state entry = some next) (before : EntryFor label test iterResults state.1) :
    EntryFor label test iterResults next.1 := by
  unfold detailField at ran
  split at ran
  · obtain rfl := Option.some.inj ran
    exact before
  · obtain ⟨v, _, ran⟩ := Option.bind_eq_some_iff.mp ran
    split at ran
    · rename_i about
      obtain rfl := Option.some.inj ran
      have other (key : Text) (unrelated : aboutMachine key = false) : key ≠ entry.1 := fun same => by
        rw [← same, unrelated] at about
        cases about
      exact add_keeps_entry label test iterResults state.1 entry.1 _ (other _ (by decide)) (other _ (by decide)) (other _ (by decide)) before
    · obtain ⟨detail, _, rfl⟩ := Option.map_eq_some_iff.mp ran
      exact before

theorem json_results_entry (made : JsonResults) (ran : jsonResults defaults date time label test iterResults = some made) :
    EntryFor label test iterResults made := by
  have start := required_entry date time label test iterResults
  unfold jsonResults at ran
  split at ran
  · obtain ⟨before, overall, ran⟩ := Option.bind_eq_some_iff.mp ran
    obtain ⟨done, details, rfl⟩ := Option.map_eq_some_iff.mp ran
    have first : EntryFor label test iterResults before := by
      unfold addOverall at overall
      split at overall
      · obtain ⟨value, _, rfl⟩ := Option.map_eq_some_iff.mp overall
        exact add_keeps_entry label test iterResults _ _ _ (by decide) (by decide) (by decide) start
      · obtain rfl := Option.some.inj overall
        exact start
    refine add_keeps_entry label test iterResults _ _ _ (by decide) (by decide) (by decide) ?_
    exact fold_invariant detailField (fun state => EntryFor label test iterResults state.1) iterResults.entries (before, ∅) done first
      (fun entry _ state next kept stepped => detail_keeps_entry label test iterResults state next entry stepped kept) details
  · obtain rfl := Option.some.inj ran
    exact start

theorem add_overall_runs (made : JsonResults) : (∃ next, addOverall defaults test iterResults made = some next) ↔
    ∀ fields, defaults.lookup test = some fields → ∀ f ∈ fields, ∀ v, iterResults.lookup f = some v → OverallValue v := by
  rw [addOverall]
  cases defaults.lookup test with
  | none => exact ⟨fun _ _ => nofun, fun _ => ⟨_, rfl⟩⟩
  | some fields =>
      have folds := fold_succeeds_iff (overallField iterResults) _ fields [] fun f value => overall_field_runs iterResults f value
      simp only [Option.some.injEq, forall_eq', ← folds]
      cases fields.foldlM (overallField iterResults) [] <;> simp

theorem add_details_runs (made : JsonResults) : (∃ next, addDetails iterResults made = some next) ↔
    ∀ k v, iterResults.lookup k = some v → skips k v = false → if aboutMachine k then MachineValue v else DetailValue v := by
  have folds := fold_succeeds_iff detailField _ iterResults.entries (made, ∅) fun entry state => detail_field_runs state entry
  have mapped : (∃ next, addDetails iterResults made = some next) ↔ ∃ done, iterResults.entries.foldlM detailField (made, ∅) = some done := by
    rw [addDetails]
    cases iterResults.entries.foldlM detailField (made, ∅) <;> simp
  rw [mapped, folds]
  constructor
  · intro each k v found
    exact each ⟨k, v⟩ (AList.mem_lookup_iff.mp found)
  · intro each entry member
    exact each entry.1 entry.2 (AList.mem_lookup_iff.mpr member)

theorem json_results_run : (∃ made, jsonResults defaults date time label test iterResults = some made) ↔
    (passed iterResults = true → Reportable defaults test iterResults) := by
  by_cases pass : passed iterResults
  · rw [jsonResults, if_pos pass]
    simp only [pass, forall_const]
    constructor
    · rintro ⟨made, ran⟩
      obtain ⟨before, overall, ran⟩ := Option.bind_eq_some_iff.mp ran
      have details := (add_details_runs iterResults before).mp ⟨made, ran⟩
      exact ⟨(add_overall_runs defaults test iterResults _).mp ⟨before, overall⟩,
        fun k v found kept about => by simpa [about] using details k v found kept,
        fun k v found kept about => by simpa [about] using details k v found kept⟩
    · intro reportable
      obtain ⟨before, overall⟩ := (add_overall_runs defaults test iterResults (required date time label test iterResults)).mpr
        reportable.overall
      obtain ⟨made, ran⟩ := (add_details_runs iterResults before).mpr fun k v found kept => by
        cases about : aboutMachine k with
        | true => simpa using reportable.machine k v found kept about
        | false => simpa using reportable.details k v found kept about
      exact ⟨made, by rw [overall]; exact ran⟩
  · simp [jsonResults, pass]

end Entry

end ToolchainUtils.Crosperf.JsonReport
