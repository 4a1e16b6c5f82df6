import ToolchainUtils.FailingFold
import ToolchainUtils.Crosperf.CachedResults

set_option autoImplicit false

namespace ToolchainUtils.Crosperf.CachedResults

open PyString

-- A parsed results-chart object is a dictionary of charts, each of them one of items.
abbrev Chart := Text × List (Text × Fields)

structure Entry where
  chart : Text
  item : Text
  fields : Fields

def Entry.name (entry : Entry) : Text := underscored entry.chart entry.item

def entriesOf (charts : List Chart) : List Entry :=
  charts.flatMap fun chart => chart.2.map fun item => ⟨chart.1, item.1, item.2⟩

def chartsValue (charts : List Chart) : Value :=
  .dict (charts.map fun chart => (chart.1, .dict (chart.2.map fun item => (item.1, .dict item.2))))

def jsonEntry (python : Python) (state : Option Value × Keyvals) (entry : Entry) : Option (Option Value × Keyvals) :=
  jsonItem python entry.chart state (entry.item, .dict entry.fields)

def jsonEntries (python : Python) (entries : List Entry) : Option (Option Value × Keyvals) :=
  entries.foldlM (jsonEntry python) (none, newKeyvals)

theorem json_fields_entries (python : Python) (charts : List Chart) (state : Option Value × Keyvals) :
    (charts.map fun chart => (chart.1, Value.dict (chart.2.map fun item => (item.1, .dict item.2)))).foldlM (jsonField python) state =
      (entriesOf charts).foldlM (jsonEntry python) state := by
  induction charts generalizing state with
  | nil => rfl
  | cons chart rest ih =>
      rw [List.map_cons, List.foldlM_cons, entriesOf, List.flatMap_cons, List.foldlM_append, ← entriesOf]
      have one : jsonField python state (chart.1, .dict (chart.2.map fun item => (item.1, .dict item.2))) =
          (chart.2.map fun item => (⟨chart.1, item.1, item.2⟩ : Entry)).foldlM (jsonEntry python) state := by
        rw [jsonField, Value.items, Option.bind_some, List.foldlM_map, List.foldlM_map]
        rfl
      rw [one]
      exact congrArg _ (funext ih)

theorem process_raw_entries (python : Python) (raw : Value) (charts : List Chart) (held : raw.charts = chartsValue charts) :
    processRaw python raw = (jsonEntries python (entriesOf charts)).map Prod.snd := by
  rw [processRaw, held, chartsValue, Value.iteritems, Option.bind_some, json_fields_entries]
  rfl

def hasUnits (fields : Fields) : Prop := (fields.lookup unitsKey).isSome

-- Such an item is passed over.
def EmptyValues (fields : Fields) : Prop :=
  fields.lookup valueKey = none ∧ ∃ values, fields.lookup valuesKey = some values ∧ values.truthy = false

-- What the item's own dictionary says the result is.
def ownResult (python : Python) (fields : Fields) : Option Value :=
  match fields.lookup valueKey, fields.lookup valuesKey with
  | some value, _ => some value
  | none, some values => if values.truthy then resultOfValues python fields values else none
  | none, none => none

def ownEntry (python : Python) (fields : Fields) : Option Value :=
  (ownResult python fields).bind fun result => (fields.lookup unitsKey).map fun units => .list [result, units]

section Steps

variable (python : Python) (state : Option Value × Keyvals) (entry : Entry)

theorem json_entry_empty (empty : EmptyValues entry.fields) : jsonEntry python state entry = some state := by
  obtain ⟨noValue, values, found, falsy⟩ := empty
  simp [jsonEntry, jsonItem, noValue, found, falsy]

theorem json_entry_own (result : Value) (own : ownResult python entry.fields = some result) :
    jsonEntry python state entry = (entry.fields.lookup unitsKey).map fun units =>
      (some result, state.2.insert entry.name (.list [result, units])) := by
  rw [ownResult] at own
  cases value : entry.fields.lookup valueKey with
  | some found =>
      rw [value] at own
      obtain rfl := Option.some.inj own
      simp only [jsonEntry, jsonItem, value]
      rfl
  | none =>
      cases values : entry.fields.lookup valuesKey with
      | some found =>
          simp only [value, values, Option.ite_none_right_eq_some] at own
          simp only [jsonEntry, jsonItem, value, values, own.1, if_true, own.2, Option.bind_some]
          rfl
      | none =>
          rw [value, values] at own
          cases own

-- The variable result still holds what another item left, or nothing.
theorem json_entry_other (nonempty : ¬ EmptyValues entry.fields) (other : ownResult python entry.fields = none)
    (unset : state.1 = none ∨ ¬ hasUnits entry.fields) : jsonEntry python state entry = none := by
  rw [ownResult] at other
  cases value : entry.fields.lookup valueKey with
  | some found =>
      rw [value] at other
      cases other
  | none =>
      cases values : entry.fields.lookup valuesKey with
      | some found =>
          cases truth : found.truthy with
          | false => exact absurd ⟨value, found, values, truth⟩ nonempty
          | true =>
              simp only [value, values, truth, if_true] at other
              simp only [jsonEntry, jsonItem, value, values, truth, if_true, other, Option.bind_none]
      | none =>
          simp only [jsonEntry, jsonItem, value, values]
          rcases unset with nothing | unitless
          · rw [nothing, Option.bind_none]
          · have missing : entry.fields.lookup unitsKey = none := Option.not_isSome_iff_eq_none.mp unitless
            simp [missing]

end Steps

-- The dictionaries of the object in another order.
def Reordered (charts order : List Chart) : Prop :=
  ∃ shuffled, charts.Perm shuffled ∧ List.Forall₂ (fun first second => first.1 = second.1 ∧ first.2.Perm second.2) shuffled order

def IsOrderOf (charts : List Chart) (raw : Value) : Prop := ∃ order, Reordered charts order ∧ raw.charts = chartsValue order

theorem mem_entries (charts : List Chart) (entry : Entry) :
    entry ∈ entriesOf charts ↔ ∃ chart ∈ charts, chart.1 = entry.chart ∧ (entry.item, entry.fields) ∈ chart.2 := by
  simp only [entriesOf, List.mem_flatMap, List.mem_map]
  constructor
  · rintro ⟨chart, member, item, listed, rfl⟩
    exact ⟨chart, member, rfl, listed⟩
  · rintro ⟨chart, member, same, listed⟩
    exact ⟨chart, member, _, listed, by rw [same]⟩

theorem items_reordered_entries (charts order : List Chart) (entry : Entry)
    (items : List.Forall₂ (fun first second => first.1 = second.1 ∧ first.2.Perm second.2) charts order) :
    entry ∈ entriesOf order ↔ entry ∈ entriesOf charts := by
  induction items with
  | nil => exact Iff.rfl
  | cons pair _ ih =>
      rw [mem_entries, mem_entries] at ih
      rw [mem_entries, mem_entries, List.exists_mem_cons_iff, List.exists_mem_cons_iff, ih, pair.1, pair.2.mem_iff]

theorem reordered_entries (charts order : List Chart) (reordered : Reordered charts order) (entry : Entry) :
    entry ∈ entriesOf order ↔ entry ∈ entriesOf charts := by
  obtain ⟨shuffled, perm, items⟩ := reordered
  rw [items_reordered_entries shuffled order entry items, mem_entries, mem_entries]
  exact exists_congr fun chart => and_congr_left fun _ => perm.mem_iff.symm

theorem entry_can_be_first (charts : List Chart) (entry : Entry) (member : entry ∈ entriesOf charts) :
    ∃ order rest, Reordered charts order ∧ entriesOf order = entry :: rest := by
  obtain ⟨chart, listed, same, holds⟩ := (mem_entries charts entry).mp member
  obtain ⟨before, after, split⟩ := List.append_of_mem listed
  obtain ⟨earlier, later, items⟩ := List.append_of_mem holds
  let front : Chart := (chart.1, (entry.item, entry.fields) :: (earlier ++ later))
  have reordered : Reordered charts (front :: (before ++ after)) := by
    refine ⟨chart :: (before ++ after), split ▸ List.perm_middle, .cons ⟨rfl, ?_⟩ (List.forall₂_same.mpr fun other _ => ⟨rfl, .refl _⟩)⟩
    rw [items]
    exact List.perm_middle
  have leads : entriesOf (front :: (before ++ after)) = entry :: entriesOf ((chart.1, earlier ++ later) :: (before ++ after)) := by
    rw [entriesOf, List.flatMap_cons, List.map_cons, List.cons_append, same]
    rfl
  exact ⟨_, _, reordered, leads⟩

-- The result has what each pair's own dictionary says, and nothing else.
structure OwnEntries (python : Python) (entries : List Entry) (keyvals : Keyvals) : Prop where
  found : ∀ entry ∈ entries, keyvals.lookup entry.name = ownEntry python entry.fields
  nothing_else : ∀ key ∈ keyvals, ∃ entry ∈ entries, entry.name = key

structure ComesFromOwnEntries (python : Python) (charts : List Chart) : Prop where
  entries : ∀ raw, IsOrderOf charts raw → ∀ keyvals, processRaw python raw = some keyvals →
    OwnEntries python (entriesOf charts) keyvals
  raises_without_units : ∀ order, Reordered charts order → ∀ before entry after, entriesOf order = before ++ entry :: after →
    ∀ state, jsonEntries python before = some state → hasUnits entry.fields → (jsonEntry python state entry).isSome
  same_in_any_order : ∀ raw other, IsOrderOf charts raw → IsOrderOf charts other → ∀ key,
    (processRaw python raw).map (fun keyvals => keyvals.lookup key) = (processRaw python other).map fun keyvals => keyvals.lookup key

structure Unambiguous (python : Python) (charts : List Chart) : Prop where
  counted : ∀ entry ∈ entriesOf charts, hasUnits entry.fields → EmptyValues entry.fields ∨ (ownResult python entry.fields).isSome
  apart : (∀ entry ∈ entriesOf charts, EmptyValues entry.fields ∨ hasUnits entry.fields) →
    ∀ first ∈ entriesOf charts, ∀ second ∈ entriesOf charts, first.name = second.name →
      ownEntry python first.fields = ownEntry python second.fields

section Runs

variable (python : Python) (charts : List Chart)

theorem empty_has_no_entry (fields : Fields) (empty : EmptyValues fields) : ownEntry python fields = none := by
  obtain ⟨noValue, values, found, falsy⟩ := empty
  simp [ownEntry, ownResult, noValue, found, falsy]

-- An item that is not passed over raises without units.
theorem ran_entry_has_units (state next : Option Value × Keyvals) (entry : Entry)
    (ran : jsonEntry python state entry = some next) : EmptyValues entry.fields ∨ hasUnits entry.fields := by
  by_contra neither
  obtain ⟨nonempty, unitless⟩ := not_or.mp neither
  cases own : ownResult python entry.fields with
  | none =>
      rw [json_entry_other python state entry nonempty own (.inr unitless)] at ran
      cases ran
  | some result =>
      rw [json_entry_own python state entry result own, Option.not_isSome_iff_eq_none.mp unitless] at ran
      cases ran

theorem counted_entry_runs (state : Option Value × Keyvals) (entry : Entry)
    (counted : EmptyValues entry.fields ∨ (ownResult python entry.fields).isSome ∧ hasUnits entry.fields) :
    ∃ next, jsonEntry python state entry = some next ∧
      (next.2 = state.2 ∧ ownEntry python entry.fields = none ∨
        ∃ value, ownEntry python entry.fields = some value ∧ next.2 = state.2.insert entry.name value) := by
  rcases counted with empty | ⟨own, units⟩
  · exact ⟨state, json_entry_empty python state entry empty, .inl ⟨rfl, empty_has_no_entry python _ empty⟩⟩
  · obtain ⟨result, own⟩ := Option.isSome_iff_exists.mp own
    obtain ⟨unit, found⟩ := Option.isSome_iff_exists.mp units
    refine ⟨(some result, state.2.insert entry.name (.list [result, unit])), ?_, .inr ⟨.list [result, unit], ?_, rfl⟩⟩
    · rw [json_entry_own python state entry result own, found, Option.map_some]
    · rw [ownEntry, own, Option.bind_some, found, Option.map_some]

theorem entries_run (entries : List Entry)
    (counted : ∀ entry ∈ entries, EmptyValues entry.fields ∨ (ownResult python entry.fields).isSome ∧ hasUnits entry.fields)
    (apart : ∀ first ∈ entries, ∀ second ∈ entries, first.name = second.name →
      ownEntry python first.fields = ownEntry python second.fields) :
    ∃ finish, jsonEntries python entries = some finish ∧ OwnEntries python entries finish.2 := by
  induction entries using List.reverseRecOn with
  | nil => exact ⟨(none, newKeyvals), rfl, ⟨nofun, fun key absent => absurd absent (AList.notMem_empty key)⟩⟩
  | append_singleton before last ih =>
      have earlier {entry : Entry} (member : entry ∈ before) : entry ∈ before ++ [last] := List.mem_append_left _ member
      have final : last ∈ before ++ [last] := List.mem_append_right _ List.mem_cons_self
      obtain ⟨middle, ran, own⟩ := ih (fun entry member => counted entry (earlier member))
        fun first member second listed => apart first (earlier member) second (earlier listed)
      obtain ⟨next, stepped, kept | ⟨value, lastOwn, inserted⟩⟩ := counted_entry_runs python middle last (counted last final)
      · refine ⟨next, ?_, fun entry member => ?_, fun key member => ?_⟩
        · rw [jsonEntries] at ran
          simp [jsonEntries, List.foldlM_append, ran, stepped]
        · rw [kept.1]
          rcases List.mem_append.mp member with listed | listed
          · exact own.found entry listed
          · obtain rfl := List.mem_singleton.mp listed
            rw [kept.2]
            cases found : middle.2.lookup entry.name with
            | none => rfl
            | some other =>
                obtain ⟨same, listed, named⟩ := own.nothing_else entry.name (AList.lookup_isSome.mp (by rw [found]; rfl))
                rw [← named, own.found same listed, apart same (earlier listed) entry final named, kept.2] at found
                cases found
        · rw [kept.1] at member
          obtain ⟨entry, listed, named⟩ := own.nothing_else key member
          exact ⟨entry, earlier listed, named⟩
      · refine ⟨next, ?_, fun entry member => ?_, fun key member => ?_⟩
        · rw [jsonEntries] at ran
          simp [jsonEntries, List.foldlM_append, ran, stepped]
        · rw [inserted]
          by_cases named : entry.name = last.name
          · rw [named, AList.lookup_insert, apart entry member last final named, lastOwn]
          · rw [AList.lookup_insert_ne named]
            rcases List.mem_append.mp member with listed | listed
            · exact own.found entry listed
            · exact absurd (congrArg Entry.name (List.mem_singleton.mp listed)) named
        · rw [inserted, AList.mem_insert] at member
          rcases member with rfl | old
          · exact ⟨last, final, rfl⟩
          · obtain ⟨entry, listed, named⟩ := own.nothing_else key old
            exact ⟨entry, earlier listed, named⟩

theorem own_entries_lookup (entries : List Entry) (keyvals other : Keyvals) (own : OwnEntries python entries keyvals)
    (others : OwnEntries python entries other) (key : Text) : keyvals.lookup key = other.lookup key := by
  by_cases named : ∃ entry ∈ entries, entry.name = key
  · obtain ⟨entry, member, rfl⟩ := named
    rw [own.found entry member, others.found entry member]
  · rw [AList.lookup_eq_none.mpr fun held => named (own.nothing_else key held),
      AList.lookup_eq_none.mpr fun held => named (others.nothing_else key held)]

theorem order_has_units (raw : Value) (order : List Chart) (reordered : Reordered charts order)
    (held : raw.charts = chartsValue order) (keyvals : Keyvals) (ran : processRaw python raw = some keyvals) :
    ∀ entry ∈ entriesOf charts, EmptyValues entry.fields ∨ hasUnits entry.fields := by
  intro entry member
  rw [process_raw_entries python raw order held] at ran
  obtain ⟨finish, finished, _⟩ := Option.map_eq_some_iff.mp ran
  obtain ⟨state, next, stepped⟩ := FailingFold.member_succeeded (jsonEntry python) (entriesOf order) entry
    ((reordered_entries charts order reordered entry).mpr member) _ finish finished
  exact ran_entry_has_units python state next entry stepped

theorem order_runs (unambiguous : Unambiguous python charts)
    (units : ∀ entry ∈ entriesOf charts, EmptyValues entry.fields ∨ hasUnits entry.fields) (raw : Value) (order : List Chart)
    (reordered : Reordered charts order) (held : raw.charts = chartsValue order) :
    ∃ keyvals, processRaw python raw = some keyvals ∧ OwnEntries python (entriesOf charts) keyvals := by
  have members := reordered_entries charts order reordered
  obtain ⟨finish, ran, own⟩ := entries_run python (entriesOf order) (fun entry member => by
      have listed := (members entry).mp member
      rcases units entry listed with empty | present
      · exact .inl empty
      · exact (unambiguous.counted entry listed present).imp_right fun own => ⟨own, present⟩)
    fun first member second listed => unambiguous.apart units first ((members first).mp member) second ((members second).mp listed)
  refine ⟨finish.2, ?_, fun entry member => own.found entry ((members entry).mpr member), fun key held => ?_⟩
  · rw [process_raw_entries python raw order held, ran, Option.map_some]
  · obtain ⟨entry, member, named⟩ := own.nothing_else key held
    exact ⟨entry, (members entry).mp member, named⟩

theorem own_entries_unambiguous (own : ComesFromOwnEntries python charts) : Unambiguous python charts := by
  have counted : ∀ entry ∈ entriesOf charts, hasUnits entry.fields →
      EmptyValues entry.fields ∨ (ownResult python entry.fields).isSome := by
    intro entry member units
    by_contra neither
    obtain ⟨nonempty, unowned⟩ := not_or.mp neither
    obtain ⟨order, rest, reordered, leads⟩ := entry_can_be_first charts entry member
    have runs := own.raises_without_units order reordered [] entry rest leads (none, newKeyvals) rfl units
    rw [json_entry_other python _ entry nonempty (Option.not_isSome_iff_eq_none.mp unowned) (.inl rfl)] at runs
    cases runs
  refine ⟨counted, fun units first member second listed named => ?_⟩
  have asGiven : Reordered charts charts := ⟨charts, .refl _, List.forall₂_same.mpr fun _ _ => ⟨rfl, .refl _⟩⟩
  obtain ⟨finish, ran⟩ := FailingFold.fold_succeeds (jsonEntry python) (entriesOf charts) (none, newKeyvals) fun entry member state => by
    have runs : EmptyValues entry.fields ∨ (ownResult python entry.fields).isSome ∧ hasUnits entry.fields := by
      rcases units entry member with empty | present
      · exact .inl empty
      · exact (counted entry member present).imp_right fun own => ⟨own, present⟩
    obtain ⟨next, stepped, _⟩ := counted_entry_runs python state entry runs
    exact ⟨next, stepped⟩
  have held : (Value.dict [("charts".toList, chartsValue charts)]).charts = chartsValue charts := by
    simp [Value.charts]
  have processed : processRaw python (.dict [("charts".toList, chartsValue charts)]) = some finish.2 := by
    rw [process_raw_entries python _ charts held, jsonEntries, ran, Option.map_some]
  have entries := own.entries _ ⟨charts, asGiven, held⟩ finish.2 processed
  rw [← entries.found first member, ← entries.found second listed, named]

theorem unambiguous_own_entries (unambiguous : Unambiguous python charts) : ComesFromOwnEntries python charts := by
  refine ⟨?_, ?_, ?_⟩
  · rintro raw ⟨order, reordered, held⟩ keyvals ran
    have units := order_has_units python charts raw order reordered held keyvals ran
    obtain ⟨found, processed, own⟩ := order_runs python charts unambiguous units raw order reordered held
    obtain rfl : found = keyvals := Option.some.inj (processed.symm.trans ran)
    exact own
  · intro order reordered before entry after split state _ units
    have member : entry ∈ entriesOf charts := (reordered_entries charts order reordered entry).mp (by simp [split])
    have counted := (unambiguous.counted entry member units).imp_right fun own => And.intro own units
    obtain ⟨next, stepped, _⟩ := counted_entry_runs python state entry counted
    rw [stepped]
    rfl
  · rintro raw other ⟨order, reordered, held⟩ ⟨again, reorderedAgain, heldAgain⟩ key
    by_cases units : ∀ entry ∈ entriesOf charts, EmptyValues entry.fields ∨ hasUnits entry.fields
    · obtain ⟨keyvals, processed, own⟩ := order_runs python charts unambiguous units raw order reordered held
      obtain ⟨others, processedAgain, ownAgain⟩ := order_runs python charts unambiguous units other again reorderedAgain heldAgain
      rw [processed, processedAgain, Option.map_some, Option.map_some, own_entries_lookup python _ keyvals others own ownAgain key]
    · have raises : processRaw python raw = none := Option.eq_none_iff_forall_not_mem.mpr fun keyvals ran =>
        units (order_has_units python charts raw order reordered held keyvals ran)
      have raisesAgain : processRaw python other = none := Option.eq_none_iff_forall_not_mem.mpr fun keyvals ran =>
        units (order_has_units python charts other again reorderedAgain heldAgain keyvals ran)
      rw [raises, raisesAgain]

theorem json_results_own_iff : ComesFromOwnEntries python charts ↔ Unambiguous python charts :=
  ⟨own_entries_unambiguous python charts, unambiguous_own_entries python charts⟩

end Runs

-- The second item has no value of its own and is shown with that of the first.
def staleCharts : List Chart :=
  [(['a'], [(['x'], [(valueKey, .int 1), (unitsKey, .str ['s'])]), (['y'], [(unitsKey, .str ['m'])])])]

theorem item_without_value_shows_another :
    ¬ ∀ (python : Python) (charts : List Chart), ComesFromOwnEntries python charts := by
  intro own
  have entries := (own samplePython staleCharts).entries (chartsValue staleCharts)
    ⟨staleCharts, ⟨staleCharts, .refl _, List.forall₂_same.mpr fun _ _ => ⟨rfl, .refl _⟩⟩, rfl⟩
  cases ran : processRaw samplePython (chartsValue staleCharts) with
  | none => cases ran
  | some keyvals =>
      have found := (entries keyvals ran).found ⟨['a'], ['y'], [(unitsKey, .str ['m'])]⟩ (by simp [entriesOf, staleCharts])
      have shown : (processRaw samplePython (chartsValue staleCharts)).map (fun keyvals => keyvals.lookup (underscored ['a'] ['y'])) =
          some (some (.list [.int 1, .str ['m']])) := by rfl
      rw [ran, Option.map_some] at shown
      have absent : keyvals.lookup (underscored ['a'] ['y']) = none := found
      rw [absent] at shown
      cases shown

end ToolchainUtils.Crosperf.CachedResults
