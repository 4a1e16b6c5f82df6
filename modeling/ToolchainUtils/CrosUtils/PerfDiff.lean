import Mathlib.Algebra.Field.Rat
import Mathlib.Data.Finset.Basic
import Mathlib.Data.List.AList
import ToolchainUtils.CrosUtils.SimpleTable

set_option autoImplicit false

namespace ToolchainUtils.CrosUtils.PerfDiff

open PyString ItemByItem
open Tabulator

-- The counts of a report have no sign.
structure PerfFunction where
  name : Text
  count : ℕ

-- A section has no count without its line on the events, and its name may be None.
structure Section where
  name : Option Text
  count : Option ℕ
  functions : List PerfFunction

structure PerfReport where
  perfFile : Text
  sections : List Section
  distinct : (sections.map Section.name).Nodup

structure PerfDiffer where
  reports : List PerfReport
  numSymbols : ℤ
  commonOnly : Bool

-- A dictionary; the row of a table has its key.
abbrev Dict (Key : Type) := AList fun _ : Key => Datum

-- report.sections[section_name]
def PerfReport.sectionOf (report : PerfReport) (name : Option Text) : Option Section :=
  report.sections.find? fun part => part.name = name

-- l[:n]
def sliceTo {Item : Type} (n : ℤ) (items : List Item) : List Item :=
  if 0 ≤ n then items.take n.toNat else items.take (items.length - n.natAbs)

section Order

-- The order of Python's values, which decides how the rows are sorted.
variable (le : Datum → Datum → Bool)

def addMax {Key : Type} [DecidableEq Key] (d : Dict Key) (item : Key × Datum) : Dict Key :=
  d.insert item.1 ((d.lookup item.1).elim item.2 fun old => if le item.2 old then old else item.2)

def maxDict {Key : Type} [DecidableEq Key] (items : List (Key × Datum)) : Dict Key := items.foldl (addMax le) ∅

def sortDictionaryByValue {Key : Type} (d : Dict Key) : List Key :=
  ((d.entries.mergeSort fun first second => le first.2 second.2).reverse).map Sigma.fst

-- none stands for the AttributeError of a section without a count.
def sectionCount (part : Section) : Option (Option Text × Datum) := part.count.map fun count : ℕ => (part.name, .number count)

def findAllSections (differ : PerfDiffer) : Option (List (Option Text)) :=
  ((differ.reports.flatMap PerfReport.sections).mapM sectionCount).map fun items => sortDictionaryByValue le (maxDict le items)

def getTopFunctions (differ : PerfDiffer) (name : Option Text) : List Text :=
  sortDictionaryByValue le (maxDict le ((differ.reports.filterMap fun report => report.sectionOf name).flatMap fun part : Section =>
    (sliceTo differ.numSymbols part.functions).map fun function => (function.name, Datum.number function.count)))

-- reduce of nothing is a TypeError.
def findCommonFunctions (differ : PerfDiffer) (name : Option Text) : Option (Finset Text) :=
  match (differ.reports.filterMap fun report => report.sectionOf name).map fun part =>
    (part.functions.map PerfFunction.name).toFinset with
  | [] => none
  | first :: rest => some (rest.foldl (· ∩ ·) first)

def getCount (part : Section) (wanted : Finset Text) : ℕ :=
  ((part.functions.filter fun function => function.name ∈ wanted).map PerfFunction.count).sum

-- none stands for the ZeroDivisionError.
def getCommonScalingFactor (part : Section) (common : Finset Text) : Option ℚ :=
  if getCount part common = 0 then none else some (100 / getCount part common)

def nameText (name : Option Text) : Text := name.getD "None".toList

-- The row of a function, and in common_only mode that of its scaled count.
def addFunction (differ : PerfDiffer) (part : Section) (names : List Text) (common : Finset Text) (factor : ℚ)
    (d : Dict (Option Text)) (function : PerfFunction) : Dict (Option Text) :=
  if function.name ∈ names then
    let key := nameText part.name ++ ' ' :: function.name
    let counted := d.insert (some key) (.number function.count)
    if differ.commonOnly ∧ function.name ∈ common then
      counted.insert (some (key ++ " scaled".toList)) (.number (factor * function.count))
    else counted
  else d

def sectionDict (differ : PerfDiffer) (names : List Text) (common : Finset Text) : Option Section → Option (Dict (Option Text))
  | none => some ∅
  | some part => (getCommonScalingFactor part common).map fun factor =>
      part.functions.foldl (addFunction differ part names common factor) ∅

def sectionDicts (differ : PerfDiffer) (name : Option Text) : Option (List (Dict (Option Text))) :=
  (findCommonFunctions differ name).bind fun common =>
    differ.reports.mapM fun report => sectionDict differ (getTopFunctions le differ name) common (report.sectionOf name)

def filenameDicts (differ : PerfDiffer) : List (Dict (Option Text)) :=
  differ.reports.map fun report => (∅ : Dict (Option Text)).insert (some "file".toList) (.text report.perfFile)

def addSummary (report : PerfReport) (d : Dict (Option Text)) (name : Option Text) : Dict (Option Text) :=
  ((report.sectionOf name).bind Section.count).elim d fun count => d.insert name (.number count)

def summaryDicts (differ : PerfDiffer) (names : List (Option Text)) : List (Dict (Option Text)) :=
  differ.reports.map fun report => names.foldl (addSummary report) ∅

-- A dictionary without the key of a row has the text '0' in it.
def tableRow (dicts : List (Dict (Option Text))) (key : Option Text) : Text × List Datum :=
  (nameText key, dicts.map fun d => (d.lookup key).getD (.text ['0']))

def tableFields (dicts : List (Dict (Option Text))) : List (Option Text) :=
  sortDictionaryByValue le (maxDict le (dicts.flatMap fun d => d.entries.map fun entry => (entry.1, entry.2)))

def printTableHelper (dicts : List (Dict (Option Text))) : Option (List (List SimpleCell)) :=
  getSimpleTable ("name".toList :: (List.range dicts.length).map str) ((tableFields le dicts).map (tableRow dicts))

-- none stands for an exception.
def doDiff (differ : PerfDiffer) : Option (List (List (List SimpleCell))) :=
  (findAllSections le differ).bind fun names =>
    (names.mapM (sectionDicts le differ)).bind fun dicts =>
      (filenameDicts differ :: summaryDicts differ names :: dicts).mapM (printTableHelper le)

end Order

section Dictionaries

variable (le : Datum → Datum → Bool) {Key : Type}

theorem mem_sorted (d : Dict Key) (key : Key) : key ∈ sortDictionaryByValue le d ↔ key ∈ d := by
  rw [sortDictionaryByValue, List.mem_map, AList.mem_keys, AList.keys, List.mem_keys]
  constructor
  · rintro ⟨entry, member, rfl⟩
    exact ⟨entry.2, (List.mergeSort_perm _ _).mem_iff.mp (List.mem_reverse.mp member)⟩
  · rintro ⟨value, member⟩
    exact ⟨⟨key, value⟩, List.mem_reverse.mpr ((List.mergeSort_perm _ _).mem_iff.mpr member), rfl⟩

variable [DecidableEq Key]

theorem mem_max_fold (items : List (Key × Datum)) (d : Dict Key) (key : Key) :
    key ∈ items.foldl (addMax le) d ↔ key ∈ d ∨ ∃ item ∈ items, item.1 = key := by
  induction items generalizing d with
  | nil => simp
  | cons item rest ih =>
      rw [List.foldl_cons, ih, addMax, AList.mem_insert, List.exists_mem_cons_iff, eq_comm, or_assoc, or_left_comm]

theorem mem_max_dict (items : List (Key × Datum)) (key : Key) : key ∈ maxDict le items ↔ ∃ item ∈ items, item.1 = key := by
  rw [maxDict, mem_max_fold]
  exact or_iff_right (AList.notMem_empty key)

end Dictionaries

-- A section of one of the reports.
def Present (differ : PerfDiffer) (part : Section) : Prop := ∃ report ∈ differ.reports, part ∈ report.sections

-- A function that every report has in its section of the name, if it has one.
def Common (differ : PerfDiffer) (name : Option Text) (function : Text) : Prop :=
  ∀ part, Present differ part → part.name = name → ∃ other ∈ part.functions, other.name = function

structure Diffable (differ : PerfDiffer) : Prop where
  counted : ∀ part, Present differ part → part.count.isSome = true
  common : ∀ part, Present differ part → ∃ function ∈ part.functions, function.count ≠ 0 ∧ Common differ part.name function.name
  sections : differ.reports ≠ [] → ∃ part, Present differ part
  symbols : ∀ part, Present differ part →
    ∃ other, Present differ other ∧ other.name = part.name ∧ sliceTo differ.numSymbols other.functions ≠ []
  names : ∀ first ∈ differ.reports.head?, ∀ report ∈ differ.reports.tail,
    ¬ Opposed "file".toList (.text first.perfFile) (.text report.perfFile)

section Sections

theorem section_of_iff (report : PerfReport) (name : Option Text) (part : Section) :
    report.sectionOf name = some part ↔ part ∈ report.sections ∧ part.name = name := by
  constructor
  · intro found
    exact ⟨List.mem_of_find?_eq_some found, by simpa using List.find?_some found⟩
  · rintro ⟨member, named⟩
    have some_part : (report.sectionOf name).isSome := List.find?_isSome.mpr ⟨part, member, by simpa using named⟩
    obtain ⟨other, found⟩ := Option.isSome_iff_exists.mp some_part
    have same : other = part := by
      refine List.inj_on_of_nodup_map report.distinct (List.mem_of_find?_eq_some found) member ?_
      exact (by simpa using List.find?_some found : other.name = name).trans named.symm
    rw [found, same]

theorem present_iff (differ : PerfDiffer) (name : Option Text) (part : Section) :
    part ∈ (differ.reports.filterMap fun report => report.sectionOf name) ↔ Present differ part ∧ part.name = name := by
  rw [List.mem_filterMap]
  constructor
  · rintro ⟨report, listed, found⟩
    obtain ⟨member, named⟩ := (section_of_iff report name part).mp found
    exact ⟨⟨report, listed, member⟩, named⟩
  · rintro ⟨⟨report, listed, member⟩, named⟩
    exact ⟨report, listed, (section_of_iff report name part).mpr ⟨member, named⟩⟩

theorem mem_intersections (first : Finset Text) (rest : List (Finset Text)) (function : Text) :
    function ∈ rest.foldl (· ∩ ·) first ↔ ∀ names ∈ first :: rest, function ∈ names := by
  induction rest generalizing first with
  | nil => simp
  | cons names rest ih => simp only [List.foldl_cons, ih, List.forall_mem_cons, Finset.mem_inter, and_assoc]

theorem find_common (differ : PerfDiffer) (part : Section) (present : Present differ part) :
    ∃ common, findCommonFunctions differ part.name = some common ∧ ∀ function, function ∈ common ↔ Common differ part.name function := by
  rw [findCommonFunctions]
  have listed := (present_iff differ part.name part).mpr ⟨present, rfl⟩
  cases sets : (differ.reports.filterMap fun report => report.sectionOf part.name).map fun part =>
      (part.functions.map PerfFunction.name).toFinset with
  | nil => exact absurd (List.map_eq_nil_iff.mp sets) (List.ne_nil_of_mem listed)
  | cons first rest =>
      refine ⟨_, rfl, fun function => ?_⟩
      rw [mem_intersections, ← sets, List.forall_mem_map]
      simp only [present_iff, and_imp, Common, List.mem_toFinset, List.mem_map]

theorem get_count_iff (differ : PerfDiffer) (part : Section) (common : Finset Text)
    (found : ∀ function, function ∈ common ↔ Common differ part.name function) :
    getCount part common ≠ 0 ↔ ∃ function ∈ part.functions, function.count ≠ 0 ∧ Common differ part.name function.name := by
  rw [getCount, Ne, List.sum_eq_zero_iff_forall_eq_nat]
  simp only [List.mem_map, List.mem_filter, decide_eq_true_eq, found, not_forall]
  constructor
  · rintro ⟨count, ⟨function, ⟨member, shared⟩, rfl⟩, positive⟩
    exact ⟨function, member, positive, shared⟩
  · rintro ⟨function, member, positive, shared⟩
    exact ⟨function.count, ⟨function, ⟨member, shared⟩, rfl⟩, positive⟩

theorem section_count_iff (part : Section) : (∃ item, sectionCount part = some item) ↔ part.count.isSome = true := by
  rw [← Option.isSome_iff_exists, sectionCount, Option.isSome_map]

theorem section_count_name (part : Section) (item : Option Text × Datum) (counted : sectionCount part = some item) :
    item.1 = part.name := by
  obtain ⟨count, _, rfl⟩ := Option.map_eq_some_iff.mp counted
  rfl

theorem find_all_sections_iff (le : Datum → Datum → Bool) (differ : PerfDiffer) :
    (findAllSections le differ).isSome = true ↔ ∀ part, Present differ part → part.count.isSome = true := by
  rw [findAllSections, Option.isSome_map, Option.isSome_iff_exists, made_each_iff]
  simp only [List.mem_flatMap, section_count_iff, Present]

theorem mem_all_sections (le : Datum → Datum → Bool) (differ : PerfDiffer) (names : List (Option Text))
    (found : findAllSections le differ = some names) (name : Option Text) :
    name ∈ names ↔ ∃ part, Present differ part ∧ part.name = name := by
  have counted := (find_all_sections_iff le differ).mp (by rw [found, Option.isSome_some])
  obtain ⟨items, made, rfl⟩ := Option.map_eq_some_iff.mp found
  rw [mem_sorted, mem_max_dict]
  constructor
  · rintro ⟨item, member, rfl⟩
    obtain ⟨part, listed, count⟩ := (mem_made _ _ items made item).mp member
    exact ⟨part, List.mem_flatMap.mp listed, (section_count_name part item count).symm⟩
  · rintro ⟨part, present, rfl⟩
    obtain ⟨item, count⟩ := (section_count_iff part).mpr (counted part present)
    exact ⟨item, (mem_made _ _ items made item).mpr ⟨part, List.mem_flatMap.mpr present, count⟩, section_count_name part item count⟩

end Sections

section Tables

variable (le : Datum → Datum → Bool)

theorem mem_table_fields (dicts : List (Dict (Option Text))) (key : Option Text) :
    key ∈ tableFields le dicts ↔ ∃ d ∈ dicts, key ∈ d := by
  rw [tableFields, mem_sorted, mem_max_dict]
  simp only [List.mem_flatMap, List.mem_map]
  constructor
  · rintro ⟨item, ⟨d, listed, entry, member, rfl⟩, rfl⟩
    exact ⟨d, listed, List.mem_keys_of_mem member⟩
  · rintro ⟨d, listed, member⟩
    obtain ⟨value, inside⟩ := List.exists_of_mem_keys (AList.mem_keys.mp member)
    exact ⟨(key, value), ⟨d, listed, ⟨key, value⟩, inside, rfl⟩, rfl⟩

-- Without a field nothing can be printed for the reports.
theorem print_table_iff (dicts : List (Dict (Option Text))) :
    (printTableHelper le dicts).isSome = true ↔
      (dicts ≠ [] → ∃ d ∈ dicts, ∃ key, key ∈ d) ∧ ∀ key ∈ tableFields le dicts, (simpleRow (tableRow dicts key)).isSome = true := by
  have rows_empty : (tableFields le dicts).map (tableRow dicts) = [] ↔ ¬ ∃ d ∈ dicts, ∃ key, key ∈ d := by
    rw [List.map_eq_nil_iff, List.eq_nil_iff_forall_not_mem]
    simp only [mem_table_fields]
    constructor
    · rintro none_listed ⟨d, listed, key, member⟩
      exact none_listed key ⟨d, listed, member⟩
    · rintro none_listed key ⟨d, listed, member⟩
      exact none_listed ⟨d, listed, key, member⟩
  have labels_empty : (List.range dicts.length).map str = [] ↔ dicts = [] := by
    rw [List.map_eq_nil_iff, List.range_eq_nil, List.length_eq_zero_iff]
  rw [printTableHelper, simple_table_iff, rows_empty, labels_empty, List.forall_mem_map]
  · rw [← not_imp_not, not_not]
  · rw [List.forall_mem_map]
    intro key _
    rw [tableRow, List.length_map, List.length_map, List.length_range]
  · rw [Ne, rows_empty, not_not, Ne, labels_empty]
    rintro ⟨d, listed, _⟩
    exact List.ne_nil_of_mem listed

def Counted (d : Dict (Option Text)) : Prop := ∀ key value, d.lookup key = some value → ∃ q : ℚ, 0 ≤ q ∧ value = .number q

theorem counted_empty : Counted ∅ := by
  intro key value found
  rw [AList.lookup_empty] at found
  cases found

theorem counted_insert (d : Dict (Option Text)) (key : Option Text) (q : ℚ) (counted : Counted d) (nonneg : 0 ≤ q) :
    Counted (d.insert key (.number q)) := by
  intro other value found
  by_cases same : other = key
  · rw [same, AList.lookup_insert] at found
    exact ⟨q, nonneg, (Option.some.inj found).symm⟩
  · rw [AList.lookup_insert_ne same] at found
    exact counted other value found

theorem zero_text : asFloat (.text ['0']) = some (.finite 0) := by
  have parsed : parseFloat ['0'] = some (.decimal false 0 0) := by decide
  rw [asFloat, parsed, Option.map_some, FloatValue.ofText, Nat.cast_zero, mul_zero, zero_mul]

theorem counted_value (d : Dict (Option Text)) (counted : Counted d) (key : Option Text) :
    ∃ q : ℚ, 0 ≤ q ∧ asFloat ((d.lookup key).getD (.text ['0'])) = some (.finite q) := by
  cases found : d.lookup key with
  | none => exact ⟨0, le_refl 0, zero_text⟩
  | some value =>
      obtain ⟨q, nonneg, rfl⟩ := counted key value found
      exact ⟨q, nonneg, rfl⟩

-- Numbers without a sign always have a colour.
theorem counted_row (dicts : List (Dict (Option Text))) (counted : ∀ d ∈ dicts, Counted d) (key : Option Text) :
    (simpleRow (tableRow dicts key)).isSome = true := by
  cases dicts with
  | nil => rfl
  | cons d rest =>
      obtain ⟨here, others⟩ := List.forall_mem_cons.mp counted
      obtain ⟨b, low, first⟩ := counted_value d here key
      rw [tableRow, List.map_cons, simple_row_iff, List.forall_mem_map]
      intro other listed
      obtain ⟨v, high, second⟩ := counted_value other (others other listed) key
      exact nonneg_not_opposed _ _ _ b v first second low high

theorem counted_table_iff (dicts : List (Dict (Option Text))) (counted : ∀ d ∈ dicts, Counted d) :
    (printTableHelper le dicts).isSome = true ↔ (dicts ≠ [] → ∃ d ∈ dicts, ∃ key, key ∈ d) := by
  rw [print_table_iff]
  exact and_iff_left fun key _ => counted_row dicts counted key

theorem mem_filename_dict (report : PerfReport) (key : Option Text) :
    key ∈ (∅ : Dict (Option Text)).insert (some "file".toList) (.text report.perfFile) ↔ key = some "file".toList := by
  rw [AList.mem_insert]
  exact or_iff_left (AList.notMem_empty key)

theorem filename_row (differ : PerfDiffer) :
    tableRow (filenameDicts differ) (some "file".toList) =
      ("file".toList, differ.reports.map fun report => .text report.perfFile) := by
  rw [tableRow, filenameDicts, List.map_map]
  exact congrArg (Prod.mk _) (List.map_congr_left fun report _ => by rw [Function.comp_apply, AList.lookup_insert, Option.getD_some])

theorem filename_table_iff (differ : PerfDiffer) :
    (printTableHelper le (filenameDicts differ)).isSome = true ↔
      ∀ first ∈ differ.reports.head?, ∀ report ∈ differ.reports.tail,
        ¬ Opposed "file".toList (.text first.perfFile) (.text report.perfFile) := by
  have fields : ∀ key, key ∈ tableFields le (filenameDicts differ) ↔ differ.reports ≠ [] ∧ key = some "file".toList := by
    intro key
    rw [mem_table_fields, filenameDicts]
    simp only [List.mem_map, exists_exists_and_eq_and, mem_filename_dict]
    constructor
    · rintro ⟨report, listed, same⟩
      exact ⟨List.ne_nil_of_mem listed, same⟩
    · rintro ⟨filled, same⟩
      obtain ⟨report, listed⟩ := List.exists_mem_of_ne_nil _ filled
      exact ⟨report, listed, same⟩
  have some_field : filenameDicts differ ≠ [] → ∃ d ∈ filenameDicts differ, ∃ key, key ∈ d := by
    intro filled
    obtain ⟨d, listed⟩ := List.exists_mem_of_ne_nil _ filled
    obtain ⟨report, _, rfl⟩ := List.mem_map.mp listed
    exact ⟨_, listed, some "file".toList, (mem_filename_dict report _).mpr rfl⟩
  rw [print_table_iff, and_iff_right some_field]
  simp only [fields]
  cases reports : differ.reports with
  | nil => exact iff_of_true (fun _ both => absurd rfl both.1) fun _ given => by cases given
  | cons first rest =>
      have row := simple_row_iff "file".toList (.text first.perfFile) (rest.map fun report => .text report.perfFile)
      rw [List.forall_mem_map] at row
      constructor
      · intro each other same
        cases same
        have shown := each (some "file".toList) ⟨List.cons_ne_nil _ _, rfl⟩
        rw [filename_row, reports] at shown
        exact row.mp shown
      · rintro each key ⟨-, rfl⟩
        rw [filename_row, reports]
        exact row.mpr (each first rfl)

theorem add_summary_counted (report : PerfReport) (names : List (Option Text)) (d : Dict (Option Text)) (counted : Counted d) :
    Counted (names.foldl (addSummary report) d) := by
  induction names generalizing d with
  | nil => exact counted
  | cons name rest ih =>
      refine ih _ ?_
      rw [addSummary]
      cases (report.sectionOf name).bind Section.count with
      | none => exact counted
      | some count => exact counted_insert d name count counted (Nat.cast_nonneg count)

theorem mem_summary (report : PerfReport) (names : List (Option Text)) (d : Dict (Option Text)) (key : Option Text) :
    key ∈ names.foldl (addSummary report) d ↔ key ∈ d ∨ key ∈ names ∧ ((report.sectionOf key).bind Section.count).isSome = true := by
  induction names generalizing d with
  | nil => simp
  | cons name rest ih =>
      have here : key ∈ addSummary report d name ↔ key ∈ d ∨ key = name ∧ ((report.sectionOf key).bind Section.count).isSome = true := by
        rw [addSummary]
        cases found : (report.sectionOf name).bind Section.count with
        | none => exact ⟨.inl, fun given => given.resolve_right fun both => by rw [both.1, found] at both; cases both.2⟩
        | some count =>
            rw [Option.elim_some, AList.mem_insert, or_comm]
            exact or_congr_right ⟨fun same => ⟨same, by rw [same, found, Option.isSome_some]⟩, And.left⟩
      rw [List.foldl_cons, ih, here, List.mem_cons, or_and_right, or_assoc]

theorem summary_table_iff (differ : PerfDiffer) (names : List (Option Text)) (found : findAllSections le differ = some names) :
    (printTableHelper le (summaryDicts differ names)).isSome = true ↔ (differ.reports ≠ [] → ∃ part, Present differ part) := by
  have counted := (find_all_sections_iff le differ).mp (by rw [found, Option.isSome_some])
  have present : (∃ d ∈ summaryDicts differ names, ∃ key, key ∈ d) ↔ ∃ part, Present differ part := by
    rw [summaryDicts]
    simp only [List.mem_map, exists_exists_and_eq_and, mem_summary, AList.notMem_empty, false_or]
    constructor
    · rintro ⟨report, listed, key, member, _⟩
      obtain ⟨part, inside, _⟩ := (mem_all_sections le differ names found key).mp member
      exact ⟨part, inside⟩
    · rintro ⟨part, report, listed, member⟩
      refine ⟨report, listed, part.name, (mem_all_sections le differ names found part.name).mpr ⟨part, ⟨report, listed, member⟩, rfl⟩, ?_⟩
      rw [(section_of_iff report part.name part).mpr ⟨member, rfl⟩, Option.bind_some]
      exact counted part ⟨report, listed, member⟩
  rw [counted_table_iff, present, Ne, summaryDicts, List.map_eq_nil_iff]
  rw [summaryDicts, List.forall_mem_map]
  exact fun report _ => add_summary_counted report names ∅ counted_empty

theorem factor_nonneg (part : Section) (common : Finset Text) (factor : ℚ) (found : getCommonScalingFactor part common = some factor) :
    0 ≤ factor := by
  obtain ⟨_, same⟩ := Option.ite_none_left_eq_some.mp found
  rw [← Option.some.inj same]
  exact div_nonneg (by norm_num) (Nat.cast_nonneg _)

theorem add_function_counted (differ : PerfDiffer) (part : Section) (names : List Text) (common : Finset Text) (factor : ℚ)
    (nonneg : 0 ≤ factor) (d : Dict (Option Text)) (function : PerfFunction) (counted : Counted d) :
    Counted (addFunction differ part names common factor d function) := by
  have inserted := counted_insert d (some (nameText part.name ++ ' ' :: function.name)) function.count counted (Nat.cast_nonneg _)
  rw [addFunction]
  split
  · dsimp only
    split
    · exact counted_insert _ _ _ inserted (mul_nonneg nonneg (Nat.cast_nonneg _))
    · exact inserted
  · exact counted

theorem functions_counted (differ : PerfDiffer) (part : Section) (names : List Text) (common : Finset Text) (factor : ℚ)
    (nonneg : 0 ≤ factor) (functions : List PerfFunction) (d : Dict (Option Text)) (counted : Counted d) :
    Counted (functions.foldl (addFunction differ part names common factor) d) := by
  induction functions generalizing d with
  | nil => exact counted
  | cons function rest ih => exact ih _ (add_function_counted differ part names common factor nonneg d function counted)

theorem add_function_filled (differ : PerfDiffer) (part : Section) (names : List Text) (common : Finset Text) (factor : ℚ)
    (d : Dict (Option Text)) (function : PerfFunction) :
    (∃ key, key ∈ addFunction differ part names common factor d function) ↔ (∃ key, key ∈ d) ∨ function.name ∈ names := by
  rw [addFunction]
  split
  · rename_i wanted
    dsimp only
    refine iff_of_true ⟨some (nameText part.name ++ ' ' :: function.name), ?_⟩ (.inr wanted)
    split
    · exact (AList.mem_insert _).mpr (.inr ((AList.mem_insert _).mpr (.inl rfl)))
    · exact (AList.mem_insert _).mpr (.inl rfl)
  · rename_i unwanted
    exact (or_iff_left unwanted).symm

theorem functions_filled (differ : PerfDiffer) (part : Section) (names : List Text) (common : Finset Text) (factor : ℚ)
    (functions : List PerfFunction) (d : Dict (Option Text)) :
    (∃ key, key ∈ functions.foldl (addFunction differ part names common factor) d) ↔
      (∃ key, key ∈ d) ∨ ∃ function ∈ functions, function.name ∈ names := by
  induction functions generalizing d with
  | nil => simp
  | cons function rest ih => rw [List.foldl_cons, ih, add_function_filled, List.exists_mem_cons_iff, or_assoc]

theorem mem_top_functions (differ : PerfDiffer) (name : Option Text) (function : Text) :
    function ∈ getTopFunctions le differ name ↔
      ∃ part, Present differ part ∧ part.name = name ∧ ∃ top ∈ sliceTo differ.numSymbols part.functions, top.name = function := by
  rw [getTopFunctions, mem_sorted, mem_max_dict]
  simp only [List.mem_flatMap, present_iff, List.mem_map, and_assoc]
  constructor
  · rintro ⟨item, ⟨part, present, named, top, member, rfl⟩, rfl⟩
    exact ⟨part, present, named, top, member, rfl⟩
  · rintro ⟨part, present, named, top, member, rfl⟩
    exact ⟨(top.name, .number top.count), ⟨part, present, named, top, member, rfl⟩, rfl⟩

theorem slice_member (n : ℤ) (items : List PerfFunction) (item : PerfFunction) (member : item ∈ sliceTo n items) : item ∈ items := by
  rw [sliceTo] at member
  split at member
  · exact List.mem_of_mem_take member
  · exact List.mem_of_mem_take member

-- Each section has a dictionary when none of the counts that they are divided by is zero.
theorem section_dicts_iff (differ : PerfDiffer) (part : Section) (common : Finset Text)
    (found : findCommonFunctions differ part.name = some common) :
    (∃ dicts, sectionDicts le differ part.name = some dicts) ↔
      ∀ other, Present differ other → other.name = part.name → getCount other common ≠ 0 := by
  rw [sectionDicts, found, Option.bind_some, made_each_iff]
  constructor
  · rintro each other ⟨report, listed, member⟩ named
    obtain ⟨d, made⟩ := each report listed
    rw [(section_of_iff report part.name other).mpr ⟨member, named⟩, sectionDict] at made
    obtain ⟨factor, scaling, _⟩ := Option.map_eq_some_iff.mp made
    exact (Option.ite_none_left_eq_some.mp scaling).1
  · intro each report listed
    cases inside : report.sectionOf part.name with
    | none => exact ⟨∅, rfl⟩
    | some other =>
        obtain ⟨member, named⟩ := (section_of_iff report part.name other).mp inside
        rw [sectionDict, getCommonScalingFactor, if_neg (each other ⟨report, listed, member⟩ named)]
        exact ⟨_, rfl⟩

theorem section_dict_counted (differ : PerfDiffer) (names : List Text) (common : Finset Text) (given : Option Section)
    (d : Dict (Option Text)) (made : sectionDict differ names common given = some d) : Counted d := by
  cases given with
  | none =>
      cases made
      exact counted_empty
  | some part =>
      obtain ⟨factor, scaling, rfl⟩ := Option.map_eq_some_iff.mp made
      exact functions_counted differ part names common factor (factor_nonneg part common factor scaling) _ ∅ counted_empty

theorem section_dict_filled (differ : PerfDiffer) (names : List Text) (common : Finset Text) (given : Option Section)
    (d : Dict (Option Text)) (made : sectionDict differ names common given = some d) :
    (∃ key, key ∈ d) ↔ ∃ part, given = some part ∧ ∃ function ∈ part.functions, function.name ∈ names := by
  cases given with
  | none =>
      cases made
      refine iff_of_false ?_ ?_
      · rintro ⟨key, member⟩
        exact AList.notMem_empty key member
      · rintro ⟨part, same, _⟩
        cases same
  | some part =>
      obtain ⟨factor, scaling, rfl⟩ := Option.map_eq_some_iff.mp made
      rw [functions_filled]
      simp only [AList.notMem_empty, exists_false, false_or, Option.some.injEq, exists_eq_left']

theorem section_table_iff (differ : PerfDiffer) (part : Section) (present : Present differ part)
    (dicts : List (Dict (Option Text))) (made : sectionDicts le differ part.name = some dicts) :
    (printTableHelper le dicts).isSome = true ↔
      ∃ other, Present differ other ∧ other.name = part.name ∧ sliceTo differ.numSymbols other.functions ≠ [] := by
  obtain ⟨common, _, made⟩ := Option.bind_eq_some_iff.mp made
  have dict_of := mem_made _ differ.reports dicts made
  have dict_for := (made_each_iff _ differ.reports).mp ⟨dicts, made⟩
  obtain ⟨report, listed, _⟩ := present
  obtain ⟨d, held⟩ := dict_for report listed
  have filled : dicts ≠ [] := List.ne_nil_of_mem ((dict_of d).mpr ⟨report, listed, held⟩)
  rw [counted_table_iff, imp_iff_right filled]
  · constructor
    · rintro ⟨d, member, shown⟩
      obtain ⟨report, listed, held⟩ := (dict_of d).mp member
      obtain ⟨_, _, function, _, top⟩ := (section_dict_filled differ _ common _ d held).mp shown
      obtain ⟨other, inside, named, first, sliced, _⟩ := (mem_top_functions le differ part.name function.name).mp top
      exact ⟨other, inside, named, List.ne_nil_of_mem sliced⟩
    · rintro ⟨other, ⟨report, listed, member⟩, named, sliced⟩
      obtain ⟨top, first⟩ := List.exists_mem_of_ne_nil _ sliced
      obtain ⟨d, held⟩ := dict_for report listed
      refine ⟨d, (dict_of d).mpr ⟨report, listed, held⟩, (section_dict_filled differ _ common _ d held).mpr ?_⟩
      refine ⟨other, (section_of_iff report part.name other).mpr ⟨member, named⟩, top, slice_member _ _ top first, ?_⟩
      exact (mem_top_functions le differ part.name top.name).mpr ⟨other, ⟨report, listed, member⟩, named, top, first, rfl⟩
  · intro d member
    obtain ⟨report, _, held⟩ := (dict_of d).mp member
    exact section_dict_counted differ _ common _ d held

end Tables

section Diff

variable (le : Datum → Datum → Bool) (differ : PerfDiffer)

def scaledCounts (part : Section) (common : Finset Text) (factor : ℚ) : List ℚ :=
  (part.functions.filter fun function => function.name ∈ common).map fun function => factor * function.count

structure DiffsRight : Prop where
  raisesNothing : (doDiff le differ).isSome = true
  scaled : differ.commonOnly = true → ∀ part, Present differ part → ∀ common, findCommonFunctions differ part.name = some common →
    getCount part common ≠ 0 →
      ∃ factor, getCommonScalingFactor part common = some factor ∧ (scaledCounts part common factor).sum = 100

theorem scaled_sum (functions : List PerfFunction) (factor : ℚ) :
    (functions.map fun function => factor * function.count).sum = factor * (functions.map PerfFunction.count).sum := by
  induction functions with
  | nil => simp
  | cons function rest ih => rw [List.map_cons, List.sum_cons, ih, List.map_cons, List.sum_cons, Nat.cast_add, mul_add]

theorem scaled_hundred (part : Section) (common : Finset Text) (counted : getCount part common ≠ 0) :
    ∃ factor, getCommonScalingFactor part common = some factor ∧ (scaledCounts part common factor).sum = 100 := by
  refine ⟨_, if_neg counted, ?_⟩
  rw [scaledCounts, scaled_sum]
  exact div_mul_cancel₀ 100 (Nat.cast_ne_zero.mpr counted)

theorem section_raises_nothing_iff (part : Section) (present : Present differ part) :
    (∃ dicts, sectionDicts le differ part.name = some dicts ∧ (printTableHelper le dicts).isSome = true) ↔
      (∀ other, Present differ other → other.name = part.name →
        ∃ function ∈ other.functions, function.count ≠ 0 ∧ Common differ other.name function.name) ∧
      ∃ other, Present differ other ∧ other.name = part.name ∧ sliceTo differ.numSymbols other.functions ≠ [] := by
  obtain ⟨common, found, shared⟩ := find_common differ part present
  have counts : (∃ dicts, sectionDicts le differ part.name = some dicts) ↔ ∀ other, Present differ other → other.name = part.name →
      ∃ function ∈ other.functions, function.count ≠ 0 ∧ Common differ other.name function.name := by
    rw [section_dicts_iff le differ part common found]
    refine forall_congr' fun other => forall_congr' fun _ => forall_congr' fun named => ?_
    exact get_count_iff differ other common (by rw [named]; exact shared)
  rw [← counts]
  constructor
  · rintro ⟨dicts, made, printed⟩
    exact ⟨⟨dicts, made⟩, (section_table_iff le differ part present dicts made).mp printed⟩
  · rintro ⟨⟨dicts, made⟩, symbols⟩
    exact ⟨dicts, made, (section_table_iff le differ part present dicts made).mpr symbols⟩

theorem tables_iff (names : List (Option Text)) (dicts : List (List (Dict (Option Text)))) :
    (∃ tables, (filenameDicts differ :: summaryDicts differ names :: dicts).mapM (printTableHelper le) = some tables) ↔
      (printTableHelper le (filenameDicts differ)).isSome = true ∧
        (printTableHelper le (summaryDicts differ names)).isSome = true ∧
        ∀ table ∈ dicts, (printTableHelper le table).isSome = true := by
  simp only [made_each_iff, List.forall_mem_cons, Option.isSome_iff_exists]

theorem do_diff_iff : (doDiff le differ).isSome = true ↔ Diffable differ := by
  constructor
  · intro ran
    obtain ⟨tables, ran⟩ := Option.isSome_iff_exists.mp ran
    obtain ⟨names, found, ran⟩ := Option.bind_eq_some_iff.mp ran
    obtain ⟨dicts, made, ran⟩ := Option.bind_eq_some_iff.mp ran
    obtain ⟨filenames, summary, each⟩ := (tables_iff le differ names dicts).mp ⟨tables, ran⟩
    have sections : ∀ part, Present differ part →
        ∃ dicts, sectionDicts le differ part.name = some dicts ∧ (printTableHelper le dicts).isSome = true := by
      intro part present
      have listed := (mem_all_sections le differ names found part.name).mpr ⟨part, present, rfl⟩
      obtain ⟨own, held⟩ := (made_each_iff _ names).mp ⟨dicts, made⟩ part.name listed
      exact ⟨own, held, each own ((mem_made _ names dicts made own).mpr ⟨part.name, listed, held⟩)⟩
    have raises := fun part present => (section_raises_nothing_iff le differ part present).mp (sections part present)
    exact {
      counted := (find_all_sections_iff le differ).mp (by rw [found, Option.isSome_some])
      common := fun part present => (raises part present).1 part present rfl
      sections := (summary_table_iff le differ names found).mp summary
      symbols := fun part present => (raises part present).2
      names := (filename_table_iff le differ).mp filenames }
  · intro good
    obtain ⟨names, found⟩ := Option.isSome_iff_exists.mp ((find_all_sections_iff le differ).mpr good.counted)
    have sections : ∀ name ∈ names, ∃ dicts, sectionDicts le differ name = some dicts ∧ (printTableHelper le dicts).isSome = true := by
      intro name listed
      obtain ⟨part, present, rfl⟩ := (mem_all_sections le differ names found name).mp listed
      exact (section_raises_nothing_iff le differ part present).mpr ⟨fun other inside _ => good.common other inside, good.symbols part present⟩
    obtain ⟨dicts, made⟩ := (made_each_iff (sectionDicts le differ) names).mpr fun name listed => by
      obtain ⟨own, held, _⟩ := sections name listed
      exact ⟨own, held⟩
    have printed : ∀ table ∈ dicts, (printTableHelper le table).isSome = true := by
      intro table member
      obtain ⟨name, listed, held⟩ := (mem_made _ names dicts made table).mp member
      obtain ⟨own, other, shown⟩ := sections name listed
      rw [Option.some.inj (held.symm.trans other)]
      exact shown
    obtain ⟨tables, ran⟩ := (tables_iff le differ names dicts).mpr
      ⟨(filename_table_iff le differ).mpr good.names, (summary_table_iff le differ names found).mpr good.sections, printed⟩
    rw [doDiff, found, Option.bind_some, made, Option.bind_some, ran, Option.isSome_some]

theorem diffs_right_iff : DiffsRight le differ ↔ Diffable differ := by
  rw [← do_diff_iff le differ]
  exact ⟨DiffsRight.raisesNothing, fun ran => ⟨ran, fun _ part _ common _ counted => scaled_hundred part common counted⟩⟩

end Diff

def oneSection (perfFile : Text) (function : PerfFunction) : PerfReport :=
  ⟨perfFile, [⟨some "cycles".toList, some 10, [function]⟩], List.nodup_singleton _⟩

-- Two reports without a function in common.
def disjointDiffer : PerfDiffer := ⟨[oneSection ['a'] ⟨['f'], 3⟩, oneSection ['b'] ⟨['g'], 4⟩], 5, false⟩

theorem disjoint_functions_raise : ¬ DiffsRight (fun _ _ => true) disjointDiffer := by
  intro right
  have good := (do_diff_iff (fun _ _ => true) disjointDiffer).mp right.raisesNothing
  obtain ⟨function, member, _, shared⟩ := good.common _ ⟨oneSection ['a'] ⟨['f'], 3⟩, List.mem_cons_self, List.mem_cons_self⟩
  obtain ⟨other, inside, same⟩ := shared _ ⟨oneSection ['b'] ⟨['g'], 4⟩, by simp [disjointDiffer], List.mem_cons_self⟩ rfl
  rw [List.mem_singleton.mp member, List.mem_singleton.mp inside] at same
  exact absurd same (by decide)

end ToolchainUtils.CrosUtils.PerfDiff
