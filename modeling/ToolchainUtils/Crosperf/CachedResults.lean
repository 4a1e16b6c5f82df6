import ToolchainUtils.Crosperf.Result
import ToolchainUtils.FailingFold

set_option autoImplicit false

namespace ToolchainUtils.Crosperf.CachedResults

open PyString

def named (name : Text) (files : List RelPath) : List RelPath := files.filter fun path => path.name == name

theorem named_name (name : Text) (files : List RelPath) (path : RelPath) (member : path ∈ named name files) :
    path.name = name := by
  rw [named, List.mem_filter] at member
  exact beq_iff_eq.mp member.2

theorem named_append (name : Text) (files more : List RelPath) : named name (files ++ more) = named name files ++ named name more :=
  List.filter_append files more

section Paths

theorem find_suffix (first needle : Text) : (find needle (first ++ needle)).isSome = true :=
  (find_is_some_iff needle (first ++ needle)).mpr (List.suffix_append first needle).isInfix

theorem text_ends_with_name (root : Text) (path : RelPath) : ∃ first, path.text root = first ++ path.name := by
  rw [RelPath.text, joinPath]
  split
  · exact ⟨_, (List.append_assoc root _ _).symm⟩
  · exact ⟨root ++ '/' :: path.folders.flatMap fun folder => folder ++ ['/'], by simp⟩

theorem chart_mentioned (root : Text) (path : RelPath) (chart : path.name = resultsChart) : mentionsChart root path = true := by
  obtain ⟨first, text⟩ := text_ends_with_name root path
  rw [mentionsChart, text, chart]
  exact find_suffix first resultsChart

theorem json_suffix (root : Text) (path : RelPath) (end_ : Text) (ends : path.name.reverse.take 5 = end_.reverse)
    (length : end_.length = 5) : ".json".toList.isSuffixOf (path.text root) = (".json".toList == end_) := by
  obtain ⟨first, text⟩ := text_ends_with_name root path
  obtain ⟨rest, split⟩ : ∃ rest, path.name = rest ++ end_ := by
    refine ⟨(path.name.reverse.drop 5).reverse, ?_⟩
    rw [← List.reverse_reverse end_, ← ends, ← List.reverse_append, List.take_append_drop, List.reverse_reverse]
  rw [text, split, ← List.append_assoc]
  apply Bool.eq_iff_iff.mpr
  rw [List.isSuffixOf_iff_suffix, beq_iff_eq]
  constructor
  · rintro ⟨other, same⟩
    exact (List.append_inj' same (by rw [length]; rfl)).2
  · intro same
    exact ⟨_, by rw [same]⟩

theorem chart_is_json (root : Text) (path : RelPath) (chart : path.name = resultsChart) :
    ".json".toList.isSuffixOf (path.text root) = true := by
  rw [json_suffix root path ".json".toList (by rw [chart]; decide) (by decide)]
  exact beq_self_eq_true _

theorem measurements_not_json (root : Text) (path : RelPath) (measurements : path.name = perfMeasurements) :
    ".json".toList.isSuffixOf (path.text root) = false := by
  rw [json_suffix root path "ments".toList (by rw [measurements]; decide) (by decide)]
  decide

end Paths

section Reports

theorem report_name (data : RelPath) (isData : data.name = perfData) : data.report.name = perfDataReport := by
  change data.name ++ ".report".toList = perfDataReport
  rw [isData]
  decide

theorem report_injective (first second : RelPath) (same : first.report = second.report) : first = second := by
  cases first
  cases second
  simpa [RelPath.report] using same

theorem generated_reports (perfReport : Text → Text) (datas : List RelPath) (dir stored : Directory) (reports : List RelPath)
    (made : generatePerfReportFiles perfReport datas dir = some (reports, stored)) :
    reports = datas.map RelPath.report ∧ stored.listing = dir.listing ++ datas.map RelPath.report ∧
      ∀ data ∈ datas, data.report ∉ dir.listing := by
  induction datas generalizing dir reports with
  | nil =>
      rw [generatePerfReportFiles, Option.some_inj, Prod.mk.injEq] at made
      exact ⟨made.1.symm, by rw [← made.2]; simp, fun _ member => absurd member List.not_mem_nil⟩
  | cons data rest ih =>
      rw [generatePerfReportFiles] at made
      split at made
      · exact absurd made nofun
      · rename_i absent
        obtain ⟨⟨others, final⟩, generated, pair⟩ := Option.map_eq_some_iff.mp made
        obtain ⟨rfl, rfl⟩ : data.report :: others = reports ∧ final = stored := by simpa using pair
        obtain ⟨reportsEq, listingEq, fresh⟩ := ih _ _ generated
        have written : (dir.write data.report (perfReport (dir.content data))).listing = dir.listing ++ [data.report] := if_neg absent
        rw [written] at listingEq fresh
        refine ⟨by rw [reportsEq]; rfl, by rw [listingEq, List.append_assoc]; rfl, ?_⟩
        intro other member
        rcases List.mem_cons.mp member with same | later
        · rw [same]
          exact absent
        · exact fun found => fresh other later (List.mem_append_left _ found)

-- Where the content already has each report beside its data, writing it changes nothing.
theorem generation_succeeds (datas : List RelPath) (dir : Directory) (distinct : datas.Nodup)
    (absent : ∀ data ∈ datas, data.report ∉ dir.listing)
    (there : ∀ data ∈ datas, dir.content data.report = dir.content data) :
    generatePerfReportFiles id datas dir =
      some (datas.map RelPath.report, ⟨dir.listing ++ datas.map RelPath.report, dir.content⟩) := by
  induction datas generalizing dir with
  | nil => simp [generatePerfReportFiles]
  | cons data rest ih =>
      have missing := absent data List.mem_cons_self
      have written : dir.write data.report (id (dir.content data)) = ⟨dir.listing ++ [data.report], dir.content⟩ := by
        rw [Directory.write, if_neg missing, id, ← there data List.mem_cons_self, Function.update_eq_self]
      rw [generatePerfReportFiles, if_neg missing, written, ih _ (List.nodup_cons.mp distinct).2]
      · simp
      · intro other member found
        rcases List.mem_append.mp found with listed | isNew
        · exact absent other (List.mem_cons_of_mem _ member) listed
        · have same := report_injective _ _ (List.mem_singleton.mp isNew)
          rw [same] at member
          exact (List.nodup_cons.mp distinct).1 member
      · exact fun other member => there other (List.mem_cons_of_mem _ member)

theorem named_reports (name : Text) (other : name ≠ perfDataReport) (datas : List RelPath) (isData : ∀ data ∈ datas, data.name = perfData) :
    named name (datas.map RelPath.report) = [] := by
  rw [named, List.filter_eq_nil_iff]
  intro path member found
  obtain ⟨data, listed, rfl⟩ := List.mem_map.mp member
  rw [beq_iff_eq, report_name data (isData data listed)] at found
  exact other found.symm

end Reports

section Sources

variable (run : TestRun) (traversal : Traversal) (files : List RelPath)

def storedFiles : List RelPath := files ++ (named perfData files).map RelPath.report

-- What find goes through in the directory that was taken out of the tarball.
def readBack : List RelPath := traversal.order ((storedFiles files).filter RelPath.archived)

def cachedRoot : Text := getOutsideChrootPath run.chromeosRoot (tmpDir run.readDir)

def freshRoot (chrootResultsDir : Text) : Text := getOutsideChrootPath run.chromeosRoot chrootResultsDir

-- A file with how readDataFile reads it.
def withReading (root : Text) (paths : List RelPath) : List (RelPath × Bool) :=
  paths.map fun path => (path, jsonNamed root path)

-- Both ways collect from the same files in the same order: the chart if there is one,
-- else the measurements, and the tool is shown the same files.
structure SameData (root : Text) : Prop where
  chart : ∀ chart, (named resultsChart files).head? = some chart →
    named perfMeasurements (readBack traversal files) = [] ∧
      (named resultsChart (readBack traversal files)).head? = some chart
  measurements : named resultsChart files = [] →
    withReading (cachedRoot run) (named perfMeasurements (readBack traversal files)) =
        withReading root (named perfMeasurements files) ∧
      (∀ first, (named perfMeasurements (readBack traversal files)).head? = some first →
        mentionsChart (cachedRoot run) first = false) ∧
      -- What the tarball leaves out is what the copy of the new results leaves out.
      ∀ path ∈ storedFiles files, path.archived = !path.hidden

-- And the reports that are found are the ones that were generated.
structure SameSources (root : Text) : Prop extends SameData run traversal files root where
  reports : named perfDataReport (readBack traversal files) = (named perfData files).map RelPath.report

def Reproducible : Prop :=
  run.suite = telemetry ∨
    ∀ chrootResultsDir, getResultsDir run.out = some chrootResultsDir → (∀ data ∈ named perfData files, data.report ∉ files) →
      SameSources run traversal files (freshRoot run chrootResultsDir)

theorem stored_named (name : Text) (other : name ≠ perfDataReport) : named name (storedFiles files) = named name files := by
  rw [storedFiles, named_append, named_reports name other _ fun data => named_name perfData files data, List.append_nil]

theorem read_back_member (path : RelPath) (member : path ∈ readBack traversal files) : path ∈ storedFiles files :=
  List.mem_of_mem_filter ((traversal.perm _).mem_iff.mp member)

theorem read_back_named (name : Text) (other : name ≠ perfDataReport) (path : RelPath)
    (member : path ∈ named name (readBack traversal files)) : path ∈ named name files := by
  rw [← stored_named files name other]
  rw [named, List.mem_filter] at member ⊢
  exact ⟨read_back_member traversal files path member.1, member.2⟩

theorem read_back_none (name : Text) (other : name ≠ perfDataReport) (none : named name files = []) :
    named name (readBack traversal files) = [] := by
  rw [List.eq_nil_iff_forall_not_mem]
  intro path member
  have found := read_back_named traversal files name other path member
  rw [none] at found
  exact absurd found List.not_mem_nil

theorem stored_nodup (distinct : files.Nodup) (absent : ∀ data ∈ named perfData files, data.report ∉ files) :
    (storedFiles files).Nodup := by
  rw [storedFiles, List.nodup_append]
  refine ⟨distinct, (distinct.filter _).map report_injective, ?_⟩
  intro path listed other report same
  obtain ⟨data, member, rfl⟩ := List.mem_map.mp report
  rw [same] at listed
  exact absent data member listed

theorem read_back_nodup (distinct : files.Nodup) (absent : ∀ data ∈ named perfData files, data.report ∉ files) (name : Text) :
    (named name (readBack traversal files)).Nodup :=
  ((traversal.perm _).nodup_iff.mpr ((stored_nodup files distinct absent).filter _)).filter _

end Sources

section Populating

variable (python : Python) (tool : KeyvalsTool) (perfReport : Text → Text) (traversal : Traversal) (run : TestRun)
  (files : List RelPath) (content : RelPath → Text)

def storedDir : Directory := ⟨storedFiles files, content⟩

def restoredDir : Directory := ⟨readBack traversal files, content⟩

def freshKeyvals (root : Text) : Option Keyvals :=
  processResults python run.suite run.retval root (storedDir files content) (named resultsChart files)
    ((named perfData files).map RelPath.report) (tmpDir run.madeDir)
    (tool.lines (tmpDir run.madeDir) (restrict (fun path => !path.hidden) (storedDir files content).files))

def cachedKeyvals : Option Keyvals :=
  processResults python run.suite run.retval (cachedRoot run) (restoredDir traversal files content)
    (restoredDir traversal files content).getDataMeasurementsFiles (named perfDataReport (readBack traversal files))
    (tmpDir run.readDir) (tool.lines (tmpDir run.readDir) (restoredDir traversal files content).files)

-- The cached result has the keyvals and the retval of the fresh one, if there was one.
def Reproduced : Prop :=
  ∀ result, createFromRun python tool perfReport run ⟨files, content⟩ = some result →
    ∃ cached, createFromCacheHit python tool traversal run result.storeToCacheDir = some cached ∧
      cached.retval = result.retval ∧ ∀ key, cached.keyvals.lookup key = result.keyvals.lookup key

theorem fresh_result (notTelemetry : run.suite ≠ telemetry) (result : Result)
    (created : createFromRun python tool perfReport run ⟨files, content⟩ = some result) :
    ∃ chrootResultsDir after, getResultsDir run.out = some chrootResultsDir ∧
      (∀ data ∈ named perfData files, data.report ∉ files) ∧
        freshKeyvals python tool run files after (freshRoot run chrootResultsDir) = some result.keyvals ∧
          result.retval = run.retval ∧ result.out = run.out ∧ result.resultsDir = some (storedDir files after) := by
  rw [createFromRun, if_neg (by simpa using notTelemetry), Result.populateFromRun] at created
  obtain ⟨chrootResultsDir, placed, created⟩ := Option.bind_eq_some_iff.mp created
  obtain ⟨⟨reports, stored⟩, made, created⟩ := Option.bind_eq_some_iff.mp created
  obtain ⟨keyvals, processed, rfl⟩ := Option.map_eq_some_iff.mp created
  obtain ⟨rfl, listing, absent⟩ := generated_reports perfReport _ _ stored reports made
  obtain ⟨storedListing, after⟩ := stored
  simp only at listing
  subst listing
  exact ⟨chrootResultsDir, after, placed, absent, processed, rfl, rfl, rfl⟩

theorem cached_result (notTelemetry : run.suite ≠ telemetry) (result : Result) (retval : result.retval = run.retval)
    (resultsDir : result.resultsDir = some (storedDir files content)) :
    createFromCacheHit python tool traversal run result.storeToCacheDir =
      (cachedKeyvals python tool traversal run files content).map fun keyvals =>
        { out := result.out, err := result.err, retval := run.retval, keyvals := keyvals
          resultsDir := some (restoredDir traversal files content) } := by
  rw [createFromCacheHit, if_neg (by simpa using notTelemetry), Result.populateFromCacheDir, Result.storeToCacheDir,
    resultsDir, retval]
  rfl

theorem telemetry_reproduced (isTelemetry : run.suite = telemetry) :
    Reproduced python tool perfReport traversal run files content := by
  intro result created
  rw [createFromRun, if_pos (by simpa using isTelemetry), Option.some_inj] at created
  subst created
  exact ⟨TelemetryResult.populateFromCacheDir (TelemetryResult.populateFromRun run).storeToCacheDir,
    by rw [createFromCacheHit, if_pos (by simpa using isTelemetry)], rfl, fun key => rfl⟩

end Populating

section SameReadings

variable (python : Python) (tool : KeyvalsTool) (traversal : Traversal) (run : TestRun)
  (files : List RelPath) (content : RelPath → Text)

def readText (flag : Bool) (text : Text) (state : Measured) : Option Measured :=
  if flag then readChart python text state else (readlines text).foldlM (measurementLine python) state

def readPair (state : Measured) (pair : RelPath × Bool) : Option Measured := readText python pair.2 (content pair.1) state

theorem new_keyvals_read (root : Text) (dir : Directory) (keyvals : Keyvals) :
    getNewKeyvals python root dir keyvals =
      (withReading root dir.getDataMeasurementsFiles).foldlM (readPair python dir.content)
        (keyvals, keyvals.keys.foldl (fun units key => units.insert key (.str [])) newKeyvals) := by
  rw [withReading, List.foldlM_map]
  rfl

theorem data_files_without_charts (dir : Directory) (none : named resultsChart dir.listing = []) :
    dir.getDataMeasurementsFiles = named perfMeasurements dir.listing := by
  rw [Directory.getDataMeasurementsFiles]
  split
  · rename_i empty
    exact none.trans (List.isEmpty_iff.mp empty).symm
  · rfl

theorem data_files_without_measurements (dir : Directory) (none : named perfMeasurements dir.listing = []) :
    dir.getDataMeasurementsFiles = named resultsChart dir.listing :=
  if_pos (List.isEmpty_iff.mpr none)

theorem stored_data_files (noCharts : named resultsChart files = []) :
    (storedDir files content).getDataMeasurementsFiles = named perfMeasurements files :=
  (data_files_without_charts (storedDir files content) ((stored_named files resultsChart (by decide)).trans noCharts)).trans
    (stored_named files perfMeasurements (by decide))

theorem restored_data_files (noCharts : named resultsChart files = []) :
    (restoredDir traversal files content).getDataMeasurementsFiles = named perfMeasurements (readBack traversal files) :=
  data_files_without_charts (restoredDir traversal files content)
    (read_back_none traversal files resultsChart (by decide) noCharts)

theorem restored_files : (restoredDir traversal files content).files = restrict RelPath.archived (storedDir files content).files := by
  funext path
  have listed : path ∈ readBack traversal files ↔ path ∈ storedFiles files ∧ path.archived = true := by
    rw [readBack, (traversal.perm _).mem_iff, List.mem_filter]
  by_cases kept : path.archived = true
  · by_cases stored : path ∈ storedFiles files
    · rw [restrict, if_pos kept, Directory.files, Directory.files, restoredDir, storedDir, if_pos stored,
        if_pos (listed.mpr ⟨stored, kept⟩)]
    · rw [restrict, if_pos kept, Directory.files, Directory.files, restoredDir, storedDir, if_neg stored,
        if_neg fun member => stored (listed.mp member).1]
  · rw [restrict, if_neg kept, Directory.files, restoredDir, if_neg fun member => kept (listed.mp member).2]

theorem restored_copied (both : ∀ path ∈ storedFiles files, path.archived = !path.hidden) :
    (restoredDir traversal files content).files = restrict (fun path => !path.hidden) (storedDir files content).files := by
  rw [restored_files]
  funext path
  by_cases stored : path ∈ storedFiles files
  · rw [restrict, restrict, both path stored]
  · have absent : (storedDir files content).files path = none := if_neg stored
    rw [restrict, restrict, absent, ite_self, ite_self]

theorem same_tool_lines (both : ∀ path ∈ storedFiles files, path.archived = !path.hidden) :
    (tool.lines (tmpDir run.readDir) (restoredDir traversal files content).files).map (toolKeyval (tmpDir run.readDir)) =
      (tool.lines (tmpDir run.madeDir) (restrict (fun path => !path.hidden) (storedDir files content).files)).map
        (toolKeyval (tmpDir run.madeDir)) := by
  rw [restored_copied traversal files content both]
  exact tool.of_content _ _ _

theorem same_collected (root : Text) (same : SameData run traversal files root) :
    collectedKeyvals python run.suite (cachedRoot run) (restoredDir traversal files content)
        (restoredDir traversal files content).getDataMeasurementsFiles (tmpDir run.readDir)
        (tool.lines (tmpDir run.readDir) (restoredDir traversal files content).files) =
      collectedKeyvals python run.suite root (storedDir files content) (named resultsChart files) (tmpDir run.madeDir)
        (tool.lines (tmpDir run.madeDir) (restrict (fun path => !path.hidden) (storedDir files content).files)) := by
  rw [collectedKeyvals, collectedKeyvals]
  cases found : named resultsChart files with
  | nil =>
      obtain ⟨sameReading, unmentioned, both⟩ := same.measurements found
      have cachedFiles := restored_data_files traversal files content found
      have freshFiles := stored_data_files files content found
      have noFirst : (named perfMeasurements (readBack traversal files)).head?.filter (mentionsChart (cachedRoot run)) = none := by
        rw [Option.filter_eq_none_iff]
        intro first member
        rw [unmentioned first member]
        exact Bool.false_ne_true
      have sameNew : ∀ keyvals, getNewKeyvals python (cachedRoot run) (restoredDir traversal files content) keyvals =
          getNewKeyvals python root (storedDir files content) keyvals := by
        intro keyvals
        rw [new_keyvals_read, new_keyvals_read, cachedFiles, freshFiles, sameReading]
        rfl
      rw [cachedFiles, noFirst]
      simp only [List.head?_nil, Option.filter_none]
      rw [getKeyvals, getKeyvals, same_tool_lines tool traversal run files content both, funext sameNew]
  | cons chart rest =>
      obtain ⟨noMeasurements, head⟩ := same.chart chart (by rw [found]; rfl)
      have isChart : chart.name = resultsChart := named_name resultsChart files chart (by rw [found]; exact List.mem_cons_self)
      rw [data_files_without_measurements (restoredDir traversal files content) noMeasurements, restoredDir, head,
        Option.filter_some_pos (chart_mentioned _ chart isChart), List.head?_cons,
        Option.filter_some_pos (chart_mentioned _ chart isChart)]
      simp only
      rw [processJsonResults, processJsonResults, if_pos (chart_is_json _ chart isChart), if_pos (chart_is_json _ chart isChart)]
      rfl

theorem same_keyvals (root : Text) (same : SameSources run traversal files root) :
    cachedKeyvals python tool traversal run files content = freshKeyvals python tool run files content root := by
  rw [cachedKeyvals, freshKeyvals, processResults, processResults, same_collected python tool traversal run files content root same.toSameData,
    same.reports]
  rfl

theorem reproducible_reproduced (perfReport : Text → Text) (reproducible : Reproducible run traversal files) :
    Reproduced python tool perfReport traversal run files content := by
  by_cases isTelemetry : run.suite = telemetry
  · exact telemetry_reproduced python tool perfReport traversal run files content isTelemetry
  · intro result created
    obtain ⟨chrootResultsDir, after, placed, absent, fresh, retval, -, resultsDir⟩ :=
      fresh_result python tool perfReport run files content isTelemetry result created
    have same := (reproducible.resolve_left isTelemetry) chrootResultsDir placed absent
    have cached := same_keyvals python tool traversal run files after _ same
    rw [cached_result python tool traversal run files after isTelemetry result retval resultsDir, cached, fresh]
    exact ⟨_, rfl, retval.symm, fun key => rfl⟩

end SameReadings

section Samples

variable (python : Python)

def ab : Text := underscored ['a'] ['b']

def neutralText (flag : Bool) : Text := if flag then emptyText else []

def sampleText (flag second : Bool) : Text := if flag then chartText second else lineText second

theorem read_neutral (flag : Bool) (state : Measured) : readText python flag (neutralText flag) state = some state := by
  cases flag with
  | false => rfl
  | true => simp [readText, neutralText, readChart, python.loads_empty, Value.charts, Value.items]

theorem read_sample (flag second : Bool) (state : Measured) :
    readText python flag (sampleText flag second) state =
      some (state.1.insert ab (.int (sampleNumber second)), state.2.insert ab (.str ['u'])) := by
  cases flag with
  | false =>
      obtain ⟨fields, loads, -, graph, description, value, units⟩ := python.loads_line second
      have oneLine : readlines (lineText second) = [lineText second] := by cases second <;> decide
      simp only [readText, sampleText, Bool.false_eq_true, if_false, oneLine, List.foldlM_cons, List.foldlM_nil, measurementLine,
        loads, Value.iteritems, graph, description, value, units, Option.bind_some, Option.map_some, graphStr, strText]
      rfl
  | true =>
      obtain ⟨fields, loads, value, units⟩ := python.loads_chart second
      simp [readText, sampleText, readChart, loads, Value.charts, List.lookup_cons, Value.items, chartField, chartItem,
        value, units, ab]

theorem read_wrong (flag second : Bool) (state : Measured) : readText python (!flag) (sampleText flag second) state = none := by
  cases flag with
  | false =>
      obtain ⟨fields, loads, noCharts, graph, -⟩ := python.loads_line second
      obtain ⟨first, rest, split, -⟩ := List.lookup_eq_some_iff.mp graph
      cases ran : readText python true (lineText second) state with
      | none => exact ran
      | some finish =>
          rw [readText, if_pos rfl, readChart, loads, Option.bind_some, Value.charts, noCharts, Option.getD_none, Value.items,
            Option.bind_some] at ran
          obtain ⟨before, after, read⟩ :=
            FailingFold.member_succeeded (chartField python) fields _ (by rw [split]; exact List.mem_append_right _ List.mem_cons_self)
              state finish ran
          exact absurd read nofun
  | true =>
      obtain ⟨fields, loads, -⟩ := python.loads_chart second
      have oneLine : readlines (chartText second) = [chartText second] := by cases second <;> decide
      have noGraph : measurementLine python state (chartText second) = none := by
        rw [measurementLine, loads]
        rfl
      change (readlines (chartText second)).foldlM (measurementLine python) state = none
      rw [oneLine, List.foldlM_cons, noGraph]
      rfl

end Samples

section Units

variable (keyvals units : Keyvals)

def appendUnit (results : Keyvals) (key : Text) : Option Keyvals :=
  if key == [] || key == telemetryCrosperf then some results
  else (keyvals.lookup key).bind fun val => (units.lookup key).map fun unit => results.insert key (.list [val, unit])

theorem append_unit_other (results next : Keyvals) (key : Text) (other : key ≠ ab)
    (appended : appendUnit keyvals units results key = some next) : next.lookup ab = results.lookup ab := by
  rw [appendUnit] at appended
  split at appended
  · rw [Option.some_inj.mp appended]
  · obtain ⟨val, -, appended⟩ := Option.bind_eq_some_iff.mp appended
    obtain ⟨unit, -, rfl⟩ := Option.map_eq_some_iff.mp appended
    exact AList.lookup_insert_ne (Ne.symm other)

theorem append_unit_ab (results next : Keyvals) (appended : appendUnit keyvals units results ab = some next) :
    next.lookup ab = (keyvals.lookup ab).map fun val => .list [val, (units.lookup ab).getD .null] := by
  rw [appendUnit, if_neg (by decide)] at appended
  obtain ⟨val, found, appended⟩ := Option.bind_eq_some_iff.mp appended
  obtain ⟨unit, unitFound, rfl⟩ := Option.map_eq_some_iff.mp appended
  rw [found, unitFound]
  exact AList.lookup_insert _

theorem append_units_lookup (results : Keyvals) (appended : appendTelemetryUnits keyvals units = some results) :
    results.lookup ab = (keyvals.lookup ab).map fun val => .list [val, (units.lookup ab).getD .null] := by
  change keyvals.keys.foldlM (appendUnit keyvals units) newKeyvals = some results at appended
  by_cases member : ab ∈ keyvals.keys
  · obtain ⟨before, after, split⟩ := List.append_of_mem member
    have distinct : (before ++ ab :: after).Nodup := split ▸ keyvals.nodupKeys
    rw [split] at appended
    apply FailingFold.last_setting_wins (appendUnit keyvals units) (fun state => state.lookup ab) before after ab newKeyvals results
    · exact fun state next => append_unit_ab keyvals units state next
    · intro key later state next
      apply append_unit_other keyvals units state next key
      intro same
      rw [same] at later
      exact (List.nodup_cons.mp (List.nodup_append.mp distinct).2.1).1 later
    · exact appended
  · rw [AList.lookup_eq_none.mpr member, Option.map_none]
    apply FailingFold.kept_by_fold (appendUnit keyvals units) (fun state => state.lookup ab) keyvals.keys newKeyvals results
    · intro key listed state next
      apply append_unit_other keyvals units state next key
      intro same
      rw [same] at listed
      exact member listed
    · exact appended

-- No KeyError: whatever has a value has units too.
theorem append_units_succeeds (covered : ∀ key ∈ keyvals, key ∈ units) :
    ∃ results, appendTelemetryUnits keyvals units = some results := by
  apply FailingFold.fold_succeeds (appendUnit keyvals units)
  intro key member state
  rw [appendUnit]
  split
  · exact ⟨state, rfl⟩
  · obtain ⟨val, found⟩ := Option.isSome_iff_exists.mp (AList.lookup_isSome.mpr member)
    obtain ⟨unit, unitFound⟩ := Option.isSome_iff_exists.mp (AList.lookup_isSome.mpr (covered key member))
    rw [found, unitFound]
    exact ⟨_, rfl⟩

end Units

section Collecting

variable (python : Python) (suite root : Text) (dir : Directory) (inside : Text)

-- What a report of keyvals shows for a measured value.
def shown (unit value : Value) : Value := if suite == telemetryCrosperf then .list [value, unit] else value

theorem shown_injective (unit other first second : Value) (same : shown suite unit first = shown suite other second) : first = second := by
  rw [shown, shown] at same
  split at same
  · rw [Value.list.injEq, List.cons.injEq] at same
    exact same.1
  · exact same

theorem shown_lookup (unit other : Value) (first second : Option Value)
    (same : first.map (shown suite unit) = second.map (shown suite other)) : first = second := by
  cases first with
  | none => exact (Option.map_eq_none_iff.mp same.symm).symm
  | some value =>
      obtain ⟨found, isSome, equal⟩ := Option.map_eq_some_iff.mp same.symm
      rw [isSome, shown_injective suite other unit found value equal]

def measure : Option Measured := (withReading root dir.getDataMeasurementsFiles).foldlM (readPair python dir.content) (newKeyvals, newKeyvals)

theorem get_keyvals_measured (keyvals : Keyvals) (got : getKeyvals python suite root dir inside [] = some keyvals) :
    ∃ measured unit, measure python root dir = some measured ∧
      keyvals.lookup ab = (measured.1.lookup ab).map (shown suite unit) := by
  rw [getKeyvals] at got
  obtain ⟨start, empty, got⟩ := Option.bind_eq_some_iff.mp got
  obtain rfl : newKeyvals = start := Option.some_inj.mp empty
  obtain ⟨measured, read, got⟩ := Option.bind_eq_some_iff.mp got
  rw [new_keyvals_read] at read
  split at got
  · rename_i isTelemetry
    refine ⟨measured, (measured.2.lookup ab).getD .null, read, ?_⟩
    rw [append_units_lookup _ _ _ got]
    congr 1
    funext value
    rw [shown, if_pos isTelemetry]
  · rename_i notTelemetry
    refine ⟨measured, .null, read, ?_⟩
    obtain rfl : measured.1 = keyvals := Option.some_inj.mp got
    have same : shown suite .null = id := by
      funext value
      rw [shown, if_neg notTelemetry, id]
    rw [same, Option.map_id, id]

theorem get_keyvals_succeeds (measured : Measured) (read : measure python root dir = some measured)
    (covered : ∀ key ∈ measured.1, key ∈ measured.2) : ∃ keyvals, getKeyvals python suite root dir inside [] = some keyvals := by
  have got : getNewKeyvals python root dir newKeyvals = some measured := (new_keyvals_read python root dir newKeyvals).trans read
  have empty : toolKeyvals (([] : List Text).map (toolKeyval inside)) = some newKeyvals := rfl
  rw [getKeyvals, empty, Option.bind_some, got, Option.bind_some]
  split
  · exact append_units_succeeds measured.1 measured.2 covered
  · exact ⟨measured.1, rfl⟩

variable (retval : Int) (resultsFile reports : List RelPath) (lines : List Text)

theorem silent_reports (silent : ∀ report ∈ reports, dir.content report = []) (keyvals : Keyvals) :
    gatherPerfResults python dir reports keyvals = some keyvals := by
  rw [gatherPerfResults]
  induction reports with
  | nil => rfl
  | cons report rest ih =>
      have none : gatherReport python dir keyvals report = some keyvals := by
        rw [gatherReport, silent report List.mem_cons_self]
        rfl
      rw [List.foldlM_cons, none]
      exact ih fun other member => silent other (List.mem_cons_of_mem _ member)

theorem processed_silently (silent : ∀ report ∈ reports, dir.content report = []) :
    processResults python suite retval root dir resultsFile reports inside lines =
      (collectedKeyvals python suite root dir resultsFile inside lines).map fun keyvals => keyvals.insert retvalKey (.int retval) := by
  rw [processResults, Option.map_eq_bind]
  exact congrArg _ (funext fun keyvals => silent_reports python dir reports silent _)

theorem lookup_beside_retval (keyvals : Keyvals) : (keyvals.insert retvalKey (.int retval)).lookup ab = keyvals.lookup ab :=
  AList.lookup_insert_ne (by decide)

end Collecting

section Contents

variable (charts measurements reports : RelPath → Text)

def filled (path : RelPath) : Text :=
  if path.name = resultsChart then charts path
  else if path.name = perfMeasurements then measurements path
  else if path.name = perfData then reports path.report
  else reports path

theorem filled_chart (path : RelPath) (chart : path.name = resultsChart) : filled charts measurements reports path = charts path :=
  if_pos chart

theorem filled_measurements (path : RelPath) (name : path.name = perfMeasurements) :
    filled charts measurements reports path = measurements path := by
  rw [filled, if_neg (by rw [name]; decide), if_pos name]

theorem filled_report (path : RelPath) (name : path.name = perfDataReport) : filled charts measurements reports path = reports path := by
  rw [filled, if_neg (by rw [name]; decide), if_neg (by rw [name]; decide), if_neg (by rw [name]; decide)]

theorem filled_data (path : RelPath) (name : path.name = perfData) :
    filled charts measurements reports path.report = filled charts measurements reports path := by
  rw [filled_report _ _ _ _ (report_name path name), filled, if_neg (by rw [name]; decide), if_neg (by rw [name]; decide), if_pos name]

end Contents

def noTool : KeyvalsTool where
  lines _ _ := []
  of_content _ _ _ := rfl

-- A tool that prints a line with one token only unless a file is there, or is not.
def pickyTool (path : RelPath) (there : Bool) : KeyvalsTool where
  lines _ files := if (files path).isSome = there then [] else [['x']]
  of_content dir other files := by
    split
    · rfl
    · rfl

section Differing

variable (python : Python) (traversal : Traversal) (run : TestRun) (files : List RelPath) (chrootResultsDir : Text)

structure Storable : Prop where
  distinct : files.Nodup
  notTelemetry : run.suite ≠ telemetry
  placed : getResultsDir run.out = some chrootResultsDir
  absent : ∀ data ∈ named perfData files, data.report ∉ files

def Differing : Prop := ∃ tool content, ¬ Reproduced python tool id traversal run files content

theorem differing_key (tool : KeyvalsTool) (storable : Storable run files chrootResultsDir)
    (charts measurements reports : RelPath → Text) (key : Text) (fresh : Keyvals)
    (freshProcessed : freshKeyvals python tool run files (filled charts measurements reports) (freshRoot run chrootResultsDir) = some fresh)
    (differs : ∀ cached, cachedKeyvals python tool traversal run files (filled charts measurements reports) = some cached →
      cached.lookup key ≠ fresh.lookup key) : Differing python traversal run files := by
  refine ⟨tool, filled charts measurements reports, fun reproduced => ?_⟩
  have made : generatePerfReportFiles id (named perfData files) ⟨files, filled charts measurements reports⟩ =
      some ((named perfData files).map RelPath.report, storedDir files (filled charts measurements reports)) :=
    generation_succeeds _ _ (storable.distinct.filter _) storable.absent
      fun data member => filled_data charts measurements reports data (named_name perfData files data member)
  have created : createFromRun python tool id run ⟨files, filled charts measurements reports⟩ =
      some { out := run.out, err := run.err, retval := run.retval, keyvals := fresh
             resultsDir := some (storedDir files (filled charts measurements reports)) } := by
    rw [createFromRun, if_neg (by simpa using storable.notTelemetry), Result.populateFromRun, storable.placed, Option.bind_some]
    change (generatePerfReportFiles id (named perfData files) ⟨files, filled charts measurements reports⟩).bind _ = _
    rw [made, Option.bind_some]
    exact congrArg (Option.map _) freshProcessed
  obtain ⟨cached, hit, -, same⟩ := reproduced _ created
  rw [cached_result python tool traversal run files (filled charts measurements reports) storable.notTelemetry _ rfl rfl] at hit
  obtain ⟨keyvals, processed, rfl⟩ := Option.map_eq_some_iff.mp hit
  exact differs keyvals processed (same key)

theorem sample_processed (root : Text) (dir : Directory) (path : RelPath) (chart : path.name = resultsChart)
    (text : dir.content path = chartText false) :
    processJsonResults python root dir path = some (newKeyvals.insert ab (.list [.int 1, .str ['u']])) := by
  obtain ⟨fields, loads, value, units⟩ := python.loads_chart false
  rw [processJsonResults, if_pos (chart_is_json root path chart), text, loads, Option.bind_some, processRaw]
  simp [Value.charts, List.lookup_cons, Value.iteritems, jsonField, Value.items, jsonItem, value, units, ab, sampleNumber]

theorem empty_processed (root : Text) (dir : Directory) (path : RelPath) (chart : path.name = resultsChart)
    (text : dir.content path = emptyText) : processJsonResults python root dir path = some newKeyvals := by
  rw [processJsonResults, if_pos (chart_is_json root path chart), text, python.loads_empty]
  rfl

theorem measurements_refused (root : Text) (dir : Directory) (path : RelPath) (name : path.name = perfMeasurements) :
    processJsonResults python root dir path = none := by
  rw [processJsonResults, measurements_not_json root path name]
  rfl

theorem neutral_measured (root : Text) (dir : Directory)
    (neutral : ∀ path ∈ dir.getDataMeasurementsFiles, dir.content path = neutralText (jsonNamed root path)) :
    measure python root dir = some (newKeyvals, newKeyvals) := by
  rw [measure, withReading, List.foldlM_map]
  generalize dir.getDataMeasurementsFiles = paths at neutral
  induction paths with
  | nil => rfl
  | cons path rest ih =>
      have read : readPair python dir.content (newKeyvals, newKeyvals) (path, jsonNamed root path) = some (newKeyvals, newKeyvals) := by
        rw [readPair, neutral path List.mem_cons_self]
        exact read_neutral python _ _
      rw [List.foldlM_cons, read]
      exact ih fun other member => neutral other (List.mem_cons_of_mem _ member)

theorem neutral_keyvals (suite root inside : Text) (dir : Directory)
    (neutral : ∀ path ∈ dir.getDataMeasurementsFiles, dir.content path = neutralText (jsonNamed root path)) :
    getKeyvals python suite root dir inside [] = some newKeyvals := by
  have got : getNewKeyvals python root dir newKeyvals = some (newKeyvals, newKeyvals) :=
    (new_keyvals_read python root dir newKeyvals).trans (neutral_measured python root dir neutral)
  have empty : toolKeyvals (([] : List Text).map (toolKeyval inside)) = some newKeyvals := rfl
  rw [getKeyvals, empty, Option.bind_some, got, Option.bind_some]
  split
  · rfl
  · rfl

theorem measured_collected (suite root inside : Text) (dir : Directory) (keyvals : Keyvals)
    (files : dir.getDataMeasurementsFiles = named perfMeasurements dir.listing)
    (collected : collectedKeyvals python suite root dir dir.getDataMeasurementsFiles inside [] = some keyvals) :
    getKeyvals python suite root dir inside [] = some keyvals := by
  rw [collectedKeyvals] at collected
  split at collected
  · rename_i filename found
    have member : filename ∈ named perfMeasurements dir.listing := files ▸ List.mem_of_head? (Option.filter_eq_some_iff.mp found).1
    rw [measurements_refused python root dir filename (named_name _ _ _ member)] at collected
    exact absurd collected nofun
  · exact collected

-- Whatever is read in place of the chart, nothing of it has the chart's key.
theorem lost_chart_collected (chart : RelPath) (dir : Directory) (suite root inside : Text) (keyvals : Keyvals)
    (lost : ¬ (named perfMeasurements dir.listing = [] ∧ (named resultsChart dir.listing).head? = some chart))
    (charts : ∀ path, path.name = resultsChart → path ≠ chart → dir.content path = emptyText)
    (measurements : ∀ path, path.name = perfMeasurements → dir.content path = neutralText (jsonNamed root path))
    (collected : collectedKeyvals python suite root dir dir.getDataMeasurementsFiles inside [] = some keyvals) :
    keyvals = newKeyvals := by
  by_cases empty : named perfMeasurements dir.listing = []
  · have files := data_files_without_measurements dir empty
    cases found : named resultsChart dir.listing with
    | nil =>
        rw [files, found] at collected
        have read : getKeyvals python suite root dir inside [] = some keyvals := collected
        rw [neutral_keyvals python suite root inside dir (by rw [files, found]; exact fun _ member => absurd member List.not_mem_nil)] at read
        exact (Option.some_inj.mp read).symm
    | cons first rest =>
        have isChart : first.name = resultsChart := named_name _ _ first (by rw [found]; exact List.mem_cons_self)
        have other : first ≠ chart := by
          intro same
          exact lost ⟨empty, by rw [found, same]; rfl⟩
        rw [files, found, collectedKeyvals, List.head?_cons, Option.filter_some_pos (chart_mentioned root first isChart)] at collected
        simp only at collected
        rw [empty_processed python root dir first isChart (charts first isChart other)] at collected
        exact (Option.some_inj.mp collected).symm
  · have files : dir.getDataMeasurementsFiles = named perfMeasurements dir.listing :=
      if_neg fun none => empty (List.isEmpty_iff.mp none)
    have read := measured_collected python suite root inside dir keyvals files collected
    rw [neutral_keyvals python suite root inside dir] at read
    · exact (Option.some_inj.mp read).symm
    · intro path member
      rw [files] at member
      exact measurements path (named_name _ _ path member)

theorem generated_silent (charts measurements reports : RelPath → Text) (silent : ∀ path, reports path = []) :
    ∀ report ∈ (named perfData files).map RelPath.report, (storedDir files (filled charts measurements reports)).content report = [] := by
  intro report member
  obtain ⟨data, listed, rfl⟩ := List.mem_map.mp member
  exact (filled_report charts measurements reports _ (report_name data (named_name perfData files data listed))).trans (silent _)

theorem found_silent (charts measurements reports : RelPath → Text) (silent : ∀ path, reports path = []) :
    ∀ report ∈ named perfDataReport (readBack traversal files),
      (restoredDir traversal files (filled charts measurements reports)).content report = [] :=
  fun report member => (filled_report charts measurements reports _ (named_name perfDataReport _ report member)).trans (silent _)

theorem fresh_neutral (root inside : Text) (reports : RelPath → Text) :
    collectedKeyvals python run.suite root
        (storedDir files (filled (fun _ => emptyText) (fun path => neutralText (jsonNamed root path)) reports))
        (named resultsChart files) inside [] = some newKeyvals := by
  cases found : named resultsChart files with
  | nil =>
      apply neutral_keyvals
      intro path member
      rw [stored_data_files files _ found] at member
      exact filled_measurements (fun _ => emptyText) (fun path => neutralText (jsonNamed root path)) reports path
        (named_name _ _ path member)
  | cons chart rest =>
      have isChart : chart.name = resultsChart := named_name _ files chart (by rw [found]; exact List.mem_cons_self)
      rw [collectedKeyvals, List.head?_cons, Option.filter_some_pos (chart_mentioned _ chart isChart)]
      exact empty_processed python _ _ chart isChart
        (filled_chart (fun _ => emptyText) (fun path => neutralText (jsonNamed root path)) reports chart isChart)

def marked (first second : Option RelPath) (one two neutral : Text) (path : RelPath) : Text :=
  if first = some path then one else if second = some path then two else neutral

theorem marked_first (first second : Option RelPath) (one two neutral : Text) (path : RelPath) (last : first = some path) :
    marked first second one two neutral path = one :=
  if_pos last

theorem marked_second (first second : Option RelPath) (one two neutral : Text) (path : RelPath) (other : first ≠ some path)
    (last : second = some path) : marked first second one two neutral path = two := by
  rw [marked, if_neg other, if_pos last]

theorem marked_after (before other after : List RelPath) (one two neutral : Text) (path : RelPath)
    (distinct : (before ++ after).Nodup) (otherDistinct : (other ++ after).Nodup) (member : path ∈ after) :
    marked before.getLast? other.getLast? one two neutral path = neutral := by
  rw [marked, if_neg, if_neg]
  · exact fun last => FailingFold.last_not_after other after path otherDistinct last member
  · exact fun last => FailingFold.last_not_after before after path distinct last member

theorem marked_cases (first second : Option RelPath) (one two neutral : Text) (path : RelPath) :
    marked first second one two neutral path = one ∨ marked first second one two neutral path = two ∨
      marked first second one two neutral path = neutral := by
  rw [marked]
  split
  · exact .inl rfl
  · split
    · exact .inr (.inl rfl)
    · exact .inr (.inr rfl)

theorem ends_differ {α β : Type} (first second : Option α) (one two : β) (ends : first ≠ second) (values : one ≠ two) :
    (first.map fun _ => some one).getD none ≠ (second.map fun _ => some two).getD none := by
  cases first with
  | none =>
      cases second with
      | none => exact absurd rfl ends
      | some item => exact nofun
  | some item =>
      cases second with
      | none => exact nofun
      | some other => exact fun same => values (Option.some_inj.mp same)

-- The chart is not what the cached result reads first.
theorem lost_chart_differs (storable : Storable run files chrootResultsDir) (chart : RelPath)
    (head : (named resultsChart files).head? = some chart)
    (lost : ¬ (named perfMeasurements (readBack traversal files) = [] ∧
      (named resultsChart (readBack traversal files)).head? = some chart)) : Differing python traversal run files := by
  have isChart : chart.name = resultsChart := named_name resultsChart files chart (List.mem_of_head? head)
  let charts := fun path => if path = chart then chartText false else emptyText
  let measurements := fun path => neutralText (jsonNamed (cachedRoot run) path)
  let reports : RelPath → Text := fun _ => []
  have silent := generated_silent files charts measurements reports fun _ => rfl
  have silentCached := found_silent traversal files charts measurements reports fun _ => rfl
  apply differing_key python traversal run files chrootResultsDir noTool storable charts measurements reports ab
    ((newKeyvals.insert ab (.list [.int 1, .str ['u']])).insert retvalKey (.int run.retval))
  · have text : filled charts measurements reports chart = chartText false := by
      rw [filled_chart _ _ _ _ isChart]
      exact if_pos rfl
    rw [freshKeyvals, processed_silently python run.suite _ _ _ _ _ _ _ silent, collectedKeyvals, head,
      Option.filter_some_pos (chart_mentioned _ chart isChart)]
    simp only
    rw [sample_processed python _ _ chart isChart text]
    rfl
  · intro cached processed
    rw [cachedKeyvals, processed_silently python run.suite _ _ _ _ _ _ _ silentCached] at processed
    obtain ⟨keyvals, collected, rfl⟩ := Option.map_eq_some_iff.mp processed
    rw [lookup_beside_retval, lookup_beside_retval, AList.lookup_insert]
    suffices unseen : keyvals.lookup ab = none by
      rw [unseen]
      exact nofun
    have unread := lost_chart_collected python chart (restoredDir traversal files (filled charts measurements reports)) run.suite
      (cachedRoot run) (tmpDir run.readDir) keyvals lost
      (fun path isChart other => (filled_chart charts measurements reports path isChart).trans (if_neg other))
      (fun path name => filled_measurements charts measurements reports path name) collected
    rw [unread]
    rfl

def Covered (state : Measured) : Prop := ∀ key ∈ state.1, key ∈ state.2

theorem sample_covered (state : Measured) (key : Text) (value unit : Value) (covered : Covered state) :
    Covered (state.1.insert key value, state.2.insert key unit) := by
  intro other member
  rcases (AList.mem_insert state.1).mp member with same | listed
  · exact (AList.mem_insert state.2).mpr (.inl same)
  · exact (AList.mem_insert state.2).mpr (.inr (covered other listed))

theorem marked_read (first second : Option RelPath) (path : RelPath) (flag : Bool) (state : Measured) :
    ∃ next, readText python flag (marked first second (sampleText flag false) (sampleText flag true) (neutralText flag) path) state =
        some next ∧
      (Covered state → Covered next) := by
  rcases marked_cases first second (sampleText flag false) (sampleText flag true) (neutralText flag) path with text | text | text
  · exact ⟨_, by rw [text, read_sample], sample_covered state _ _ _⟩
  · exact ⟨_, by rw [text, read_sample], sample_covered state _ _ _⟩
  · exact ⟨state, by rw [text, read_neutral], id⟩

-- A sample is read only in the way it is written for.
theorem sample_read (content : RelPath → Text) (flag second : Bool) (state next : Measured) (pair : RelPath × Bool)
    (text : content pair.1 = sampleText flag second) (read : readPair python content state pair = some next) :
    pair.2 = flag ∧ next.1.lookup ab = some (.int (sampleNumber second)) := by
  rw [readPair, text] at read
  by_cases same : pair.2 = flag
  · refine ⟨same, ?_⟩
    rw [same, read_sample] at read
    rw [← Option.some_inj.mp read, AList.lookup_insert]
  · rw [Bool.eq_not.mpr same, read_wrong] at read
    exact absurd read nofun

-- Without a chart the measurements are read as JSON or by lines, and the last one of
-- a key counts.
theorem other_measurements_differ (storable : Storable run files chrootResultsDir) (noCharts : named resultsChart files = [])
    (different : withReading (freshRoot run chrootResultsDir) (named perfMeasurements files) ≠
      withReading (cachedRoot run) (named perfMeasurements (readBack traversal files))) : Differing python traversal run files := by
  obtain ⟨before, other, after, freshSplit, cachedSplit, ends⟩ := FailingFold.last_difference _ _ different
  let flag := jsonNamed (freshRoot run chrootResultsDir)
  let freshLast := (before.map Prod.fst).getLast?
  let cachedLast := (other.map Prod.fst).getLast?
  let measurements := fun path => marked freshLast cachedLast (sampleText (flag path) false) (sampleText (flag path) true)
    (neutralText (flag path)) path
  let content := filled (fun _ => emptyText) measurements fun _ => []
  have lastPath : ∀ (pairs : List (RelPath × Bool)) pair, pairs.getLast? = some pair → (pairs.map Prod.fst).getLast? = some pair.1 := by
    intro pairs pair last
    rw [List.getLast?_map, last, Option.map_some]
  have freshPaths : (before.map Prod.fst ++ after.map Prod.fst).Nodup := by
    rw [← List.map_append, ← freshSplit, withReading, List.map_map]
    exact (List.map_id _).symm ▸ storable.distinct.filter _
  have cachedPaths : (other.map Prod.fst ++ after.map Prod.fst).Nodup := by
    rw [← List.map_append, ← cachedSplit, withReading, List.map_map]
    exact (List.map_id _).symm ▸ read_back_nodup traversal files storable.distinct storable.absent perfMeasurements
  have freshPair : ∀ pair ∈ before ++ after, content pair.1 = measurements pair.1 ∧ pair.2 = flag pair.1 := by
    intro pair member
    rw [← freshSplit] at member
    obtain ⟨path, listed, rfl⟩ := List.mem_map.mp member
    exact ⟨filled_measurements _ measurements _ path (named_name _ _ path listed), rfl⟩
  have cachedText : ∀ pair ∈ other ++ after, content pair.1 = measurements pair.1 := by
    intro pair member
    rw [← cachedSplit] at member
    obtain ⟨path, listed, rfl⟩ := List.mem_map.mp member
    exact filled_measurements _ measurements _ path (named_name _ _ path listed)
  have keeps : ∀ pair ∈ after, ∀ state next, readPair python content state pair = some next → next.1.lookup ab = state.1.lookup ab := by
    intro pair member state next read
    obtain ⟨text, sameFlag⟩ := freshPair pair (List.mem_append_right _ member)
    have neutral : measurements pair.1 = neutralText (flag pair.1) :=
      marked_after _ _ _ _ _ _ pair.1 freshPaths cachedPaths (List.mem_map_of_mem member)
    rw [readPair, sameFlag, text, neutral, read_neutral] at read
    rw [Option.some_inj.mp read]
  have freshSets : ∀ pair, before.getLast? = some pair → ∀ state next, readPair python content state pair = some next →
      next.1.lookup ab = some (.int (sampleNumber false)) := by
    intro pair last state next read
    have text := (freshPair pair (List.mem_append_left _ (List.mem_of_getLast? last))).1
    have sample : measurements pair.1 = sampleText (flag pair.1) false := marked_first _ _ _ _ _ _ (lastPath before pair last)
    exact (sample_read python content _ _ state next pair (text.trans sample) read).2
  have cachedSets : ∀ pair, other.getLast? = some pair → ∀ state next, readPair python content state pair = some next →
      next.1.lookup ab = some (.int (sampleNumber true)) := by
    intro pair last state next read
    have text := cachedText pair (List.mem_append_left _ (List.mem_of_getLast? last))
    by_cases isFirst : freshLast = some pair.1
    · -- The same file, which is then read in another way.
      have sample : measurements pair.1 = sampleText (flag pair.1) false := marked_first _ _ _ _ _ _ isFirst
      have sameFlag := (sample_read python content _ _ state next pair (text.trans sample) read).1
      obtain ⟨first, firstLast, samePath⟩ := Option.map_eq_some_iff.mp (List.getLast?_map.symm.trans isFirst)
      have firstFlag := (freshPair first (List.mem_append_left _ (List.mem_of_getLast? firstLast))).2
      have samePair : first = pair := Prod.ext samePath (firstFlag.trans (by rw [samePath, sameFlag]))
      exact absurd (firstLast.trans (samePair ▸ last.symm)) ends
    · have sample : measurements pair.1 = sampleText (flag pair.1) true :=
        marked_second _ _ _ _ _ _ isFirst (lastPath other pair last)
      exact (sample_read python content _ _ state next pair (text.trans sample) read).2
  have steps : ∀ pair ∈ before ++ after, ∀ state, ∃ next, readPair python content state pair = some next ∧ (Covered state → Covered next) := by
    intro pair member state
    obtain ⟨text, sameFlag⟩ := freshPair pair member
    rw [readPair, sameFlag, text]
    exact marked_read python freshLast cachedLast pair.1 (flag pair.1) state
  obtain ⟨fresh, freshRead⟩ := FailingFold.fold_succeeds (readPair python content) (before ++ after) (newKeyvals, newKeyvals)
    fun pair member state => (steps pair member state).imp fun next stepped => stepped.1
  have covered : Covered fresh := by
    refine FailingFold.fold_invariant (readPair python content) Covered (before ++ after) _ fresh (fun _ member => member) ?_ freshRead
    intro pair member state next before read
    obtain ⟨other, stepped, kept⟩ := steps pair member state
    rw [Option.some_inj.mp (read.symm.trans stepped)]
    exact kept before
  have freshSeen := FailingFold.seen_after_last _ (fun state : Measured => state.1.lookup ab) before after _ fresh
    (fun _ => some (.int (sampleNumber false))) freshSets keeps freshRead
  have freshMeasured : measure python (freshRoot run chrootResultsDir) (storedDir files content) = some fresh := by
    rw [measure, stored_data_files files content noCharts, freshSplit]
    exact freshRead
  obtain ⟨keyvals, got⟩ := get_keyvals_succeeds python run.suite (freshRoot run chrootResultsDir) (storedDir files content)
    (tmpDir run.madeDir) fresh freshMeasured covered
  apply differing_key python traversal run files chrootResultsDir noTool storable _ _ _ ab (keyvals.insert retvalKey (.int run.retval))
  · rw [freshKeyvals, processed_silently python run.suite _ _ _ _ _ _ _
      (generated_silent files (fun _ => emptyText) measurements _ fun _ => rfl), noCharts]
    exact congrArg _ got
  · intro cached processed
    rw [cachedKeyvals, processed_silently python run.suite _ _ _ _ _ _ _
      (found_silent traversal files (fun _ => emptyText) measurements _ fun _ => rfl)] at processed
    obtain ⟨others, collected, rfl⟩ := Option.map_eq_some_iff.mp processed
    have dataFiles := restored_data_files traversal files content noCharts
    have read := measured_collected python run.suite (cachedRoot run) (tmpDir run.readDir) (restoredDir traversal files content) others
      dataFiles collected
    obtain ⟨measured, unit, cachedRead, shownCached⟩ := get_keyvals_measured python _ _ _ _ _ read
    obtain ⟨same, unitFresh, freshAgain, shownFresh⟩ := get_keyvals_measured python _ _ _ _ _ got
    rw [freshMeasured, Option.some_inj] at freshAgain
    rw [measure, dataFiles, cachedSplit] at cachedRead
    have cachedSeen := FailingFold.seen_after_last _ (fun state : Measured => state.1.lookup ab) other after _ measured
      (fun _ => some (.int (sampleNumber true))) cachedSets keeps cachedRead
    rw [lookup_beside_retval, lookup_beside_retval, shownCached, shownFresh, ← freshAgain]
    have unlike : measured.1.lookup ab ≠ fresh.1.lookup ab := by
      rw [freshSeen, cachedSeen]
      exact Ne.symm (ends_differ _ _ _ _ ends nofun)
    intro sameShown
    apply unlike
    exact shown_lookup run.suite unit unitFresh _ _ sameShown

-- The first measurements file has the chart's name in its path and is taken for one.
theorem mentioned_measurements_differ (storable : Storable run files chrootResultsDir) (noCharts : named resultsChart files = [])
    (first : RelPath) (head : (named perfMeasurements (readBack traversal files)).head? = some first)
    (mentioned : mentionsChart (cachedRoot run) first = true) : Differing python traversal run files := by
  let charts : RelPath → Text := fun _ => emptyText
  let measurements := fun path => neutralText (jsonNamed (freshRoot run chrootResultsDir) path)
  let reports : RelPath → Text := fun _ => []
  apply differing_key python traversal run files chrootResultsDir noTool storable charts measurements reports ab
    (newKeyvals.insert retvalKey (.int run.retval))
  · rw [freshKeyvals, processed_silently python run.suite _ _ _ _ _ _ _
      (generated_silent files charts measurements reports fun _ => rfl)]
    exact congrArg _ (fresh_neutral python run files _ _ reports)
  · intro cached processed
    have isMeasurements := named_name perfMeasurements _ first (List.mem_of_head? head)
    rw [cachedKeyvals, processed_silently python run.suite _ _ _ _ _ _ _
      (found_silent traversal files charts measurements reports fun _ => rfl), collectedKeyvals,
      restored_data_files traversal files _ noCharts, head, Option.filter_some_pos mentioned] at processed
    simp only at processed
    rw [measurements_refused python _ _ first isMeasurements] at processed
    exact absurd processed nofun

theorem one_token_collected (suite root inside : Text) (dir : Directory) (resultsFile : List RelPath)
    (names : ∀ filename ∈ resultsFile, filename.name = perfMeasurements) :
    collectedKeyvals python suite root dir resultsFile inside [['x']] = none := by
  rw [collectedKeyvals]
  split
  · next filename found =>
      exact measurements_refused python root dir filename
        (names filename (List.mem_of_head? (Option.filter_eq_some_iff.mp found).1))
  · rfl

-- A file that one of cp and tar leaves out, and a tool that the other one shows it to.
theorem shown_files_differ (storable : Storable run files chrootResultsDir) (noCharts : named resultsChart files = [])
    (path : RelPath) (stored : path ∈ storedFiles files) (shown : path.archived ≠ !path.hidden) :
    Differing python traversal run files := by
  let charts : RelPath → Text := fun _ => emptyText
  let measurements := fun path => neutralText (jsonNamed (freshRoot run chrootResultsDir) path)
  let reports : RelPath → Text := fun _ => []
  let content := filled charts measurements reports
  have there : (storedDir files content).files path = some (content path) := if_pos stored
  have copied : (pickyTool path !path.hidden).lines (tmpDir run.madeDir)
      (restrict (fun path => !path.hidden) (storedDir files content).files) = [] := by
    refine if_pos ?_
    rw [restrict, there]
    cases path.hidden <;> rfl
  have restored : (pickyTool path !path.hidden).lines (tmpDir run.readDir) (restoredDir traversal files content).files = [['x']] := by
    refine if_neg ?_
    rw [restored_files, restrict, there]
    cases kept : path.archived <;> simpa [kept] using shown
  apply differing_key python traversal run files chrootResultsDir (pickyTool path !path.hidden) storable charts measurements reports ab
    (newKeyvals.insert retvalKey (.int run.retval))
  · rw [freshKeyvals, copied, processed_silently python run.suite _ _ _ _ _ _ _
      (generated_silent files charts measurements reports fun _ => rfl)]
    exact congrArg _ (fresh_neutral python run files _ _ reports)
  · intro cached processed
    have names : ∀ filename ∈ named perfMeasurements (readBack traversal files), filename.name = perfMeasurements :=
      named_name perfMeasurements _
    rw [cachedKeyvals, restored, processResults, restored_data_files traversal files _ noCharts,
      one_token_collected python run.suite _ _ _ _ names] at processed
    exact absurd processed nofun

def eventText (second : Bool) : Text := eventsText ++ [sampleDigit second, ' ', 'e']

def eventValue (second : Bool) : Value := .str (python.strFloat [sampleDigit second] 1)

theorem gather_silent (dir : Directory) (report : RelPath) (keyvals : Keyvals) (text : dir.content report = []) :
    gatherReport python dir keyvals report = some keyvals := by
  rw [gatherReport, text]
  rfl

theorem gather_event (dir : Directory) (report : RelPath) (keyvals : Keyvals) (second : Bool) (text : dir.content report = eventText second) :
    gatherReport python dir keyvals report = some (keyvals.insert (perfKey ['e']) (eventValue python second)) := by
  have events : findEvents 0 (eventText second) = [([sampleDigit second], ['e'])] := by cases second <;> decide
  rw [gatherReport, text, events]
  cases second with
  | false => rfl
  | true => rfl

theorem gather_marked (dir : Directory) (first second : Option RelPath) (report : RelPath) (keyvals : Keyvals)
    (text : dir.content report = marked first second (eventText false) (eventText true) [] report) :
    ∃ next, gatherReport python dir keyvals report = some next := by
  rcases marked_cases first second (eventText false) (eventText true) [] report with event | event | silent
  · exact ⟨_, gather_event python dir report keyvals false (text.trans event)⟩
  · exact ⟨_, gather_event python dir report keyvals true (text.trans event)⟩
  · exact ⟨_, gather_silent python dir report keyvals (text.trans silent)⟩

theorem event_gathered (dir : Directory) (report : RelPath) (keyvals next : Keyvals) (second : Bool)
    (text : dir.content report = eventText second) (gathered : gatherReport python dir keyvals report = some next) :
    next.lookup (perfKey ['e']) = some (eventValue python second) := by
  rw [gather_event python dir report keyvals second text] at gathered
  rw [← Option.some_inj.mp gathered, AList.lookup_insert]

theorem other_reports_differ (storable : Storable run files chrootResultsDir)
    (same : SameData run traversal files (freshRoot run chrootResultsDir))
    (different : (named perfData files).map RelPath.report ≠ named perfDataReport (readBack traversal files)) :
    Differing python traversal run files := by
  obtain ⟨before, other, after, freshSplit, cachedSplit, ends⟩ := FailingFold.last_difference _ _ different
  have freshDistinct : (before ++ after).Nodup := freshSplit ▸ (storable.distinct.filter _).map report_injective
  have cachedDistinct : (other ++ after).Nodup :=
    cachedSplit ▸ read_back_nodup traversal files storable.distinct storable.absent perfDataReport
  let content := filled (fun _ => emptyText) (fun path => neutralText (jsonNamed (freshRoot run chrootResultsDir) path))
    (marked before.getLast? other.getLast? (eventText false) (eventText true) [])
  have reportText : ∀ path, path.name = perfDataReport →
      content path = marked before.getLast? other.getLast? (eventText false) (eventText true) [] path :=
    fun path => filled_report _ _ _ path
  have freshNames : ∀ path ∈ before ++ after, path.name = perfDataReport := by
    intro path member
    rw [← freshSplit] at member
    obtain ⟨data, listed, rfl⟩ := List.mem_map.mp member
    exact report_name data (named_name perfData files data listed)
  have cachedNames : ∀ path ∈ other ++ after, path.name = perfDataReport := by
    intro path member
    rw [← cachedSplit] at member
    exact named_name _ _ path member
  have keeps : ∀ path ∈ after, ∀ state next, gatherReport python (storedDir files content) state path = some next →
      next.lookup (perfKey ['e']) = state.lookup (perfKey ['e']) := by
    intro path member state next gathered
    have silent : content path = [] :=
      (reportText path (freshNames path (List.mem_append_right _ member))).trans
        (marked_after before other after _ _ _ path freshDistinct cachedDistinct member)
    rw [gather_silent python _ path state silent] at gathered
    rw [Option.some_inj.mp gathered]
  have freshSets : ∀ path, before.getLast? = some path → ∀ state next,
      gatherReport python (storedDir files content) state path = some next →
        next.lookup (perfKey ['e']) = some (eventValue python false) := by
    intro path last state next gathered
    have named := freshNames path (List.mem_append_left _ (List.mem_of_getLast? last))
    exact event_gathered python _ path state next false ((reportText path named).trans (marked_first _ _ _ _ _ _ last)) gathered
  have cachedSets : ∀ path, other.getLast? = some path → ∀ state next,
      gatherReport python (storedDir files content) state path = some next →
        next.lookup (perfKey ['e']) = some (eventValue python true) := by
    intro path last state next gathered
    have named := cachedNames path (List.mem_append_left _ (List.mem_of_getLast? last))
    have notFirst : before.getLast? ≠ some path := fun first => ends (first.trans last.symm)
    exact event_gathered python _ path state next true ((reportText path named).trans (marked_second _ _ _ _ _ _ notFirst last)) gathered
  let start := newKeyvals.insert retvalKey (.int run.retval)
  have unseen : start.lookup (perfKey ['e']) = none := AList.lookup_insert_ne (by decide)
  obtain ⟨fresh, gathered⟩ : ∃ fresh, (before ++ after).foldlM (gatherReport python (storedDir files content)) start = some fresh := by
    apply FailingFold.fold_succeeds
    intro path member state
    exact gather_marked python _ _ _ path state (reportText path (freshNames path member))
  have freshSeen := FailingFold.seen_after_last _ (fun state : Keyvals => state.lookup (perfKey ['e'])) before after start fresh
    (fun _ => some (eventValue python false)) freshSets keeps gathered
  have collected := fresh_neutral python run files (freshRoot run chrootResultsDir) (tmpDir run.madeDir)
    (marked before.getLast? other.getLast? (eventText false) (eventText true) [])
  apply differing_key python traversal run files chrootResultsDir noTool storable _ _ _ (perfKey ['e']) fresh
  · rw [freshKeyvals, processResults]
    refine (congrArg (fun found => Option.bind found _) collected).trans ?_
    rw [Option.bind_some, freshSplit]
    exact gathered
  · intro cached processed
    rw [cachedKeyvals, processResults,
      same_collected python noTool traversal run files content (freshRoot run chrootResultsDir) same] at processed
    replace processed := (congrArg (fun found => Option.bind found _) collected).symm.trans processed
    rw [Option.bind_some, cachedSplit] at processed
    have cachedSeen := FailingFold.seen_after_last _ (fun state : Keyvals => state.lookup (perfKey ['e'])) other after start cached
      (fun _ => some (eventValue python true)) cachedSets keeps processed
    rw [freshSeen, cachedSeen, unseen]
    apply Ne.symm
    apply ends_differ _ _ _ _ ends
    intro values
    exact python.floats_differ (Value.str.inj values)

theorem reproducible_of_reproduced (distinct : files.Nodup)
    (reproduced : ∀ tool content, Reproduced python tool id traversal run files content) : Reproducible run traversal files := by
  by_cases isTelemetry : run.suite = telemetry
  · exact .inl isTelemetry
  · refine .inr fun chrootResultsDir placed absent => ?_
    have storable : Storable run files chrootResultsDir := ⟨distinct, isTelemetry, placed, absent⟩
    have always : ¬ Differing python traversal run files := fun ⟨tool, content, different⟩ => different (reproduced tool content)
    have same : SameData run traversal files (freshRoot run chrootResultsDir) := by
      constructor
      · intro chart head
        by_contra lost
        exact always (lost_chart_differs python traversal run files chrootResultsDir storable chart head lost)
      · intro noCharts
        refine ⟨?_, ?_, ?_⟩
        · by_contra different
          exact always (other_measurements_differ python traversal run files chrootResultsDir storable noCharts (Ne.symm different))
        · intro first head
          by_contra mentioned
          exact always (mentioned_measurements_differ python traversal run files chrootResultsDir storable noCharts first head
            (by simpa using mentioned))
        · intro path stored
          by_contra shown
          exact always (shown_files_differ python traversal run files chrootResultsDir storable noCharts path stored shown)
    refine ⟨same, ?_⟩
    by_contra different
    exact always (other_reports_differ python traversal run files chrootResultsDir storable same (Ne.symm different))

end Differing

theorem cached_result_right_iff (python : Python) (traversal : Traversal) (run : TestRun) (files : List RelPath) (distinct : files.Nodup) :
    (∀ tool perfReport content, Reproduced python tool perfReport traversal run files content) ↔ Reproducible run traversal files := by
  constructor
  · exact fun reproduced => reproducible_of_reproduced python traversal run files distinct fun tool => reproduced tool id
  · exact fun reproducible tool perfReport content =>
      reproducible_reproduced python tool traversal run files content perfReport reproducible

section Sample

def sampleLoads (text : Text) : Option Value :=
  if text = emptyText then some (.dict [])
  else if text = chartText false then some (.dict [(['a'], .dict [(['b'], .dict [(valueKey, .int 1), (unitsKey, .str ['u'])])])])
  else if text = chartText true then some (.dict [(['a'], .dict [(['b'], .dict [(valueKey, .int 2), (unitsKey, .str ['u'])])])])
  else if text = lineText false then
    some (.dict [("graph".toList, .str ['a']), ("description".toList, .str ['b']), (valueKey, .int 1), (unitsKey, .str ['u'])])
  else if text = lineText true then
    some (.dict [("graph".toList, .str ['a']), ("description".toList, .str ['b']), (valueKey, .int 2), (unitsKey, .str ['u'])])
  else none

-- Python on the few texts of the sample, in which nothing takes a mean.
def samplePython : Python where
  loads := sampleLoads
  mean _ := none
  strFloat number _ := number ++ ['.', '0']
  loads_empty := rfl
  loads_chart second := by cases second <;> exact ⟨_, rfl, rfl, rfl⟩
  loads_line second := by cases second <;> exact ⟨_, rfl, rfl, rfl, rfl, rfl, rfl⟩
  floats_differ := by decide

def inOrder : Traversal where
  order files := files
  perm files := List.Perm.refl files

def sampleRun : TestRun where
  chromeosRoot := "/c".toList
  suite := telemetryCrosperf
  out := "Results placed in /tmp/r".toList
  err := []
  retval := 0
  madeDir := "fresh".toList
  readDir := "cached".toList

def sampleChart : RelPath := ⟨[], resultsChart⟩

def sampleMeasurements : RelPath := ⟨[], perfMeasurements⟩

def sampleContent (path : RelPath) : Text := if path = sampleChart then chartText false else lineText true

theorem chart_alone_is_reproduced : Reproduced samplePython noTool id inOrder sampleRun [sampleChart] sampleContent := by
  apply (cached_result_right_iff samplePython inOrder sampleRun [sampleChart] (by decide)).mpr
  refine .inr fun chrootResultsDir placed absent => ⟨⟨?_, ?_⟩, by decide⟩
  · intro chart head
    exact ⟨by decide, head⟩
  · exact fun noChart => absurd noChart (by decide)

-- The chart and the measurements say different things.
theorem cached_result_is_other : ¬ Reproduced samplePython noTool id inOrder sampleRun [sampleChart, sampleMeasurements] sampleContent := by
  intro reproduced
  have fresh : (createFromRun samplePython noTool id sampleRun ⟨[sampleChart, sampleMeasurements], sampleContent⟩).map
      (fun result => result.keyvals.lookup ab) = some (some (.list [.int 1, .str ['u']])) := by rfl
  have other : ((createFromRun samplePython noTool id sampleRun ⟨[sampleChart, sampleMeasurements], sampleContent⟩).bind
      fun result => createFromCacheHit samplePython noTool inOrder sampleRun result.storeToCacheDir).map
        (fun result => result.keyvals.lookup ab) = some (some (.list [.int 2, .str ['u']])) := by rfl
  obtain ⟨result, created, freshValue⟩ := Option.map_eq_some_iff.mp fresh
  obtain ⟨cached, hit, -, same⟩ := reproduced result created
  rw [created, Option.bind_some, hit, Option.map_some, same ab, freshValue] at other
  exact absurd (Value.int.inj (List.cons.inj (Value.list.inj (Option.some_inj.mp (Option.some_inj.mp other)))).1) (by decide)

end Sample

end ToolchainUtils.Crosperf.CachedResults
