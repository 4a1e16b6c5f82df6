import ToolchainUtils.DejaGnu.RoundTrip

set_option autoImplicit false

namespace ToolchainUtils.DejaGnu

open PyString

def reportLines (report : Text) : List Text := ((readlines report).filter fun line => strip line ≠ []).map strip

section Reports

theorem foldlM_invariant {σ α : Type} (step : σ → α → Option σ) (inv : σ → Prop) (elements : List α)
    (kept : ∀ state element next, element ∈ elements → inv state → step state element = some next → inv next)
    (start finish : σ) (initial : inv start) (run : elements.foldlM step start = some finish) : inv finish := by
  induction elements generalizing start with
  | nil => exact Option.some.inj run ▸ initial
  | cons element rest ih =>
      obtain ⟨next, taken, later⟩ := Option.bind_eq_some_iff.mp run
      exact ih (fun state other next member => kept state other next (List.mem_cons_of_mem _ member)) next
        (kept start element next List.mem_cons_self initial taken) later

theorem readlines_shape (text line : Text) (member : line ∈ readlines text) :
    ∃ body : Text, '\n' ∉ body ∧ (line = body ∨ line = body ++ ['\n']) := by
  induction text generalizing line with
  | nil => cases member
  | cons c rest ih =>
      rw [readlines] at member
      split at member
      · next newline =>
          obtain rfl | later := List.mem_cons.mp member
          · exact ⟨[], List.not_mem_nil, Or.inr (by rw [beq_iff_eq.mp newline]; rfl)⟩
          · exact ih line later
      · next other =>
          have different : '\n' ≠ c := fun same => other (by simp [← same])
          split at member
          · obtain rfl := List.mem_singleton.mp member
            exact ⟨[c], by simpa using different, Or.inl rfl⟩
          · next first others shape =>
              obtain rfl | later := List.mem_cons.mp member
              · obtain ⟨body, oneLine, ends⟩ := ih first (shape ▸ List.mem_cons_self)
                refine ⟨c :: body, by simp [different, oneLine], ?_⟩
                obtain rfl | rfl := ends
                · exact Or.inl rfl
                · exact Or.inr rfl
              · exact ih line (shape ▸ List.mem_cons_of_mem _ later)

theorem report_line_one (report line : Text) (member : line ∈ reportLines report) : '\n' ∉ line := by
  obtain ⟨raw, listed, rfl⟩ := List.mem_map.mp member
  obtain ⟨body, oneLine, ends⟩ := readlines_shape report raw (List.mem_filter.mp listed).1
  obtain rfl | rfl := ends
  · exact fun found => oneLine (strip_member _ '\n' found)
  · rw [← lstrip_rstrip, rstrip_newline, lstrip_rstrip]
    exact fun found => oneLine (strip_member _ '\n' found)

theorem split_last_mem (needle text : Text) (parts : Text × Text) (split : TestRun.splitLast needle text = some parts)
    (c : Char) (member : c ∈ parts.1 ∨ c ∈ parts.2) : c ∈ text := by
  induction text generalizing parts with
  | nil =>
      unfold TestRun.splitLast at split
      split at split
      · obtain rfl := Option.some.inj split
        exact absurd member (by simp)
      · exact absurd split nofun
  | cons d rest ih =>
      unfold TestRun.splitLast at split
      obtain later | ⟨_, here⟩ := Option.or_eq_some_iff.mp split
      · obtain ⟨inner, found, rfl⟩ := Option.map_eq_some_iff.mp later
        obtain before | after := member
        · obtain rfl | inside := List.mem_cons.mp before
          · exact List.mem_cons_self
          · exact List.mem_cons_of_mem _ (ih inner found (Or.inl inside))
        · exact List.mem_cons_of_mem _ (ih inner found (Or.inr after))
      · split at here
        · obtain rfl := Option.some.inj here
          obtain nothing | dropped := member
          · exact absurd nothing nofun
          · exact List.mem_of_mem_drop dropped
        · exact absurd here nofun

theorem after_mem (start line text : Text) (found : TestRun.after start line = some text) (c : Char) (member : c ∈ text) :
    c ∈ line := by
  unfold TestRun.after at found
  split at found
  · obtain rfl := Option.some.inj found
    exact List.mem_of_mem_drop member
  · exact absurd found nofun

-- What a run has read: results of its lines, and fields without an end of line.
structure ReadFrom (report : Text) (run : TestRun) : Prop where
  results : ∀ test ∈ run.results, ∃ line ∈ reportLines report, fromLine line = some test
  tool : '\n' ∉ run.tool
  board : '\n' ∉ run.board

theorem read_header_from (isDate : Text → Bool) (report : Text) (run next : TestRun) (line : Text)
    (member : line ∈ reportLines report) (inv : ReadFrom report run) (taken : TestRun.readHeader isDate run line = some next) :
    ReadFrom report next := by
  have oneLine := report_line_one report line member
  unfold TestRun.readHeader at taken
  split at taken
  · next board found =>
      obtain rfl := Option.some.inj taken
      obtain ⟨text, after, rfl⟩ := Option.map_eq_some_iff.mp found
      refine { inv with board := fun inside => oneLine ?_ }
      exact after_mem _ line text after '\n' (strip_member text '\n' inside)
  · split at taken
    · exact Option.some.inj taken ▸ inv
    · exact absurd taken nofun
  · next tool noBoard noDate found =>
      obtain rfl := Option.some.inj taken
      obtain ⟨parts, split, rfl⟩ := Option.map_eq_some_iff.mp found
      obtain ⟨text, after, last⟩ := Option.bind_eq_some_iff.mp split
      refine { inv with tool := fun inside => oneLine ?_ }
      exact after_mem _ line text after '\n' (split_last_mem _ text parts last '\n' (Or.inl (strip_member _ '\n' inside)))
  · exact Option.some.inj taken ▸ inv

theorem output_read_from (isDate : Text → Bool) (report : Text) (run : TestRun)
    (read : TestRun.fromDejaGnuOutput isDate report = some run) : ReadFrom report run := by
  refine foldlM_invariant (TestRun.readLine isDate) (ReadFrom report) (reportLines report) ?_ TestRun.new run ?_ read
  · intro before line next member inv taken
    unfold TestRun.readLine at taken
    split at taken
    · next test parsed =>
        obtain rfl := Option.some.inj taken
        refine { inv with results := fun other added => ?_ }
        obtain rfl | old := Finset.mem_insert.mp added
        · exact ⟨line, member, parsed⟩
        · exact inv.results other old
    · exact read_header_from isDate report before next line member inv taken
  · exact ⟨by simp [TestRun.new], by decide, by decide⟩

theorem clean_groups_subset (groups : List (List TestResult)) (results : Finset TestResult) :
    groups.foldl TestRun.cleanGroup results ⊆ results := by
  induction groups generalizing results with
  | nil => exact Finset.Subset.refl _
  | cons group rest ih =>
      rw [List.foldl_cons]
      refine Finset.Subset.trans (ih _) ?_
      cases group with
      | nil => exact Finset.Subset.refl _
      | cons first others => exact Finset.Subset.trans Finset.sdiff_subset Finset.sdiff_subset

theorem file_read_from (order : SetOrder TestResult) (isDate : Text → Bool) (report : Text) (run : TestRun)
    (read : TestRun.fromFile order isDate report = some run) : ReadFrom report run := by
  obtain ⟨output, parsed, rfl⟩ := Option.map_eq_some_iff.mp read
  have inv := output_read_from isDate report output parsed
  exact ⟨fun test member => inv.results test (clean_groups_subset _ _ member), inv.tool, inv.board⟩

end Reports

section Manifests

def entryOf (line : Text) : List TestResult :=
  if Manifest.parameterMark.isPrefixOf line then [] else (Manifest.readEntry line).toList

theorem reader_results (lines : List Text) (reader : Manifest.Reader) :
    (lines.foldl Manifest.readLine reader).results = reader.results ++ lines.flatMap entryOf := by
  induction lines generalizing reader with
  | nil => simp
  | cons line rest ih =>
      rw [List.foldl_cons, ih, List.flatMap_cons, ← List.append_assoc]
      congr 1
      unfold Manifest.readLine entryOf
      split <;> simp

def generatedLines (manifest : Manifest) : List Text :=
  [Manifest.parameterMark ++ ' ' :: "tool".toList ++ ':' :: ' ' :: manifest.tool,
    Manifest.parameterMark ++ ' ' :: "board".toList ++ ':' :: ' ' :: manifest.board, []] ++
      (manifest.results.insertionSort fun first second => first.result ≤ second.result).map TestResult.str

theorem generate_lines (manifest : Manifest) : manifest.generate = (generatedLines manifest).flatMap fun line => line ++ ['\n'] := by
  simp [Manifest.generate, generatedLines, Manifest.parameterLine, List.flatMap_map]

theorem joined_lines (texts : List (List Text)) :
    ['\n'].intercalate (texts.map fun lines => lines.flatMap fun line => line ++ ['\n']) =
      ([([] : Text)].intercalate texts).flatMap fun line => line ++ ['\n'] := by
  induction texts with
  | nil => rfl
  | cons first rest ih =>
      cases rest with
      | nil => simp
      | cons second others =>
          rw [List.map_cons, List.map_cons, List.intercalate_cons_cons, List.intercalate_cons_cons, List.flatMap_append,
            List.flatMap_append, ← ih]
          rfl

theorem mem_joined (texts : List (List Text)) (line : Text) (member : line ∈ [([] : Text)].intercalate texts) :
    line = [] ∨ ∃ lines ∈ texts, line ∈ lines := by
  induction texts with
  | nil => exact absurd member nofun
  | cons first rest ih =>
      cases rest with
      | nil => exact Or.inr ⟨first, List.mem_cons_self, by simpa using member⟩
      | cons second others =>
          rw [List.intercalate_cons_cons, List.mem_append, List.mem_append] at member
          obtain (here | blank) | later := member
          · exact Or.inr ⟨first, List.mem_cons_self, here⟩
          · exact Or.inl (List.mem_singleton.mp blank)
          · obtain blank | ⟨lines, listed, inside⟩ := ih later
            · exact Or.inl blank
            · exact Or.inr ⟨lines, List.mem_cons_of_mem _ listed, inside⟩

theorem joined_mem (texts : List (List Text)) (lines : List Text) (listed : lines ∈ texts) (line : Text)
    (inside : line ∈ lines) : line ∈ [([] : Text)].intercalate texts := by
  induction texts with
  | nil => exact absurd listed nofun
  | cons first rest ih =>
      cases rest with
      | nil =>
          obtain rfl := List.mem_singleton.mp listed
          simpa using inside
      | cons second others =>
          rw [List.intercalate_cons_cons, List.mem_append, List.mem_append]
          obtain rfl | later := List.mem_cons.mp listed
          · exact Or.inl (Or.inl inside)
          · exact Or.inr (ih later)

theorem read_entry_newline (line : Text) : Manifest.readEntry (line ++ ['\n']) = Manifest.readEntry line := by
  have same : strip ((line ++ ['\n']).takeWhile fun c => c != '#') = strip (line.takeWhile fun c => c != '#') := by
    rw [List.takeWhile_append]
    split
    · next whole =>
        have uncut : line.takeWhile (fun c => c != '#') = line := (List.takeWhile_prefix _).eq_of_length whole
        have newline : ['\n'].takeWhile (fun c => c != '#') = ['\n'] := rfl
        rw [uncut, newline, ← lstrip_rstrip, rstrip_newline, lstrip_rstrip]
    · rfl
  simp only [Manifest.readEntry, same]

-- Of a manifest whose values and results are one line each.
structure OneLined (manifest : Manifest) : Prop where
  tool : '\n' ∉ manifest.tool
  board : '\n' ∉ manifest.board
  results : ∀ test ∈ manifest.results, ∃ line, fromLine line = some test

theorem generated_one_line (manifest : Manifest) (lined : OneLined manifest) (line : Text)
    (member : line ∈ generatedLines manifest) : '\n' ∉ line := by
  unfold generatedLines at member
  obtain header | printed := List.mem_append.mp member
  · simp only [List.mem_cons, List.not_mem_nil, or_false] at header
    obtain rfl | rfl | rfl := header
    · simpa [Manifest.parameterMark] using lined.tool
    · simpa [Manifest.parameterMark] using lined.board
    · exact List.not_mem_nil
  · obtain ⟨test, sorted, rfl⟩ := List.mem_map.mp printed
    obtain ⟨source, parsed⟩ := lined.results test ((List.perm_insertionSort _ _).mem_iff.mp sorted)
    obtain ⟨_, upper, oneLine⟩ := parsed_text source test parsed
    exact str_one_line test upper oneLine

theorem entry_of_blank : entryOf ([] ++ ['\n']) = [] := by decide

theorem entry_of_generated (manifest : Manifest) (lined : OneLined manifest) (test : TestResult) :
    (∃ line ∈ generatedLines manifest, test ∈ entryOf (line ++ ['\n'])) ↔
      ∃ printed ∈ manifest.results, Manifest.readEntry printed.str = some test := by
  constructor
  · rintro ⟨line, member, found⟩
    unfold generatedLines at member
    obtain header | printed := List.mem_append.mp member
    · simp only [List.mem_cons, List.not_mem_nil, or_false] at header
      obtain rfl | rfl | rfl := header
      · simp [entryOf, Manifest.parameterMark, List.isPrefixOf] at found
      · simp [entryOf, Manifest.parameterMark, List.isPrefixOf] at found
      · rw [entry_of_blank] at found
        cases found
    · obtain ⟨other, sorted, rfl⟩ := List.mem_map.mp printed
      have listed := (List.perm_insertionSort _ _).mem_iff.mp sorted
      refine ⟨other, listed, ?_⟩
      unfold entryOf at found
      split at found
      · cases found
      · rw [read_entry_newline, Option.mem_toList] at found
        exact found
  · rintro ⟨printed, listed, read⟩
    obtain ⟨source, parsed⟩ := lined.results printed listed
    obtain ⟨word, upper, _⟩ := parsed_text source printed parsed
    refine ⟨printed.str, ?_, ?_⟩
    · exact List.mem_append_right _ (List.mem_map_of_mem ((List.perm_insertionSort _ _).mem_iff.mpr listed))
    · have noParameter := str_no_parameter printed word upper ['\n']
      simp [entryOf, noParameter, read_entry_newline, read]

theorem joined_manifests (manifests : List Manifest) (lined : ∀ manifest ∈ manifests, OneLined manifest)
    (test : TestResult) :
    test ∈ (Manifest.fromFile (['\n'].intercalate (manifests.map Manifest.generate))).results ↔
      ∃ manifest ∈ manifests, ∃ printed ∈ manifest.results, Manifest.readEntry printed.str = some test := by
  have text : ['\n'].intercalate (manifests.map Manifest.generate) =
      ([([] : Text)].intercalate (manifests.map generatedLines)).flatMap fun line => line ++ ['\n'] := by
    rw [← joined_lines, List.map_map]
    exact congrArg _ (List.map_congr_left fun manifest _ => generate_lines manifest)
  have oneLine : ∀ line ∈ [([] : Text)].intercalate (manifests.map generatedLines), '\n' ∉ line := by
    intro line member
    obtain rfl | ⟨lines, listed, inside⟩ := mem_joined _ line member
    · exact List.not_mem_nil
    · obtain ⟨manifest, present, rfl⟩ := List.mem_map.mp listed
      exact generated_one_line manifest (lined manifest present) line inside
  have results : (Manifest.fromFile (['\n'].intercalate (manifests.map Manifest.generate))).results =
      (([([] : Text)].intercalate (manifests.map generatedLines)).map fun line => line ++ ['\n']).flatMap entryOf := by
    rw [text, Manifest.fromFile, readlines_lines _ oneLine]
    exact reader_results _ ⟨[], []⟩
  rw [results, List.flatMap_map, List.mem_flatMap]
  constructor
  · rintro ⟨line, member, found⟩
    obtain rfl | ⟨lines, listed, inside⟩ := mem_joined _ line member
    · rw [entry_of_blank] at found
      cases found
    · obtain ⟨manifest, present, rfl⟩ := List.mem_map.mp listed
      exact ⟨manifest, present, (entry_of_generated manifest (lined manifest present) test).mp ⟨line, inside, found⟩⟩
  · rintro ⟨manifest, present, printed⟩
    obtain ⟨line, inside, found⟩ := (entry_of_generated manifest (lined manifest present) test).mpr printed
    exact ⟨line, joined_mem _ _ (List.mem_map_of_mem present) line inside, found⟩

end Manifests

section Builds

variable (order : SetOrder TestResult) (isDate : Text → Bool)

theorem mem_failures (runs : List TestRun) (start : Finset TestResult) (test : TestResult) :
    test ∈ runs.foldl (fun actual run => actual ∪ (Manifest.fromDejaGnuTestRun order run).results.toFinset) start ↔
      test ∈ start ∨ ∃ run ∈ runs, test ∈ (Manifest.fromDejaGnuTestRun order run).results := by
  induction runs generalizing start with
  | nil => simp
  | cons run rest ih =>
      rw [List.foldl_cons, ih, Finset.mem_union, List.mem_toFinset]
      simp only [List.mem_cons, exists_eq_or_imp, or_assoc]

theorem mapM_mem {α β : Type} (read : α → Option β) (elements : List α) (results : List β)
    (mapped : elements.mapM read = some results) (result : β) (member : result ∈ results) :
    ∃ element ∈ elements, read element = some result := by
  induction elements generalizing results with
  | nil =>
      obtain rfl : [] = results := Option.some.inj mapped
      exact absurd member nofun
  | cons element rest ih =>
      rw [List.mapM_cons] at mapped
      obtain ⟨first, found, later⟩ := Option.bind_eq_some_iff.mp mapped
      obtain ⟨others, mappedRest, shape⟩ := Option.bind_eq_some_iff.mp later
      obtain rfl := Option.some.inj shape
      obtain rfl | inRest := List.mem_cons.mp member
      · exact ⟨element, List.mem_cons_self, found⟩
      · obtain ⟨other, listed, read⟩ := ih others mappedRest inRest
        exact ⟨other, List.mem_cons_of_mem _ listed, read⟩

-- The manifest of a build whose lines are settled has the failures of the build.
theorem settled_build_accepted (manifest : Option Text) (overwrite : Bool) (summaries : List Text) (text : Text)
    (produced : produceManifest order isDate manifest overwrite summaries = some text)
    (settles : ∀ report ∈ summaries, ∀ line ∈ reportLines report, Settles line) :
    checkExpectedResults order isDate text summaries = some (∅, ∅) := by
  unfold produceManifest at produced
  split at produced
  · exact absurd produced nofun
  · obtain ⟨runs, mapped, rfl⟩ := Option.map_eq_some_iff.mp produced
    have source : ∀ run ∈ runs, ∃ report ∈ summaries, ReadFrom report run := by
      intro run member
      obtain ⟨report, listed, read⟩ := mapM_mem _ summaries runs mapped run member
      exact ⟨report, listed, file_read_from order isDate report run read⟩
    have failure : ∀ run ∈ runs, ∀ test ∈ (Manifest.fromDejaGnuTestRun order run).results,
        Manifest.readEntry test.str = some test ∧ ∃ line, fromLine line = some test := by
      intro run member test listed
      obtain ⟨inRun, suppressible⟩ := List.mem_filter.mp listed
      obtain ⟨report, present, read⟩ := source run member
      obtain ⟨line, inReport, parsed⟩ := read.results test ((order.mem_list _ _).mp inRun)
      have trips := (round_trips_iff line).mpr (settles report present line inReport) test parsed (by simpa using suppressible)
      exact ⟨(manifest_of_str test line parsed).mp trips, line, parsed⟩
    have lined : ∀ manifest ∈ runs.map (Manifest.fromDejaGnuTestRun order), OneLined manifest := by
      intro manifest member
      obtain ⟨run, present, rfl⟩ := List.mem_map.mp member
      obtain ⟨report, _, read⟩ := source run present
      exact ⟨read.tool, read.board, fun test listed => (failure run present test listed).2⟩
    have same : (Manifest.fromFile (['\n'].intercalate
        (runs.map fun run => (Manifest.fromDejaGnuTestRun order run).generate))).results.toFinset =
          runs.foldl (fun actual run => actual ∪ (Manifest.fromDejaGnuTestRun order run).results.toFinset) ∅ := by
      ext test
      have read := joined_manifests (runs.map (Manifest.fromDejaGnuTestRun order)) lined test
      rw [List.map_map] at read
      rw [List.mem_toFinset, mem_failures]
      refine read.trans ?_
      constructor
      · rintro ⟨manifest, member, printed, listed, back⟩
        obtain ⟨run, present, rfl⟩ := List.mem_map.mp member
        obtain rfl := Option.some.inj ((failure run present printed listed).1.symm.trans back)
        exact Or.inr ⟨run, present, listed⟩
      · rintro (nothing | ⟨run, present, listed⟩)
        · exact absurd nothing (Finset.notMem_empty test)
        · exact ⟨_, List.mem_map_of_mem present, test, listed, (failure run present test listed).1⟩
    simp only [checkExpectedResults, actualFailures, mapped, Option.map_some, compareResults, same]
    have second : ∀ failures : Finset TestResult, failures.filter (fun result => !result.flaky) \ failures = ∅ :=
      fun failures => Finset.sdiff_eq_empty_iff_subset.mpr (Finset.filter_subset _ failures)
    rw [second, sdiff_self]
    rfl

-- Only a date that strptime does not read keeps a new manifest from being written.
theorem dated_build_produces (dates : ∀ text, isDate text = true) (summaries : List Text) :
    ∃ text, produceManifest order isDate none false summaries = some text := by
  have line : ∀ run text, ∃ next, TestRun.readLine isDate run text = some next := by
    intro run text
    unfold TestRun.readLine TestRun.readHeader
    split
    · exact ⟨_, rfl⟩
    · split
      · exact ⟨_, rfl⟩
      · exact ⟨run, if_pos (dates _)⟩
      · exact ⟨_, rfl⟩
      · exact ⟨_, rfl⟩
  have lines : ∀ texts run, ∃ finish, List.foldlM (TestRun.readLine isDate) run texts = some finish := by
    intro texts
    induction texts with
    | nil => exact fun run => ⟨run, rfl⟩
    | cons text rest ih =>
        intro run
        obtain ⟨next, taken⟩ := line run text
        obtain ⟨finish, later⟩ := ih next
        exact ⟨finish, by rw [List.foldlM_cons, taken]; exact later⟩
  have files : ∃ runs, summaries.mapM (TestRun.fromFile order isDate) = some runs := by
    induction summaries with
    | nil => exact ⟨[], rfl⟩
    | cons report rest ih =>
        obtain ⟨runs, mapped⟩ := ih
        obtain ⟨run, read⟩ := lines (reportLines report) TestRun.new
        have file : TestRun.fromFile order isDate report = some (run.cleanUpTestResults order) := by
          rw [TestRun.fromFile, TestRun.fromDejaGnuOutput]
          exact congrArg (Option.map _) read
        exact ⟨_, by rw [List.mapM_cons, file, mapped]; rfl⟩
  obtain ⟨runs, mapped⟩ := files
  exact ⟨_, by simp only [produceManifest, mapped]; rfl⟩

theorem manifest_accepts_build_iff : (∀ line, RoundTrips line ↔ Settles line) ∧
    ∀ manifest overwrite summaries text, produceManifest order isDate manifest overwrite summaries = some text →
      ((checkExpectedResults order isDate text summaries = some (∅, ∅) ∧
          ∀ report ∈ summaries, ∀ line ∈ reportLines report, RoundTrips line) ↔
        ∀ report ∈ summaries, ∀ line ∈ reportLines report, Settles line) := by
  refine ⟨round_trips_iff, fun manifest overwrite summaries text produced => ?_⟩
  constructor
  · exact fun ⟨_, trips⟩ report listed line member => (round_trips_iff line).mp (trips report listed line member)
  · exact fun settles => ⟨settled_build_accepted order isDate manifest overwrite summaries text produced settles,
      fun report listed line member => (round_trips_iff line).mpr (settles report listed line member)⟩

end Builds

def settledReport : Text :=
  "Running target unix\n\nFAIL: gcc.dg/a.c (test for excess errors)\nERROR: tcl error sourcing b.exp\nXPASS: gcc.dg/compat d.o compile, -O2\n".toList

theorem settled_report_accepted : ∃ text,
    produceManifest (SetOrder.any TestResult) (fun _ => true) none false [settledReport] = some text ∧
      checkExpectedResults (SetOrder.any TestResult) (fun _ => true) text [settledReport] = some (∅, ∅) := by
  obtain ⟨text, produced⟩ := dated_build_produces (SetOrder.any TestResult) (fun _ => true) (fun _ => rfl) [settledReport]
  have settled : ∀ report ∈ [settledReport], ∀ line ∈ reportLines report, Settles line := by decide +kernel
  exact ⟨text, produced, (((manifest_accepts_build_iff (SetOrder.any TestResult) fun _ => true).2 none false [settledReport]
    text produced).mpr settled).1⟩

-- The junk is stripped before the include path is removed, so that the variant begins
-- with a blank.
def includeLine : Text := "FAIL: gcc.dg/a.c -I/tmp/x (test for excess errors)".toList

def includeFailure : TestResult := ⟨"gcc.dg/a.c".toList, ' ' :: TestRun.excessErrors, TestRun.fail, false⟩

theorem list_singleton (order : SetOrder TestResult) (test : TestResult) : order.list {test} = [test] := by
  have members := order.mem_list {test}
  have unique := order.nodup {test}
  cases listed : order.list {test} with
  | nil => exact absurd ((members test).mpr (Finset.mem_singleton_self test)) (by simp [listed])
  | cons first rest =>
      obtain rfl := Finset.mem_singleton.mp ((members first).mp (by simp [listed]))
      cases rest with
      | nil => rfl
      | cons second others =>
          have same := Finset.mem_singleton.mp ((members second).mp (by simp [listed]))
          rw [listed, same] at unique
          exact absurd List.mem_cons_self (List.nodup_cons.mp unique).1

theorem include_run (order : SetOrder TestResult) :
    TestRun.fromFile order (fun _ => true) includeLine = some ⟨TestRun.unknown, TestRun.unknown, {includeFailure}⟩ := by
  have output : TestRun.fromDejaGnuOutput (fun _ => true) includeLine =
      some ⟨TestRun.unknown, TestRun.unknown, {includeFailure}⟩ := by decide
  rw [TestRun.fromFile, output, Option.map_some, TestRun.cleanUpTestResults, list_singleton]
  decide

theorem include_path_is_refused : ¬ RoundTrips includeLine ∧ ∃ text,
    produceManifest (SetOrder.any TestResult) (fun _ => true) none false [includeLine] = some text ∧
      checkExpectedResults (SetOrder.any TestResult) (fun _ => true) text [includeLine] =
        some ({includeFailure}, {{ includeFailure with variant := TestRun.excessErrors }}) := by
  constructor
  · intro trips
    have back := trips includeFailure (by decide) (by decide)
    exact absurd back (by decide)
  · have failures : (Manifest.fromDejaGnuTestRun (SetOrder.any TestResult)
        ⟨TestRun.unknown, TestRun.unknown, {includeFailure}⟩) = ⟨TestRun.unknown, TestRun.unknown, [includeFailure]⟩ := by
      rw [Manifest.fromDejaGnuTestRun, list_singleton]
      rfl
    refine ⟨(⟨TestRun.unknown, TestRun.unknown, [includeFailure]⟩ : Manifest).generate, ?_, ?_⟩
    · simp [produceManifest, include_run, failures]
    · have compared : compareResults (Manifest.fromFile
          (⟨TestRun.unknown, TestRun.unknown, [includeFailure]⟩ : Manifest).generate).results.toFinset {includeFailure} =
            ({includeFailure}, {{ includeFailure with variant := TestRun.excessErrors }}) := by decide
      simp [checkExpectedResults, actualFailures, include_run, failures, compared]

end ToolchainUtils.DejaGnu
