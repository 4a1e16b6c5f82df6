import ToolchainUtils.DejaGnu.Manifest

set_option autoImplicit false

namespace ToolchainUtils.DejaGnu

open PyString

namespace TestResult

def plain (test : TestResult) : TestResult := { test with flaky := false }

-- The same name, variant and result, whatever the marks are.
def SameFailure (first second : TestResult) : Prop := first.plain = second.plain

theorem same_cases (test entry : TestResult) (flaky : entry.flaky = true) (same : test.SameFailure entry) :
    test = entry ∨ test = entry.plain := by
  obtain ⟨name, variant, result, mark⟩ := test
  obtain ⟨_, _, _, _⟩ := entry
  simp only [SameFailure, plain, TestResult.mk.injEq, and_true] at same
  obtain ⟨rfl, rfl, rfl⟩ := same
  obtain rfl : _ = true := flaky
  cases mark with
  | true => exact Or.inl rfl
  | false => exact Or.inr rfl

theorem same_plain (entry : TestResult) : entry.plain.SameFailure entry := rfl

def suppressed (test : TestResult) : TestResult := { test with result := '!' :: test.result }

end TestResult

theorem upper_result (line : Text) (test : TestResult) (parsed : fromLine line = some test) :
    ∀ c ∈ test.result, c.isUpper = true := by
  unfold fromLine at parsed
  split at parsed
  · exact absurd parsed nofun
  · obtain ⟨fields, matched, rfl⟩ := Option.map_eq_some_iff.mp parsed
    have upper : ∀ c ∈ fields.result, c.isUpper = true := by
      unfold lineFields at matched
      dsimp only at matched
      split at matched
      · split at matched
        · exact absurd matched nofun
        · obtain rfl := Option.some.inj matched
          exact fun c member => List.mem_takeWhile_imp member
      · exact absurd matched nofun
    exact upper

theorem parsed_unsuppressed (line : Text) (test other : TestResult) (parsed : fromLine line = some test) :
    test ≠ other.suppressed := by
  rintro rfl
  have upper := upper_result line _ parsed '!' List.mem_cons_self
  exact absurd upper (by decide)

theorem mem_suppress (results : Finset TestResult) (test other : TestResult) :
    other ∈ TestRun.suppress results test ↔ other = test.suppressed ∨ (other ≠ test ∧ other ∈ results) := by
  rw [TestRun.suppress, Finset.mem_insert, Finset.mem_erase]
  rfl

-- What the loop leaves, when no suppressed result is one that is still to come.
theorem mem_suppress_all (tests : List TestResult) (results : Finset TestResult)
    (apart : ∀ test ∈ tests, ∀ other : TestResult, test ≠ other.suppressed) (kept : TestResult) :
    kept ∈ tests.foldl TestRun.suppress results ↔
      (∃ test ∈ tests, kept = test.suppressed) ∨ (kept ∈ results ∧ kept ∉ tests) := by
  induction tests generalizing results with
  | nil => simp
  | cons test rest ih =>
      rw [List.foldl_cons, ih _ fun other member => apart other (List.mem_cons_of_mem _ member), mem_suppress]
      have later : test.suppressed ∉ rest := fun member => apart _ (List.mem_cons_of_mem _ member) test rfl
      simp only [List.mem_cons, exists_eq_or_imp, not_or]
      constructor
      · rintro (again | ⟨rfl | ⟨different, member⟩, absent⟩)
        · exact Or.inl (Or.inr again)
        · exact Or.inl (Or.inl rfl)
        · exact Or.inr ⟨member, different, absent⟩
      · rintro ((rfl | again) | ⟨member, different, absent⟩)
        · exact Or.inr ⟨Or.inl rfl, later⟩
        · exact Or.inl again
        · exact Or.inr ⟨Or.inr ⟨different, member⟩, absent⟩

namespace TestRun

-- The results of the manifests that apply to the run.
def listed (run : TestRun) (manifests : List Manifest) : Finset TestResult :=
  (manifests.filter run.isApplicable).foldl (fun results manifest => results ∪ manifest.results.toFinset) ∅

theorem mem_suppressed (sorted : SetOrder TestResult) (run : TestRun) (manifests : List Manifest)
    (parsed : ∀ test ∈ run.results, ∃ line, fromLine line = some test) (kept : TestResult) :
    kept ∈ (run.suppressTestResults sorted manifests).results ↔
      (∃ test ∈ run.results ∩ run.listed manifests, kept = test.suppressed) ∨
        (kept ∈ run.results ∧ kept ∉ run.listed manifests) := by
  have apart : ∀ test ∈ sorted.list (run.results ∩ run.listed manifests), ∀ other : TestResult, test ≠ other.suppressed := by
    intro test member other
    obtain ⟨line, same⟩ := parsed test (Finset.mem_inter.mp ((sorted.mem_list _ _).mp member)).1
    exact parsed_unsuppressed line test other same
  have loop := mem_suppress_all _ run.results apart kept
  simp only [sorted.mem_list] at loop
  rw [show (run.suppressTestResults sorted manifests).results =
    (sorted.list (run.results ∩ run.listed manifests)).foldl suppress run.results from rfl, loop, Finset.mem_inter]
  apply or_congr_right
  constructor
  · exact fun ⟨member, absent⟩ => ⟨member, fun present => absent ⟨member, present⟩⟩
  · exact fun ⟨member, absent⟩ => ⟨member, fun present => absent present.2⟩

end TestRun

-- A failure that is listed as flaky is silent in both lists, and what is not listed so
-- is reported as the set differences say.
structure ComparedSilently (manifest actual : Finset TestResult) : Prop where
  notUnexpected : ∀ entry ∈ manifest, entry.flaky = true →
    ∀ test ∈ (compareResults manifest actual).1, ¬ test.SameFailure entry
  notMissing : ∀ entry ∈ manifest, entry.flaky = true → (∀ test ∈ actual, ¬ test.SameFailure entry) →
    ∀ test ∈ (compareResults manifest actual).2, ¬ test.SameFailure entry
  others : ∀ test, (∀ entry ∈ manifest, entry.flaky = true → ¬ test.SameFailure entry) →
    (test ∈ (compareResults manifest actual).1 ↔ test ∈ actual \ manifest) ∧
      (test ∈ (compareResults manifest actual).2 ↔ test ∈ manifest \ actual)

def SuppressedSilently (sorted : SetOrder TestResult) (run : TestRun) (manifests : List Manifest) : Prop :=
  ∀ entry ∈ run.listed manifests, entry.flaky = true → ∀ test ∈ run.results, test.SameFailure entry →
    test ∉ (run.suppressTestResults sorted manifests).results ∧
      test.suppressed ∈ (run.suppressTestResults sorted manifests).results

theorem compared_silently_iff (manifest actual : Finset TestResult) :
    ComparedSilently manifest actual ↔ ∀ entry ∈ manifest, entry.flaky = true →
      (entry.plain ∈ actual → entry.plain ∈ manifest) ∧
        (entry.plain ∈ manifest → entry.plain ∈ actual ∨ entry ∈ actual) := by
  have missing : ∀ test, test ∈ (compareResults manifest actual).2 ↔
      (test ∈ manifest ∧ test.flaky = false) ∧ test ∉ actual := by
    intro test
    simp [compareResults]
  have unexpected : ∀ test, test ∈ (compareResults manifest actual).1 ↔ test ∈ actual ∧ test ∉ manifest :=
    fun test => Finset.mem_sdiff
  constructor
  · intro silent entry member flaky
    constructor
    · intro occurs
      apply Classical.byContradiction
      intro absent
      exact silent.notUnexpected entry member flaky entry.plain ((unexpected _).mpr ⟨occurs, absent⟩) entry.same_plain
    · intro both
      apply Classical.byContradiction
      intro nowhere
      rw [not_or] at nowhere
      refine silent.notMissing entry member flaky ?_ entry.plain ((missing _).mpr ⟨⟨both, rfl⟩, nowhere.1⟩) entry.same_plain
      intro test occurs same
      obtain rfl | rfl := test.same_cases entry flaky same
      · exact nowhere.2 occurs
      · exact nowhere.1 occurs
  · intro listed
    refine ⟨?_, ?_, ?_⟩
    · intro entry member flaky test reported same
      obtain ⟨occurs, absent⟩ := (unexpected test).mp reported
      obtain rfl | rfl := test.same_cases entry flaky same
      · exact absent member
      · exact absent ((listed entry member flaky).1 occurs)
    · intro entry member flaky nowhere test reported same
      obtain ⟨⟨present, unmarked⟩, _⟩ := (missing test).mp reported
      obtain rfl | rfl := test.same_cases entry flaky same
      · exact absurd (flaky.symm.trans unmarked) nofun
      · obtain occurs | occurs := (listed entry member flaky).2 present
        · exact nowhere _ occurs entry.same_plain
        · exact nowhere _ occurs rfl
    · intro test unlisted
      refine ⟨Iff.rfl, ?_⟩
      rw [missing, Finset.mem_sdiff]
      constructor
      · rintro ⟨⟨present, _⟩, absent⟩
        exact ⟨present, absent⟩
      · rintro ⟨present, absent⟩
        refine ⟨⟨present, ?_⟩, absent⟩
        apply Bool.eq_false_iff.mpr
        intro flaky
        exact unlisted test present flaky rfl

theorem suppressed_silently_iff (sorted : SetOrder TestResult) (run : TestRun) (manifests : List Manifest)
    (parsed : ∀ test ∈ run.results, ∃ line, fromLine line = some test) :
    SuppressedSilently sorted run manifests ↔ ∀ entry ∈ run.listed manifests, entry.flaky = true →
      entry.plain ∈ run.results → entry.plain ∈ run.listed manifests := by
  have kept := run.mem_suppressed sorted manifests parsed
  constructor
  · intro silent entry member flaky occurs
    apply Classical.byContradiction
    intro unlisted
    exact (silent entry member flaky entry.plain occurs entry.same_plain).1 ((kept _).mpr (Or.inr ⟨occurs, unlisted⟩))
  · intro listed entry member flaky test occurs same
    have present : test ∈ run.listed manifests := by
      obtain rfl | rfl := test.same_cases entry flaky same
      · exact member
      · exact listed entry member flaky occurs
    obtain ⟨line, read⟩ := parsed test occurs
    refine ⟨?_, (kept _).mpr (Or.inl ⟨test, Finset.mem_inter.mpr ⟨occurs, present⟩, rfl⟩)⟩
    intro remains
    obtain ⟨other, _, again⟩ | ⟨_, absent⟩ := (kept test).mp remains
    · exact parsed_unsuppressed line test other read again
    · exact absent present

theorem flaky_entries_silence_iff (sorted : SetOrder TestResult) (manifest actual : Finset TestResult) (run : TestRun)
    (manifests : List Manifest) (parsed : ∀ test ∈ run.results, ∃ line, fromLine line = some test) :
    (ComparedSilently manifest actual ∧ SuppressedSilently sorted run manifests) ↔
      (∀ entry ∈ manifest, entry.flaky = true → (entry.plain ∈ actual → entry.plain ∈ manifest) ∧
        (entry.plain ∈ manifest → entry.plain ∈ actual ∨ entry ∈ actual)) ∧
      (∀ entry ∈ run.listed manifests, entry.flaky = true → entry.plain ∈ run.results →
        entry.plain ∈ run.listed manifests) := by
  rw [compared_silently_iff, suppressed_silently_iff sorted run manifests parsed]

def listedName : Text := "gcc.dg/a.c".toList

def listedFailure (flaky : Bool) : TestResult := ⟨listedName, TestRun.excessErrors, TestRun.fail, flaky⟩

def listedLine : Text := "FAIL: gcc.dg/a.c (test for excess errors)".toList

def listedRun : TestRun := ⟨TestRun.unknown, TestRun.unknown, {listedFailure false}⟩

-- A manifest that lists the failure with and without the mark.
theorem doubly_listed_failure_is_silent :
    ComparedSilently {listedFailure true, listedFailure false} {listedFailure false} ∧
      SuppressedSilently (SetOrder.any TestResult) listedRun [⟨['*'], ['*'], [listedFailure true, listedFailure false]⟩] :=
  (flaky_entries_silence_iff (SetOrder.any TestResult) _ _ listedRun _
    (fun test member => ⟨listedLine, Finset.mem_singleton.mp member ▸ rfl⟩)).mpr ⟨by decide, by decide⟩

theorem flaky_failure_is_reported :
    fromLine listedLine = some (listedFailure false) ∧
      fromLine ("flaky | ".toList ++ listedLine) = some (listedFailure true) ∧
      ¬ ComparedSilently {listedFailure true} {listedFailure false} ∧
      ∀ sorted, ¬ SuppressedSilently sorted listedRun [⟨['*'], ['*'], [listedFailure true]⟩] := by
  refine ⟨rfl, rfl, ?_, ?_⟩
  · intro silent
    exact silent.notUnexpected (listedFailure true) (by decide) rfl (listedFailure false) (by decide) rfl
  · intro sorted silent
    have gone := silent (listedFailure true) (by decide) rfl (listedFailure false) (by decide) rfl
    have nothing : listedRun.results ∩ listedRun.listed [⟨['*'], ['*'], [listedFailure true]⟩] = ∅ := by decide
    have empty : sorted.list ∅ = [] := List.eq_nil_iff_forall_not_mem.mpr fun test member =>
      Finset.notMem_empty test ((sorted.mem_list ∅ test).mp member)
    apply gone.1
    have unchanged : (listedRun.suppressTestResults sorted [⟨['*'], ['*'], [listedFailure true]⟩]).results =
        (sorted.list (listedRun.results ∩ listedRun.listed [⟨['*'], ['*'], [listedFailure true]⟩])).foldl
          TestRun.suppress listedRun.results := rfl
    rw [unchanged, nothing, empty]
    exact Finset.mem_singleton_self _

end ToolchainUtils.DejaGnu
