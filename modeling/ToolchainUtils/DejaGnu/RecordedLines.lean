import ToolchainUtils.DejaGnu.AcceptedBuild
import ToolchainUtils.FailingFold

set_option autoImplicit false

namespace ToolchainUtils.DejaGnu

open PyString

-- RESULT: path description
structure ResultLine where
  result : Text
  blank : Text
  path : Text
  description : Text
  word : result ≠ []
  capitals : ∀ c ∈ result, c.isUpper = true
  apart : blank ≠ []
  spaces : ∀ c ∈ blank, isSpace c = true
  present : path ≠ []
  chars : ∀ c ∈ path, isPathChar c = true

namespace ResultLine

variable (line : ResultLine)

def text : Text := line.result ++ ':' :: (line.blank ++ (line.path ++ line.description))

-- The description loses the white space at the end of the line.
theorem text_stripped : strip line.text = line.result ++ ':' :: (line.blank ++ (line.path ++ rstrip line.description)) := by
  obtain ⟨letter, others, first⟩ := List.exists_cons_of_ne_nil line.word
  obtain ⟨front, last, path⟩ : ∃ front last, line.path = front ++ [last] :=
    ⟨_, _, (List.dropLast_append_getLast line.present).symm⟩
  have letterSolid : isSpace letter = false := upper_solid letter (line.capitals letter (by simp [first]))
  have lastSolid : isSpace last = false := path_char_solid last (line.chars last (by simp [path]))
  have whole : line.text = (line.result ++ ':' :: (line.blank ++ front)) ++ last :: line.description := by
    simp [text, path]
  have started : lstrip line.text = line.text := by
    rw [text, first, List.cons_append, lstrip_solid letter _ letterSolid]
  rw [strip, started, whole, rstrip_append _ line.description last lastSolid, path]
  simp

theorem text_head (c : Char) (head : (strip line.text).head? = some c) : c.isUpper = true := by
  obtain ⟨letter, others, first⟩ := List.exists_cons_of_ne_nil line.word
  rw [text_stripped, first, List.cons_append, List.head?_cons] at head
  obtain rfl := Option.some.inj head
  exact line.capitals letter (by simp [first])

theorem bar_iff : '|' ∈ strip line.text ↔ '|' ∈ line.description := by
  have notResult : '|' ∉ line.result := fun member => absurd (line.capitals '|' member) (by decide)
  have notBlank : '|' ∉ line.blank := fun member => absurd (line.spaces '|' member) (by decide)
  have notPath : '|' ∉ line.path := fun member => absurd (line.chars '|' member) (by decide)
  have kept : '|' ∈ rstrip line.description ↔ '|' ∈ line.description := by
    refine ⟨fun member => (rstrip_starts _).subset member, fun member => ?_⟩
    obtain ⟨front, back, split⟩ := List.append_of_mem member
    rw [split, rstrip_append front back '|' (by decide)]
    exact List.mem_append_right _ List.mem_cons_self
  rw [text_stripped]
  simp [notResult, notBlank, notPath, kept]

theorem line_fields_text : ∃ fields, lineFields (strip line.text) = some fields ∧ fields.result = line.result := by
  obtain ⟨first, others, path⟩ := List.exists_cons_of_ne_nil line.present
  obtain ⟨space, more, blank⟩ := List.exists_cons_of_ne_nil line.apart
  have firstChar : isPathChar first = true := line.chars first (by simp [path])
  have spaced : isSpace space = true := line.spaces space (by simp [blank])
  have word : line.result.isEmpty = false := by simpa using line.word
  have body : lstrip (line.blank ++ (line.path ++ rstrip line.description)) = line.path ++ rstrip line.description := by
    rw [lstrip_spaces _ _ line.spaces, path, List.cons_append, lstrip_solid first _ (path_char_solid first firstChar)]
  have pathTaken : ((line.path ++ rstrip line.description).takeWhile isPathChar).isEmpty = false := by
    simp [path, firstChar]
  have blankTaken : ((line.blank ++ (line.path ++ rstrip line.description)).takeWhile isSpace).isEmpty = false := by
    simp [blank, spaced]
  rw [text_stripped, lineFields, take_to_stop Char.isUpper _ _ ':' line.capitals (by decide),
    drop_to_stop Char.isUpper _ _ ':' line.capitals (by decide)]
  simp only [body, word, pathTaken, blankTaken, Bool.or_false, Bool.false_eq_true, if_false]
  exact ⟨_, rfl, rfl⟩

-- What stands before a bar is taken for the attributes of an entry of a manifest.
theorem from_line_bar (bar : '|' ∈ line.description) : fromLine (strip line.text) = none := by
  have inside : '|' ∈ strip line.text := line.bar_iff.mpr bar
  have stops : (strip line.text).dropWhile (fun c => c != '|') ≠ [] := fun empty =>
    absurd (List.dropWhile_eq_nil_iff.mp empty '|' inside) (by decide)
  obtain ⟨first, rest, cut⟩ := List.exists_cons_of_ne_nil stops
  have unknown : strip ((strip line.text).takeWhile fun c => c != '|') ≠ flakyMark := by
    obtain ⟨letter, others, shape⟩ := List.exists_cons_of_ne_nil (List.ne_nil_of_mem inside)
    have upper := line.text_head letter (by rw [shape]; rfl)
    have other : (letter != '|') = true := by
      refine bne_iff_ne.mpr fun same => ?_
      rw [same] at upper
      exact absurd upper (by decide)
    have begins : (letter :: others).takeWhile (fun c => c != '|') = letter :: others.takeWhile fun c => c != '|' :=
      List.takeWhile_cons_of_pos other
    intro marked
    rw [shape, begins, strip, lstrip_solid letter _ (upper_solid letter upper)] at marked
    obtain ⟨dropped, starts⟩ := rstrip_starts (letter :: others.takeWhile fun c => c != '|')
    rw [marked] at starts
    obtain ⟨same, -⟩ := List.cons.inj starts
    rw [← same] at upper
    exact absurd upper (by decide)
  rw [fromLine, splitAttributes, cut]
  simp only [unknown, if_false]

theorem from_line_plain (plain : '|' ∉ line.description) :
    ∃ test, fromLine (strip line.text) = some test ∧ test.result = line.result := by
  have outside : '|' ∉ strip line.text := fun member => plain (line.bar_iff.mp member)
  have whole : (strip line.text).dropWhile (fun c => c != '|') = [] :=
    List.dropWhile_eq_nil_iff.mpr fun c member => bne_iff_ne.mpr fun same => outside (same ▸ member)
  obtain ⟨fields, matched, word⟩ := line.line_fields_text
  have trimmed : strip (strip line.text) = strip line.text := strip_trimmed _ (strip_is_trimmed line.text)
  rw [fromLine, splitAttributes, whole]
  simp only [trimmed, matched, Option.map_some, to_result_finish]
  exact ⟨_, rfl, (finish_marks _ _ _ _).1.trans word⟩

end ResultLine

-- strptime reads the date of every line that has one.
def DatesRead (isDate : Text → Bool) (report : Text) : Prop :=
  ∀ line ∈ reportLines report, ∀ date ∈ TestRun.dateField line, isDate date = true

-- The file is read to its end, with the result of this line among the results.
def Recorded (isDate : Text → Bool) (report : Text) (line : ResultLine) : Prop :=
  ∃ run, TestRun.fromDejaGnuOutput isDate report = some run ∧
    ∃ test ∈ run.results, fromLine (strip line.text) = some test ∧ test.result = line.result

section Reading

variable (isDate : Text → Bool)

theorem date_line_start (line date : Text) (dated : TestRun.dateField line = some date) :
    ∃ rest, line = "Test Run By ".toList ++ rest := by
  obtain ⟨parts, split, -⟩ := Option.map_eq_some_iff.mp dated
  obtain ⟨text, after, -⟩ := Option.bind_eq_some_iff.mp split
  unfold TestRun.after at after
  split at after
  · next starts =>
      obtain ⟨rest, shape⟩ := List.isPrefixOf_iff_prefix.mp starts
      exact ⟨rest, shape.symm⟩
  · exact absurd after.symm (Option.some_ne_none _)

theorem date_line_no_result (rest : Text) : fromLine ("Test Run By ".toList ++ rest) = none := by
  have other : ∀ text, strip ('T' :: text) ≠ flakyMark := by
    intro text marked
    rw [strip, lstrip_solid 'T' _ (by decide)] at marked
    obtain ⟨dropped, starts⟩ := rstrip_starts ('T' :: text)
    rw [marked] at starts
    exact absurd (List.cons.inj starts).1 (by decide)
  have noFields : lineFields (strip ("Test Run By ".toList ++ rest)) = none := by
    have kept : strip ("Test Run By ".toList ++ rest) = "Test Run B".toList ++ 'y' :: rstrip (' ' :: rest) := by
      rw [strip]
      exact rstrip_append "Test Run B".toList (' ' :: rest) 'y' (by decide)
    rw [kept]
    rfl
  have unknown : strip (("Test Run By ".toList ++ rest).takeWhile fun c => c != '|') ≠ flakyMark :=
    other (("est Run By ".toList ++ rest).takeWhile fun c => c != '|')
  rw [fromLine, splitAttributes]
  split
  · rfl
  next flaky body attributes =>
    split at attributes
    · obtain ⟨rfl, rfl⟩ := Prod.mk.inj (Option.some.inj attributes)
      rw [noFields]
      rfl
    · rw [if_neg unknown] at attributes
      exact absurd attributes.symm (Option.some_ne_none _)

theorem read_line_succeeds_iff (line : Text) (run : TestRun) :
    (∃ next, TestRun.readLine isDate run line = some next) ↔ ∀ date ∈ TestRun.dateField line, isDate date = true := by
  cases dated : TestRun.dateField line with
  | none =>
      refine iff_of_true ?_ fun date member => absurd member.symm (Option.some_ne_none _)
      rw [TestRun.readLine]
      split
      · exact ⟨_, rfl⟩
      · rw [TestRun.readHeader, dated]
        split
        · exact ⟨_, rfl⟩
        next found => exact absurd found.symm (Option.some_ne_none _)
        · exact ⟨_, rfl⟩
        · exact ⟨_, rfl⟩
  | some date =>
      obtain ⟨rest, shape⟩ := date_line_start line date dated
      have noBoard : TestRun.boardField line = none := by
        rw [shape]
        rfl
      have read : TestRun.readLine isDate run line = if isDate date then some run else none := by
        rw [TestRun.readLine, shape, date_line_no_result, ← shape]
        simp only [TestRun.readHeader, noBoard, dated]
      rw [read]
      by_cases good : isDate date = true
      · exact iff_of_true ⟨run, if_pos good⟩ fun other member => Option.some.inj member ▸ good
      · refine iff_of_false ?_ fun all => good (all date rfl)
        rintro ⟨next, taken⟩
        rw [if_neg good] at taken
        exact absurd taken.symm (Option.some_ne_none _)

theorem read_line_keeps (line : Text) (run next : TestRun) (test : TestResult) (member : test ∈ run.results)
    (taken : TestRun.readLine isDate run line = some next) : test ∈ next.results := by
  unfold TestRun.readLine at taken
  split at taken
  · obtain rfl := Option.some.inj taken
    exact Finset.mem_insert_of_mem member
  · unfold TestRun.readHeader at taken
    split at taken
    · obtain rfl := Option.some.inj taken
      exact member
    · split at taken
      · obtain rfl := Option.some.inj taken
        exact member
      · exact absurd taken.symm (Option.some_ne_none _)
    · obtain rfl := Option.some.inj taken
      exact member
    · obtain rfl := Option.some.inj taken
      exact member

theorem output_read_iff (report : Text) :
    (∃ run, TestRun.fromDejaGnuOutput isDate report = some run) ↔ DatesRead isDate report :=
  FailingFold.fold_succeeds_iff (TestRun.readLine isDate) (fun line => ∀ date ∈ TestRun.dateField line, isDate date = true)
    (reportLines report) TestRun.new fun line run => read_line_succeeds_iff isDate line run

theorem result_line_recorded_iff (report written : Text) (line : ResultLine) (member : written ∈ readlines report)
    (form : strip written = strip line.text) :
    Recorded isDate report line ↔ '|' ∉ line.description ∧ DatesRead isDate report := by
  constructor
  · rintro ⟨run, ran, test, recorded, parsed, word⟩
    refine ⟨fun bar => ?_, (output_read_iff isDate report).mp ⟨run, ran⟩⟩
    rw [line.from_line_bar bar] at parsed
    exact absurd parsed.symm (Option.some_ne_none _)
  · rintro ⟨plain, dates⟩
    obtain ⟨run, ran⟩ := (output_read_iff isDate report).mpr dates
    obtain ⟨test, parsed, word⟩ := line.from_line_plain plain
    have nonempty : strip written ≠ [] := by
      rw [form, line.text_stripped]
      exact List.append_ne_nil_of_right_ne_nil _ (List.cons_ne_nil _ _)
    have listed : strip line.text ∈ reportLines report :=
      List.mem_map.mpr ⟨written, List.mem_filter.mpr ⟨member, by simpa using nonempty⟩, form⟩
    refine ⟨run, ran, test, ?_, parsed, word⟩
    refine FailingFold.fold_establishes (TestRun.readLine isDate) (fun run => test ∈ run.results) (reportLines report)
      (strip line.text) listed TestRun.new run (fun before next taken => ?_)
      (fun other _ before next => read_line_keeps isDate other before next test) ran
    rw [TestRun.readLine, parsed] at taken
    obtain rfl := Option.some.inj taken
    exact Finset.mem_insert_self ..

end Reading

-- The same result of an assembler test, without and with a bar in what is tested.
def assemblerLine (description : Text) : ResultLine where
  result := "FAIL".toList
  blank := [' ']
  path := "gcc.dg/asm.c".toList
  description := description
  word := List.cons_ne_nil _ _
  capitals := by decide
  apart := List.cons_ne_nil _ _
  spaces := by decide
  present := List.cons_ne_nil _ _
  chars := by decide

theorem bar_line_is_dropped : ∃ line : ResultLine, "FAIL: gcc.dg/asm.c a|b\n".toList ∈ readlines "FAIL: gcc.dg/asm.c a|b\n".toList ∧
    strip "FAIL: gcc.dg/asm.c a|b\n".toList = strip line.text ∧
      ¬ Recorded (fun _ => true) "FAIL: gcc.dg/asm.c a|b\n".toList line := by
  refine ⟨assemblerLine " a|b".toList, by decide, by decide, ?_⟩
  rintro ⟨run, ran, test, recorded, parsed, word⟩
  have dropped : fromLine (strip (assemblerLine " a|b".toList).text) = none := by decide
  rw [dropped] at parsed
  cases parsed

theorem plain_line_is_recorded :
    Recorded (fun _ => true) "FAIL: gcc.dg/asm.c a,b\n".toList (assemblerLine " a,b".toList) :=
  (result_line_recorded_iff (fun _ => true) "FAIL: gcc.dg/asm.c a,b\n".toList "FAIL: gcc.dg/asm.c a,b\n".toList
    (assemblerLine " a,b".toList) (by decide) (by decide)).mpr ⟨by decide, fun _ _ _ _ => rfl⟩

end ToolchainUtils.DejaGnu
