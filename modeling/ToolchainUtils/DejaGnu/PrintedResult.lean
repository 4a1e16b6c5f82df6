import ToolchainUtils.DejaGnu.Manifest
import ToolchainUtils.DejaGnu.ResultText

set_option autoImplicit false

namespace ToolchainUtils.DejaGnu

open PyString

-- What is printed after the blank that follows the result word.
def TestResult.rest (test : TestResult) : Text := test.name ++ if test.variant.isEmpty then [] else ' ' :: test.variant

-- LINE_RE and the rest of FromLine on what is left of that when white space is
-- stripped.
def reread (result text : Text) (flaky : Bool) : Option TestResult :=
  if (text.takeWhile isPathChar).isEmpty then none
  else some (Fields.toResult ⟨result, text.takeWhile isPathChar, text.dropWhile isPathChar⟩ flaky)

theorem str_shape (test : TestResult) :
    test.str = (if test.flaky then "flaky | ".toList else []) ++ (test.result ++ ':' :: ' ' :: test.rest) := by
  simp only [TestResult.str, TestResult.rest, List.append_assoc, List.cons_append]

theorem upper_solid (c : Char) (upper : c.isUpper = true) : isSpace c = false := by
  apply Bool.eq_false_iff.mpr
  intro space
  have listed : c ∈ spaces := by simpa [isSpace] using space
  have none : ∀ d ∈ spaces, d.isUpper = false := by decide
  exact absurd ((none c listed).symm.trans upper) nofun

theorem strip_blank (text : Text) : strip (' ' :: text) = strip text :=
  congrArg rstrip (lstrip_spaces [' '] text (by decide))

theorem line_fields_printed (result rest : Text) (word : result ≠ []) (upper : ∀ c ∈ result, c.isUpper = true)
    (oneLine : '\n' ∉ rest) (flaky : Bool) :
    ((lineFields (rstrip (result ++ ':' :: ' ' :: rest))).map fun fields => fields.toResult flaky) =
      reread result (strip rest) flaky := by
  have start : rstrip (result ++ ':' :: ' ' :: rest) = result ++ ':' :: rstrip (' ' :: rest) :=
    rstrip_append result (' ' :: rest) ':' (by decide)
  have body : lstrip (rstrip (' ' :: rest)) = strip rest := by
    rw [lstrip_rstrip]
    exact strip_blank rest
  have noNewline : '\n' ∉ (strip rest).dropWhile isPathChar := fun member =>
    oneLine (strip_member rest '\n' ((List.dropWhile_sublist isPathChar).subset member))
  have whole : ((strip rest).dropWhile isPathChar).takeWhile (fun c => c != '\n') = (strip rest).dropWhile isPathChar := by
    apply List.takeWhile_eq_self_iff.mpr
    intro c member
    simpa using fun same : c = '\n' => noNewline (same ▸ member)
  have some : result.isEmpty = false := by simpa using word
  rw [start, lineFields, take_to_stop Char.isUpper result _ ':' upper (by decide),
    drop_to_stop Char.isUpper result _ ':' upper (by decide)]
  simp only [body, whole, some, Bool.false_or, reread]
  by_cases empty : ((strip rest).takeWhile isPathChar).isEmpty = true
  · simp [empty]
  · have blank : ((rstrip (' ' :: rest)).takeWhile isSpace).isEmpty = false := by
      cases left : rstrip (' ' :: rest) with
      | nil =>
          rw [left] at body
          rw [← body] at empty
          exact absurd rfl empty
      | cons c others =>
          obtain ⟨dropped, shape⟩ := rstrip_starts (' ' :: rest)
          rw [left] at shape
          obtain ⟨rfl, _⟩ := List.cons.inj shape
          rfl
    simp [empty, blank]

theorem takeWhile_all (p : Char → Bool) (text : Text) (all : ∀ c ∈ text, p c = true) : text.takeWhile p = text :=
  List.takeWhile_eq_self_iff.mpr all

-- Reading a printed result without a comment mark in it.
theorem read_printed (test : TestResult) (word : test.result ≠ []) (upper : ∀ c ∈ test.result, c.isUpper = true)
    (noComment : '#' ∉ test.rest) (oneLine : '\n' ∉ test.rest) (bar : test.flaky = false → '|' ∉ test.rest) :
    Manifest.readEntry test.str = reread test.result (strip test.rest) test.flaky := by
  obtain ⟨letter, others, shape⟩ := List.exists_cons_of_ne_nil word
  have solid : isSpace letter = false := upper_solid letter (upper letter (by simp [shape]))
  have notIn : ∀ c, c.isUpper = false → c ∉ test.result := fun c other member =>
    absurd ((upper c member).symm.trans other) nofun
  have printed := line_fields_printed test.result test.rest word upper oneLine test.flaky
  have bodyTrimmed : strip (rstrip (test.result ++ ':' :: ' ' :: test.rest)) =
      rstrip (test.result ++ ':' :: ' ' :: test.rest) := by
    rw [strip, lstrip_rstrip, strip, shape, List.cons_append, lstrip_solid letter _ solid]
    exact List.rdropWhile_idempotent isSpace _
  have noMark : '#' ∉ test.str := by
    rw [str_shape]
    have apart := notIn '#' (by decide)
    cases test.flaky <;> simp [apart, noComment]
  have uncut : test.str.takeWhile (fun c => c != '#') = test.str := by
    apply takeWhile_all
    intro c member
    simpa using fun same : c = '#' => noMark (same ▸ member)
  cases mark : test.flaky with
  | false =>
      have text : test.str = test.result ++ ':' :: ' ' :: test.rest := by simp [str_shape, mark]
      have stripped : strip test.str = rstrip (test.result ++ ':' :: ' ' :: test.rest) := by
        rw [text, strip, shape, List.cons_append, lstrip_solid letter _ solid]
      have started : rstrip (test.result ++ ':' :: ' ' :: test.rest) = test.result ++ ':' :: rstrip (' ' :: test.rest) :=
        rstrip_append test.result _ ':' (by decide)
      have noBar : ∀ c ∈ rstrip (test.result ++ ':' :: ' ' :: test.rest), (c != '|') = true := by
        intro c member
        have inside := (rstrip_starts _).subset member
        have apart := notIn '|' (by decide)
        have restBar := bar mark
        have other : c ≠ '|' := by
          rintro rfl
          simp [apart, restBar] at inside
        simpa using other
      have attributes : splitAttributes (rstrip (test.result ++ ':' :: ' ' :: test.rest)) =
          some (false, rstrip (test.result ++ ':' :: ' ' :: test.rest)) := by
        rw [splitAttributes, List.dropWhile_eq_nil_iff.mpr noBar]
      have nonempty : (rstrip (test.result ++ ':' :: ' ' :: test.rest)).isEmpty = false := by simp [started]
      rw [mark] at printed
      rw [Manifest.readEntry, uncut, stripped]
      simp only [nonempty, Bool.false_eq_true, if_false, fromLine, attributes, bodyTrimmed]
      exact printed
  | true =>
      have text : test.str = "flaky | ".toList ++ (test.result ++ ':' :: ' ' :: test.rest) := by simp [str_shape, mark]
      have stripped : strip test.str = "flaky | ".toList ++ rstrip (test.result ++ ':' :: ' ' :: test.rest) := by
        rw [text, strip, lstrip_of_first _ (by simp [isSpace, spaces]), shape, List.cons_append]
        have left := rstrip_append "flaky | ".toList (others ++ ':' :: ' ' :: test.rest) letter solid
        have right := rstrip_append [] (others ++ ':' :: ' ' :: test.rest) letter solid
        rw [left]
        exact congrArg ("flaky | ".toList ++ ·) right.symm
      have attributes : splitAttributes ("flaky | ".toList ++ rstrip (test.result ++ ':' :: ' ' :: test.rest)) =
          some (true, rstrip (test.result ++ ':' :: ' ' :: test.rest)) := by
        have same : strip (' ' :: rstrip (test.result ++ ':' :: ' ' :: test.rest)) =
            rstrip (test.result ++ ':' :: ' ' :: test.rest) := (strip_blank _).trans bodyTrimmed
        have known : strip ['f', 'l', 'a', 'k', 'y', ' '] = flakyMark := by decide
        simp [splitAttributes, same, known]
      rw [mark] at printed
      rw [Manifest.readEntry, uncut, stripped]
      have nonempty : ("flaky | ".toList ++ rstrip (test.result ++ ':' :: ' ' :: test.rest)).isEmpty = false := by simp
      simp only [nonempty, Bool.false_eq_true, if_false, fromLine, attributes, bodyTrimmed]
      exact printed

end ToolchainUtils.DejaGnu
