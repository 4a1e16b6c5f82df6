import ToolchainUtils.DejaGnu.PrintedResult

set_option autoImplicit false

namespace ToolchainUtils.DejaGnu

open PyString

-- FromLine once the path is cut and the description is cleaned.
def finish (path variant result : Text) (flaky : Bool) : TestResult :=
  let (name, text) := moveObject path variant
  place name text result flaky

theorem to_result_finish (fields : Fields) (flaky : Bool) :
    fields.toResult flaky = finish (cutTestsuite fields.path) (clean fields.description) fields.result flaky := rfl

section Junk

theorem strip_junk_front (front text : Text) (junk : ∀ c ∈ front, isJunk c = true) :
    stripJunk (front ++ text) = stripJunk text := by
  rw [stripJunk, List.dropWhile_append_of_pos junk, stripJunk]

theorem rdrop_junk_back (text back : Text) (junk : ∀ c ∈ back, isJunk c = true) :
    (text ++ back).rdropWhile isJunk = text.rdropWhile isJunk := by
  induction back using List.reverseRecOn with
  | nil => rw [List.append_nil]
  | append_singleton back c ih =>
      rw [← List.append_assoc, List.rdropWhile_concat_pos isJunk _ c (junk c (by simp))]
      exact ih fun d member => junk d (by simp [member])

theorem strip_junk_back (text back : Text) (junk : ∀ c ∈ back, isJunk c = true) :
    stripJunk (text ++ back) = stripJunk text := by
  rw [stripJunk, stripJunk, List.dropWhile_append]
  split
  · next empty =>
      rw [List.dropWhile_eq_nil_iff.mpr junk, List.isEmpty_iff.mp empty]
  · exact rdrop_junk_back _ back junk

theorem strip_junk_rstrip (text : Text) (blank : ∀ c ∈ text, isSpace c = true → c = ' ') :
    stripJunk (rstrip text) = stripJunk text := by
  have parts := List.rdropWhile_append_rtakeWhile (p := isSpace) (l := text)
  have junk : ∀ c ∈ text.rtakeWhile isSpace, isJunk c = true := by
    intro c member
    have space := List.mem_rtakeWhile_imp member
    rw [blank c ((List.rtakeWhile_suffix isSpace text).subset member) space]
    rfl
  have whole := strip_junk_back (rstrip text) _ junk
  rw [rstrip, parts] at whole
  exact whole.symm

-- What is stripped lies inside the text.
theorem strip_junk_infix (text : Text) : ∃ front back, text = front ++ stripJunk text ++ back := by
  obtain ⟨back, rest⟩ := List.rdropWhile_prefix isJunk (text.dropWhile isJunk)
  refine ⟨text.takeWhile isJunk, back, ?_⟩
  rw [List.append_assoc, stripJunk, rest]
  exact List.takeWhile_append_dropWhile.symm

theorem strip_junk_clean (text : Text) (clean : Clean text) : Clean (stripJunk text) := by
  obtain ⟨front, back, shape⟩ := strip_junk_infix text
  rw [shape] at clean
  exact clean_right front _ (clean_left _ back clean)

theorem strip_junk_short (text : Text) : (stripJunk text).length ≤ text.length := by
  obtain ⟨front, back, shape⟩ := strip_junk_infix text
  have lengths := congrArg List.length shape
  simp only [List.length_append] at lengths
  omega

theorem strip_junk_same (text : Text) (long : text.length ≤ (stripJunk text).length) : stripJunk text = text := by
  obtain ⟨front, back, shape⟩ := strip_junk_infix text
  have lengths := congrArg List.length shape
  simp only [List.length_append] at lengths
  obtain rfl : front = [] := List.eq_nil_of_length_eq_zero (by omega)
  obtain rfl : back = [] := List.eq_nil_of_length_eq_zero (by omega)
  simpa using shape.symm

theorem remove_includes_short (text : Text) (skipping : Bool) : (removeIncludes skipping text).length ≤ text.length := by
  induction text generalizing skipping with
  | nil => exact Nat.le_refl _
  | cons c rest ih =>
      have skip := ih true
      have keep := ih false
      simp only [removeIncludes]
      split <;> split <;> simp only [List.length_cons] <;> omega

theorem compress_short (text : Text) (inSpace : Bool) : (compress inSpace text).length ≤ text.length := by
  induction text generalizing inSpace with
  | nil => exact Nat.le_refl _
  | cons c rest ih =>
      have blank := ih true
      have solid := ih false
      simp only [compress]
      split
      · split <;> simp only [List.length_cons] <;> omega
      · simp only [List.length_cons]
        omega

theorem clean_short (text : Text) : (clean text).length ≤ text.length :=
  Nat.le_trans (compress_short _ false) (Nat.le_trans (remove_includes_short _ false) (strip_junk_short text))

end Junk

section Reading

variable (result : Text) (flaky : Bool)

theorem finish_cases (path variant : Text) :
    (∃ first rest : Text, variant = first ++ ' ' :: rest ∧ ' ' ∉ first ∧ objectSuffix <:+ first ∧
      moveObject path variant = (joinPath path first, rest) ∧ hasSuffix (joinPath path first) = true ∧
        finish path variant result flaky = ⟨dropDot (joinPath path first), rest, result, flaky⟩) ∨
    (moveObject path variant = (path, variant) ∧ hasSuffix path = true ∧
      finish path variant result flaky = ⟨dropDot path, variant, result, flaky⟩) ∨
    (moveObject path variant = (path, variant) ∧ hasSuffix path = false ∧
      finish path variant result flaky = ⟨[], path ++ ' ' :: variant, result, flaky⟩) := by
  obtain stays | ⟨first, rest, shape, solid, object, moves⟩ := move_object_cases variant
  · cases suffix : hasSuffix path with
    | true => exact Or.inr (Or.inl ⟨stays path, rfl, by simp [finish, stays, place, suffix]⟩)
    | false => exact Or.inr (Or.inr ⟨stays path, rfl, by simp [finish, stays, place, suffix, dropDot]⟩)
  · have suffix : hasSuffix (joinPath path first) = true := by
      obtain ⟨front, same⟩ := object.trans (join_path_suffix path first)
      rw [← same]
      exact has_suffix_object front
    exact Or.inl ⟨first, rest, shape, solid, object, moves path, suffix, by simp [finish, moves, place, suffix]⟩

theorem dropped_name_nonempty (path : Text) (suffix : hasSuffix path = true) : dropDot path ≠ [] := by
  intro empty
  have same := has_suffix_drop_dot path
  rw [empty, has_suffix_nil, suffix] at same
  exact absurd same nofun

theorem drop_dot_short (path : Text) : (dropDot path).length ≤ path.length := by
  obtain same | shape := drop_dot_cases path
  · rw [same]
  · have lengths := congrArg List.length shape
    simp only [List.length_cons] at lengths
    omega

theorem cut_testsuite_le (path : Text) : (cutTestsuite path).length ≤ path.length := (cut_testsuite_suffix path).length_le

theorem cut_testsuite_same (path : Text) (long : path.length ≤ (cutTestsuite path).length) : cutTestsuite path = path :=
  (cut_testsuite_suffix path).eq_of_length_le long

theorem drop_dot_same (path : Text) (long : path.length ≤ (dropDot path).length) : dropDot path = path := by
  obtain same | shape := drop_dot_cases path
  · exact same
  · have lengths := congrArg List.length shape
    simp only [List.length_cons] at lengths
    omega

theorem path_char_solid (c : Char) (path : isPathChar c = true) : isSpace c = false := by
  apply Bool.eq_false_iff.mpr
  intro space
  have listed : c ∈ spaces := by simpa [isSpace] using space
  have none : ∀ d ∈ spaces, isPathChar d = false := by decide
  exact Bool.false_ne_true ((none c listed).symm.trans path)

theorem strip_path (path text : Text) (present : path ≠ []) (chars : ∀ c ∈ path, isPathChar c = true) :
    strip (path ++ text) = path ++ rstrip text := by
  have first : ∀ c, (path ++ text).head? = some c → isSpace c = false := by
    intro c head
    obtain ⟨d, rest, rfl⟩ := List.exists_cons_of_ne_nil present
    obtain rfl := Option.some.inj head
    exact path_char_solid d (chars d List.mem_cons_self)
  rw [strip, lstrip_of_first _ first]
  obtain ⟨before, last, rfl⟩ := (List.eq_nil_or_concat' path).resolve_left present
  rw [List.append_assoc, List.append_assoc]
  exact rstrip_append before text last (path_char_solid last (chars last (by simp)))

-- The path is read up to the first character that no path has.
theorem reread_split (path text : Text) (present : path ≠ []) (chars : ∀ c ∈ path, isPathChar c = true)
    (stop : ∀ c, text.head? = some c → isPathChar c = false) (blank : ∀ c ∈ text, isSpace c = true → c = ' ')
    (stripped : Clean (stripJunk text)) :
    reread result (strip (path ++ text)) flaky = some (finish (cutTestsuite path) (stripJunk text) result flaky) := by
  have stripped' : Clean (stripJunk (rstrip text)) := strip_junk_rstrip text blank ▸ stripped
  have cut : (path ++ rstrip text).takeWhile isPathChar = path ∧ (path ++ rstrip text).dropWhile isPathChar = rstrip text := by
    cases left : rstrip text with
    | nil => simpa using chars
    | cons c rest =>
        obtain ⟨dropped, shape⟩ := rstrip_starts text
        rw [left] at shape
        have other := stop c (by rw [← shape]; rfl)
        exact ⟨take_to_stop isPathChar path rest c chars other, drop_to_stop isPathChar path rest c chars other⟩
  have nonempty : path.isEmpty = false := by simpa using present
  rw [strip_path path text present chars, reread, cut.1, cut.2, nonempty, if_neg Bool.false_ne_true,
    to_result_finish]
  dsimp only
  rw [clean_of_stripped _ stripped', strip_junk_rstrip text blank]

variable (path variant : Text)

-- A path of path characters with a source suffix.
theorem finish_regular_iff (suffix : hasSuffix path = true) :
    finish (cutTestsuite path) (stripJunk variant) result flaky = ⟨path, variant, result, flaky⟩ ↔
      dropDot path = path ∧ cutTestsuite path = path ∧ stripJunk variant = variant ∧
        moveObject path variant = (path, variant) := by
  have short := strip_junk_short variant
  constructor
  · intro same
    obtain ⟨first, rest, shape, _, _, _, _, form⟩ | ⟨moves, _, form⟩ | ⟨_, _, form⟩ :=
      finish_cases result flaky (cutTestsuite path) (stripJunk variant)
    · obtain ⟨-, sameRest, -⟩ := TestResult.mk.inj (form.symm.trans same)
      have lengths := congrArg List.length shape
      simp only [List.length_append, List.length_cons, sameRest] at lengths
      omega
    · obtain ⟨named, kept, -⟩ := TestResult.mk.inj (form.symm.trans same)
      have dotted := drop_dot_short (cutTestsuite path)
      have cut : cutTestsuite path = path := cut_testsuite_same path (by rw [named] at dotted; exact dotted)
      rw [cut] at named moves
      rw [kept] at moves
      exact ⟨named, cut, kept, moves⟩
    · obtain ⟨empty, -⟩ := TestResult.mk.inj (form.symm.trans same)
      rw [← empty, has_suffix_nil] at suffix
      exact absurd suffix nofun
  · rintro ⟨undotted, cut, kept, stays⟩
    rw [cut, kept]
    simp [finish, stays, place, suffix, undotted]

-- A framework error: the path is the first word of the description.
theorem finish_pathless_iff (other : hasSuffix path = false) (stays : moveObject path variant = (path, variant)) :
    finish (cutTestsuite path) (stripJunk variant) result flaky = ⟨[], path ++ ' ' :: variant, result, flaky⟩ ↔
      cutTestsuite path = path ∧ stripJunk variant = variant := by
  have short := strip_junk_short variant
  have cutShort := cut_testsuite_le path
  constructor
  · intro same
    obtain ⟨first, rest, _, _, _, _, suffix, form⟩ | ⟨_, suffix, form⟩ | ⟨_, _, form⟩ :=
      finish_cases result flaky (cutTestsuite path) (stripJunk variant)
    · exact absurd (TestResult.mk.inj (form.symm.trans same)).1 (dropped_name_nonempty _ suffix)
    · exact absurd (TestResult.mk.inj (form.symm.trans same)).1 (dropped_name_nonempty _ suffix)
    · obtain ⟨-, described, -⟩ := TestResult.mk.inj (form.symm.trans same)
      have lengths := congrArg List.length described
      simp only [List.length_append, List.length_cons] at lengths
      exact ⟨cut_testsuite_same path (by omega), strip_junk_same variant (by omega)⟩
  · rintro ⟨cut, kept⟩
    rw [cut, kept]
    simp [finish, stays, place, other, dropDot]

-- When the cut leaves no path, what is read back never begins with a blank.
theorem reread_without_path : reread result (strip variant) flaky ≠ some ⟨[], ' ' :: variant, result, flaky⟩ := by
  intro same
  unfold reread at same
  split at same
  · exact absurd same nofun
  · next some =>
      have read := Option.some.inj same
      rw [to_result_finish] at read
      dsimp only at read
      obtain ⟨first, rest, _, _, _, _, suffix, form⟩ | ⟨_, suffix, form⟩ | ⟨_, _, form⟩ :=
        finish_cases result flaky (cutTestsuite ((strip variant).takeWhile isPathChar))
          (clean ((strip variant).dropWhile isPathChar))
      · exact absurd (TestResult.mk.inj (form.symm.trans read)).1 (dropped_name_nonempty _ suffix)
      · exact absurd (TestResult.mk.inj (form.symm.trans read)).1 (dropped_name_nonempty _ suffix)
      · obtain ⟨-, described, -⟩ := TestResult.mk.inj (form.symm.trans read)
        have parts := congrArg List.length (List.takeWhile_append_dropWhile (p := isPathChar) (l := strip variant))
        have lengths := congrArg List.length described
        have stripped : (strip variant).length ≤ variant.length :=
          Nat.le_trans (rstrip_starts _).length_le (List.dropWhile_sublist isSpace).length_le
        have cutShort := cut_testsuite_le ((strip variant).takeWhile isPathChar)
        have cleanShort := clean_short ((strip variant).dropWhile isPathChar)
        simp only [List.length_append, List.length_cons] at lengths parts
        have cut := cut_testsuite_same ((strip variant).takeWhile isPathChar) (by omega)
        cases start : (strip variant).takeWhile isPathChar with
        | nil => simp [start] at some
        | cons c rest =>
            rw [cut, start] at described
            obtain ⟨rfl, _⟩ := List.cons.inj described
            have char : isPathChar ' ' = true := List.mem_takeWhile_imp (start ▸ List.mem_cons_self)
            exact absurd char (by decide)

-- A moved name with a character that no path has: it is read as a path and the word
-- after it, which is moved again.
theorem object_in_word (first word : Text) (odd : ∀ c, word.head? = some c → isPathChar c = false) (present : word ≠ [])
    (object : objectSuffix <:+ first ++ word) : objectSuffix <:+ word := by
  obtain inside | inside := List.suffix_or_suffix_of_suffix object (List.suffix_append first word)
  · exact inside
  · obtain ⟨c, rest, rfl⟩ := List.exists_cons_of_ne_nil present
    have member : c ∈ objectSuffix := inside.subset List.mem_cons_self
    have chars : ∀ d ∈ objectSuffix, isPathChar d = true := by decide
    exact absurd ((odd c rfl).symm.trans (chars c member)) nofun

theorem move_object_moves (first rest : Text) (solid : ' ' ∉ first) (object : objectSuffix <:+ first) :
    moveObject path (first ++ ' ' :: rest) = (joinPath path first, rest) := by
  have before : ∀ c ∈ first, (c != ' ') = true := fun c member => by
    simpa using fun same : c = ' ' => solid (same ▸ member)
  have ends : objectSuffix.isSuffixOf first = true := List.isSuffixOf_iff_suffix.mpr object
  simp only [moveObject, drop_to_stop _ first rest ' ' before (by decide), take_to_stop _ first rest ' ' before (by decide),
    ends, if_true]

-- Joined to a cut path, a word is too short to make up for what was cut or stripped.
theorem join_path_whole (word first : Text) (present : path ≠ []) (odd : ∀ c, word.head? = some c → isPathChar c = false)
    (bound : first.length ≤ word.length) (whole : dropDot (joinPath (cutTestsuite path) first) = path ++ word) :
    cutTestsuite path = path ∧ path.getLast? = some '/' ∧ first.length = word.length ∧
      dropDot (path ++ word) = path ++ word := by
  have long := List.length_pos_of_ne_nil present
  have cutShort := cut_testsuite_le path
  have dotted := drop_dot_short (joinPath (cutTestsuite path) first)
  rw [whole, List.length_append] at dotted
  obtain join | ⟨join, ends⟩ | join := join_path_cases (cutTestsuite path) first
  · rw [join] at dotted
    omega
  · rw [join, List.length_append] at dotted
    have cut := cut_testsuite_same path (by omega)
    rw [join, cut] at whole
    rw [cut] at ends
    have undotted : dropDot (path ++ first) = path ++ first := by
      apply drop_dot_same
      rw [whole, List.length_append, List.length_append]
      omega
    have same : first = word := List.append_cancel_left (undotted.symm.trans whole)
    exact ⟨cut, ends.resolve_left present, by omega, same ▸ undotted⟩
  · rw [join, List.length_append, List.length_cons] at dotted
    have cut : cutTestsuite path = path := by
      apply Classical.byContradiction
      intro other
      have short := cut_testsuite_short path other
      omega
    rw [join, cut] at whole
    have undotted : dropDot (path ++ '/' :: first) = path ++ '/' :: first := by
      obtain same | shape := drop_dot_cases (path ++ '/' :: first)
      · exact same
      · have lengths := congrArg List.length shape
        rw [whole] at lengths
        simp only [List.length_append, List.length_cons] at lengths
        omega
    have same : '/' :: first = word := List.append_cancel_left (undotted.symm.trans whole)
    have slash := odd '/' (same ▸ rfl)
    exact absurd slash (by decide)

theorem join_path_after_slash (word : Text) (odd : ∀ c, word.head? = some c → isPathChar c = false)
    (ends : path.getLast? = some '/') : joinPath path word = path ++ word := by
  have relative : word.head? ≠ some '/' := fun head => absurd (odd '/' head) (by decide)
  rw [joinPath, if_neg relative, if_pos (Or.inr ends)]

theorem finish_odd_iff (word : Text) (present : path ≠ []) (wordPresent : word ≠ [])
    (odd : ∀ c, word.head? = some c → isPathChar c = false) (solid : ' ' ∉ word) (object : objectSuffix <:+ path ++ word) :
    finish (cutTestsuite path) (stripJunk (word ++ if variant.isEmpty then [] else ' ' :: variant)) result flaky =
        ⟨path ++ word, variant, result, flaky⟩ ↔
      dropDot (path ++ word) = path ++ word ∧ cutTestsuite path = path ∧ path.getLast? = some '/' ∧ variant ≠ [] ∧
        stripJunk (word ++ ' ' :: variant) = word ++ ' ' :: variant := by
  have cutShort := cut_testsuite_le path
  have wordLong := List.length_pos_of_ne_nil wordPresent
  constructor
  · intro same
    obtain ⟨first, rest, shape, _, _, _, _, form⟩ | ⟨_, _, form⟩ | ⟨_, _, form⟩ := finish_cases result flaky
      (cutTestsuite path) (stripJunk (word ++ if variant.isEmpty then [] else ' ' :: variant))
    · obtain ⟨named, sameRest, -⟩ := TestResult.mk.inj (form.symm.trans same)
      cases variant with
      | nil =>
          obtain ⟨front, back, whole⟩ := strip_junk_infix word
          have inside : ' ' ∈ stripJunk word := by
            simp only [List.isEmpty_nil, if_true, List.append_nil] at shape
            simp [shape]
          rw [whole] at solid
          simp [inside] at solid
      | cons c others =>
          simp only [List.isEmpty_cons, Bool.false_eq_true, if_false] at shape
          rw [sameRest] at shape
          have short := strip_junk_short (word ++ ' ' :: c :: others)
          rw [shape] at short
          simp only [List.length_append, List.length_cons] at short
          obtain ⟨cut, ends, long, undotted⟩ := join_path_whole path word first present odd (by omega) named
          refine ⟨undotted, cut, ends, nofun, strip_junk_same _ ?_⟩
          rw [shape]
          simp only [List.length_append, List.length_cons]
          omega
    · obtain ⟨named, -⟩ := TestResult.mk.inj (form.symm.trans same)
      have dotted := drop_dot_short (cutTestsuite path)
      rw [named, List.length_append] at dotted
      omega
    · obtain ⟨empty, -⟩ := TestResult.mk.inj (form.symm.trans same)
      exact absurd (List.append_eq_nil_iff.mp empty.symm).1 present
  · rintro ⟨undotted, cut, ends, described, kept⟩
    have nonempty : variant.isEmpty = false := by simpa using described
    have moves := move_object_moves path word variant solid (object_in_word path word odd wordPresent object)
    obtain ⟨front, shape⟩ := object
    have suffix : hasSuffix (path ++ word) = true := shape ▸ has_suffix_object front
    simp only [nonempty, Bool.false_eq_true, if_false, kept, cut]
    simp [finish, moves, place, join_path_after_slash path word odd ends, suffix, undotted]

end Reading

end ToolchainUtils.DejaGnu
