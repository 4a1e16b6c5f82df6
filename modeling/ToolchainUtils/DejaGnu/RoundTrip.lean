import ToolchainUtils.DejaGnu.SettledResult

set_option autoImplicit false

namespace ToolchainUtils.DejaGnu

open PyString

-- A name with a source suffix is read again as it is. A name that was moved from the
-- description may have a word that no path has, and is then moved again.
def SettledName (name variant : Text) : Prop :=
  let path := name.takeWhile isPathChar
  let word := name.dropWhile isPathChar
  dropDot name = name ∧ cutTestsuite path = path ∧
    if word = [] then stripJunk variant = variant ∧ moveObject name variant = (name, variant)
    else path.getLast? = some '/' ∧ variant ≠ [] ∧ stripJunk (word ++ ' ' :: variant) = word ++ ' ' :: variant

-- For the path after 'testsuite' and the cleaned description of a line.
def Settled (path variant : Text) : Prop :=
  let (name, rest) := moveObject path variant
  '#' ∉ name ∧ '#' ∉ rest ∧
    if hasSuffix name then SettledName (dropDot name) rest
    else name ≠ [] ∧ cutTestsuite name = name ∧ stripJunk rest = rest

instance decidableSettledName (name variant : Text) : Decidable (SettledName name variant) := by
  unfold SettledName
  infer_instance

instance decidableSettled (path variant : Text) : Decidable (Settled path variant) := by
  unfold Settled
  infer_instance

def Settles (line : Text) : Prop :=
  ∀ attributes ∈ splitAttributes line, ∀ fields ∈ lineFields (strip attributes.2),
    fields.result ∈ Manifest.suppressibleResults → Settled (cutTestsuite fields.path) (clean fields.description)

instance decidableSettles (line : Text) : Decidable (Settles line) := by
  unfold Settles
  infer_instance

def RoundTrips (line : Text) : Prop :=
  ∀ test, fromLine line = some test → test.result ∈ Manifest.suppressibleResults →
    (Manifest.fromFile test.str).results = [test]

section Characters

theorem line_fields_spec (line : Text) (fields : Fields) (matched : lineFields line = some fields) :
    (fields.result ≠ [] ∧ ∀ c ∈ fields.result, c.isUpper = true) ∧
      (fields.path ≠ [] ∧ ∀ c ∈ fields.path, isPathChar c = true) ∧
        '\n' ∉ fields.description ∧ ∀ c, c ∈ fields.path ∨ c ∈ fields.description → c ∈ line := by
  unfold lineFields at matched
  dsimp only at matched
  split at matched
  · next rest shape =>
      split at matched
      · exact absurd matched nofun
      · next present =>
          simp only [Bool.or_eq_true, List.isEmpty_iff, not_or] at present
          obtain rfl := Option.some.inj matched
          have inside : ∀ c ∈ lstrip rest, c ∈ line := by
            intro c member
            have after := (List.dropWhile_sublist isSpace).subset member
            have dropped : c ∈ line.dropWhile Char.isUpper := shape ▸ List.mem_cons_of_mem _ after
            exact (List.dropWhile_sublist Char.isUpper).subset dropped
          refine ⟨⟨present.1.1, fun c member => List.mem_takeWhile_imp member⟩,
            ⟨present.2, fun c member => List.mem_takeWhile_imp member⟩, ?_, ?_⟩
          · intro member
            exact absurd (List.mem_takeWhile_imp member) (by decide)
          · rintro c (member | member)
            · exact inside c ((List.takeWhile_sublist isPathChar).subset member)
            · exact inside c ((List.dropWhile_sublist isPathChar).subset ((List.takeWhile_sublist _).subset member))
  · exact absurd matched nofun

theorem remove_includes_mem (text : Text) (skipping : Bool) (c : Char) (member : c ∈ removeIncludes skipping text) :
    c ∈ text := by
  induction text generalizing skipping with
  | nil => exact member
  | cons d rest ih =>
      simp only [removeIncludes] at member
      split at member
      · split at member
        · exact (List.mem_cons.mp member).elim (fun same => same ▸ List.mem_cons_self)
            fun later => List.mem_cons_of_mem _ (ih false later)
        · exact List.mem_cons_of_mem _ (ih true member)
      · split at member
        · exact List.mem_cons_of_mem _ (ih true member)
        · exact (List.mem_cons.mp member).elim (fun same => same ▸ List.mem_cons_self)
            fun later => List.mem_cons_of_mem _ (ih false later)

theorem compress_mem (text : Text) (inSpace : Bool) (c : Char) (member : c ∈ compress inSpace text) : c = ' ' ∨ c ∈ text := by
  induction text generalizing inSpace with
  | nil => exact Or.inr member
  | cons d rest ih =>
      have later : ∀ inSpace, c ∈ compress inSpace rest → c = ' ' ∨ c ∈ d :: rest := fun inSpace found =>
        (ih inSpace found).imp_right (List.mem_cons_of_mem _)
      simp only [compress] at member
      split at member
      · split at member
        · exact later true member
        · exact (List.mem_cons.mp member).elim Or.inl (later true)
      · exact (List.mem_cons.mp member).elim (fun same => Or.inr (same ▸ List.mem_cons_self)) (later false)

theorem clean_mem (description : Text) (c : Char) (member : c ∈ clean description) : c = ' ' ∨ c ∈ description := by
  obtain blank | kept := compress_mem _ false c member
  · exact Or.inl blank
  · obtain ⟨front, back, shape⟩ := strip_junk_infix description
    have stripped := remove_includes_mem _ false c kept
    rw [shape]
    exact Or.inr (by simp [stripped])

theorem join_path_mem (path part : Text) (c : Char) (member : c ∈ joinPath path part) : c = '/' ∨ c ∈ path ∨ c ∈ part := by
  obtain same | ⟨same, _⟩ | same := join_path_cases path part
  · exact Or.inr (Or.inr (same ▸ member))
  · rw [same, List.mem_append] at member
    exact Or.inr member
  · rw [same, List.mem_append, List.mem_cons] at member
    tauto

theorem drop_dot_mem (path : Text) (c : Char) (member : c ∈ dropDot path) : c ∈ path := by
  obtain same | shape := drop_dot_cases path
  · exact same ▸ member
  · rw [shape]
    exact List.mem_cons_of_mem _ (List.mem_cons_of_mem _ member)

theorem finish_mem (path variant result : Text) (flaky : Bool) (c : Char)
    (member : c ∈ (finish path variant result flaky).name ∨ c ∈ (finish path variant result flaky).variant) :
    c = '/' ∨ c = ' ' ∨ c ∈ path ∨ c ∈ variant := by
  obtain ⟨first, rest, shape, _, _, _, _, form⟩ | ⟨_, _, form⟩ | ⟨_, _, form⟩ := finish_cases result flaky path variant
  · rw [form] at member
    obtain named | described := member
    · have joined := join_path_mem path first c (drop_dot_mem _ c named)
      simp only [shape, List.mem_append, List.mem_cons]
      tauto
    · simp only [shape, List.mem_append, List.mem_cons]
      tauto
  · rw [form] at member
    have named := drop_dot_mem path c
    tauto
  · rw [form] at member
    simp only [List.not_mem_nil, false_or, List.mem_append, List.mem_cons] at member
    tauto

theorem split_attributes_mem (line body : Text) (flaky : Bool) (split : splitAttributes line = some (flaky, body)) :
    (∀ c ∈ body, c ∈ line) ∧ (flaky = false → '|' ∉ body) := by
  unfold splitAttributes at split
  split at split
  · next none =>
      obtain ⟨rfl, rfl⟩ := Prod.mk.inj (Option.some.inj split)
      refine ⟨fun c member => member, fun _ member => ?_⟩
      have bar := List.dropWhile_eq_nil_iff.mp none '|' member
      exact absurd bar (by decide)
  · next c rest shape =>
      split at split
      · obtain ⟨rfl, rfl⟩ := Prod.mk.inj (Option.some.inj split)
        refine ⟨fun d member => ?_, nofun⟩
        have after : d ∈ line.dropWhile fun c => c != '|' := shape ▸ List.mem_cons_of_mem _ (strip_member rest d member)
        exact (List.dropWhile_sublist _).subset after
      · exact absurd split nofun

theorem from_line_cases (line : Text) (test : TestResult) :
    fromLine line = some test ↔ ∃ flaky body fields, splitAttributes line = some (flaky, body) ∧
      lineFields (strip body) = some fields ∧
        finish (cutTestsuite fields.path) (clean fields.description) fields.result flaky = test := by
  unfold fromLine
  cases attributes : splitAttributes line with
  | none => simp
  | some pair =>
      obtain ⟨flaky, body⟩ := pair
      simp only [Option.map_eq_some_iff, to_result_finish]
      constructor
      · rintro ⟨fields, matched, same⟩
        exact ⟨flaky, body, fields, rfl, matched, same⟩
      · rintro ⟨_, _, fields, ⟨⟩, matched, same⟩
        exact ⟨fields, matched, same⟩

-- Nothing of a comment gets into a result.
theorem from_line_mem (line : Text) (test : TestResult) (parsed : fromLine line = some test) (c : Char)
    (member : c ∈ test.name ∨ c ∈ test.variant) : c = '/' ∨ c = ' ' ∨ c ∈ line := by
  obtain ⟨flaky, body, fields, attributes, matched, rfl⟩ := (from_line_cases line test).mp parsed
  obtain ⟨_, _, _, inside⟩ := line_fields_spec _ fields matched
  have toLine := (split_attributes_mem line body flaky attributes).1 c
  have stripped := strip_member body c
  have cut := (cut_testsuite_suffix fields.path).subset
  have cleaned := clean_mem fields.description c
  have read := inside c
  obtain slash | blank | path | described := finish_mem _ _ _ _ c member
  · exact Or.inl slash
  · exact Or.inr (Or.inl blank)
  · exact Or.inr (Or.inr (toLine (stripped (read (Or.inl (cut path))))))
  · obtain blank | described := cleaned described
    · exact Or.inr (Or.inl blank)
    · exact Or.inr (Or.inr (toLine (stripped (read (Or.inr described)))))

theorem read_entry_uncommented (line : Text) (test : TestResult) (read : Manifest.readEntry line = some test) :
    '#' ∉ test.name ∧ '#' ∉ test.variant := by
  have absent : '#' ∉ strip (line.takeWhile fun c => c != '#') := fun member =>
    absurd (List.mem_takeWhile_imp (strip_member _ '#' member)) (by decide)
  unfold Manifest.readEntry at read
  dsimp only at read
  split at read
  · exact absurd read nofun
  · have inside := from_line_mem _ test read '#'
    constructor
    · intro member
      obtain slash | blank | found := inside (Or.inl member)
      · exact absurd slash (by decide)
      · exact absurd blank (by decide)
      · exact absent found
    · intro member
      obtain slash | blank | found := inside (Or.inr member)
      · exact absurd slash (by decide)
      · exact absurd blank (by decide)
      · exact absent found

end Characters

section ReadBack

variable (result : Text) (flaky : Bool)

-- What follows the name: a blank and the variant, if there is one.
def tail (variant : Text) : Text := if variant.isEmpty then [] else ' ' :: variant

theorem tail_stop (variant : Text) (c : Char) (head : (tail variant).head? = some c) : isPathChar c = false := by
  unfold tail at head
  split at head
  · exact absurd head nofun
  · obtain rfl := Option.some.inj head
    decide

theorem strip_junk_tail (variant : Text) : stripJunk (tail variant) = stripJunk variant := by
  unfold tail
  split
  · next empty => rw [List.isEmpty_iff.mp empty]
  · exact strip_junk_front [' '] variant (by decide)

theorem tail_blank (variant : Text) (clean : Clean variant) : ∀ c ∈ tail variant, isSpace c = true → c = ' ' := by
  intro c member space
  unfold tail at member
  split at member
  · exact absurd member nofun
  · obtain rfl | later := List.mem_cons.mp member
    · rfl
    · exact clean_spaces variant clean c later space

theorem reread_regular_iff (name variant : Text) (chars : ∀ c ∈ name, isPathChar c = true) (suffix : hasSuffix name = true)
    (clean : Clean variant) :
    reread result (strip (name ++ tail variant)) flaky = some ⟨name, variant, result, flaky⟩ ↔ SettledName name variant := by
  have present : name ≠ [] := by
    rintro rfl
    exact absurd suffix nofun
  have whole : name.takeWhile isPathChar = name := takeWhile_all isPathChar name chars
  have nothing : name.dropWhile isPathChar = [] := List.dropWhile_eq_nil_iff.mpr chars
  rw [reread_split result flaky name (tail variant) present chars (tail_stop variant) (tail_blank variant clean)
    (strip_junk_tail variant ▸ strip_junk_clean variant clean), strip_junk_tail, Option.some.injEq,
    finish_regular_iff result flaky name variant suffix]
  simp only [SettledName, whole, nothing, if_true]

theorem reread_odd_iff (name variant : Text) (odd : name.dropWhile isPathChar ≠ [])
    (solid : ∀ c ∈ name, isSpace c = false) (object : objectSuffix <:+ name)
    (clean : Clean (name.dropWhile isPathChar ++ tail variant)) :
    reread result (strip (name ++ tail variant)) flaky = some ⟨name, variant, result, flaky⟩ ↔ SettledName name variant := by
  have parts := List.takeWhile_append_dropWhile (p := isPathChar) (l := name)
  have chars : ∀ c ∈ name.takeWhile isPathChar, isPathChar c = true := fun c member => List.mem_takeWhile_imp member
  have stop : ∀ c, (name.dropWhile isPathChar).head? = some c → isPathChar c = false := by
    intro c head
    have first := List.head?_dropWhile_not isPathChar name
    rw [head] at first
    simpa using first
  generalize name.takeWhile isPathChar = path at parts chars
  generalize wordEq : name.dropWhile isPathChar = word at parts odd clean stop
  subst parts
  have cut : (path ++ word).takeWhile isPathChar = path := by
    obtain ⟨c, rest, rfl⟩ := List.exists_cons_of_ne_nil odd
    exact take_to_stop isPathChar path rest c chars (stop c rfl)
  have wordSolid : ∀ c ∈ word, isSpace c = false := fun c member => solid c (List.mem_append_right _ member)
  have noBlank : ' ' ∉ word := fun member => absurd (wordSolid ' ' member) (by decide)
  cases path with
  | nil =>
      -- No path at all is read.
      have nothing : reread result (strip (word ++ tail variant)) flaky = none := by
        obtain ⟨c, rest, rfl⟩ := List.exists_cons_of_ne_nil odd
        have first : isSpace c = false := wordSolid c List.mem_cons_self
        have stripped : ∃ later, strip (c :: rest ++ tail variant) = c :: later := by
          refine ⟨rstrip (rest ++ tail variant), ?_⟩
          rw [strip, List.cons_append, lstrip_solid c _ first]
          exact rstrip_append [] (rest ++ tail variant) c first
        obtain ⟨later, same⟩ := stripped
        have unread : (c :: later).takeWhile isPathChar = [] :=
          List.takeWhile_cons_of_neg (by rw [stop c rfl]; exact Bool.false_ne_true)
        rw [reread, same, unread]
        rfl
      rw [List.nil_append, nothing]
      constructor
      · intro same
        cases same
      · rintro ⟨_, _, settled⟩
        rw [List.nil_append] at cut wordEq
        rw [wordEq, if_neg odd, cut] at settled
        cases settled.1
  | cons d others =>
      have present : d :: others ≠ [] := List.cons_ne_nil d others
      have textStop : ∀ c, (word ++ tail variant).head? = some c → isPathChar c = false := by
        obtain ⟨e, rest, rfl⟩ := List.exists_cons_of_ne_nil odd
        exact stop
      rw [List.append_assoc, reread_split result flaky (d :: others) (word ++ tail variant) present chars textStop
        (clean_spaces _ clean) (strip_junk_clean _ clean), Option.some.injEq, tail,
        finish_odd_iff result flaky (d :: others) variant word present odd stop noBlank object]
      simp only [SettledName, cut, wordEq, if_neg odd]

theorem skip_path_chars (first rest : Text) (chars : ∀ c ∈ first, isPathChar c = true) :
    (first ++ rest).dropWhile isPathChar = rest.dropWhile isPathChar := List.dropWhile_append_of_pos chars

theorem drop_dot_word (name : Text) : (dropDot name).dropWhile isPathChar = name.dropWhile isPathChar := by
  obtain same | shape := drop_dot_cases name
  · rw [same]
  · rw [shape]
    exact (skip_path_chars ['.', '/'] _ (by decide)).symm

-- The characters of a moved name that no path has are the end of the moved word.
theorem moved_word (path first : Text) (chars : ∀ c ∈ path, isPathChar c = true) :
    (dropDot (joinPath path first)).dropWhile isPathChar = first.dropWhile isPathChar := by
  rw [drop_dot_word]
  obtain same | ⟨same, _⟩ | same := join_path_cases path first
  · rw [same]
  · rw [same, skip_path_chars path first chars]
  · rw [same, skip_path_chars path _ chars]
    exact skip_path_chars ['/'] first (by decide)

-- A moved name and what follows it in the description.
theorem reread_moved_iff (path first variant : Text) (chars : ∀ c ∈ path, isPathChar c = true)
    (clean : Clean (first ++ ' ' :: variant)) (solid : ' ' ∉ first) (object : objectSuffix <:+ first) :
    reread result (strip (dropDot (joinPath path first) ++ tail variant)) flaky =
        some ⟨dropDot (joinPath path first), variant, result, flaky⟩ ↔ SettledName (dropDot (joinPath path first)) variant := by
  have suffix : hasSuffix (dropDot (joinPath path first)) = true := by
    obtain ⟨front, same⟩ := object.trans (join_path_suffix path first)
    rw [has_suffix_drop_dot, ← same]
    exact has_suffix_object front
  have word := moved_word path first chars
  have variantClean : Clean variant := (clean_right first _ clean).2.2
  cases odd : first.dropWhile isPathChar with
  | nil =>
      rw [odd] at word
      exact reread_regular_iff result flaky _ variant (List.dropWhile_eq_nil_iff.mp word) suffix variantClean
  | cons c rest =>
      have parts := List.takeWhile_append_dropWhile (p := isPathChar) (l := first)
      have stop : ∀ d, (first.dropWhile isPathChar).head? = some d → isPathChar d = false := by
        intro d head
        have before := List.head?_dropWhile_not isPathChar first
        rw [head] at before
        simpa using before
      have present : first.dropWhile isPathChar ≠ [] := odd ▸ List.cons_ne_nil c rest
      have inWord : objectSuffix <:+ first.dropWhile isPathChar :=
        object_in_word (first.takeWhile isPathChar) _ stop present (parts.symm ▸ object)
      have ends : first.dropWhile isPathChar <:+ dropDot (joinPath path first) := word ▸ List.dropWhile_suffix isPathChar
      have firstSolid : ∀ d ∈ first, isSpace d = false := by
        intro d member
        apply Bool.eq_false_iff.mpr
        intro space
        obtain rfl := clean_spaces _ clean d (List.mem_append_left _ member) space
        exact solid member
      apply reread_odd_iff result flaky
      · exact word ▸ present
      · intro d member
        obtain rfl | found | found := join_path_mem path first d (drop_dot_mem _ d member)
        · decide
        · exact path_char_solid d (chars d found)
        · exact firstSolid d found
      · exact inWord.trans ends
      · rw [word]
        have whole : Clean (first.dropWhile isPathChar ++ ' ' :: variant) := by
          apply clean_right (first.takeWhile isPathChar)
          rw [← List.append_assoc, parts]
          exact clean
        unfold tail
        split
        · rw [List.append_nil]
          exact clean_left _ (' ' :: variant) whole
        · exact whole

theorem drop_dot_rest (path : Text) (c : Char) (member : c ∈ path) : c = '.' ∨ c = '/' ∨ c ∈ dropDot path := by
  obtain same | shape := drop_dot_cases path
  · exact Or.inr (Or.inr (same.symm ▸ member))
  · rw [shape, List.mem_cons, List.mem_cons] at member
    exact member

theorem no_comment_parts (name variant : Text) (noComment : '#' ∉ dropDot name ++ tail variant) :
    '#' ∉ name ∧ '#' ∉ variant := by
  rw [List.mem_append, not_or] at noComment
  constructor
  · intro member
    obtain dot | slash | found := drop_dot_rest name '#' member
    · exact absurd dot (by decide)
    · exact absurd slash (by decide)
    · exact noComment.1 found
  · intro member
    apply noComment.2
    unfold tail
    split
    · next empty =>
        rw [List.isEmpty_iff.mp empty] at member
        exact absurd member nofun
    · exact List.mem_cons_of_mem _ member

theorem reread_finished_iff (path variant : Text) (chars : ∀ c ∈ path, isPathChar c = true) (clean : Clean variant)
    (noComment : '#' ∉ (finish path variant result flaky).rest) :
    reread result (strip (finish path variant result flaky).rest) flaky = some (finish path variant result flaky) ↔
      Settled path variant := by
  obtain ⟨first, rest, shape, solid, object, moves, suffix, form⟩ | ⟨stays, suffix, form⟩ | ⟨stays, suffix, form⟩ :=
    finish_cases result flaky path variant
  · rw [form] at noComment ⊢
    obtain ⟨noName, noRest⟩ := no_comment_parts (joinPath path first) rest noComment
    have readBack := reread_moved_iff result flaky path first rest chars (shape ▸ clean) solid object
    simp only [Settled, moves, suffix, if_true, noName, noRest, not_false_eq_true, true_and]
    exact readBack
  · rw [form] at noComment ⊢
    obtain ⟨noName, noRest⟩ := no_comment_parts path variant noComment
    have readBack := reread_regular_iff result flaky (dropDot path) variant
      (fun c member => chars c (drop_dot_mem path c member)) ((has_suffix_drop_dot path).trans suffix) clean
    simp only [Settled, stays, suffix, if_true, noName, noRest, not_false_eq_true, true_and]
    exact readBack
  · rw [form] at noComment ⊢
    have text : (⟨[], path ++ ' ' :: variant, result, flaky⟩ : TestResult).rest = ' ' :: (path ++ ' ' :: variant) := by
      simp [TestResult.rest]
    rw [text] at noComment ⊢
    simp only [List.mem_cons, List.mem_append, not_or] at noComment
    obtain ⟨_, noName, _, noRest⟩ := noComment
    simp only [Settled, stays, suffix, Bool.false_eq_true, if_false, noName, noRest, not_false_eq_true, true_and, strip_blank]
    cases path with
    | nil =>
        rw [List.nil_append, strip_blank]
        constructor
        · exact fun same => absurd same (reread_without_path result flaky variant)
        · exact fun settled => absurd rfl settled.1
    | cons c others =>
        have present : c :: others ≠ [] := List.cons_ne_nil c others
        have stop : ∀ d, (' ' :: variant).head? = some d → isPathChar d = false := by
          intro d head
          obtain rfl := Option.some.inj head
          decide
        have blank : ∀ d ∈ ' ' :: variant, isSpace d = true → d = ' ' := by
          intro d member space
          obtain rfl | later := List.mem_cons.mp member
          · rfl
          · exact clean_spaces variant clean d later space
        have junk : stripJunk (' ' :: variant) = stripJunk variant := strip_junk_front [' '] variant (by decide)
        rw [reread_split result flaky (c :: others) (' ' :: variant) present chars stop blank
          (junk ▸ strip_junk_clean variant clean), junk, Option.some.injEq,
          finish_pathless_iff result flaky (c :: others) variant suffix stays]
        exact (and_iff_right present).symm

end ReadBack

theorem rest_mem (test : TestResult) (c : Char) (member : c ∈ test.rest) : c = ' ' ∨ c ∈ test.name ∨ c ∈ test.variant := by
  rw [TestResult.rest, List.mem_append] at member
  obtain named | described := member
  · exact Or.inr (Or.inl named)
  · split at described
    · cases described
    · exact (List.mem_cons.mp described).imp_right Or.inr

theorem finish_marks (path variant result : Text) (flaky : Bool) :
    (finish path variant result flaky).result = result ∧ (finish path variant result flaky).flaky = flaky := by
  obtain ⟨_, _, _, _, _, _, _, form⟩ | ⟨_, _, form⟩ | ⟨_, _, form⟩ := finish_cases result flaky path variant
  · exact form ▸ ⟨rfl, rfl⟩
  · exact form ▸ ⟨rfl, rfl⟩
  · exact form ▸ ⟨rfl, rfl⟩

theorem settled_uncommented (path variant result : Text) (flaky : Bool) (settled : Settled path variant) :
    '#' ∉ (finish path variant result flaky).rest := by
  intro member
  obtain blank | inside := rest_mem _ '#' member
  · exact absurd blank (by decide)
  · obtain ⟨first, rest, _, _, _, moves, _, form⟩ | ⟨stays, _, form⟩ | ⟨stays, _, form⟩ := finish_cases result flaky path variant
    · simp only [Settled, moves] at settled
      rw [form] at inside
      exact inside.elim (fun named => settled.1 (drop_dot_mem _ _ named)) settled.2.1
    · simp only [Settled, stays] at settled
      rw [form] at inside
      exact inside.elim (fun named => settled.1 (drop_dot_mem _ _ named)) settled.2.1
    · simp only [Settled, stays] at settled
      rw [form] at inside
      simp [settled.1, settled.2.1] at inside

-- The line of a result is read back if and only if it is settled.
theorem reads_back_iff (fields : Fields) (flaky : Bool) (line : Text) (matched : lineFields line = some fields)
    (bar : flaky = false → '|' ∉ line) :
    Manifest.readEntry (fields.toResult flaky).str = some (fields.toResult flaky) ↔
      Settled (cutTestsuite fields.path) (clean fields.description) := by
  obtain ⟨⟨word, upper⟩, ⟨_, chars⟩, oneLine, inside⟩ := line_fields_spec line fields matched
  have pathChars : ∀ c ∈ cutTestsuite fields.path, isPathChar c = true := fun c member =>
    chars c ((cut_testsuite_suffix fields.path).subset member)
  have finished := reread_finished_iff fields.result flaky (cutTestsuite fields.path) (clean fields.description) pathChars
    (clean_is_clean fields.description)
  have uncommented := settled_uncommented (cutTestsuite fields.path) (clean fields.description) fields.result flaky
  obtain ⟨sameResult, sameFlaky⟩ := finish_marks (cutTestsuite fields.path) (clean fields.description) fields.result flaky
  have source : ∀ c ∈ (finish (cutTestsuite fields.path) (clean fields.description) fields.result flaky).rest,
      c = '/' ∨ c = ' ' ∨ c ∈ fields.path ∨ c ∈ fields.description := by
    intro c member
    obtain blank | inResult := rest_mem _ c member
    · exact Or.inr (Or.inl blank)
    · obtain slash | blank | path | described := finish_mem _ _ _ _ c inResult
      · exact Or.inl slash
      · exact Or.inr (Or.inl blank)
      · exact Or.inr (Or.inr (Or.inl ((cut_testsuite_suffix fields.path).subset path)))
      · exact Or.inr ((clean_mem fields.description c described).imp_right Or.inr)
  rw [to_result_finish]
  generalize finish (cutTestsuite fields.path) (clean fields.description) fields.result flaky = test at *
  by_cases comment : '#' ∈ test.rest
  · constructor
    · intro read
      have absent := read_entry_uncommented _ test read
      obtain blank | inResult := rest_mem test '#' comment
      · exact absurd blank (by decide)
      · exact absurd inResult (not_or.mpr absent)
    · exact fun settled => absurd comment (uncommented settled)
  · have noNewline : '\n' ∉ test.rest := by
      intro member
      obtain slash | blank | path | described := source '\n' member
      · exact absurd slash (by decide)
      · exact absurd blank (by decide)
      · exact absurd (chars '\n' path) (by decide)
      · exact oneLine described
    have noBar : test.flaky = false → '|' ∉ test.rest := by
      intro unmarked member
      obtain slash | blank | fromFields := source '|' member
      · exact absurd slash (by decide)
      · exact absurd blank (by decide)
      · exact bar (sameFlaky ▸ unmarked) (inside '|' fromFields)
    rw [read_printed test (sameResult ▸ word) (sameResult ▸ upper) comment noNewline noBar, sameResult, sameFlaky]
    exact finished comment

theorem readlines_one (line : Text) (oneLine : '\n' ∉ line) (present : line ≠ []) : readlines line = [line] := by
  induction line with
  | nil => exact absurd rfl present
  | cons c rest ih =>
      have other : (c == '\n') = false := by simpa using fun same : c = '\n' => oneLine (same ▸ List.mem_cons_self)
      simp only [readlines, other, Bool.false_eq_true, if_false]
      cases rest with
      | nil => rfl
      | cons d later => rw [ih (fun member => oneLine (List.mem_cons_of_mem _ member)) (List.cons_ne_nil d later)]

theorem str_no_parameter (test : TestResult) (word : test.result ≠ []) (upper : ∀ c ∈ test.result, c.isUpper = true)
    (text : Text) : Manifest.parameterMark.isPrefixOf (test.str ++ text) = false := by
  obtain ⟨letter, others, shape⟩ := List.exists_cons_of_ne_nil word
  have different : ('#' == letter) = false := by
    apply Bool.eq_false_iff.mpr
    intro same
    have isUpper := upper letter (by simp [shape])
    rw [← beq_iff_eq.mp same] at isUpper
    exact absurd isUpper (by decide)
  rw [str_shape]
  cases test.flaky with
  | true => simp [Manifest.parameterMark, List.isPrefixOf]
  | false => simp [Manifest.parameterMark, shape, List.isPrefixOf, different]

theorem str_one_line (test : TestResult) (word : ∀ c ∈ test.result, c.isUpper = true) (oneLine : '\n' ∉ test.rest) :
    '\n' ∉ test.str := by
  have noWord : '\n' ∉ test.result := fun member => absurd (word '\n' member) (by decide)
  rw [str_shape]
  cases test.flaky <;> simp [noWord, oneLine]

-- Of every result of a line: what is needed to read its text again.
theorem parsed_text (line : Text) (test : TestResult) (parsed : fromLine line = some test) :
    test.result ≠ [] ∧ (∀ c ∈ test.result, c.isUpper = true) ∧ '\n' ∉ test.rest := by
  obtain ⟨flaky, body, fields, attributes, matched, rfl⟩ := (from_line_cases line test).mp parsed
  obtain ⟨⟨word, upper⟩, ⟨_, chars⟩, oneLine, _⟩ := line_fields_spec _ fields matched
  obtain ⟨sameResult, _⟩ := finish_marks (cutTestsuite fields.path) (clean fields.description) fields.result flaky
  refine ⟨sameResult ▸ word, sameResult ▸ upper, fun member => ?_⟩
  obtain blank | inResult := rest_mem _ '\n' member
  · exact absurd blank (by decide)
  · obtain slash | blank | path | described := finish_mem _ _ _ _ '\n' inResult
    · exact absurd slash (by decide)
    · exact absurd blank (by decide)
    · exact absurd (chars '\n' ((cut_testsuite_suffix fields.path).subset path)) (by decide)
    · obtain blank | described := clean_mem fields.description '\n' described
      · exact absurd blank (by decide)
      · exact oneLine described

theorem parsed_reads_back_iff (line : Text) (test : TestResult) (flaky : Bool) (body : Text) (fields : Fields)
    (attributes : splitAttributes line = some (flaky, body)) (matched : lineFields (strip body) = some fields)
    (same : fields.toResult flaky = test) :
    Manifest.readEntry test.str = some test ↔ Settled (cutTestsuite fields.path) (clean fields.description) := by
  subst same
  exact reads_back_iff fields flaky (strip body) matched fun unmarked member =>
    (split_attributes_mem line body flaky attributes).2 unmarked (strip_member body '|' member)

theorem manifest_of_str (test : TestResult) (line : Text) (parsed : fromLine line = some test) :
    (Manifest.fromFile test.str).results = [test] ↔ Manifest.readEntry test.str = some test := by
  obtain ⟨word, upper, oneLine⟩ := parsed_text line test parsed
  have present : test.str ≠ [] := by
    rw [str_shape]
    exact fun empty => absurd (List.append_eq_nil_iff.mp empty).2 (by simp)
  have noParameter : Manifest.parameterMark.isPrefixOf test.str = false := by
    have withNothing := str_no_parameter test word upper []
    rwa [List.append_nil] at withNothing
  have results : (Manifest.fromFile test.str).results = (Manifest.readEntry test.str).toList := by
    simp [Manifest.fromFile, readlines_one test.str (str_one_line test upper oneLine) present, Manifest.readLine, noParameter]
  rw [results]
  cases Manifest.readEntry test.str <;> simp

theorem round_trips_iff (line : Text) : RoundTrips line ↔ Settles line := by
  constructor
  · rintro trips ⟨flaky, body⟩ attributes fields matched listed
    have parsed : fromLine line = some (fields.toResult flaky) :=
      (from_line_cases line _).mpr ⟨flaky, body, fields, attributes, matched, rfl⟩
    have marks := finish_marks (cutTestsuite fields.path) (clean fields.description) fields.result flaky
    have back := trips _ parsed (by rw [to_result_finish, marks.1]; exact listed)
    exact (parsed_reads_back_iff line _ flaky body fields attributes matched rfl).mp ((manifest_of_str _ line parsed).mp back)
  · intro settles test parsed listed
    obtain ⟨flaky, body, fields, attributes, matched, same⟩ := (from_line_cases line test).mp parsed
    have marks := finish_marks (cutTestsuite fields.path) (clean fields.description) fields.result flaky
    have settled := settles (flaky, body) attributes fields matched (by rw [← marks.1, same]; exact listed)
    exact (manifest_of_str test line parsed).mpr
      ((parsed_reads_back_iff line test flaky body fields attributes matched same).mpr settled)

end ToolchainUtils.DejaGnu
