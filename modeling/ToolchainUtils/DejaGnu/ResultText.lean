import ToolchainUtils.DejaGnu.TestResult

set_option autoImplicit false

namespace ToolchainUtils.DejaGnu

open PyString

-- A description that is stripped of include paths and has single blanks only.
def Clean : Text → Prop
  | [] => True
  | c :: rest =>
      startsInclude (c :: rest) = false ∧ (isSpace c = true → c = ' ' ∧ ∀ d, rest.head? = some d → isSpace d = false) ∧
        Clean rest

section Cleaning

theorem starts_include_spec (text : Text) :
    startsInclude text = true ↔ ∃ c rest, text = '-' :: 'I' :: c :: rest ∧ isSpace c = false := by
  constructor
  · intro starts
    unfold startsInclude at starts
    split at starts
    · next c rest => exact ⟨c, rest, rfl, by simpa using starts⟩
    · exact absurd starts nofun
  · rintro ⟨c, rest, rfl, solid⟩
    simp [startsInclude, solid]

theorem starts_include_append (first second : Text) (starts : startsInclude first = true) :
    startsInclude (first ++ second) = true := by
  obtain ⟨c, rest, rfl, solid⟩ := (starts_include_spec first).mp starts
  exact (starts_include_spec _).mpr ⟨c, rest ++ second, rfl, solid⟩

theorem clean_right (first second : Text) (clean : Clean (first ++ second)) : Clean second := by
  induction first with
  | nil => exact clean
  | cons c rest ih => exact ih clean.2.2

theorem clean_left (first second : Text) (clean : Clean (first ++ second)) : Clean first := by
  induction first with
  | nil => trivial
  | cons c rest ih =>
      obtain ⟨noInclude, blank, later⟩ := clean
      refine ⟨?_, fun space => ⟨(blank space).1, fun d head => (blank space).2 d ?_⟩, ih later⟩
      · apply Bool.eq_false_iff.mpr
        intro starts
        have whole := starts_include_append (c :: rest) second starts
        exact absurd (noInclude.symm.trans whole) nofun
      · change (rest ++ second).head? = some d
        rw [List.head?_append, head]
        rfl

theorem clean_spaces (text : Text) (clean : Clean text) : ∀ c ∈ text, isSpace c = true → c = ' ' := by
  induction text with
  | nil => exact fun c member => absurd member nofun
  | cons d rest ih =>
      intro c member space
      obtain rfl | later := List.mem_cons.mp member
      · exact (clean.2.1 space).1
      · exact ih clean.2.2 c later space

theorem remove_clean (text : Text) (clean : Clean text) : removeIncludes false text = text := by
  induction text with
  | nil => rfl
  | cons c rest ih => simp only [removeIncludes, clean.1, Bool.false_eq_true, if_false, ih clean.2.2]

-- After a blank the rest starts with no blank, so that nothing is dropped there.
theorem compress_clean (text : Text) (clean : Clean text) (inSpace : Bool)
    (apart : inSpace = true → ∀ d, text.head? = some d → isSpace d = false) : compress inSpace text = text := by
  induction text generalizing inSpace with
  | nil => rfl
  | cons c rest ih =>
      obtain ⟨_, blank, later⟩ := clean
      cases space : isSpace c with
      | false => simp only [compress, space, Bool.false_eq_true, if_false, ih later false nofun]
      | true =>
          obtain ⟨rfl, next⟩ := blank space
          cases inSpace with
          | true => exact absurd ((apart rfl ' ' rfl).symm.trans space) nofun
          | false => simp only [compress, space, Bool.false_eq_true, if_false, if_true, ih later true fun _ => next]

-- The head of what is left: a skipped option is followed by white space or nothing.
theorem remove_head (text : Text) (c : Char) (skipping : Bool) (head : (removeIncludes skipping text).head? = some c)
    (solid : isSpace c = false) : skipping = false ∧ text.head? = some c := by
  have skipped : ∀ later : Text, (removeIncludes true later).head? ≠ some c := by
    intro later
    induction later with
    | nil => exact nofun
    | cons d rest ih =>
        simp only [removeIncludes, if_true]
        split
        · next space =>
            intro same
            obtain rfl := Option.some.inj same
            exact absurd (solid.symm.trans space) nofun
        · exact ih
  cases skipping with
  | true => exact absurd head (skipped text)
  | false =>
      refine ⟨rfl, ?_⟩
      cases text with
      | nil => exact absurd head nofun
      | cons d rest =>
          simp only [removeIncludes, Bool.false_eq_true, if_false] at head
          split at head
          · exact absurd head (skipped rest)
          · exact head

def IncludeFree : Text → Prop
  | [] => True
  | c :: rest => startsInclude (c :: rest) = false ∧ IncludeFree rest

-- A rewriting that keeps solid heads starts no include path that was not there.
theorem starts_include_of_heads (rewrite : Text → Text)
    (heads : ∀ text d, (rewrite text).head? = some d → isSpace d = false → text.head? = some d)
    (keeps : ∀ text, rewrite ('I' :: text) = 'I' :: rewrite text) (c : Char) (rest : Text)
    (starts : startsInclude (c :: rewrite rest) = true) : startsInclude (c :: rest) = true := by
  obtain ⟨d, tail, shape, solid⟩ := (starts_include_spec _).mp starts
  obtain ⟨rfl, after⟩ := List.cons.inj shape
  have second := heads rest 'I' (by rw [after]; rfl) (by decide)
  cases rest with
  | nil => exact absurd second nofun
  | cons e later =>
      obtain rfl := Option.some.inj second
      rw [keeps, List.cons.injEq] at after
      have third := heads later d (by rw [after.2]; rfl) solid
      cases later with
      | nil => exact absurd third nofun
      | cons e final =>
          obtain rfl := Option.some.inj third
          exact (starts_include_spec _).mpr ⟨e, final, rfl, solid⟩

theorem remove_include_free (text : Text) (skipping : Bool) : IncludeFree (removeIncludes skipping text) := by
  induction text generalizing skipping with
  | nil => trivial
  | cons c rest ih =>
      cases skipping with
      | true =>
          simp only [removeIncludes, if_true]
          split
          · next space =>
              refine ⟨?_, ih false⟩
              apply Bool.eq_false_iff.mpr
              intro starts
              obtain ⟨d, tail, shape, _⟩ := (starts_include_spec _).mp starts
              obtain ⟨rfl, _⟩ := List.cons.inj shape
              exact absurd space (by decide)
          · exact ih true
      | false =>
          simp only [removeIncludes, Bool.false_eq_true, if_false]
          split
          · exact ih true
          · next free =>
              refine ⟨Bool.eq_false_iff.mpr fun starts => free ?_, ih false⟩
              exact starts_include_of_heads (removeIncludes false)
                (fun text d head solid => (remove_head text d false head solid).2) (fun _ => rfl) c rest starts

theorem compress_head (text : Text) (c : Char) (head : (compress false text).head? = some c)
    (solid : isSpace c = false) : text.head? = some c := by
  cases text with
  | nil => exact head
  | cons d rest =>
      simp only [compress] at head
      split at head
      · obtain rfl := Option.some.inj head
        exact absurd solid (by decide)
      · exact head

theorem compress_clean_of_free (text : Text) (free : IncludeFree text) (inSpace : Bool) :
    Clean (compress inSpace text) ∧
      (inSpace = true → ∀ d, (compress inSpace text).head? = some d → isSpace d = false) := by
  induction text generalizing inSpace with
  | nil => exact ⟨trivial, nofun⟩
  | cons c rest ih =>
      obtain ⟨unstarted, later⟩ := free
      cases space : isSpace c with
      | false =>
          simp only [compress, space, Bool.false_eq_true, if_false]
          refine ⟨⟨?_, fun blank => absurd (space.symm.trans blank) nofun, (ih later false).1⟩, ?_⟩
          · apply Bool.eq_false_iff.mpr
            intro starts
            have before := starts_include_of_heads (compress false) compress_head (fun _ => rfl) c rest starts
            exact absurd (unstarted.symm.trans before) nofun
          · intro _ d head
            obtain rfl := Option.some.inj head
            exact space
      | true =>
          cases inSpace with
          | true =>
              have same : compress true (c :: rest) = compress true rest := by simp only [compress, space, if_true]
              rw [same]
              exact ih later true
          | false =>
              simp only [compress, space, Bool.false_eq_true, if_false, if_true]
              exact ⟨⟨rfl, fun _ => ⟨rfl, (ih later true).2 rfl⟩, (ih later true).1⟩, nofun⟩

theorem clean_is_clean (description : Text) : Clean (clean description) :=
  (compress_clean_of_free _ (remove_include_free _ false) false).1

theorem clean_of_stripped (description : Text) (stripped : Clean (stripJunk description)) :
    clean description = stripJunk description := by
  rw [clean, remove_clean _ stripped, compress_clean _ stripped false nofun]

end Cleaning

section Paths

theorem intercalate_suffix (before after : List Text) (part : Text) :
    ∃ front : Text, ['/'].intercalate (before ++ part :: after) = front ++ ['/'].intercalate after ∧
      part.length ≤ front.length := by
  induction before with
  | nil =>
      cases after with
      | nil => exact ⟨part, by simp, Nat.le_refl _⟩
      | cons next rest => exact ⟨part ++ ['/'], by simp [List.intercalate_cons_cons], by simp⟩
  | cons first rest ih =>
      obtain ⟨front, same, long⟩ := ih
      refine ⟨first ++ '/' :: front, ?_, ?_⟩
      · rw [List.cons_append, List.intercalate_cons_of_ne_nil (by simp), same]
        simp
      · simp only [List.length_append, List.length_cons]
        omega

-- The cut leaves the path or takes away a beginning with 'testsuite' in it.
theorem cut_testsuite_cases (path : Text) :
    cutTestsuite path = path ∨ ∃ front : Text, path = front ++ cutTestsuite path ∧ 9 ≤ front.length := by
  unfold cutTestsuite
  cases rest : (path.splitOn '/').dropWhile fun part => part != testsuite with
  | nil => exact Or.inl (List.intercalate_splitOn '/')
  | cons part after =>
      apply Or.inr
      have named : part = testsuite := by
        have head := List.head?_dropWhile_not (fun part => part != testsuite) (path.splitOn '/')
        rw [rest] at head
        simpa using head
      have parts := List.takeWhile_append_dropWhile (p := fun part => part != testsuite) (l := path.splitOn '/')
      obtain ⟨front, same, long⟩ := intercalate_suffix ((path.splitOn '/').takeWhile fun part => part != testsuite) after part
      rw [rest] at parts
      rw [parts, List.intercalate_splitOn] at same
      exact ⟨front, same, by rw [named] at long; exact long⟩

theorem cut_testsuite_suffix (path : Text) : cutTestsuite path <:+ path := by
  obtain same | ⟨front, same, _⟩ := cut_testsuite_cases path
  · rw [same]
  · exact ⟨front, same.symm⟩

theorem cut_testsuite_short (path : Text) (other : cutTestsuite path ≠ path) : (cutTestsuite path).length + 9 ≤ path.length := by
  obtain same | ⟨front, same, long⟩ := cut_testsuite_cases path
  · exact absurd same other
  · have lengths := congrArg List.length same
    rw [List.length_append] at lengths
    omega

theorem drop_dot_cases (path : Text) : dropDot path = path ∨ path = '.' :: '/' :: dropDot path := by
  unfold dropDot
  split
  · exact Or.inr rfl
  · exact Or.inl rfl

theorem basename_append_slash (front : Text) (path : Text) : basename (front ++ '/' :: path) = basename path := by
  induction path using List.reverseRecOn with
  | nil => exact List.rtakeWhile_concat_neg _ front '/' (by decide)
  | append_singleton path c ih =>
      rw [← List.cons_append, ← List.append_assoc]
      by_cases slash : c = '/'
      · subst slash
        rw [basename, List.rtakeWhile_concat_neg _ _ '/' (by decide), basename, List.rtakeWhile_concat_neg _ _ '/' (by decide)]
      · have solid : (c != '/') = true := by simpa using slash
        rw [basename, List.rtakeWhile_concat_pos _ _ c solid, basename, List.rtakeWhile_concat_pos _ _ c solid]
        exact congrArg (· ++ [c]) ih

theorem has_suffix_drop_dot (path : Text) : hasSuffix (dropDot path) = hasSuffix path := by
  obtain same | shape := drop_dot_cases path
  · rw [same]
  · have base : basename path = basename (dropDot path) := by
      rw [shape]
      exact basename_append_slash ['.'] _
    rw [hasSuffix, hasSuffix, base]

theorem has_suffix_nil : hasSuffix [] = false := by decide

theorem has_suffix_object (front : Text) : hasSuffix (front ++ objectSuffix) = true := by
  have base : basename (front ++ objectSuffix) = basename front ++ objectSuffix := by
    have shape : front ++ objectSuffix = (front ++ ['.']) ++ ['o'] := by simp [objectSuffix]
    rw [shape, basename, List.rtakeWhile_concat_pos _ _ 'o' (by decide), List.rtakeWhile_concat_pos _ _ '.' (by decide)]
    simp [basename, objectSuffix]
  rw [hasSuffix, base]
  apply List.any_eq_true.mpr
  refine ⟨"o".toList, by decide, ?_⟩
  exact List.isSuffixOf_iff_suffix.mpr ⟨basename front, rfl⟩

theorem join_path_cases (path part : Text) :
    joinPath path part = part ∨ (joinPath path part = path ++ part ∧ (path = [] ∨ path.getLast? = some '/')) ∨
      (joinPath path part = path ++ '/' :: part) := by
  unfold joinPath
  split
  · exact Or.inl rfl
  · split
    · next ends => exact Or.inr (Or.inl ⟨rfl, ends⟩)
    · exact Or.inr (Or.inr rfl)

theorem join_path_suffix (path part : Text) : part <:+ joinPath path part := by
  obtain same | ⟨same, _⟩ | same := join_path_cases path part
  · rw [same]
  · exact ⟨path, same.symm⟩
  · exact ⟨path ++ ['/'], by simp [same]⟩

-- Either FromLine leaves the path or it moves the name of an object file into it.
theorem move_object_cases (variant : Text) :
    (∀ path, moveObject path variant = (path, variant)) ∨ ∃ first rest : Text, variant = first ++ ' ' :: rest ∧
      ' ' ∉ first ∧ objectSuffix <:+ first ∧ ∀ path, moveObject path variant = (joinPath path first, rest) := by
  cases rest : variant.dropWhile fun c => c != ' ' with
  | nil => exact Or.inl fun path => by simp only [moveObject, rest]
  | cons c rest' =>
      have blank : c = ' ' := by
        have head := List.head?_dropWhile_not (fun c => c != ' ') variant
        rw [rest] at head
        simpa using head
      by_cases object : objectSuffix.isSuffixOf (variant.takeWhile fun c => c != ' ') = true
      · refine Or.inr ⟨variant.takeWhile fun c => c != ' ', rest', ?_, ?_, List.isSuffixOf_iff_suffix.mp object, ?_⟩
        · have parts := List.takeWhile_append_dropWhile (p := fun c => c != ' ') (l := variant)
          rw [rest, blank] at parts
          exact parts.symm
        · intro member
          have solid := List.mem_takeWhile_imp member
          exact absurd solid (by decide)
        · intro path
          simp only [moveObject, rest, object, if_true]
      · exact Or.inl fun path => by simp only [moveObject, rest, object, Bool.false_eq_true, if_false]

end Paths

end ToolchainUtils.DejaGnu
