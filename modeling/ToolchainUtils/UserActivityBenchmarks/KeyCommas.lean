import ToolchainUtils.TextOverlaps
import ToolchainUtils.UserActivityBenchmarks.FunctionKeys

set_option autoImplicit false

namespace ToolchainUtils.UserActivityBenchmarks

open PyString TextReplace

section Commas

-- The commas that no blank follows are not replaced.
def loneCommas (text : Text) : Nat := text.count ',' - occurrences commaBlank text

def aesFile : Text := "  aes-x86_64.s".toList

def stepUp : Text := " ../".toList

def inlineMark : Text := " (inline)".toList

def partialInlineMark : Text := " (partial-inline)".toList

-- A file name without the marks of inlined functions.
def unmarked (fileName : Text) : Text := replace partialInlineMark [] (replace inlineMark [] fileName)

-- The commas of a file name that stay, and the places where one is put in.
def keptCommas (fileName : Text) : Nat :=
  loneCommas fileName + occurrences aesFile fileName + occurrences stepUp (unmarked fileName)

theorem count_lone (text : Text) : (replace commaBlank semicolonBlank text).count ',' = loneCommas text := by
  have counted := count_replace commaBlank (List.cons_ne_nil _ _) semicolonBlank text ','
  have one : commaBlank.count ',' = 1 := by decide
  have none : semicolonBlank.count ',' = 0 := by decide
  rw [one, none] at counted
  rw [loneCommas]
  omega

-- How often a substitution that puts in a comma applies, each in what those before it
-- have left.
def insertions : List (Text × Text) → Text → Nat
  | [], _ => 0
  | pair :: rest, text => occurrences pair.1 text * pair.2.count ',' + insertions rest (replace pair.1 pair.2 text)

theorem count_substituted (pairs : List (Text × Text)) (filled : ∀ pair ∈ pairs, pair.1 ≠ [] ∧ ',' ∉ pair.1) (text : Text) :
    (pairs.foldl (fun name pair => replace pair.1 pair.2 name) text).count ',' = text.count ',' + insertions pairs text := by
  induction pairs generalizing text with
  | nil => rfl
  | cons pair rest ih =>
      obtain ⟨here, later⟩ := List.forall_mem_cons.mp filled
      have counted := count_replace pair.1 here.1 pair.2 text ','
      rw [List.count_eq_zero_of_not_mem here.2, Nat.mul_zero, Nat.add_zero] at counted
      rw [List.foldl_cons, ih later, counted, insertions, Nat.add_assoc]

-- A comma that a blank follows becomes a semicolon; next is what follows the text.
def semicolons (next : Option Char) : Text → Text
  | [] => []
  | c :: rest => (if c = ',' ∧ rest.head?.or next = some ' ' then ';' else c) :: semicolons next rest

-- The same text, but for commas that are semicolons in the second.
def CommaFor (first second : Char) : Prop := first = second ∨ first = ',' ∧ second = ';'

theorem comma_for_blind (pattern : Text) (noComma : ',' ∉ pattern) (noSemicolon : ';' ∉ pattern) : Blind CommaFor pattern := by
  rintro first second (rfl | ⟨rfl, rfl⟩) c member
  · exact Iff.rfl
  · exact iff_of_false (fun same => noComma (same ▸ member)) (fun same => noSemicolon (same ▸ member))

theorem comma_for_eq (first second : Text) (alike : List.Forall₂ CommaFor first second) (free : ',' ∉ first ∨ ';' ∉ second) :
    first = second := by
  induction alike with
  | nil => rfl
  | cons here _ ih =>
      rcases here with rfl | ⟨rfl, rfl⟩
      · rw [ih (free.imp (fun none member => none (List.mem_cons_of_mem _ member)) fun none member => none (List.mem_cons_of_mem _ member))]
      · exact absurd free (by simp)

theorem unmarked_alike (first second : Text) (alike : List.Forall₂ CommaFor first second) :
    List.Forall₂ CommaFor (unmarked first) (unmarked second) :=
  replace_alike CommaFor (fun _ => .inl rfl) partialInlineMark [] _ _ (comma_for_blind _ (by decide) (by decide))
    (replace_alike CommaFor (fun _ => .inl rfl) inlineMark [] _ _ (comma_for_blind _ (by decide) (by decide)) alike)

section Semicolons

variable (next : Option Char)

theorem semicolons_alike (text : Text) : List.Forall₂ CommaFor text (semicolons next text) := by
  induction text with
  | nil => exact .nil
  | cons c rest ih =>
      refine .cons ?_ ih
      split
      · rename_i followed
        exact .inr ⟨followed.1, rfl⟩
      · exact .inl rfl

theorem semicolons_length (text : Text) : (semicolons next text).length = text.length :=
  (semicolons_alike next text).length_eq.symm

theorem semicolons_append (first second : Text) :
    semicolons next (first ++ second) = semicolons (second.head?.or next) first ++ semicolons next second := by
  induction first with
  | nil => rfl
  | cons c rest ih =>
      rw [List.cons_append, semicolons, semicolons, ih, List.head?_append, Option.or_assoc]
      rfl

theorem semicolons_head (text : Text) : (semicolons next text).head? = some ' ' ↔ text.head? = some ' ' := by
  cases text with
  | nil => exact Iff.rfl
  | cons c rest =>
      rw [semicolons, List.head?_cons, List.head?_cons]
      split
      · rename_i followed
        simp [followed.1]
      · exact Iff.rfl

theorem replace_commas_after (text : Text) : replaceFrom commaBlank semicolonBlank 0 text = semicolons none text ∧
    (text.head? = some ' ' → ' ' :: replaceFrom commaBlank semicolonBlank 1 text = semicolons none text) := by
  induction text with
  | nil => exact ⟨rfl, nofun⟩
  | cons c rest ih =>
      obtain ⟨whole, skipping⟩ := ih
      have here : commaBlank.isPrefixOf (c :: rest) = true ↔ c = ',' ∧ rest.head? = some ' ' := by
        rw [show commaBlank = [',', ' '] from rfl]
        cases rest with
        | nil => simp [List.isPrefixOf]
        | cons d more =>
            rw [List.isPrefixOf_iff_prefix, List.cons_prefix_cons, List.cons_prefix_cons]
            exact ⟨fun ⟨comma, blank, _⟩ => ⟨comma.symm, congrArg some blank.symm⟩,
              fun ⟨comma, blank⟩ => ⟨comma.symm, (Option.some.inj blank).symm, List.nil_prefix⟩⟩
      refine ⟨?_, fun blank => ?_⟩
      · rw [replaceFrom, semicolons, Option.or_none]
        by_cases followed : c = ',' ∧ rest.head? = some ' '
        · rw [if_pos (here.mpr followed), if_pos followed, ← skipping followed.2]
          rfl
        · rw [if_neg (fun found => followed (here.mp found)), if_neg followed, whole]
      · obtain rfl : c = ' ' := Option.some.inj blank
        rw [replaceFrom, whole, semicolons, if_neg (fun followed => absurd followed.1 (by decide))]

theorem replace_commas (text : Text) : replace commaBlank semicolonBlank text = semicolons none text := (replace_commas_after text).1

theorem semicolons_again (text : Text) : semicolons none (semicolons none text) = semicolons none text := by
  induction text with
  | nil => rfl
  | cons c rest ih =>
      rw [semicolons, semicolons, ih, Option.or_none, Option.or_none]
      refine congrArg (· :: semicolons none rest) (if_neg fun followed => ?_)
      obtain ⟨comma, blank⟩ := followed
      rw [semicolons_head] at blank
      split at comma
      · exact absurd comma (by decide)
      · rename_i other
        exact other ⟨comma, blank⟩

end Semicolons

section Substitutions

-- No part of the text can be taken for a part of what is looked for in a file name.
def Separate (text : Text) : Prop :=
  Apart inlineMark text ∧ replace inlineMark [] text = text ∧ Apart partialInlineMark text ∧
    replace partialInlineMark [] text = text ∧ Apart aesFile text ∧ Apart stepUp text

instance (text : Text) : Decidable (Separate text) := by
  unfold Separate
  infer_instance

theorem separate_passes (text : Text) (separate : Separate text) : Passes unmarked text :=
  passes_comp (replace inlineMark []) (replace partialInlineMark []) text
    (passes_replace inlineMark [] text separate.1 separate.2.1) (passes_replace partialInlineMark [] text separate.2.2.1 separate.2.2.2.1)

theorem steps_up_substituted (old new text : Text) (filled : old ≠ []) (separate : Separate old) (also : Separate new) :
    occurrences stepUp (unmarked (replace old new text)) + occurrences old text * occurrences stepUp old =
      occurrences stepUp (unmarked text) + occurrences old text * occurrences stepUp new :=
  occurrences_substituted unmarked stepUp old new text filled (List.cons_ne_nil _ _) (separate_passes old separate)
    (separate_passes new also) separate.2.2.2.2.2 also.2.2.2.2.2

-- A substitution that takes this many ' ../' away and does not touch the aes file.
theorem kept_substituted (old new text : Text) (filled : old ≠ []) (separate : Separate old ∧ Separate new) (taken : Nat)
    (before : occurrences stepUp old = taken) (after : occurrences stepUp new = 0)
    (aes : occurrences aesFile old = 0 ∧ occurrences aesFile new = 0) :
    occurrences stepUp (unmarked (replace old new text)) + occurrences old text * taken = occurrences stepUp (unmarked text) ∧
      occurrences aesFile (replace old new text) = occurrences aesFile text := by
  have steps := steps_up_substituted old new text filled separate.1 separate.2
  have files := occurrences_substituted id aesFile old new text filled (List.cons_ne_nil _ _) (passes_id old) (passes_id new)
    separate.1.2.2.2.2.1 separate.2.2.2.2.2.1
  rw [before, after] at steps
  rw [aes.1, aes.2] at files
  exact ⟨steps, files⟩

-- Each comma that is put in takes the place of ' ../' or of the aes file, which no
-- substitution but the marks' makes or breaks.
theorem insertions_consistent (text : Text) :
    insertions fileNameReplacingPairStrings text = occurrences aesFile text + occurrences stepUp (unmarked text) := by
  obtain ⟨steps1, aes1⟩ := kept_substituted "gnawty".toList "BOARD".toList text (by decide) (by decide) 0 (by decide) (by decide) (by decide)
  have counts : List.count ',' "BOARD".toList = 0 ∧ List.count ',' ",sysdeps".toList = 1 ∧ List.count ',' ",nptl".toList = 1 ∧
      List.count ',' ",aes-x86_64.s".toList = 1 ∧ List.count ',' [','] = 1 ∧ List.count ',' ([] : Text) = 0 := by
    decide
  simp only [fileNameReplacingPairStrings, insertions, counts, Nat.mul_zero, Nat.mul_one, Nat.zero_add, Nat.add_zero]
  generalize replace "gnawty".toList "BOARD".toList text = gnawty at steps1 aes1 ⊢
  obtain ⟨steps2, aes2⟩ := kept_substituted "amd64-generic".toList "BOARD".toList gnawty (by decide) (by decide) 0 (by decide) (by decide)
    (by decide)
  generalize replace "amd64-generic".toList "BOARD".toList gnawty = generic at steps2 aes2 ⊢
  obtain ⟨steps3, aes3⟩ := kept_substituted " ../sysdeps".toList ",sysdeps".toList generic (by decide) (by decide) 1 (by decide) (by decide)
    (by decide)
  generalize replace " ../sysdeps".toList ",sysdeps".toList generic = sysdeps at steps3 aes3 ⊢
  obtain ⟨steps4, aes4⟩ := kept_substituted " ../nptl".toList ",nptl".toList sysdeps (by decide) (by decide) 1 (by decide) (by decide)
    (by decide)
  generalize replace " ../nptl".toList ",nptl".toList sysdeps = nptl at steps4 aes4 ⊢
  have steps5 := steps_up_substituted aesFile ",aes-x86_64.s".toList nptl (by decide) (by decide) (by decide)
  rw [show occurrences stepUp aesFile = 0 from by decide, show occurrences stepUp ",aes-x86_64.s".toList = 0 from by decide,
    Nat.mul_zero, Nat.add_zero, Nat.add_zero] at steps5
  change _ + (_ + (occurrences aesFile nptl + occurrences stepUp (unmarked (replace aesFile ",aes-x86_64.s".toList nptl)))) = _
  omega

end Substitutions

theorem count_consistent (fileName : Text) : (makeCWPAndPprofFileNamesConsistent fileName).count ',' = keptCommas fileName := by
  have alike := semicolons_alike none fileName
  have aes := occurrences_alike CommaFor aesFile _ _ (comma_for_blind aesFile (by decide) (by decide)) alike
  have steps := occurrences_alike CommaFor stepUp _ _ (comma_for_blind stepUp (by decide) (by decide)) (unmarked_alike _ _ alike)
  rw [makeCWPAndPprofFileNamesConsistent, count_substituted fileNameReplacingPairStrings (by decide), count_lone,
    insertions_consistent, replace_commas, ← aes, ← steps, keptCommas, Nat.add_assoc]

theorem count_key (function file : Text) :
    (function ++ ',' :: makeCWPAndPprofFileNamesConsistent file).count ',' = function.count ',' + keptCommas file + 1 := by
  rw [List.count_append, List.count_cons_self, count_consistent]
  omega

theorem one_comma_key_iff (function file : Text) :
    OneComma (function ++ ',' :: makeCWPAndPprofFileNamesConsistent file) ↔ function.count ',' = 0 ∧ keptCommas file = 0 := by
  rw [one_comma_iff, count_key]
  omega

end Commas

section Paths

theorem semicolons_none (next : Option Char) (text : Text) (free : ',' ∉ text) : semicolons next text = text :=
  (comma_for_eq text _ (semicolons_alike next text) (.inl free)).symm

theorem semicolons_next (next : Option Char) (text : Text) (other : next ≠ some ' ') : semicolons next text = semicolons none text := by
  induction text with
  | nil => rfl
  | cons c rest ih =>
      rw [semicolons, semicolons, ih]
      cases rest with
      | nil => rw [List.head?_nil, Option.none_or, Option.none_or, if_neg (fun found => other found.2), if_neg (fun found => nomatch found.2)]
      | cons d more => rfl

theorem semicolons_eq_iff (text word : Text) (free : ',' ∉ word ∧ ';' ∉ word) : semicolons none text = word ↔ text = word := by
  constructor
  · intro same
    rw [← same]
    exact comma_for_eq text _ (semicolons_alike none text) (.inr (same ▸ free.2))
  · rintro rfl
    exact semicolons_none none text free.1

theorem semicolons_keep (c : Char) (other : c ≠ ';') (text : Text) (member : c ∈ semicolons none text) : c ∈ text := by
  induction text with
  | nil => exact member
  | cons d rest ih =>
      rcases List.mem_cons.mp member with here | later
      · split at here
        · exact absurd here other
        · exact here ▸ List.mem_cons_self
      · exact List.mem_cons_of_mem d (ih later)

theorem semicolons_slash (first rest : Text) :
    semicolons none (first ++ '/' :: rest) = semicolons none first ++ '/' :: semicolons none rest := by
  rw [semicolons_append, List.head?_cons, Option.some_or, semicolons_next (some '/') first (by decide), semicolons,
    if_neg (fun found => absurd found.1 (by decide))]

theorem split_semicolons (text : Text) : splitAt ['/'] (semicolons none text) = (splitAt ['/'] text).map (semicolons none) := by
  induction bound : text.length using Nat.strongRecOn generalizing text with
  | ind length ih =>
      subst bound
      have apart : ∀ piece : Text, '/' ∉ piece → '/' ∉ semicolons none piece := fun piece whole member =>
        whole (semicolons_keep '/' (by decide) piece member)
      by_cases cut : '/' ∈ text
      · obtain ⟨first, rest, rfl, whole⟩ := List.eq_append_cons_of_mem cut
        have shorter : rest.length < (first ++ '/' :: rest).length := by
          rw [List.length_append, List.length_cons]
          omega
        rw [semicolons_slash, split_at_first '/' _ _ (apart first whole), split_at_first '/' _ _ whole, ih rest.length shorter rest rfl]
        rfl
      · rw [split_at_absent '/' _ (apart text cut), split_at_absent '/' _ cut]
        rfl

theorem join_semicolons (comps : List Text) :
    semicolons none (['/'].intercalate comps) = ['/'].intercalate (comps.map (semicolons none)) := by
  induction comps with
  | nil => rfl
  | cons first rest ih =>
      cases rest with
      | nil => simp
      | cons second rest =>
          rw [List.intercalate_cons_cons, List.append_assoc, List.singleton_append, semicolons_slash, ih]
          simp [List.intercalate_cons_cons]

theorem normal_components_semicolons (initialSlashes : Bool) (newComps comps : List Text) :
    normalComponents initialSlashes (newComps.map (semicolons none)) (comps.map (semicolons none)) =
      (normalComponents initialSlashes newComps comps).map (semicolons none) := by
  induction comps generalizing newComps with
  | nil => rfl
  | cons comp rest ih =>
      have nothing := semicolons_eq_iff comp [] (by decide)
      have here := semicolons_eq_iff comp ['.'] (by decide)
      have up := semicolons_eq_iff comp "..".toList (by decide)
      have top : (newComps.map (semicolons none)).head? = some "..".toList ↔ newComps.head? = some "..".toList := by
        cases newComps with
        | nil => exact Iff.rfl
        | cons last earlier =>
            rw [List.map_cons, List.head?_cons, List.head?_cons, Option.some_inj, Option.some_inj]
            exact semicolons_eq_iff last "..".toList (by decide)
      rw [List.map_cons, normalComponents, normalComponents]
      simp only [nothing, here, ne_eq, up, List.map_eq_nil_iff, top]
      split
      · exact ih newComps
      · split
        · exact ih (comp :: newComps)
        · rw [← List.map_tail]
          exact ih newComps.tail

theorem slashes_semicolons (path : Text) :
    ((semicolons none path).takeWhile fun c => c == '/').length = (path.takeWhile fun c => c == '/').length := by
  induction path with
  | nil => rfl
  | cons c rest ih =>
      by_cases slash : c = '/'
      · subst slash
        rw [semicolons, if_neg (fun found => absurd found.1 (by decide))]
        simpa using ih
      · have other : (if c = ',' ∧ rest.head?.or none = some ' ' then ';' else c) ≠ '/' := by
          split
          · decide
          · exact slash
        rw [semicolons, List.takeWhile_cons_of_neg (by simpa using other), List.takeWhile_cons_of_neg (by simpa using slash)]

-- The separators of a path are no part of ', '.
theorem normpath_semicolons (path : Text) : normpath (semicolons none path) = semicolons none (normpath path) := by
  have joined : semicolons none (['/'].intercalate (normalComponents (0 < (path.takeWhile fun c => c == '/').length) []
        (splitAt ['/'] path)).reverse) =
      ['/'].intercalate (normalComponents (0 < (path.takeWhile fun c => c == '/').length) []
        (splitAt ['/'] (semicolons none path))).reverse := by
    rw [join_semicolons, split_semicolons, List.map_reverse, ← normal_components_semicolons]
    rfl
  simp only [normpath, slashes_semicolons, ← joined]
  generalize ['/'].intercalate (normalComponents _ [] (splitAt ['/'] path)).reverse = normal
  have slashes : ∀ front : Text, ',' ∉ front → front ++ semicolons none normal = semicolons none (front ++ normal) := by
    intro front free
    rw [semicolons_append, semicolons_none _ front free]
  rw [slashes _ (by split_ifs <;> decide)]
  simp only [semicolons_eq_iff _ [] (by decide : ',' ∉ ([] : Text) ∧ ';' ∉ ([] : Text))]
  rw [apply_ite (semicolons none)]
  rfl

theorem consistent_semicolons (fileName : Text) :
    makeCWPAndPprofFileNamesConsistent (semicolons none fileName) = makeCWPAndPprofFileNamesConsistent fileName := by
  rw [makeCWPAndPprofFileNamesConsistent, makeCWPAndPprofFileNamesConsistent, replace_commas, replace_commas, semicolons_again]

theorem kept_commas_semicolons (fileName : Text) : keptCommas (semicolons none fileName) = keptCommas fileName := by
  rw [← count_consistent, consistent_semicolons, count_consistent]

end Paths

section Conditions

-- A function and a file around the only ' /', neither with a comma that stays or is put
-- in, or no ' /' and one comma.
def PprofFits (functionAndFileName : Text) : Prop :=
  match splitAt functionFileSeparator functionAndFileName with
  | [function, file] => loneCommas (function ++ [' ']) = 0 ∧ keptCommas (normpath ('/' :: file)) = 0
  | [whole] => keptCommas whole = 1
  | _ => False

-- A row is ignored when its file is marks and '../' only.
def InclusiveFits (statistic : InclusiveRow) : Prop :=
  (∃ count, unmarked (normpath statistic.file) = (List.replicate count "../".toList).flatten) ∨
    statistic.function.count ',' = 0 ∧ keptCommas (normpath statistic.file) = 0

def PairwiseFits (statistic : PairwiseRow) : Prop :=
  ∃ parent child, splitAt parentChildFunctionsSeparator statistic.parentChildFunctions = [parent, child] ∧
    child.count ',' = 0 ∧ keptCommas (normpath statistic.childFunctionFile) = 0

-- The substitutions leave nothing only of what has no letters.
theorem consistent_nothing_iff (fileName : Text) : makeCWPAndPprofFileNamesConsistent fileName = [] ↔
    ∃ count, unmarked fileName = (List.replicate count "../".toList).flatten := by
  have stages : makeCWPAndPprofFileNamesConsistent fileName = replace "../".toList [] (replace stepUp [','] (unmarked
      (replace aesFile ",aes-x86_64.s".toList (replace " ../nptl".toList ",nptl".toList (replace " ../sysdeps".toList ",sysdeps".toList
        (replace "amd64-generic".toList "BOARD".toList (replace "gnawty".toList "BOARD".toList (semicolons none fileName)))))))) := by
    rw [← replace_commas]
    rfl
  rw [stages, replace_nothing_iff _ _ (by decide)]
  refine exists_congr fun count => ?_
  have only : ∀ c, c ∉ "../".toList → c ∉ (List.replicate count "../".toList).flatten := by
    intro c foreign member
    obtain ⟨step, listed, among⟩ := List.mem_flatten.mp member
    exact foreign (List.eq_of_mem_replicate listed ▸ among)
  have change := fun (old new text : Text) (c d : Char) (filled : old ≠ []) (separate : Separate old ∧ Separate new)
      (outside : c ∈ old ∧ c ∉ "../".toList) (also : d ∈ new ∧ d ∉ "../".toList) =>
    change_substituted unmarked old new text _ filled (separate_passes old separate.1) (separate_passes new separate.2)
      ⟨c, outside.1, only c outside.2⟩ ⟨d, also.1, only d also.2⟩
  have steps := change_substituted id stepUp [','] (unmarked (replace aesFile ",aes-x86_64.s".toList (replace " ../nptl".toList
    ",nptl".toList (replace " ../sysdeps".toList ",sysdeps".toList (replace "amd64-generic".toList "BOARD".toList (replace
      "gnawty".toList "BOARD".toList (semicolons none fileName))))))) _ (by decide) (passes_id _) (passes_id _)
    ⟨' ', by decide, only ' ' (by decide)⟩ ⟨',', by decide, only ',' (by decide)⟩
  rw [id_eq, id_eq] at steps
  rw [steps, change _ _ _ 'a' 'a' (by decide) (by decide) (by decide) (by decide),
    change _ _ _ 'n' 'n' (by decide) (by decide) (by decide) (by decide),
    change _ _ _ 's' 's' (by decide) (by decide) (by decide) (by decide),
    change _ _ _ 'a' 'B' (by decide) (by decide) (by decide) (by decide),
    change _ _ _ 'g' 'B' (by decide) (by decide) (by decide) (by decide)]
  have alike : List.Forall₂ CommaFor (unmarked fileName) (unmarked (semicolons none fileName)) :=
    unmarked_alike _ _ (semicolons_alike none fileName)
  constructor
  · intro same
    rw [comma_for_eq _ _ alike (.inr (same ▸ only ';' (by decide))), same]
  · intro same
    rw [← comma_for_eq _ _ alike (.inl (same ▸ only ',' (by decide))), same]

-- The last comma of the function can be one that the blank of the separator follows.
theorem function_semicolons (function file first second : Text) (here : List.Forall₂ CommaFor function first)
    (joined : first ++ (functionFileSeparator ++ second) = semicolons none (function ++ (functionFileSeparator ++ file))) :
    first.count ',' = loneCommas (function ++ [' ']) ∧ second = semicolons none file := by
  have parts : semicolons none (function ++ (functionFileSeparator ++ file)) =
      semicolons (some ' ') function ++ (functionFileSeparator ++ semicolons none file) := semicolons_append none function _
  have lengths : first.length = (semicolons (some ' ') function).length := by rw [semicolons_length, here.length_eq]
  obtain ⟨same, tail⟩ := List.append_inj (joined.trans parts) lengths
  refine ⟨?_, List.append_cancel_left tail⟩
  have ended : semicolons none (function ++ [' ']) = semicolons (some ' ') function ++ [' '] := semicolons_append none function [' ']
  rw [← count_lone, replace_commas, ended, same, List.count_append]
  rfl

theorem pprof_key_iff (functionAndFileName : Text) :
    (∃ key, makePprofFunctionKey functionAndFileName = some key ∧ OneComma key) ↔ PprofFits functionAndFileName := by
  have alike := split_alike CommaFor functionFileSeparator _ _ (comma_for_blind _ (by decide) (by decide))
    (semicolons_alike none functionAndFileName)
  have pieces := length_split functionFileSeparator (semicolons none functionAndFileName)
  have joined := join_split functionFileSeparator (List.cons_ne_nil _ _) (semicolons none functionAndFileName)
  have whole := join_split functionFileSeparator (List.cons_ne_nil _ _) functionAndFileName
  have rooted : ∀ file : Text, semicolons none ('/' :: file) = '/' :: semicolons none file := semicolons_slash []
  rw [makePprofFunctionKey, PprofFits, twoParts]
  simp only [replace_commas]
  generalize splitAt functionFileSeparator functionAndFileName = written at alike whole ⊢
  generalize splitAt functionFileSeparator (semicolons none functionAndFileName) = parts at alike pieces joined ⊢
  cases alike with
  | nil => cases pieces
  | cons here more =>
      cases more with
      | nil =>
          -- Without the separator the whole text is the key.
          have none_ : occurrences functionFileSeparator (semicolons none functionAndFileName) = 0 := (Nat.succ_inj.mp pieces).symm
          rw [List.intercalate_singleton] at whole
          rw [none_, if_neg (Nat.lt_irrefl 0), consistent_semicolons, whole]
          simp only [Option.some.injEq, exists_eq_left']
          rw [one_comma_iff, count_consistent]
      | cons next rest =>
          rw [if_pos (by rw [List.length_cons, List.length_cons] at pieces; omega)]
          cases rest with
          | nil =>
              rw [List.intercalate_cons_cons, List.intercalate_singleton, List.append_assoc] at joined whole
              rw [← whole] at joined
              obtain ⟨commas, file⟩ := function_semicolons _ _ _ _ here joined
              simp only [Option.map_some, Option.some.injEq, exists_eq_left']
              rw [one_comma_key_iff, commas, file, ← rooted, normpath_semicolons, kept_commas_semicolons]
          | cons third rest => simp

theorem inclusive_key_iff (statistic : InclusiveRow)
    (filled : statistic.function ≠ [] ∧ statistic.dso ≠ [] ∧ statistic.inclusiveCount ≠ [] ∧
      statistic.inclusiveCountFraction ≠ []) :
    (∀ key ∈ inclusiveKey statistic, OneComma key) ↔ InclusiveFits statistic := by
  rw [inclusiveKey, InclusiveFits, ← consistent_nothing_iff]
  by_cases gone : makeCWPAndPprofFileNamesConsistent (normpath statistic.file) = []
  · rw [if_neg (fun kept => kept.2.1 gone)]
    exact iff_of_true (fun key found => absurd found.symm (Option.some_ne_none key)) (Or.inl gone)
  · rw [if_pos ⟨filled.1, gone, filled.2⟩, or_iff_right gone, ← one_comma_key_iff]
    simp only [Option.mem_some_iff, forall_eq']

theorem pairwise_keys_iff (statistic : PairwiseRow) :
    (∃ parent key, pairwiseKeys statistic = some (parent, key) ∧ OneComma key) ↔ PairwiseFits statistic := by
  rw [pairwiseKeys, PairwiseFits, twoParts]
  generalize splitAt parentChildFunctionsSeparator statistic.parentChildFunctions = parts
  cases parts with
  | nil => simp
  | cons first rest =>
      cases rest with
      | nil => simp
      | cons second rest =>
          cases rest with
          | cons third rest => simp
          | nil =>
              simp only [Option.map_some, Option.some.injEq, Prod.mk.injEq, and_assoc, exists_and_left, exists_eq_left',
                List.cons.injEq, and_true, one_comma_key_iff]

end Conditions

theorem function_keys_two_parts_iff (functionAndFileName : Text) (inclusive : InclusiveRow) (pairwise : PairwiseRow)
    (filled : inclusive.function ≠ [] ∧ inclusive.dso ≠ [] ∧ inclusive.inclusiveCount ≠ [] ∧
      inclusive.inclusiveCountFraction ≠ []) :
    ((∃ key, makePprofFunctionKey functionAndFileName = some key ∧ OneComma key) ↔ PprofFits functionAndFileName) ∧
      ((∀ key ∈ inclusiveKey inclusive, OneComma key) ↔ InclusiveFits inclusive) ∧
      ((∃ parent key, pairwiseKeys pairwise = some (parent, key) ∧ OneComma key) ↔ PairwiseFits pairwise) :=
  ⟨pprof_key_iff functionAndFileName, inclusive_key_iff inclusive filled, pairwise_keys_iff pairwise⟩

theorem sysdeps_keys_two_parts :
    ((∃ key, makePprofFunctionKey "__memcpy_sse2 ../sysdeps/x86_64/memcpy.S".toList = some key ∧ OneComma key) ↔
        PprofFits "__memcpy_sse2 ../sysdeps/x86_64/memcpy.S".toList) ∧
      ((∀ key ∈ inclusiveKey ⟨"main".toList, "/src/main.cc".toList, "chrome".toList, ['3'], "0.5".toList⟩, OneComma key) ↔
        InclusiveFits ⟨"main".toList, "/src/main.cc".toList, "chrome".toList, ['3'], "0.5".toList⟩) ∧
      ((∃ parent key, pairwiseKeys ⟨"main;;run".toList, "/src/run.cc".toList⟩ = some (parent, key) ∧ OneComma key) ↔
        PairwiseFits ⟨"main;;run".toList, "/src/run.cc".toList⟩) :=
  function_keys_two_parts_iff _ _ _ (by decide)

-- The operator's blank and the path's slash are a separator, too.
theorem separated_operator_raises :
    ¬ ∀ functionAndFileName, ∃ key, makePprofFunctionKey functionAndFileName = some key ∧ OneComma key := by
  intro built
  obtain ⟨key, made, one⟩ := built "Foo::operator / /src/foo.cc".toList
  have raises : makePprofFunctionKey "Foo::operator / /src/foo.cc".toList = none := by decide
  exact Option.some_ne_none key (made.symm.trans raises)

-- A comma between template arguments is one too many.
example : (inclusiveKey ⟨"std::map<int,int>::at".toList, "/map".toList, ['d'], ['1'], ['1']⟩).map (List.count ',') = some 2 := by
  decide

end ToolchainUtils.UserActivityBenchmarks
