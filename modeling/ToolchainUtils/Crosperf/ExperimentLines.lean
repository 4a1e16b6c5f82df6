import ToolchainUtils.Crosperf.ExperimentFile
import ToolchainUtils.FailingFold

set_option autoImplicit false

namespace ToolchainUtils.Crosperf.ExperimentFile

open PyString

section Reading

theorem colon_value (text rest : Text) (colon : lstrip text = ':' :: rest) (oneLine : '\n' ∉ rest) : colonValue text = some (lstrip rest) := by
  rw [colonValue, colon]
  simp only
  rw [List.takeWhile_eq_self_iff.mpr]
  intro c member
  have found : c ∈ rest := (List.dropWhile_sublist isSpace).subset member
  simpa using fun same : c = '\n' => oneLine (same ▸ found)

-- A line that begins with a name and a colon is a field, whatever comes after.
theorem field_value_line (name rest : Text) (nonempty : name ≠ []) (isWord : ∀ c ∈ name, isWordChar c = true) (oneLine : '\n' ∉ rest) :
    fieldValue (name ++ ':' :: rest) = some ⟨false, name, lstrip rest⟩ := by
  cases name with
  | nil => exact absurd rfl nonempty
  | cons c name =>
      have first := isWord c List.mem_cons_self
      have noPlus : c ≠ '+' := fun same => absurd first (by rw [same]; decide)
      have solid : isSpace c = false := by
        rw [Bool.eq_false_iff]
        intro space
        have none : ∀ d ∈ spaces, isWordChar d = false := by decide
        exact absurd first (Bool.eq_false_iff.mp (none c (List.contains_iff_mem.mp space)))
      have noAppend : ((c :: name ++ ':' :: rest).head? == some '+') = false := by simpa using noPlus
      have take := take_to_stop isWordChar (c :: name) rest ':' isWord (by decide)
      have drop := drop_to_stop isWordChar (c :: name) rest ':' isWord (by decide)
      have strip : lstrip (c :: name ++ ':' :: rest) = c :: name ++ ':' :: rest := lstrip_solid c _ solid
      rw [fieldValue, noAppend]
      simp only [Bool.false_eq_true, if_false]
      rw [strip, take, drop]
      have value : fieldRest (':' :: rest) = some (lstrip rest) := colon_value (':' :: rest) rest (lstrip_solid ':' rest (by decide)) oneLine
      rw [value]
      rfl

theorem open_name_lstrip (text : Text) : openName (lstrip text) = openName text := by
  rw [openName, openName, lstrip_lstrip]

theorem name_char_of_word (c : Char) (isWord : isWordChar c = true) : isNameChar c = true := by
  rw [isNameChar, isWord]
  rfl

theorem name_char_solid (c : Char) (isName : isNameChar c = true) : isSpace c = false := by
  rw [Bool.eq_false_iff]
  intro space
  have none : ∀ d ∈ spaces, isNameChar d = false := by decide
  exact absurd isName (Bool.eq_false_iff.mp (none c (List.contains_iff_mem.mp space)))

theorem lstrip_name (name rest : Text) (nonempty : name ≠ []) (isName : ∀ c ∈ name, isNameChar c = true) : lstrip (name ++ rest) = name ++ rest := by
  cases name with
  | nil => exact absurd rfl nonempty
  | cons c name => exact lstrip_solid c _ (name_char_solid c (isName c List.mem_cons_self))

-- It opens settings when what comes after the colon is a name and a brace.
theorem open_settings_line (name rest : Text) (nonempty : name ≠ []) (isName : ∀ c ∈ name, isNameChar c = true) :
    openSettings (name ++ ':' :: rest) = (openName rest).map fun settingsName => (name, settingsName) := by
  have take := take_to_stop isNameChar name rest ':' isName (by decide)
  have drop := drop_to_stop isNameChar name rest ':' isName (by decide)
  have untyped : openName (name ++ ':' :: rest) = none := by
    rw [openName, lstrip_name name _ nonempty isName, drop, lstrip_solid ':' rest (by decide), if_neg]
    rw [Bool.and_eq_true]
    exact fun both => absurd both.2 (by rw [List.head?_cons]; decide)
  rw [openSettings, take, drop, untyped]
  simp only
  rw [if_neg (by simpa using nonempty), Option.map_none, Option.or_none]

theorem open_name_header (name : Text) (nonempty : name ≠ []) (isName : ∀ c ∈ name, isNameChar c = true) :
    openName (' ' :: name ++ [' ', '\x7b']) = some name := by
  have take := take_to_stop isNameChar name ['\x7b'] ' ' isName (by decide)
  have drop := drop_to_stop isNameChar name ['\x7b'] ' ' isName (by decide)
  have start : lstrip (' ' :: name ++ [' ', '\x7b']) = name ++ [' ', '\x7b'] :=
    (lstrip_spaces [' '] _ (by decide)).trans (lstrip_name name _ nonempty isName)
  rw [openName, start, take, drop, if_pos]
  rw [Bool.and_eq_true]
  exact ⟨by simpa using nonempty, by decide⟩

end Reading

section Comments

def uncommented (text : Text) : Text := text.takeWhile fun c => c != '#'

theorem strip_comment_line (line : Text) : stripComment (line ++ ['\n']) = uncommented line ++ ['\n'] := by
  rw [stripComment]
  by_cases comment : '#' ∈ line
  · have listed : (line ++ ['\n']).contains '#' = true := List.contains_iff_mem.mpr (List.mem_append_left _ comment)
    obtain ⟨first, rest, split, absent⟩ := List.eq_append_cons_of_mem comment
    have before : ∀ c ∈ first, (c != '#') = true := fun c member => by simpa using fun same : c = '#' => absent (same ▸ member)
    have take : ∀ end_ : Text, (first ++ '#' :: end_).takeWhile (fun c => c != '#') = first :=
      fun end_ => take_to_stop _ first end_ '#' before (by decide)
    rw [if_pos listed, List.getLast?_concat, uncommented, split, List.append_assoc, List.cons_append, take, take]
    rfl
  · have missing : '#' ∉ line ++ ['\n'] := by
      intro member
      rcases List.mem_append.mp member with inLine | isEnd
      · exact comment inLine
      · exact absurd (List.mem_singleton.mp isEnd) (by decide)
    rw [if_neg fun listed => missing (List.contains_iff_mem.mp listed), uncommented, List.takeWhile_eq_self_iff.mpr]
    intro c member
    simpa using fun same : c = '#' => comment (same ▸ member)

theorem uncommented_append (first rest : Text) (plain : '#' ∉ first) : uncommented (first ++ rest) = first ++ uncommented rest :=
  List.takeWhile_append_of_pos fun c member => by simpa using fun same : c = '#' => plain (same ▸ member)

theorem uncommented_plain (text : Text) (plain : '#' ∉ text) : uncommented text = text :=
  List.takeWhile_eq_self_iff.mpr fun c member => by simpa using fun same : c = '#' => plain (same ▸ member)

theorem uncommented_without (text : Text) : '#' ∉ uncommented text := by
  intro member
  exact absurd (List.mem_takeWhile_imp member) (by decide)

theorem uncommented_member (text : Text) (c : Char) (member : c ∈ uncommented text) : c ∈ text := List.takeWhile_subset _ member

-- What the reader makes of "name: value".
theorem current_field_line (indent name value : Text) (space : ∀ c ∈ indent, isSpace c = true) (plain : '#' ∉ indent ++ name)
    (nonempty : name ≠ []) (isWord : ∀ c ∈ name, isWordChar c = true) :
    ∃ rest, strip (stripComment (indent ++ name ++ ':' :: ' ' :: value ++ ['\n'])) = name ++ ':' :: rest ∧
      lstrip rest = strip (uncommented value) ∧ ∀ c ∈ rest, c ∈ ' ' :: value := by
  have uncomment : uncommented (indent ++ name ++ ':' :: ' ' :: value) = indent ++ (name ++ ':' :: ' ' :: uncommented value) := by
    rw [uncommented_append _ _ plain, List.append_assoc]
    rfl
  refine ⟨rstrip (' ' :: uncommented value), ?_, ?_, ?_⟩
  · rw [strip_comment_line, uncomment, strip, List.append_assoc, lstrip_spaces indent _ space, List.append_assoc,
      lstrip_name name _ nonempty fun c member => name_char_of_word c (isWord c member)]
    have newline : name ++ (':' :: ' ' :: uncommented value ++ ['\n']) = (name ++ ':' :: ' ' :: uncommented value) ++ ['\n'] :=
      (List.append_assoc _ _ _).symm
    rw [newline, rstrip_newline, rstrip_append name _ ':' (by decide)]
  · rw [lstrip_rstrip, strip, strip]
    exact congrArg rstrip (lstrip_spaces [' '] _ (by decide))
  · intro c member
    rcases List.mem_cons.mp ((rstrip_starts _).subset member) with isBlank | found
    · rw [isBlank]
      exact List.mem_cons_self
    · exact List.mem_cons_of_mem _ (uncommented_member value c found)

theorem current_comment_line (path : Text) : strip (stripComment (actualImage path ++ ['\n'])) = [] := by
  have uncomment : uncommented (actualImage path) = ['\t'] :=
    take_to_stop _ ['\t'] ("actual_image: ".toList ++ path) '#' (by decide) (by decide)
  rw [strip_comment_line, uncomment]
  decide

end Comments

section Values

theorem kept_line (text rest : Text) (oneLine : '\n' ∉ text) (suffix : rest <:+ text) :
    (lstrip rest).takeWhile (fun c => c != '\n') = lstrip rest :=
  List.takeWhile_eq_self_iff.mpr fun c member => by
    have found : c ∈ text := ((List.dropWhile_suffix isSpace).trans suffix).subset member
    simpa using fun same : c = '\n' => oneLine (same ▸ found)

theorem rest_suffix (text value : Text) (oneLine : '\n' ∉ text) (read : fieldRest text = some value) :
    value <:+ text ∧ ∀ c, value.head? = some c → isSpace c = false := by
  have ofColon : ∀ part found, part <:+ text → colonValue part = some found →
      found <:+ text ∧ ∀ c, found.head? = some c → isSpace c = false := by
    intro part found inText colon
    rw [colonValue] at colon
    split at colon
    · rename_i rest start
      have restSuffix : rest <:+ text :=
        (List.suffix_cons ':' rest).trans (start ▸ (List.dropWhile_suffix isSpace).trans inText)
      rw [kept_line text rest oneLine restSuffix, Option.some_inj] at colon
      rw [← colon]
      exact ⟨(List.dropWhile_suffix isSpace).trans restSuffix, lstrip_first rest⟩
    · exact absurd colon nofun
  rw [fieldRest.eq_def] at read
  split at read
  · rename_i rest
    have restSuffix : rest <:+ '.' :: rest := List.suffix_cons '.' rest
    simp only at read
    split at read
    · exact absurd read nofun
    · rcases Option.or_eq_some_iff.mp read with colon | ⟨-, split⟩
      · exact ofColon _ value ((List.drop_suffix _ rest).trans restSuffix) colon
      · split at split
        · have tail : ((word rest).reverse.takeWhile fun c => c != ':').reverse <:+ word rest := by
            have taken := List.reverse_suffix.mpr (List.takeWhile_prefix (l := (word rest).reverse) fun c => c != ':')
            rwa [List.reverse_reverse] at taken
          have whole : word rest ++ rest.drop (word rest).length = rest := List.prefix_iff_eq_append.mp (List.takeWhile_prefix _)
          obtain ⟨first, parts⟩ := tail
          have afterColon : ((word rest).reverse.takeWhile fun c => c != ':').reverse ++ rest.drop (word rest).length <:+ '.' :: rest := by
            apply List.IsSuffix.trans ⟨first, ?_⟩ restSuffix
            rw [← List.append_assoc, parts]
            exact whole
          rw [kept_line ('.' :: rest) _ oneLine afterColon, Option.some_inj] at split
          rw [← split]
          exact ⟨(List.dropWhile_suffix isSpace).trans afterColon, lstrip_first _⟩
        · exact absurd split nofun
  · exact ofColon text value (List.suffix_refl _) read

theorem field_value_trimmed (line : Text) (field : ParsedField) (trimmed : Trimmed line) (oneLine : '\n' ∉ line)
    (read : fieldValue line = some field) : Trimmed field.value ∧ '\n' ∉ field.value := by
  have inLine : ∀ append : Bool, (lstrip (if append then line.tail else line)).dropWhile isWordChar <:+ line := by
    intro append
    refine (List.dropWhile_suffix isWordChar).trans ((List.dropWhile_suffix isSpace).trans ?_)
    cases append with
    | true => exact List.tail_suffix line
    | false => exact List.suffix_refl line
  rw [fieldValue] at read
  obtain ⟨value, found, rfl⟩ := Option.map_eq_some_iff.mp (Option.ite_none_left_eq_some.mp read).2
  have suffix := inLine (line.head? == some '+')
  obtain ⟨inRest, first⟩ := rest_suffix _ value (fun member => oneLine (suffix.subset member)) found
  have valueSuffix := inRest.trans suffix
  refine ⟨⟨first, ?_⟩, fun member => oneLine (valueSuffix.subset member)⟩
  intro c last
  apply trimmed.last c
  obtain ⟨before, parts⟩ := valueSuffix
  rw [← parts, List.getLast?_append, last]
  rfl

theorem line_of_readlines (text line : Text) (member : line ∈ readlines text) :
    ∃ rest, '\n' ∉ rest ∧ (line = rest ∨ line = rest ++ ['\n']) := by
  induction text generalizing line with
  | nil => exact absurd member List.not_mem_nil
  | cons c text ih =>
      rw [readlines] at member
      split at member
      · rename_i newline
        rcases List.mem_cons.mp member with same | later
        · rw [beq_iff_eq] at newline
          exact ⟨[], List.not_mem_nil, .inr (by rw [same, newline]; rfl)⟩
        · exact ih line later
      · rename_i other
        have notNewline : '\n' ≠ c := fun same => other (by rw [← same]; exact beq_self_eq_true _)
        split at member
        · rw [List.mem_singleton] at member
          exact ⟨[c], fun found => notNewline (List.mem_singleton.mp found), .inl member⟩
        · rename_i first lines others
          rcases List.mem_cons.mp member with same | later
          · obtain ⟨rest, oneLine, shape⟩ := ih first (by rw [others]; exact List.mem_cons_self)
            have absent : '\n' ∉ c :: rest := by
              intro found
              rcases List.mem_cons.mp found with isFirst | inRest
              · exact notNewline isFirst
              · exact oneLine inRest
            refine ⟨c :: rest, absent, ?_⟩
            rw [same]
            rcases shape with plain | ended
            · exact .inl (by rw [plain])
            · exact .inr (by rw [ended]; rfl)
          · exact ih line (by rw [others]; exact List.mem_cons_of_mem _ later)

theorem current_line_plain (text line : Text) (member : line ∈ readlines text) : '\n' ∉ strip (stripComment line) := by
  obtain ⟨rest, oneLine, shape⟩ := line_of_readlines text line member
  rcases shape with same | ended
  · rw [same]
    intro found
    have inComment := strip_member _ _ found
    rw [stripComment] at inComment
    split at inComment
    · rcases List.mem_append.mp inComment with before | last
      · exact oneLine (List.takeWhile_subset _ before)
      · exact oneLine (List.mem_of_getLast? (Option.mem_toList.mp last))
    · exact oneLine inComment
  · rw [ended, strip_comment_line]
    intro found
    rw [← lstrip_rstrip, rstrip_newline] at found
    have inRest := (rstrip_starts _).subset ((List.dropWhile_suffix isSpace).subset found)
    exact oneLine (uncommented_member rest _ inRest)

end Values

end ToolchainUtils.Crosperf.ExperimentFile
