import ToolchainUtils.Crosperf.CanonicalFile

set_option autoImplicit false

namespace ToolchainUtils.Crosperf.ExperimentFile

open PyString

-- The text with everything from the first # to the end of each line deleted.
def deleteComments : Bool → Text → Text
  | _, [] => []
  | inComment, c :: rest =>
      if c == '\n' then c :: deleteComments false rest
      else if inComment || c == '#' then deleteComments true rest
      else c :: deleteComments false rest

def withoutComments (text : Text) : Text := deleteComments false text

-- What stands behind the last newline, and what it stands behind.
def lastLine (text : Text) : Text := text.rtakeWhile fun c => c != '\n'

def wholeLines (text : Text) : Text := text.rdropWhile fun c => c != '\n'

section Lines

def ended (line : Text) : Text := line ++ ['\n']

theorem delete_in_line (inComment : Bool) (line rest : Text) (oneLine : '\n' ∉ line) :
    deleteComments inComment (line ++ rest) =
      (if inComment then [] else uncommented line) ++ deleteComments (inComment || line.contains '#') rest := by
  induction line generalizing inComment with
  | nil => cases inComment <;> rfl
  | cons c line ih =>
      obtain ⟨other, later⟩ := List.ne_and_not_mem_of_not_mem_cons oneLine
      have plain : (c == '\n') = false := by simpa using Ne.symm other
      rw [List.cons_append, deleteComments, plain, if_neg Bool.false_ne_true]
      cases inComment with
      | true => simpa using ih true later
      | false =>
          by_cases comment : c = '#'
          · subst comment
            simpa [uncommented] using ih true later
          · simpa [uncommented, comment, Ne.symm comment] using ih false later

theorem delete_line_comment (line rest : Text) (oneLine : '\n' ∉ line) :
    withoutComments (line ++ '\n' :: rest) = uncommented line ++ '\n' :: withoutComments rest := by
  rw [withoutComments, delete_in_line false line _ oneLine, deleteComments, if_pos (beq_self_eq_true _)]
  rfl

theorem delete_last_comment (line : Text) (oneLine : '\n' ∉ line) : withoutComments line = uncommented line := by
  have whole := delete_in_line false line [] oneLine
  rw [List.append_nil, deleteComments, List.append_nil] at whole
  exact whole

theorem delete_comments_lines (lines : List Text) (last : Text) (oneLine : ∀ line ∈ lines, '\n' ∉ line) (lastLine : '\n' ∉ last) :
    withoutComments (lines.flatMap ended ++ last) = (lines.map uncommented).flatMap ended ++ uncommented last := by
  induction lines with
  | nil => exact delete_last_comment last lastLine
  | cons line rest ih =>
      obtain ⟨own, others⟩ := List.forall_mem_cons.mp oneLine
      rw [List.flatMap_cons, ended, List.append_assoc, List.append_assoc, List.singleton_append, delete_line_comment line _ own, ih others,
        List.map_cons, List.flatMap_cons, ended, List.append_assoc, List.append_assoc, List.singleton_append]

theorem readlines_whole (lines : List Text) (last : Text) (oneLine : ∀ line ∈ lines, '\n' ∉ line) (lastLine : '\n' ∉ last) :
    readlines (lines.flatMap ended ++ last) = lines.map ended ++ if last = [] then [] else [last] := by
  induction lines with
  | nil => exact readlines_last last lastLine
  | cons line rest ih =>
      obtain ⟨own, others⟩ := List.forall_mem_cons.mp oneLine
      rw [List.flatMap_cons, ended, List.append_assoc, List.append_assoc, List.singleton_append, readlines_line line _ own, ih others]
      rfl

theorem text_lines (text : Text) : ∃ (lines : List Text) (last : Text), (∀ line ∈ lines, '\n' ∉ line) ∧ '\n' ∉ last ∧ text = lines.flatMap ended ++ last := by
  induction text with
  | nil => exact ⟨[], [], nofun, List.not_mem_nil, rfl⟩
  | cons c rest ih =>
      obtain ⟨lines, last, oneLine, noEnd, split⟩ := ih
      by_cases newline : c = '\n'
      · refine ⟨[] :: lines, last, List.forall_mem_cons.mpr ⟨List.not_mem_nil, oneLine⟩, noEnd, ?_⟩
        rw [split, newline]
        rfl
      · cases lines with
        | nil => exact ⟨[], c :: last, nofun, List.not_mem_cons_of_ne_of_not_mem (Ne.symm newline) noEnd, by rw [split]; rfl⟩
        | cons first others =>
            obtain ⟨own, later⟩ := List.forall_mem_cons.mp oneLine
            refine ⟨(c :: first) :: others, last, List.forall_mem_cons.mpr ⟨List.not_mem_cons_of_ne_of_not_mem (Ne.symm newline) own, later⟩, noEnd, ?_⟩
            rw [split]
            rfl

theorem last_line_split (lines : List Text) (last : Text) (noEnd : '\n' ∉ last) :
    lastLine (lines.flatMap ended ++ last) = last ∧ wholeLines (lines.flatMap ended ++ last) = lines.flatMap ended := by
  have whole : (lines.flatMap ended ++ last).rdropWhile (fun c => c != '\n') = lines.flatMap ended := by
    induction last using List.reverseRecOn with
    | nil =>
        rw [List.append_nil, List.rdropWhile_eq_self_iff]
        intro nonempty
        obtain ⟨before, line, rfl⟩ := List.eq_nil_or_concat lines |>.resolve_left fun empty => nonempty (by rw [empty]; rfl)
        simp [ended]
    | append_singleton before c ih =>
        have plain : (c != '\n') = true := by simpa using fun same : c = '\n' => noEnd (same ▸ List.mem_append_right _ List.mem_cons_self)
        rw [← List.append_assoc, List.rdropWhile_concat_pos (fun c => c != '\n') _ c plain]
        exact ih fun member => noEnd (List.mem_append_left _ member)
  refine ⟨?_, whole⟩
  have split := List.rdropWhile_append_rtakeWhile (p := fun c => c != '\n') (l := lines.flatMap ended ++ last)
  rw [whole] at split
  exact List.append_cancel_left split

end Lines

section Parsing

def lineStep (parser : Parser) (line : Text) : Option Parser :=
  if line.isEmpty then some parser
  else
    match parser.block with
    | none => parser.topLine line
    | some block => parser.blockLine block line

def finish (parser : Parser) : Option Experiment :=
  if parser.block.isSome then none
  else
    let settings := parser.settings.map parser.global.inherit
    if parser.global.validate && settings.all Settings.validate then some ⟨parser.global, settings⟩ else none

theorem finish_closed (parser : Parser) (closed : parser.block = none) :
    finish parser = some ⟨parser.global, parser.settings.map parser.global.inherit⟩ :=
  (finished parser _).mpr ⟨closed, rfl⟩

theorem finish_open (parser : Parser) (block : Settings) (isOpen : parser.block = some block) : finish parser = none := by
  rw [finish, isOpen, Option.isSome_some, if_pos rfl]

theorem plain_strip_comment (line : Text) (plain : '#' ∉ line) : stripComment line = line := by
  rw [stripComment, if_neg fun listed => plain (List.contains_iff_mem.mp listed)]

theorem whole_line_step (parser : Parser) (line : Text) : parser.nextLine (ended (uncommented line)) = parser.nextLine (ended line) := by
  have same : stripComment (ended (uncommented line)) = stripComment (ended line) := by
    rw [ended, ended, strip_comment_line, strip_comment_line, uncommented_plain _ (uncommented_without line)]
  rw [Parser.nextLine, Parser.nextLine, same]

theorem whole_lines_fold (lines : List Text) (parser : Parser) :
    (lines.map (ended ∘ uncommented)).foldlM Parser.nextLine parser = (lines.map ended).foldlM Parser.nextLine parser := by
  rw [List.foldlM_map, List.foldlM_map]
  congr 1
  funext state line
  exact whole_line_step state line

-- The parser after the whole lines, if none of them is an error.
def parsedLines (text : Text) : Option Parser := (readlines (wholeLines text)).foldlM Parser.nextLine Parser.start

-- What is left of the last line, as the reader strips it and with its comment deleted.
def readLast (text : Text) : Text := strip (stripComment (lastLine text))

def keptLast (text : Text) : Text := strip (uncommented (lastLine text))

theorem parse_last (text : Text) :
    parse text = (parsedLines text).bind (fun parser => (lineStep parser (readLast text)).bind finish) ∧
      parse (withoutComments text) = (parsedLines text).bind fun parser => (lineStep parser (keptLast text)).bind finish := by
  obtain ⟨lines, last, oneLine, noEnd, split⟩ := text_lines text
  obtain ⟨isLast, isWhole⟩ := last_line_split lines last noEnd
  have lastFold (line : Text) (parser : Parser) :
      (if line = [] then [] else [line]).foldlM Parser.nextLine parser = parser.nextLine line := by
    by_cases empty : line = []
    · rw [empty]
      rfl
    · rw [if_neg empty, List.foldlM_cons]
      exact bind_pure _
  have folded (lines : List Text) (last : Text) (oneLine : ∀ line ∈ lines, '\n' ∉ line) (noEnd : '\n' ∉ last) :
      parse (lines.flatMap ended ++ last) =
        ((lines.map ended).foldlM Parser.nextLine Parser.start).bind fun parser => (parser.nextLine last).bind finish := by
    rw [parse, readlines_whole lines last oneLine noEnd, List.foldlM_append]
    simp only [lastFold]
    exact Option.bind_assoc _ _ _
  have whole : parsedLines text = (lines.map ended).foldlM Parser.nextLine Parser.start := by
    have exact_lines := readlines_whole lines [] oneLine List.not_mem_nil
    rw [List.append_nil, if_pos rfl, List.append_nil] at exact_lines
    rw [parsedLines, split, isWhole, exact_lines]
  constructor
  · rw [whole, readLast, split, isLast]
    exact folded lines last oneLine noEnd
  · have shorter : ∀ line ∈ lines.map uncommented, '\n' ∉ line := by
      intro line member newline
      obtain ⟨own, listed, rfl⟩ := List.mem_map.mp member
      exact oneLine own listed (uncommented_member own _ newline)
    have lastShorter : '\n' ∉ uncommented last := fun newline => noEnd (uncommented_member last _ newline)
    rw [whole, keptLast, split, isLast, delete_comments_lines lines last oneLine noEnd, folded _ _ shorter lastShorter, List.map_map,
      whole_lines_fold]
    congr 1
    funext parser
    rw [Parser.nextLine, plain_strip_comment _ (uncommented_without last)]
    rfl

end Parsing

section Outcomes

variable (parser : Parser)

-- The global settings after a line outside a block, unless it is an error or opens a block.
def globalAfter (line : Text) : Option Settings :=
  if line.isEmpty then some parser.global
  else
    match openSettings line with
    | some _ => none
    | none => (fieldValue line).bind fun field => parser.global.setField field.append field.name field.value

def Closes (line : Text) : Prop := line.head? = some '\x7d'

-- Whether the last line has its last character or not makes no difference.
def Harmless (line kept : Text) : Prop :=
  match parser.block with
  | none => globalAfter parser line = globalAfter parser kept
  | some block => Closes line → Closes kept ∨ block.name ∈ parser.settings.map Settings.name

theorem global_outcome (outside : parser.block = none) (line : Text) : (lineStep parser line).bind finish =
    (globalAfter parser line).map fun global => ⟨global, parser.settings.map global.inherit⟩ := by
  rw [lineStep, globalAfter, outside]
  by_cases empty : line.isEmpty
  · rw [if_pos empty, if_pos empty]
    exact finish_closed parser outside
  · rw [if_neg empty, if_neg empty]
    simp only [Parser.topLine]
    cases openSettings line with
    | some opened =>
        simp only
        cases getSettings opened.2 opened.1 with
        | none => rfl
        | some block => exact finish_open _ block rfl
    | none =>
        simp only
        cases fieldValue line with
        | none => rfl
        | some field =>
            simp only [Option.bind_some]
            cases parser.global.setField field.append field.name field.value with
            | none => rfl
            | some global => exact finish_closed { parser with global := global } outside

theorem closing_is_no_field (line : Text) (closes : Closes line) : fieldValue line = none := by
  obtain ⟨rest, rfl⟩ := List.head?_eq_some_iff.mp closes
  rfl

theorem block_outcome (block : Settings) (inside : parser.block = some block) (line : Text) :
    (Closes line → (lineStep parser line).bind finish = (parser.close block).bind finish) ∧
      (¬ Closes line → (lineStep parser line).bind finish = none) := by
  rw [lineStep, inside]
  constructor
  · intro closes
    have nonempty : line.isEmpty = false := by
      obtain ⟨rest, rfl⟩ := List.head?_eq_some_iff.mp closes
      rfl
    have isClose : (line.head? == some '\x7d') = true := beq_iff_eq.mpr closes
    simp only [nonempty, Bool.false_eq_true, if_false, Parser.blockLine, closing_is_no_field line closes, isClose, if_true]
  · intro other
    by_cases empty : line.isEmpty
    · rw [if_pos empty]
      exact finish_open parser block inside
    · have notClose : (line.head? == some '\x7d') = false := beq_eq_false_iff_ne.mpr other
      rw [if_neg empty]
      simp only [Parser.blockLine, notClose, Bool.false_eq_true, if_false]
      cases fieldValue line with
      | none => exact finish_open parser block inside
      | some field =>
          simp only
          cases block.setField field.append field.name field.value with
          | none => rfl
          | some after => exact finish_open _ after rfl

theorem close_outcome (block : Settings) : (parser.close block).bind finish = none ↔ block.name ∈ parser.settings.map Settings.name := by
  have taken : parser.settings.any (fun other => other.name == block.name) = true ↔ block.name ∈ parser.settings.map Settings.name := by
    simp
  rw [Parser.close, ← taken]
  by_cases used : parser.settings.any fun other => other.name == block.name
  · rw [if_pos used]
    exact ⟨fun _ => used, fun _ => rfl⟩
  · rw [if_neg used, Option.bind_some, finish_closed _ rfl]
    exact iff_of_false (Option.some_ne_none _) used

theorem harmless_iff (line kept : Text) (keeps : Closes kept → Closes line) :
    (lineStep parser line).bind finish = (lineStep parser kept).bind finish ↔ Harmless parser line kept := by
  rw [Harmless]
  cases inside : parser.block with
  | none =>
      rw [global_outcome parser inside, global_outcome parser inside]
      refine ⟨fun same => ?_, fun same => by rw [same]⟩
      refine Option.map_injective (fun first second equal => ?_) same
      exact (Experiment.mk.inj equal).1
  | some block =>
      obtain ⟨closing, other⟩ := block_outcome parser block inside line
      obtain ⟨keptClosing, keptOther⟩ := block_outcome parser block inside kept
      by_cases closes : Closes line
      · rw [closing closes]
        by_cases keptCloses : Closes kept
        · rw [keptClosing keptCloses]
          exact ⟨fun _ _ => .inl keptCloses, fun _ => rfl⟩
        · rw [keptOther keptCloses, close_outcome]
          exact ⟨fun taken _ => .inr taken, fun harmless => (harmless closes).resolve_left keptCloses⟩
      · rw [other closes, keptOther fun keptCloses => closes (keeps keptCloses)]
        exact ⟨fun _ closing => absurd closing closes, fun _ => rfl⟩

end Outcomes

section Comments

theorem strip_head_kept (text : Text) (last c : Char) (head : (strip text).head? = some c) : (strip (text ++ [last])).head? = some c := by
  have solid : isSpace c = false := (strip_is_trimmed text).first c head
  obtain ⟨rest, isStrip⟩ := List.head?_eq_some_iff.mp head
  obtain ⟨end_, isLeft⟩ : ∃ end_, lstrip text = c :: rest ++ end_ := by
    obtain ⟨end_, same⟩ := rstrip_starts (lstrip text)
    exact ⟨end_, by rw [← same, ← strip, isStrip]⟩
  have longer : lstrip (text ++ [last]) = c :: (rest ++ end_ ++ [last]) := by
    rw [lstrip, List.dropWhile_append, ← lstrip, isLeft]
    rfl
  rw [strip, longer]
  exact congrArg List.head? (rstrip_append [] (rest ++ end_ ++ [last]) c solid)

theorem kept_closes (text : Text) (closes : Closes (keptLast text)) : Closes (readLast text) := by
  by_cases comment : '#' ∈ lastLine text
  · have listed : (lastLine text).contains '#' = true := List.contains_iff_mem.mpr comment
    have isLast := List.getLast?_eq_some_getLast (List.ne_nil_of_mem comment)
    rw [Closes, readLast, stripComment, if_pos listed, isLast]
    exact strip_head_kept (uncommented (lastLine text)) _ _ closes
  · rw [Closes, readLast, plain_strip_comment _ comment, ← uncommented_plain _ comment]
    exact closes

-- The last line is whole or has no comment; or an earlier line is an error already; or the
-- character that the reader puts back behind the last line is harmless.
def CommentsIgnored (text : Text) : Prop :=
  '#' ∉ lastLine text ∨ parsedLines text = none ∨ ∃ parser, parsedLines text = some parser ∧ Harmless parser (readLast text) (keptLast text)

theorem comments_ignored_iff (text : Text) : parse text = parse (withoutComments text) ↔ CommentsIgnored text := by
  obtain ⟨parsed, deleted⟩ := parse_last text
  rw [parsed, deleted, CommentsIgnored]
  by_cases comment : '#' ∈ lastLine text
  · cases whole : parsedLines text with
    | none => exact ⟨fun _ => .inr (.inl rfl), fun _ => rfl⟩
    | some parser =>
        rw [Option.bind_some, Option.bind_some, harmless_iff parser _ _ (kept_closes text)]
        simp [comment]
  · have same : readLast text = keptLast text := by
      rw [readLast, keptLast, plain_strip_comment _ comment, uncommented_plain _ comment]
    rw [same]
    exact ⟨fun _ => .inl comment, fun _ => rfl⟩

-- Without a newline behind it the last character of a comment becomes part of the value.
theorem last_comment_read : parse "board: lumpy # daily".toList ≠ parse (withoutComments "board: lumpy # daily".toList) := by
  intro same
  have boards := congrArg (Option.map fun experiment => experiment.global.getString "board".toList) same
  exact absurd boards (by decide)

end Comments

end ToolchainUtils.Crosperf.ExperimentFile
