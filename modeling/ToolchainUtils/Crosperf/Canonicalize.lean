import Mathlib.Data.List.Forall2
import ToolchainUtils.Crosperf.CanonicalFile

set_option autoImplicit false

namespace ToolchainUtils.Crosperf.ExperimentFile

open PyString

abbrev Entry := Text × Value

section Reassign

variable (read : Entry → Option Value)

-- Assigning a field for each entry, with what the entry's line is read as.
def reassign (entries : List Entry) (settings : Settings) : Option Settings :=
  entries.foldlM (fun settings entry => (read entry).map (settings.assign entry.1)) settings

theorem reassign_cons (entry : Entry) (rest : List Entry) (settings : Settings) :
    reassign read (entry :: rest) settings = (read entry).bind fun value => reassign read rest (settings.assign entry.1 value) := by
  rw [reassign, List.foldlM_cons]
  cases read entry with
  | none => rfl
  | some value => rfl

theorem reassign_kept (entries : List Entry) (settings after : Settings) (ran : reassign read entries settings = some after) :
    after.name = settings.name ∧ after.settingsType = settings.settingsType ∧
      ∀ name, name ∉ entries.map Prod.fst → after.values name = settings.values name := by
  induction entries generalizing settings with
  | nil =>
      obtain rfl : settings = after := Option.some_inj.mp ran
      exact ⟨rfl, rfl, fun _ _ => rfl⟩
  | cons entry rest ih =>
      rw [reassign_cons] at ran
      obtain ⟨value, -, ran⟩ := Option.bind_eq_some_iff.mp ran
      obtain ⟨name, settingsType, values⟩ := ih _ ran
      refine ⟨name, settingsType, ?_⟩
      intro other absent
      rw [List.map_cons, List.mem_cons, not_or] at absent
      rw [values other absent.2, assign_values, if_neg absent.1]

theorem reassign_read (entries : List Entry) (settings after : Settings) (distinct : (entries.map Prod.fst).Nodup)
    (ran : reassign read entries settings = some after) :
    ∀ entry ∈ entries, (read entry).isSome ∧ after.values entry.1 = read entry := by
  induction entries generalizing settings with
  | nil => exact fun _ member => absurd member List.not_mem_nil
  | cons entry rest ih =>
      rw [reassign_cons] at ran
      obtain ⟨value, found, ran⟩ := Option.bind_eq_some_iff.mp ran
      rw [List.map_cons, List.nodup_cons] at distinct
      intro other member
      rcases List.mem_cons.mp member with same | later
      · have kept := (reassign_kept read rest _ after ran).2.2 entry.1 distinct.1
        rw [same, kept, assign_values, if_pos rfl, found]
        exact ⟨rfl, rfl⟩
      · exact ih _ distinct.2 ran other later

theorem reassign_succeeds (entries : List Entry) (settings : Settings) (same : ∀ entry ∈ entries, read entry = some entry.2) :
    ∃ after, reassign read entries settings = some after := by
  induction entries generalizing settings with
  | nil => exact ⟨settings, rfl⟩
  | cons entry rest ih =>
      rw [reassign_cons, same entry List.mem_cons_self, Option.bind_some]
      exact ih _ fun other member => same other (List.mem_cons_of_mem _ member)

end Reassign

section Assigned

variable (environment : Environment) (settings : Settings)

theorem assigned_iff (entry : Entry) : entry ∈ settings.assigned environment ↔
    ∃ spec ∈ fields settings.settingsType, spec.name = entry.1 ∧ settings.values entry.1 = some entry.2 := by
  rw [Settings.assigned, List.mem_filterMap]
  constructor
  · intro ⟨spec, member, mapped⟩
    obtain ⟨value, assigned, rfl⟩ := Option.map_eq_some_iff.mp mapped
    exact ⟨spec, (environment.order_perm _).mem_iff.mp member, rfl, assigned⟩
  · intro ⟨spec, member, name, assigned⟩
    refine ⟨spec, (environment.order_perm _).mem_iff.mpr member, ?_⟩
    rw [name, assigned]
    rfl

theorem assigned_sound (sound : settings.Sound) (name : Text) (value : Value) :
    (name, value) ∈ settings.assigned environment ↔ settings.values name = some value := by
  rw [assigned_iff]
  constructor
  · exact fun ⟨_, _, _, assigned⟩ => assigned
  · intro assigned
    obtain ⟨spec, found, -⟩ := sound name value assigned
    obtain ⟨member, specName⟩ := spec_member settings name spec found
    exact ⟨spec, member, specName, assigned⟩

theorem assigned_distinct : ((settings.assigned environment).map Prod.fst).Nodup := by
  have names : ((environment.order (fields settings.settingsType)).map FieldSpec.name).Nodup :=
    ((environment.order_perm _).map FieldSpec.name).nodup_iff.mpr (field_names_distinct settings.settingsType)
  apply List.Nodup.sublist _ names
  rw [Settings.assigned]
  generalize environment.order (fields settings.settingsType) = specs
  induction specs with
  | nil => exact List.Sublist.refl _
  | cons spec rest ih =>
      cases assigned : settings.values spec.name with
      | none =>
          rw [List.filterMap_cons_none (by rw [assigned]; rfl), List.map_cons]
          exact ih.cons _
      | some value =>
          rw [List.filterMap_cons_some (b := (spec.name, value)) (by rw [assigned]; rfl), List.map_cons, List.map_cons]
          exact ih.cons_cons _

-- Reading back every assigned field with its value makes the settings again.
theorem reassign_same (read : Entry → Option Value) (sound : settings.Sound)
    (same : ∀ entry ∈ settings.assigned environment, read entry = some entry.2) :
    reassign read (settings.assigned environment) (Settings.new settings.name settings.settingsType) = some settings := by
  obtain ⟨after, ran⟩ := reassign_succeeds read (settings.assigned environment) (Settings.new settings.name settings.settingsType) same
  obtain ⟨name, settingsType, kept⟩ := reassign_kept read _ _ after ran
  have values : after.values = settings.values := by
    funext field
    cases assigned : settings.values field with
    | none =>
        rw [kept field]
        · rfl
        · intro member
          obtain ⟨entry, listed, rfl⟩ := List.mem_map.mp member
          have found := (assigned_sound environment settings sound entry.1 entry.2).mp listed
          rw [assigned] at found
          exact absurd found nofun
    | some value =>
        have listed := (assigned_sound environment settings sound field value).mpr assigned
        rw [(reassign_read read _ _ after (assigned_distinct environment settings) ran (field, value) listed).2, same _ listed]
  rw [ran, Option.some_inj]
  cases after
  cases settings
  simp only at name settingsType values
  rw [name, settingsType, values]
  rfl

end Assigned

section Steps

def opensSettings (value : Value) : Bool := (openName (strip (uncommented value.getString))).isSome

def readInBlock (settingsType : SettingsType) (entry : Entry) : Option Value :=
  ((fields settingsType).find? fun spec => spec.name == entry.1).bind fun spec => reread spec.kind entry.2

def readAtTop (entry : Entry) : Option Value := if opensSettings entry.2 then none else readInBlock .global entry

-- An entry of a field that there is, with a value that is printed on one line.
def Printable (settingsType : SettingsType) (entry : Entry) : Prop :=
  (∃ spec ∈ fields settingsType, spec.name = entry.1) ∧ '\n' ∉ entry.2.getString

theorem word_plain (name : Text) (isWord : ∀ c ∈ name, isWordChar c = true) (c : Char) (other : isWordChar c = false) : c ∉ name :=
  fun member => absurd (isWord c member) (Bool.eq_false_iff.mp other)

theorem printed_line (settingsType : SettingsType) (entry : Entry) (printable : Printable settingsType entry) (indent : Text)
    (space : ∀ c ∈ indent, isSpace c = true) (plain : '#' ∉ indent) :
    ∃ rest, strip (stripComment (indent ++ fieldLine entry.1 entry.2 ++ ['\n'])) = entry.1 ++ ':' :: rest ∧
      lstrip rest = strip (uncommented entry.2.getString) ∧ '\n' ∉ rest := by
  obtain ⟨⟨spec, member, name⟩, oneLine⟩ := printable
  obtain ⟨nonempty, isWord⟩ := field_name_word settingsType spec member
  rw [name] at nonempty isWord
  have noComment : '#' ∉ indent ++ entry.1 :=
    fun found => (List.mem_append.mp found).elim plain (word_plain entry.1 isWord '#' (by decide))
  obtain ⟨rest, line, value, chars⟩ := current_field_line indent entry.1 entry.2.getString space noComment nonempty isWord
  refine ⟨rest, ?_, value, ?_⟩
  · simp only [fieldLine, List.append_assoc] at line ⊢
    exact line
  · intro found
    rcases List.mem_cons.mp (chars '\n' found) with isBlank | inValue
    · exact absurd isBlank (by decide)
    · exact oneLine inValue

theorem set_printed (settings : Settings) (entry : Entry) :
    settings.setField false entry.1 (strip (uncommented entry.2.getString)) =
      (readInBlock settings.settingsType entry).map (settings.assign entry.1) := by
  rw [Settings.setField, readInBlock, Settings.spec]
  cases (fields settings.settingsType).find? fun spec => spec.name == entry.1 with
  | none => rfl
  | some spec =>
      simp only [Option.bind_some, Bool.false_eq_true, if_false, reread]
      cases spec.kind.parse (strip (uncommented entry.2.getString)) with
      | none => rfl
      | some value => rfl

theorem top_step (parser : Parser) (entry : Entry) (outside : parser.block = none) (isGlobal : parser.global.settingsType = .global)
    (printable : Printable .global entry) :
    parser.nextLine (fieldLine entry.1 entry.2 ++ ['\n']) =
      (readAtTop entry).map fun value => { parser with global := parser.global.assign entry.1 value } := by
  obtain ⟨rest, line, value, oneLine⟩ := printed_line .global entry printable [] (by decide) (by decide)
  obtain ⟨⟨spec, member, name⟩, -⟩ := printable
  obtain ⟨nonempty, isWord⟩ := field_name_word .global spec member
  rw [name] at nonempty isWord
  rw [List.nil_append] at line
  have notEmpty : (entry.1 ++ ':' :: rest).isEmpty = false := by simp
  have opened := open_settings_line entry.1 rest nonempty fun c found => name_char_of_word c (isWord c found)
  rw [← open_name_lstrip, value] at opened
  rw [Parser.nextLine, line, notEmpty, outside]
  simp only [Bool.false_eq_true, if_false]
  rw [Parser.topLine, opened, readAtTop, opensSettings]
  cases openName (strip (uncommented entry.2.getString)) with
  | some settingsName =>
      have none := global_field_opens_nothing spec member settingsName
      rw [name] at none
      simp [none]
  | none =>
      simp only [Option.map_none, Option.isSome_none, Bool.false_eq_true, if_false]
      rw [field_value_line entry.1 rest nonempty isWord oneLine, Option.bind_some]
      simp only
      rw [value, set_printed, isGlobal, Option.map_map, outside]
      rfl

theorem block_step (parser : Parser) (block : Settings) (entry : Entry) (inside : parser.block = some block)
    (printable : Printable block.settingsType entry) :
    parser.nextLine ('\t' :: fieldLine entry.1 entry.2 ++ ['\n']) =
      (readInBlock block.settingsType entry).map fun value => { parser with block := some (block.assign entry.1 value) } := by
  obtain ⟨rest, line, value, oneLine⟩ := printed_line block.settingsType entry printable ['\t'] (by decide) (by decide)
  obtain ⟨⟨spec, member, name⟩, -⟩ := printable
  obtain ⟨nonempty, isWord⟩ := field_name_word block.settingsType spec member
  rw [name] at nonempty isWord
  have notEmpty : (entry.1 ++ ':' :: rest).isEmpty = false := by simp
  change strip (stripComment ('\t' :: fieldLine entry.1 entry.2 ++ ['\n'])) = _ at line
  rw [Parser.nextLine, line, notEmpty, inside]
  simp only [Bool.false_eq_true, if_false]
  rw [Parser.blockLine, field_value_line entry.1 rest nonempty isWord oneLine]
  simp only
  rw [value, set_printed, Option.map_map]
  rfl

theorem comment_step (parser : Parser) (path : Text) : parser.nextLine (actualImage path ++ ['\n']) = some parser := by
  rw [Parser.nextLine, current_comment_line]
  rfl

theorem blank_step (parser : Parser) : parser.nextLine ([] ++ ['\n']) = some parser := by
  have blank : strip (stripComment ([] ++ ['\n'])) = [] := by decide
  rw [Parser.nextLine, blank]
  rfl

theorem end_step (parser : Parser) (block : Settings) (inside : parser.block = some block) :
    parser.nextLine (['\x7d'] ++ ['\n']) = parser.close block := by
  have line : strip (stripComment (['\x7d'] ++ ['\n'])) = ['\x7d'] := by decide
  have noField : fieldValue ['\x7d'] = none := by decide
  rw [Parser.nextLine, line, inside]
  simp only [List.isEmpty_cons, Bool.false_eq_true, if_false]
  rw [Parser.blockLine, noField]
  rfl

theorem header_step (parser : Parser) (settings : Settings) (outside : parser.block = none) (isName : IsName settings.name) :
    parser.nextLine (settings.header ++ ['\n']) =
      some { parser with block := some (Settings.new settings.name settings.settingsType) } := by
  obtain ⟨nonempty, nameChars⟩ := isName
  have typeChars : ∀ c ∈ typeName settings.settingsType, isNameChar c = true := by cases settings.settingsType <;> decide
  have typeNonempty : typeName settings.settingsType ≠ [] := by cases settings.settingsType <;> decide
  have shape : settings.header = typeName settings.settingsType ++ ':' :: (' ' :: settings.name ++ [' ', '\x7b']) :=
    List.append_assoc _ _ _
  have trimmed : Trimmed settings.header := by
    rw [shape]
    constructor
    · intro c head
      rw [List.head?_append_of_ne_nil _ typeNonempty] at head
      exact name_char_solid c (typeChars c (List.mem_of_head? head))
    · intro c last
      have regroup : typeName settings.settingsType ++ ':' :: (' ' :: settings.name ++ [' ', '\x7b']) =
          typeName settings.settingsType ++ ':' :: ' ' :: settings.name ++ [' '] ++ ['\x7b'] := by simp
      rw [regroup, List.getLast?_concat] at last
      rw [← Option.some_inj.mp last]
      decide
  have plain : '#' ∉ settings.header := by
    have notName : isNameChar '#' = false := by decide
    rw [shape]
    intro member
    rcases List.mem_append.mp member with inType | inRest
    · exact absurd (typeChars '#' inType) (Bool.eq_false_iff.mp notName)
    · have inName : '#' ∈ settings.name := by simpa using inRest
      exact absurd (nameChars '#' inName) (Bool.eq_false_iff.mp notName)
  have line : strip (stripComment (settings.header ++ ['\n'])) = settings.header := by
    rw [strip_comment_line, uncommented_plain _ plain, ← lstrip_rstrip, rstrip_newline, lstrip_rstrip, strip_trimmed _ trimmed]
  have notEmpty : settings.header.isEmpty = false := by
    rw [shape]
    simp
  have made : getSettings settings.name (typeName settings.settingsType) = some (Settings.new settings.name settings.settingsType) := by
    cases settings.settingsType <;> rfl
  rw [Parser.nextLine, line, notEmpty, outside]
  simp only [Bool.false_eq_true, if_false]
  rw [Parser.topLine, shape, open_settings_line _ _ typeNonempty typeChars, open_name_header _ nonempty nameChars]
  simp only [Option.map_some]
  rw [made]
  rfl

end Steps

section Runs

def withEnds (lines : List Text) : List Text := lines.map fun line => line ++ ['\n']

theorem with_ends_append (first second : List Text) : withEnds (first ++ second) = withEnds first ++ withEnds second := List.map_append

theorem top_entries (parser : Parser) (entries : List Entry) (outside : parser.block = none) (isGlobal : parser.global.settingsType = .global)
    (printable : ∀ entry ∈ entries, Printable .global entry) :
    (withEnds (entries.map fun entry => fieldLine entry.1 entry.2)).foldlM Parser.nextLine parser =
      (reassign readAtTop entries parser.global).map fun global => { parser with global := global } := by
  induction entries generalizing parser with
  | nil => rfl
  | cons entry rest ih =>
      have first := top_step parser entry outside isGlobal (printable entry List.mem_cons_self)
      rw [withEnds, List.map_cons, List.map_cons, List.foldlM_cons, first, reassign_cons]
      cases readAtTop entry with
      | none => rfl
      | some value =>
          exact ih { parser with global := parser.global.assign entry.1 value } outside isGlobal
            fun other member => printable other (List.mem_cons_of_mem _ member)

variable (environment : Environment)

theorem image_lines_read (parser : Parser) (value : Value) :
    (withEnds (Settings.imageLines environment value)).foldlM Parser.nextLine parser = some parser := by
  rw [Settings.imageLines]
  split
  · rfl
  · rw [withEnds, List.map_singleton, List.foldlM_cons, comment_step]
    rfl

theorem block_entries (parser : Parser) (block printed : Settings) (board : Text) (entries : List Entry) (inside : parser.block = some block)
    (printable : ∀ entry ∈ entries, Printable block.settingsType entry) (noBuild : ∀ entry ∈ entries, entry.1 ≠ buildField) :
    (withEnds (entries.flatMap (printed.blockFieldLines environment board))).foldlM Parser.nextLine parser =
      (reassign (readInBlock block.settingsType) entries block).map fun block => { parser with block := some block } := by
  induction entries generalizing parser block with
  | nil =>
      change some parser = some { parser with block := some block }
      rw [← inside]
  | cons entry rest ih =>
      have first := block_step parser block entry inside (printable entry List.mem_cons_self)
      have lines : printed.blockFieldLines environment board entry =
          ('\t' :: fieldLine entry.1 entry.2) :: (if entry.1 == chromeosImage then Settings.imageLines environment entry.2 else []) := by
        rw [Settings.blockFieldLines, if_neg (c := (entry.1 == buildField) = true) (by simpa using noBuild entry List.mem_cons_self),
          List.append_nil]
      have comments : ∀ parser, (withEnds (if entry.1 == chromeosImage then Settings.imageLines environment entry.2 else [])).foldlM
          Parser.nextLine parser = some parser := by
        intro parser
        split
        · exact image_lines_read environment parser entry.2
        · rfl
      rw [List.flatMap_cons, lines, with_ends_append, List.foldlM_append]
      change ((withEnds _).foldlM Parser.nextLine parser).bind _ = _
      rw [withEnds, List.map_cons, List.foldlM_cons, first, reassign_cons]
      cases readInBlock block.settingsType entry with
      | none => rfl
      | some value =>
          change ((withEnds (if entry.1 == chromeosImage then Settings.imageLines environment entry.2 else [])).foldlM Parser.nextLine
            { parser with block := some (block.assign entry.1 value) }).bind _ = _
          rw [comments, Option.bind_some]
          exact ih { parser with block := some (block.assign entry.1 value) } (block.assign entry.1 value) rfl
            (fun other member => printable other (List.mem_cons_of_mem _ member))
            fun other member => noBuild other (List.mem_cons_of_mem _ member)

theorem printed_assigned (settings : Settings) (sound : settings.Sound) :
    ∀ entry ∈ settings.assigned environment, Printable settings.settingsType entry := by
  intro entry member
  have assigned := (assigned_sound environment settings sound entry.1 entry.2).mp member
  obtain ⟨spec, found, holds⟩ := sound entry.1 entry.2 assigned
  obtain ⟨listed, name⟩ := spec_member settings entry.1 spec found
  exact ⟨⟨spec, listed, name⟩, one_line spec.kind entry.2 holds⟩

def readSettings (settings : Settings) : Option Settings :=
  reassign (readInBlock settings.settingsType) (settings.assigned environment) (Settings.new settings.name settings.settingsType)

theorem block_parsed (parser : Parser) (settings : Settings) (board : Text) (outside : parser.block = none) (sound : settings.Sound)
    (isName : IsName settings.name) (noBuild : settings.values buildField = none) :
    (withEnds (settings.blockLines environment board)).foldlM Parser.nextLine parser =
      (readSettings environment settings).bind parser.close := by
  let opened : Parser := { parser with block := some (Settings.new settings.name settings.settingsType) }
  have entries := block_entries environment opened (Settings.new settings.name settings.settingsType) settings board
    (settings.assigned environment) rfl (printed_assigned environment settings sound) (by
      intro entry member same
      have assigned := (assigned_sound environment settings sound entry.1 entry.2).mp member
      rw [same, noBuild] at assigned
      exact absurd assigned nofun)
  rw [Settings.blockLines, List.cons_append, withEnds, List.map_cons, List.foldlM_cons, header_step parser settings outside isName]
  change (withEnds ((settings.assigned environment).flatMap (settings.blockFieldLines environment board) ++ [['\x7d'], []])).foldlM
    Parser.nextLine opened = _
  rw [with_ends_append, List.foldlM_append, entries]
  change ((readSettings environment settings).map fun block => { opened with block := some block }).bind _ = _
  cases readSettings environment settings with
  | none => rfl
  | some block =>
      change (withEnds [['\x7d'], []]).foldlM Parser.nextLine { opened with block := some block } = parser.close block
      rw [withEnds, List.map_cons, List.foldlM_cons, end_step _ block rfl, List.map_singleton]
      change (parser.close block).bind (fun parser => [[] ++ ['\n']].foldlM Parser.nextLine parser) = _
      cases parser.close block with
      | none => rfl
      | some closed =>
          change (Parser.nextLine closed ([] ++ ['\n'])).bind some = some closed
          rw [blank_step]
          rfl

-- What parsing the canonical blocks leaves: each printed one, read back.
theorem blocks_parsed (printed : List Settings) (parser : Parser) (board : Text) (outside : parser.block = none)
    (sound : ∀ settings ∈ printed, settings.Sound ∧ IsName settings.name) (noBuild : ∀ settings ∈ printed, settings.values buildField = none) :
    (withEnds (printed.flatMap (Settings.blockLines environment board))).foldlM Parser.nextLine parser =
      printed.foldlM (fun parser settings => (readSettings environment settings).bind parser.close) parser := by
  induction printed generalizing parser with
  | nil => rfl
  | cons settings rest ih =>
      obtain ⟨first, isName⟩ := sound settings List.mem_cons_self
      rw [List.flatMap_cons, with_ends_append, List.foldlM_append,
        block_parsed environment parser settings board outside first isName (noBuild settings List.mem_cons_self), List.foldlM_cons]
      cases read : readSettings environment settings with
      | none => rfl
      | some block =>
          rw [Option.bind_some]
          cases closed : parser.close block with
          | none => rfl
          | some after =>
              obtain ⟨-, rfl⟩ := close_cases parser after block closed
              exact ih _ rfl (fun other member => sound other (List.mem_cons_of_mem _ member))
                fun other member => noBuild other (List.mem_cons_of_mem _ member)

theorem blocks_read (printed : List Settings) (parser after : Parser)
    (ran : printed.foldlM (fun parser settings => (readSettings environment settings).bind parser.close) parser = some after) :
    after.global = parser.global ∧ ∃ blocks, after.settings = parser.settings ++ blocks ∧
      List.Forall₂ (fun settings block => readSettings environment settings = some block) printed blocks := by
  induction printed generalizing parser with
  | nil =>
      obtain rfl : parser = after := Option.some_inj.mp ran
      exact ⟨rfl, [], (List.append_nil _).symm, .nil⟩
  | cons settings rest ih =>
      rw [List.foldlM_cons] at ran
      obtain ⟨middle, closed, ran⟩ := Option.bind_eq_some_iff.mp ran
      obtain ⟨block, read, closed⟩ := Option.bind_eq_some_iff.mp closed
      obtain ⟨-, rfl⟩ := close_cases parser middle block closed
      obtain ⟨global, blocks, split, each⟩ := ih _ ran
      exact ⟨global, block :: blocks, by rw [split, List.append_assoc]; rfl, .cons read each⟩

theorem blocks_same (printed : List Settings) (parser : Parser) (outside : parser.block = none)
    (same : ∀ settings ∈ printed, readSettings environment settings = some settings)
    (distinct : ((parser.settings ++ printed).map Settings.name).Nodup) :
    printed.foldlM (fun parser settings => (readSettings environment settings).bind parser.close) parser =
      some { parser with settings := parser.settings ++ printed } := by
  induction printed generalizing parser with
  | nil => rw [List.append_nil]; rfl
  | cons settings rest ih =>
      have fresh : (parser.settings.any fun other => other.name == settings.name) = false := by
        rw [Bool.eq_false_iff]
        intro taken
        obtain ⟨other, listed, sameName⟩ := List.any_eq_true.mp taken
        rw [List.map_append, List.nodup_append] at distinct
        exact distinct.2.2 other.name (List.mem_map_of_mem listed) settings.name List.mem_cons_self (beq_iff_eq.mp sameName)
      have closed : parser.close settings = some { parser with settings := parser.settings ++ [settings], block := none } := by
        rw [Parser.close, fresh]
        rfl
      rw [List.foldlM_cons, same settings List.mem_cons_self, Option.bind_some, closed]
      refine (ih _ rfl (fun other member => same other (List.mem_cons_of_mem _ member)) ?_).trans ?_
      · rwa [List.append_assoc, List.singleton_append]
      · rw [List.append_assoc, ← outside]
        rfl

end Runs

section Canonical

variable (environment : Environment) (experiment : Experiment)

def printedBlocks : List Settings := experiment.settings.filter fun settings => settings.settingsType != .global

theorem field_line_whole (settingsType : SettingsType) (entry : Entry) (printable : Printable settingsType entry) (indent : Text)
    (plain : '\n' ∉ indent) : '\n' ∉ indent ++ fieldLine entry.1 entry.2 := by
  obtain ⟨⟨spec, member, name⟩, oneLine⟩ := printable
  have isWord := (field_name_word settingsType spec member).2
  rw [name] at isWord
  intro found
  rcases List.mem_append.mp found with inIndent | inLine
  · exact plain inIndent
  · rcases List.mem_append.mp inLine with inName | inValue
    · exact word_plain entry.1 isWord '\n' (by decide) inName
    · have inText : '\n' ∈ entry.2.getString := by simpa using inValue
      exact oneLine inText

theorem image_lines_whole (value : Value) (oneLine : '\n' ∉ value.getString) :
    ∀ line ∈ Settings.imageLines environment value, '\n' ∉ line := by
  intro line member
  rw [Settings.imageLines] at member
  split at member
  · exact absurd member List.not_mem_nil
  · rw [List.mem_singleton.mp member]
    intro found
    rcases List.mem_append.mp found with inComment | inPath
    · exact absurd inComment (by decide)
    · exact environment.realpath_line _ oneLine inPath

theorem header_whole (settings : Settings) (isName : IsName settings.name) : '\n' ∉ settings.header := by
  have typeChars : '\n' ∉ typeName settings.settingsType := by cases settings.settingsType <;> decide
  have notName : isNameChar '\n' = false := by decide
  intro found
  rw [Settings.header] at found
  have inName : '\n' ∈ settings.name := by simpa [typeChars] using found
  exact absurd (isName.2 '\n' inName) (Bool.eq_false_iff.mp notName)

theorem block_lines_whole (settings : Settings) (board : Text) (sound : settings.Sound) (isName : IsName settings.name)
    (noBuild : settings.values buildField = none) : ∀ line ∈ settings.blockLines environment board, '\n' ∉ line := by
  intro line member
  rw [Settings.blockLines] at member
  rcases List.mem_append.mp member with body | isEnd
  · rcases List.mem_cons.mp body with isHeader | inEntry
    · rw [isHeader]
      exact header_whole settings isName
    · obtain ⟨entry, listed, inLines⟩ := List.mem_flatMap.mp inEntry
      have printable := printed_assigned environment settings sound entry listed
      rcases List.mem_cons.mp inLines with isField | isComment
      · rw [isField]
        exact field_line_whole settings.settingsType entry printable ['\t'] (by decide)
      · rcases List.mem_append.mp isComment with image | build
        · split at image
          · exact image_lines_whole environment entry.2 printable.2 line image
          · exact absurd image List.not_mem_nil
        · split at build
          · rename_i isBuild
            have assigned := (assigned_sound environment settings sound entry.1 entry.2).mp listed
            rw [beq_iff_eq.mp isBuild, noBuild] at assigned
            exact absurd assigned nofun
          · exact absurd build List.not_mem_nil
  · rcases List.mem_cons.mp isEnd with isBrace | isBlank
    · rw [isBrace]
      decide
    · rw [List.mem_singleton.mp isBlank]
      decide

theorem canonical_lines (sound : experiment.Sound) (noBuild : ∀ settings ∈ experiment.settings, settings.values buildField = none) :
    readlines (experiment.canonicalize environment) = withEnds (experiment.canonicalLines environment) := by
  apply readlines_lines
  intro line member
  rw [Experiment.canonicalLines] at member
  rcases List.mem_append.mp member with isGlobal | inRest
  · obtain ⟨entry, listed, rfl⟩ := List.mem_map.mp isGlobal
    exact field_line_whole _ entry (printed_assigned environment experiment.global sound.global entry listed) [] List.not_mem_nil
  · rcases List.mem_cons.mp inRest with isBlank | inBlock
    · rw [isBlank]
      exact List.not_mem_nil
    · obtain ⟨settings, listed, inLines⟩ := List.mem_flatMap.mp inBlock
      have whole := List.mem_of_mem_filter listed
      exact block_lines_whole environment settings _ (sound.settings settings whole).1 (sound.settings settings whole).2
        (noBuild settings whole) line inLines

-- The parser's run over the canonical text, in terms of what each value is read as.
theorem canonical_run (sound : experiment.Sound) (noBuild : ∀ settings ∈ experiment.settings, settings.values buildField = none) :
    (readlines (experiment.canonicalize environment)).foldlM Parser.nextLine Parser.start =
      (reassign readAtTop (experiment.global.assigned environment) Parser.start.global).bind fun global =>
        (printedBlocks experiment).foldlM (fun parser settings => (readSettings environment settings).bind parser.close)
          { Parser.start with global := global } := by
  have top := top_entries Parser.start (experiment.global.assigned environment) rfl rfl (by
    have printable := printed_assigned environment experiment.global sound.global
    rwa [sound.globalType] at printable)
  rw [canonical_lines environment experiment sound noBuild, Experiment.canonicalLines, with_ends_append, List.foldlM_append, top]
  cases reassign readAtTop (experiment.global.assigned environment) Parser.start.global with
  | none => rfl
  | some global =>
      change ((withEnds ([] :: _)).foldlM Parser.nextLine { Parser.start with global := global }) = _
      rw [withEnds, List.map_cons, List.foldlM_cons, blank_step]
      exact blocks_parsed environment (printedBlocks experiment) { Parser.start with global := global } _ rfl
        (fun settings member => sound.settings settings (List.mem_of_mem_filter member))
        fun settings member => noBuild settings (List.mem_of_mem_filter member)

-- Every value survives its printing, no global value looks like the head of a block and
-- no block is left out.
structure Faithful : Prop where
  noGlobalBlock : ∀ settings ∈ experiment.settings, settings.settingsType ≠ .global
  noComment : ∀ settings ∈ experiment.global :: experiment.settings, ∀ name value,
    settings.values name = some value → '#' ∉ value.getString
  noBooleanSum : ∀ settings ∈ experiment.global :: experiment.settings, ∀ name spec value, settings.spec name = some spec →
    spec.kind = .boolean → settings.values name = some value → ∃ b, value = .boolean b
  noBlockHead : ∀ name value, experiment.global.values name = some value → openName value.getString = none

theorem read_in_block_iff (settings : Settings) (sound : settings.Sound) (entry : Entry) (assigned : settings.values entry.1 = some entry.2) :
    readInBlock settings.settingsType entry = some entry.2 ↔ '#' ∉ entry.2.getString ∧
      ∀ spec, settings.spec entry.1 = some spec → spec.kind = .boolean → ∃ b, entry.2 = .boolean b := by
  obtain ⟨spec, found, holds⟩ := sound entry.1 entry.2 assigned
  have read : readInBlock settings.settingsType entry = reread spec.kind entry.2 := by
    rw [readInBlock]
    change (settings.spec entry.1).bind _ = _
    rw [found, Option.bind_some]
  rw [read, reread_iff spec.kind entry.2 holds]
  apply and_congr_right
  intro plain
  constructor
  · intro isBoolean other otherFound
    rw [found, Option.some_inj] at otherFound
    rw [← otherFound]
    exact isBoolean
  · exact fun all => all spec found

theorem faithful_reads (faithful : Faithful experiment) (settings : Settings)
    (member : settings ∈ experiment.global :: experiment.settings) (settingsSound : settings.Sound) :
    ∀ entry ∈ settings.assigned environment, readInBlock settings.settingsType entry = some entry.2 := by
  intro entry listed
  have assigned := (assigned_sound environment settings settingsSound entry.1 entry.2).mp listed
  rw [read_in_block_iff settings settingsSound entry assigned]
  exact ⟨faithful.noComment settings member entry.1 entry.2 assigned,
    fun spec found isBoolean => faithful.noBooleanSum settings member entry.1 spec entry.2 found isBoolean assigned⟩

theorem opens_iff (settings : Settings) (sound : settings.Sound) (name : Text) (value : Value) (assigned : settings.values name = some value)
    (plain : '#' ∉ value.getString) : opensSettings value = false ↔ openName value.getString = none := by
  obtain ⟨spec, -, holds⟩ := sound name value assigned
  rw [opensSettings, plain_string spec.kind value holds plain, Option.isSome_eq_false_iff, Option.isNone_iff_eq_none]

theorem faithful_is_same (sound : experiment.Sound) (noBuild : ∀ settings ∈ experiment.settings, settings.values buildField = none)
    (faithful : Faithful experiment) : parse (experiment.canonicalize environment) = some experiment := by
  have allPrinted : printedBlocks experiment = experiment.settings := by
    rw [printedBlocks, List.filter_eq_self]
    intro settings member
    simpa using faithful.noGlobalBlock settings member
  have global : reassign readAtTop (experiment.global.assigned environment) Parser.start.global = some experiment.global := by
    have same := reassign_same environment experiment.global readAtTop sound.global (by
      intro entry listed
      have assigned := (assigned_sound environment experiment.global sound.global entry.1 entry.2).mp listed
      have plain := faithful.noComment _ List.mem_cons_self _ _ assigned
      have closed := (opens_iff experiment.global sound.global entry.1 entry.2 assigned plain).mpr (faithful.noBlockHead _ _ assigned)
      have read := faithful_reads environment experiment faithful experiment.global List.mem_cons_self sound.global entry listed
      rw [sound.globalType] at read
      rw [readAtTop, closed]
      exact read)
    rw [sound.globalName, sound.globalType] at same
    exact same
  have blocks : ∀ settings ∈ experiment.settings, readSettings environment settings = some settings := by
    intro settings member
    exact reassign_same environment settings _ (sound.settings settings member).1
      (faithful_reads environment experiment faithful settings (List.mem_cons_of_mem _ member) (sound.settings settings member).1)
  have run := canonical_run environment experiment sound noBuild
  rw [global, Option.bind_some, allPrinted,
    blocks_same environment experiment.settings { Parser.start with global := experiment.global } rfl blocks sound.distinct] at run
  have inherited : experiment.settings.map experiment.global.inherit = experiment.settings := by
    exact (List.map_congr_left sound.inherited).trans (List.map_id _)
  rw [parse, run, Option.bind_some]
  apply (finished _ experiment).mpr
  refine ⟨rfl, ?_⟩
  change experiment = ⟨experiment.global, experiment.settings.map experiment.global.inherit⟩
  rw [inherited]

theorem same_is_faithful (sound : experiment.Sound) (noBuild : ∀ settings ∈ experiment.settings, settings.values buildField = none)
    (same : parse (experiment.canonicalize environment) = some experiment) : Faithful experiment := by
  obtain ⟨parser, ran, finish⟩ := Option.bind_eq_some_iff.mp same
  obtain ⟨-, whole⟩ := (finished parser experiment).mp finish
  rw [canonical_run environment experiment sound noBuild] at ran
  obtain ⟨global, globalRead, ran⟩ := Option.bind_eq_some_iff.mp ran
  obtain ⟨parserGlobal, blocks, split, each⟩ := blocks_read environment _ _ parser ran
  have sameGlobal : experiment.global = global := by
    rw [whole]
    exact parserGlobal
  have settingsAre : experiment.settings = blocks.map global.inherit := by
    rw [whole]
    change parser.settings.map parser.global.inherit = _
    rw [split, parserGlobal]
    rfl
  have kept : (printedBlocks experiment).length = experiment.settings.length := by
    rw [each.length_eq, settingsAre, List.length_map]
  have allPrinted : printedBlocks experiment = experiment.settings :=
    List.filter_sublist.eq_of_length kept
  have blockOf : ∀ settings ∈ experiment.settings,
      ∃ block, settings = global.inherit block ∧ readSettings environment settings = some block := by
    rw [allPrinted, settingsAre, List.forall₂_map_left_iff, List.forall₂_same] at each
    intro settings member
    rw [settingsAre] at member
    obtain ⟨block, listed, rfl⟩ := List.mem_map.mp member
    exact ⟨block, rfl, each block listed⟩
  have blockRead : ∀ settings ∈ experiment.settings, ∀ name value, settings.values name = some value →
      readInBlock settings.settingsType (name, value) = some value := by
    intro settings member name value assigned
    obtain ⟨block, inherited, read⟩ := blockOf settings member
    have listed := (assigned_sound environment settings (sound.settings settings member).1 name value).mpr assigned
    obtain ⟨found, values⟩ := reassign_read _ _ _ block (assigned_distinct environment settings) read (name, value) listed
    rw [← values] at found ⊢
    obtain ⟨own, isOwn⟩ := Option.isSome_iff_exists.mp found
    have kept : settings.values name = some own := by
      rw [inherited]
      change (block.values name).or _ = some own
      rw [isOwn, Option.some_or]
    rw [isOwn, ← kept, assigned]
  have globalRead : ∀ name value, experiment.global.values name = some value → readAtTop (name, value) = some value := by
    intro name value assigned
    have listed := (assigned_sound environment experiment.global sound.global name value).mpr assigned
    have read := (reassign_read _ _ _ global (assigned_distinct environment experiment.global) globalRead (name, value) listed).2
    rw [← read, ← sameGlobal, assigned]
  have topRead : ∀ name value, experiment.global.values name = some value →
      opensSettings value = false ∧ readInBlock experiment.global.settingsType (name, value) = some value := by
    intro name value assigned
    have read := Option.ite_none_left_eq_some.mp (globalRead name value assigned)
    rw [sound.globalType]
    exact ⟨Bool.eq_false_iff.mpr read.1, read.2⟩
  have reads : ∀ settings ∈ experiment.global :: experiment.settings, settings.Sound ∧ ∀ name value,
      settings.values name = some value → readInBlock settings.settingsType (name, value) = some value := by
    intro settings member
    rcases List.mem_cons.mp member with isGlobal | isBlock
    · rw [isGlobal]
      exact ⟨sound.global, fun name value assigned => (topRead name value assigned).2⟩
    · exact ⟨(sound.settings settings isBlock).1, blockRead settings isBlock⟩
  have plain : ∀ settings ∈ experiment.global :: experiment.settings, ∀ name value,
      settings.values name = some value → '#' ∉ value.getString := by
    intro settings member name value assigned
    obtain ⟨settingsSound, read⟩ := reads settings member
    exact ((read_in_block_iff settings settingsSound (name, value) assigned).mp (read name value assigned)).1
  refine ⟨?_, plain, ?_, ?_⟩
  · intro settings member
    rw [← allPrinted, printedBlocks, List.mem_filter] at member
    simpa using member.2
  · intro settings member name spec value found isBoolean assigned
    obtain ⟨settingsSound, read⟩ := reads settings member
    exact ((read_in_block_iff settings settingsSound (name, value) assigned).mp (read name value assigned)).2 spec found isBoolean
  · intro name value assigned
    exact (opens_iff experiment.global sound.global name value assigned (plain _ List.mem_cons_self name value assigned)).mp
      (topRead name value assigned).1

theorem canonical_same_iff (text : Text) (parsed : parse text = some experiment)
    (noBuild : ∀ settings ∈ experiment.settings, settings.values buildField = none) :
    parse (experiment.canonicalize environment) = some experiment ↔ Faithful experiment := by
  have sound := parsed_sound text experiment parsed
  exact ⟨same_is_faithful environment experiment sound noBuild, faithful_is_same environment experiment sound noBuild⟩

end Canonical

section Sample

def sampleEnvironment : Environment where
  order specs := specs
  order_perm specs := List.Perm.refl specs
  realpath path := path
  realpath_line _ oneLine := oneLine
  getXbuddyPath _ _ _ _ := ([], [])

def sampleText : Text := "name : speed # of\n+name: up\nbenchmark: page \x7b\n  retries: 3\n\x7d".toList

def sampleGlobal : Settings :=
  ((Settings.new (typeName .global) .global).assign "name".toList (.text "speed".toList)).assign "name".toList (.text "speedup".toList)

def sampleBlock : Settings := (Settings.new "page".toList .benchmark).assign "retries".toList (.integer 3)

def sampleExperiment : Experiment := ⟨sampleGlobal, [sampleGlobal.inherit sampleBlock]⟩

theorem sample_parsed : parse sampleText = some sampleExperiment := by rfl

theorem sample_global_value (name : Text) (value : Value) (assigned : sampleGlobal.values name = some value) :
    name = "name".toList ∧ value = .text "speedup".toList := by
  rw [sampleGlobal, assign_values] at assigned
  split at assigned
  · rename_i isName
    exact ⟨isName, (Option.some_inj.mp assigned).symm⟩
  · rename_i other
    rw [assign_values, if_neg other] at assigned
    exact absurd assigned nofun

theorem sample_block_value (name : Text) (value : Value) (assigned : (sampleGlobal.inherit sampleBlock).values name = some value) :
    name = "retries".toList ∧ value = .integer 3 := by
  rcases Option.or_eq_some_iff.mp assigned with own | ⟨-, inherited⟩
  · rw [sampleBlock, assign_values] at own
    obtain ⟨isName, same⟩ := Option.ite_none_right_eq_some.mp own
    exact ⟨isName, (Option.some_inj.mp same).symm⟩
  · obtain ⟨declared, fromGlobal⟩ := Option.ite_none_right_eq_some.mp inherited
    rw [(sample_global_value name value fromGlobal).1] at declared
    exact absurd declared (by decide)

theorem sample_is_canonical : parse (sampleExperiment.canonicalize sampleEnvironment) = some sampleExperiment := by
  apply (canonical_same_iff sampleEnvironment sampleExperiment sampleText sample_parsed (by decide)).mpr
  have settingsAre : ∀ settings ∈ sampleExperiment.global :: sampleExperiment.settings,
      settings = sampleGlobal ∨ settings = sampleGlobal.inherit sampleBlock := by
    intro settings member
    exact (List.mem_cons.mp member).imp id List.mem_singleton.mp
  refine ⟨by decide, ?_, ?_, ?_⟩
  · intro settings member name value assigned
    rcases settingsAre settings member with isGlobal | isBlock
    · rw [isGlobal] at assigned
      rw [(sample_global_value name value assigned).2]
      decide
    · rw [isBlock] at assigned
      rw [(sample_block_value name value assigned).2]
      decide
  · intro settings member name spec value found isBoolean assigned
    rcases settingsAre settings member with isGlobal | isBlock
    · rw [isGlobal] at assigned found
      rw [(sample_global_value name value assigned).1] at found
      rw [← Option.some_inj.mp (found : some (textField "name".toList []) = some spec)] at isBoolean
      exact absurd isBoolean nofun
    · rw [isBlock] at assigned found
      rw [(sample_block_value name value assigned).1] at found
      rw [← Option.some_inj.mp (found : some (integerField "retries".toList 0) = some spec)] at isBoolean
      exact absurd isBoolean nofun
  · intro name value assigned
    rw [(sample_global_value name value assigned).2]
    decide

def boolSumText : Text := "+rerun: true\n".toList

-- The sum of two booleans is printed as a number.
theorem boolean_sum_is_lost : ∃ experiment, parse boolSumText = some experiment ∧ experiment.settings = [] ∧
    parse (experiment.canonicalize sampleEnvironment) = none := by
  exact ⟨⟨(Settings.new (typeName .global) .global).assign "rerun".toList (.integer 1), []⟩, by rfl, rfl, by rfl⟩

end Sample

end ToolchainUtils.Crosperf.ExperimentFile
