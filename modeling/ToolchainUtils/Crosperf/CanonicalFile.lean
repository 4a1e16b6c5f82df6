import ToolchainUtils.Crosperf.ExperimentLines

set_option autoImplicit false

namespace ToolchainUtils.Crosperf.ExperimentFile

open PyString

section Fields

def FieldKind.holds : FieldKind → Value → Bool
  | .text, .text content => strip content == content && !content.contains '\n'
  | .boolean, .boolean _ => true
  | .boolean, .integer _ => true
  | .integer, .integer _ => true
  | .list, .list words => words.all fun word => !word.isEmpty && word.all fun c => !isSpace c
  | _, _ => false

theorem default_holds (settingsType : SettingsType) (spec : FieldSpec) (member : spec ∈ fields settingsType) (value : Value)
    (default : spec.default = some value) : spec.kind.holds value = true := by
  have all : (fields settingsType).all (fun spec => spec.default.all spec.kind.holds) = true := by cases settingsType <;> decide
  have holds := List.all_eq_true.mp all spec member
  rwa [default] at holds

theorem field_name_word (settingsType : SettingsType) (spec : FieldSpec) (member : spec ∈ fields settingsType) :
    spec.name ≠ [] ∧ ∀ c ∈ spec.name, isWordChar c = true := by
  have all : (fields settingsType).all (fun spec => !spec.name.isEmpty && spec.name.all isWordChar) = true := by
    cases settingsType <;> decide
  have holds := List.all_eq_true.mp all spec member
  rw [Bool.and_eq_true, List.all_eq_true] at holds
  exact ⟨by simpa using holds.1, holds.2⟩

theorem field_names_distinct (settingsType : SettingsType) : ((fields settingsType).map FieldSpec.name).Nodup := by
  cases settingsType <;> decide

theorem none_required (settings : Settings) : settings.validate = true := by
  have all : (fields settings.settingsType).all (fun spec => !spec.required) = true := by cases settings.settingsType <;> decide
  rw [Settings.validate, List.all_eq_true]
  intro spec member
  rw [List.all_eq_true.mp all spec member, Bool.or_true]

-- A field that settings have in common with the global ones is of the same kind there.
theorem same_kind (settingsType : SettingsType) (spec other : FieldSpec) (member : spec ∈ fields settingsType)
    (otherMember : other ∈ fields .global) (same : spec.name = other.name) : spec.kind = other.kind := by
  have all : ∀ spec ∈ fields settingsType, ∀ other ∈ fields .global, spec.name = other.name → spec.kind = other.kind := by
    cases settingsType <;> decide
  exact all spec member other otherMember same

theorem global_field_opens_nothing (spec : FieldSpec) (member : spec ∈ fields .global) (name : Text) : getSettings name spec.name = none := by
  have all : (fields .global).all (fun spec => spec.name != typeName .label && !spec.name.isEmpty && spec.name != typeName .global &&
      spec.name != typeName .benchmark) = true := by decide
  have holds := List.all_eq_true.mp all spec member
  simp only [Bool.and_eq_true, bne_iff_ne, ne_eq, Bool.not_eq_true'] at holds
  simp [getSettings, holds]

theorem spec_member (settings : Settings) (name : Text) (spec : FieldSpec) (found : settings.spec name = some spec) :
    spec ∈ fields settings.settingsType ∧ spec.name = name :=
  ⟨List.mem_of_find?_eq_some found, by simpa using List.find?_some found⟩

end Fields

section Holding

theorem text_holds (content : Text) (trimmed : Trimmed content) (oneLine : '\n' ∉ content) : FieldKind.text.holds (.text content) = true := by
  rw [FieldKind.holds, (trimmed_iff content).mp trimmed, beq_self_eq_true, Bool.true_and, Bool.not_eq_true']
  exact Bool.eq_false_iff.mpr fun found => oneLine (List.contains_iff_mem.mp found)

theorem text_of_holds (content : Text) (holds : FieldKind.text.holds (.text content) = true) : Trimmed content ∧ '\n' ∉ content := by
  rw [FieldKind.holds, Bool.and_eq_true, beq_iff_eq, Bool.not_eq_true'] at holds
  exact ⟨(trimmed_iff content).mpr holds.1, fun found => absurd (List.contains_iff_mem.mpr found) (Bool.eq_false_iff.mp holds.2)⟩

theorem list_holds_iff (words : List Text) :
    FieldKind.list.holds (.list words) = true ↔ ∀ word ∈ words, word ≠ [] ∧ ∀ c ∈ word, isSpace c = false := by
  simp [FieldKind.holds]

theorem parsed_holds (kind : FieldKind) (text : Text) (value : Value) (trimmed : Trimmed text) (oneLine : '\n' ∉ text)
    (parsed : kind.parse text = some value) : kind.holds value = true := by
  cases kind with
  | text =>
      obtain rfl : .text text = value := Option.some_inj.mp parsed
      exact text_holds text trimmed oneLine
  | boolean =>
      rw [FieldKind.parse] at parsed
      split at parsed
      · rw [← Option.some_inj.mp parsed]
        rfl
      · rw [← Option.some_inj.mp (Option.ite_none_right_eq_some.mp parsed).2]
        rfl
  | integer =>
      obtain ⟨n, -, rfl⟩ := Option.map_eq_some_iff.mp parsed
      rfl
  | list =>
      obtain rfl : .list (split text) = value := Option.some_inj.mp parsed
      rw [list_holds_iff]
      exact fun word member => ⟨(word_of_split text word member).1, fun c found => ((word_of_split text word member).2 c found).1⟩

theorem added_holds (kind : FieldKind) (current : Option Value) (value sum : Value)
    (currentHolds : ∀ old, current = some old → kind.holds old = true) (holds : kind.holds value = true)
    (added : add current value = some sum) : kind.holds sum = true := by
  rw [add.eq_def] at added
  split at added
  · rename_i first second
    rw [← Option.some_inj.mp added]
    cases kind with
    | text =>
        obtain ⟨firstTrimmed, firstLine⟩ := text_of_holds first (currentHolds _ rfl)
        obtain ⟨secondTrimmed, secondLine⟩ := text_of_holds second holds
        apply text_holds _ (trimmed_append first second firstTrimmed secondTrimmed)
        exact fun found => (List.mem_append.mp found).elim firstLine secondLine
    | boolean => exact absurd holds nofun
    | integer => exact absurd holds nofun
    | list => exact absurd holds nofun
  · rw [← Option.some_inj.mp added]
    cases kind with
    | boolean => rfl
    | text => exact absurd holds nofun
    | integer => exact absurd holds nofun
    | list => exact absurd holds nofun
  · rw [← Option.some_inj.mp added]
    cases kind with
    | boolean => rfl
    | text => exact absurd holds nofun
    | integer => exact absurd holds nofun
    | list => exact absurd holds nofun
  · rw [← Option.some_inj.mp added]
    cases kind with
    | boolean => rfl
    | integer => rfl
    | text => exact absurd holds nofun
    | list => exact absurd holds nofun
  · rename_i first second
    rw [← Option.some_inj.mp added]
    cases kind with
    | list =>
        rw [list_holds_iff] at holds ⊢
        have firstHolds := (list_holds_iff first).mp (currentHolds _ rfl)
        exact fun word member => (List.mem_append.mp member).elim (firstHolds word) (holds word)
    | text => exact absurd holds nofun
    | boolean => exact absurd holds nofun
    | integer => exact absurd holds nofun
  · rw [← Option.some_inj.mp added]
    exact holds
  · exact absurd added nofun

end Holding

section Sound

def IsName (name : Text) : Prop := name ≠ [] ∧ ∀ c ∈ name, isNameChar c = true

def Settings.Sound (settings : Settings) : Prop :=
  ∀ name value, settings.values name = some value → ∃ spec, settings.spec name = some spec ∧ spec.kind.holds value = true

theorem assign_values (settings : Settings) (name other : Text) (value : Value) :
    (settings.assign name value).values other = if other = name then some value else settings.values other :=
  Function.update_apply settings.values name (some value) other

theorem assign_sound (settings : Settings) (name : Text) (value : Value) (spec : FieldSpec) (sound : settings.Sound)
    (found : settings.spec name = some spec) (holds : spec.kind.holds value = true) : (settings.assign name value).Sound := by
  intro other old assigned
  rw [assign_values] at assigned
  split at assigned
  · rename_i same
    rw [← Option.some_inj.mp assigned, same]
    exact ⟨spec, found, holds⟩
  · exact sound other old assigned

theorem set_field_sound (settings after : Settings) (append : Bool) (name value : Text) (sound : settings.Sound)
    (trimmed : Trimmed value) (oneLine : '\n' ∉ value) (set : settings.setField append name value = some after) :
    after.Sound ∧ after.name = settings.name ∧ after.settingsType = settings.settingsType := by
  rw [Settings.setField] at set
  obtain ⟨spec, found, set⟩ := Option.bind_eq_some_iff.mp set
  obtain ⟨parsed, parse, set⟩ := Option.bind_eq_some_iff.mp set
  have holds := parsed_holds spec.kind value parsed trimmed oneLine parse
  split at set
  · obtain ⟨sum, added, rfl⟩ := Option.map_eq_some_iff.mp set
    refine ⟨assign_sound settings name sum spec sound found ?_, rfl, rfl⟩
    apply added_holds spec.kind _ parsed sum _ holds added
    intro old current
    rcases Option.or_eq_some_iff.mp current with assigned | ⟨-, default⟩
    · obtain ⟨other, again, oldHolds⟩ := sound name old assigned
      rw [found, Option.some_inj] at again
      rw [again]
      exact oldHolds
    · exact default_holds settings.settingsType spec (spec_member settings name spec found).1 old default
  · rw [← Option.some_inj.mp set]
    exact ⟨assign_sound settings name parsed spec sound found holds, rfl, rfl⟩

theorem open_name_is_name (text name : Text) (opened : openName text = some name) : IsName name := by
  rw [openName] at opened
  obtain ⟨both, same⟩ := Option.ite_none_right_eq_some.mp opened
  rw [Bool.and_eq_true] at both
  rw [← Option.some_inj.mp same]
  exact ⟨by simpa using both.1, fun c member => List.mem_takeWhile_imp member⟩

theorem open_settings_is_name (line : Text) (opened : Text × Text) (found : openSettings line = some opened) : IsName opened.2 := by
  rw [openSettings] at found
  rcases Option.or_eq_some_iff.mp found with typed | ⟨-, untyped⟩
  · split at typed
    · obtain ⟨name, read, rfl⟩ := Option.map_eq_some_iff.mp (Option.ite_none_left_eq_some.mp typed).2
      exact open_name_is_name _ name read
    · cases typed
  · obtain ⟨name, read, rfl⟩ := Option.map_eq_some_iff.mp untyped
    exact open_name_is_name _ name read

theorem new_settings (name settingsType : Text) (settings : Settings) (made : getSettings name settingsType = some settings) :
    settings.Sound ∧ settings.name = name := by
  rw [getSettings] at made
  split at made
  · rw [← Option.some_inj.mp made]
    exact ⟨nofun, rfl⟩
  · split at made
    · rw [← Option.some_inj.mp made]
      exact ⟨nofun, rfl⟩
    · rw [← Option.some_inj.mp (Option.ite_none_right_eq_some.mp made).2]
      exact ⟨nofun, rfl⟩

structure Parser.Sound (parser : Parser) : Prop where
  global : parser.global.Sound
  globalName : parser.global.name = typeName .global
  globalType : parser.global.settingsType = .global
  settings : ∀ settings ∈ parser.settings, settings.Sound ∧ IsName settings.name
  distinct : (parser.settings.map Settings.name).Nodup
  block : ∀ block, parser.block = some block → block.Sound ∧ IsName block.name

theorem start_sound : Parser.start.Sound where
  global := nofun
  globalName := rfl
  globalType := rfl
  settings := fun _ member => absurd member List.not_mem_nil
  distinct := List.nodup_nil
  block := fun _ none => absurd none nofun

theorem close_cases (parser after : Parser) (block : Settings) (closed : parser.close block = some after) :
    block.name ∉ parser.settings.map Settings.name ∧ after = { parser with settings := parser.settings ++ [block], block := none } := by
  rw [Parser.close] at closed
  obtain ⟨fresh, same⟩ := Option.ite_none_left_eq_some.mp closed
  refine ⟨fun member => fresh ?_, (Option.some_inj.mp same).symm⟩
  obtain ⟨other, listed, sameName⟩ := List.mem_map.mp member
  exact List.any_eq_true.mpr ⟨other, listed, by rw [sameName]; exact beq_self_eq_true _⟩

theorem next_line_sound (text : Text) (parser after : Parser) (current : Text) (member : current ∈ readlines text) (sound : parser.Sound)
    (next : parser.nextLine current = some after) : after.Sound := by
  have trimmed := strip_is_trimmed (stripComment current)
  have oneLine := current_line_plain text current member
  rw [Parser.nextLine] at next
  split at next
  · rw [← Option.some_inj.mp next]
    exact sound
  · split at next
    · -- Outside of a block.
      rw [Parser.topLine] at next
      split at next
      · rename_i settingsType name opened
        obtain ⟨block, made, rfl⟩ := Option.map_eq_some_iff.mp next
        obtain ⟨blockSound, blockName⟩ := new_settings name settingsType block made
        refine { sound with block := ?_ }
        intro other same
        rw [← Option.some_inj.mp same, blockName]
        exact ⟨blockSound, open_settings_is_name _ _ opened⟩
      · obtain ⟨field, read, next⟩ := Option.bind_eq_some_iff.mp next
        obtain ⟨global, set, rfl⟩ := Option.map_eq_some_iff.mp next
        obtain ⟨valueTrimmed, valueLine⟩ := field_value_trimmed _ field trimmed oneLine read
        obtain ⟨globalSound, name, settingsType⟩ := set_field_sound parser.global global _ _ _ sound.global valueTrimmed valueLine set
        exact { sound with
          global := globalSound, globalName := name.trans sound.globalName, globalType := settingsType.trans sound.globalType }
    · rename_i block isOpen
      obtain ⟨blockSound, blockName⟩ := sound.block block isOpen
      rw [Parser.blockLine] at next
      split at next
      · rename_i field read
        obtain ⟨changed, set, rfl⟩ := Option.map_eq_some_iff.mp next
        obtain ⟨valueTrimmed, valueLine⟩ := field_value_trimmed _ field trimmed oneLine read
        obtain ⟨changedSound, name, -⟩ := set_field_sound block changed _ _ _ blockSound valueTrimmed valueLine set
        refine { sound with block := ?_ }
        intro other same
        rw [← Option.some_inj.mp same, name]
        exact ⟨changedSound, blockName⟩
      · split at next
        · obtain ⟨fresh, rfl⟩ := close_cases parser after block next
          refine { sound with settings := ?_, distinct := ?_, block := fun _ none => absurd none nofun }
          · intro settings listed
            rcases List.mem_append.mp listed with before | isBlock
            · exact sound.settings settings before
            · rw [List.mem_singleton.mp isBlock]
              exact ⟨blockSound, blockName⟩
          · rw [List.map_append, List.nodup_append]
            refine ⟨sound.distinct, List.pairwise_singleton _ _, ?_⟩
            intro name listed other isBlock same
            rw [same, List.mem_singleton.mp isBlock] at listed
            exact fresh listed
        · rw [← Option.some_inj.mp next]
          exact sound

theorem inherit_idempotent (global settings : Settings) : global.inherit (global.inherit settings) = global.inherit settings := by
  rw [Settings.inherit, Settings.inherit, Settings.mk.injEq]
  refine ⟨rfl, rfl, funext fun name => ?_⟩
  change ((settings.values name).or _).or _ = _
  rw [Option.or_assoc]
  exact congrArg _ (Option.or_self)

theorem inherit_sound (global settings : Settings) (isGlobal : global.settingsType = .global) (globalSound : global.Sound) (sound : settings.Sound) :
    (global.inherit settings).Sound := by
  intro name value inherited
  rcases Option.or_eq_some_iff.mp inherited with own | ⟨-, fromGlobal⟩
  · exact sound name value own
  · obtain ⟨declared, assigned⟩ := Option.ite_none_right_eq_some.mp fromGlobal
    rw [Bool.and_eq_true] at declared
    obtain ⟨spec, found⟩ := Option.isSome_iff_exists.mp declared.1
    obtain ⟨other, otherFound, holds⟩ := globalSound name value assigned
    obtain ⟨member, specName⟩ := spec_member settings name spec found
    obtain ⟨otherMember, otherName⟩ := spec_member global name other otherFound
    rw [isGlobal] at otherMember
    refine ⟨spec, found, ?_⟩
    rw [same_kind settings.settingsType spec other member otherMember (specName.trans otherName.symm)]
    exact holds

-- What is known of an experiment that was parsed.
structure Experiment.Sound (experiment : Experiment) : Prop where
  global : experiment.global.Sound
  globalName : experiment.global.name = typeName .global
  globalType : experiment.global.settingsType = .global
  settings : ∀ settings ∈ experiment.settings, settings.Sound ∧ IsName settings.name
  distinct : (experiment.settings.map Settings.name).Nodup
  inherited : ∀ settings ∈ experiment.settings, experiment.global.inherit settings = settings

theorem finished (parser : Parser) (experiment : Experiment) :
    (if parser.block.isSome then none
      else
        let settings := parser.settings.map parser.global.inherit
        if parser.global.validate && settings.all Settings.validate then some (⟨parser.global, settings⟩ : Experiment) else none) =
        some experiment ↔
      parser.block = none ∧ experiment = ⟨parser.global, parser.settings.map parser.global.inherit⟩ := by
  have valid : (parser.global.validate && (parser.settings.map parser.global.inherit).all Settings.validate) = true := by
    rw [none_required, Bool.true_and, List.all_eq_true]
    exact fun settings _ => none_required settings
  cases block : parser.block with
  | none =>
      rw [Option.isSome_none, if_neg Bool.false_ne_true]
      simp only
      rw [if_pos valid, Option.some_inj]
      exact ⟨fun same => ⟨trivial, same.symm⟩, fun both => both.2.symm⟩
  | some open_ =>
      rw [Option.isSome_some, if_pos rfl]
      exact ⟨nofun, fun both => absurd both.1 nofun⟩

theorem parsed_sound (text : Text) (experiment : Experiment) (parsed : parse text = some experiment) : experiment.Sound := by
  obtain ⟨parser, ran, finish⟩ := Option.bind_eq_some_iff.mp parsed
  obtain ⟨-, rfl⟩ := (finished parser experiment).mp finish
  have sound : parser.Sound :=
    FailingFold.fold_invariant Parser.nextLine Parser.Sound (readlines text) _ parser start_sound
      (fun line member state next before stepped => next_line_sound text state next line member before stepped) ran
  refine ⟨sound.global, sound.globalName, sound.globalType, ?_, ?_, ?_⟩
  · intro settings member
    obtain ⟨own, listed, rfl⟩ := List.mem_map.mp member
    exact ⟨inherit_sound parser.global own sound.globalType sound.global (sound.settings own listed).1, (sound.settings own listed).2⟩
  · rw [List.map_map]
    exact sound.distinct
  · intro settings member
    obtain ⟨own, listed, rfl⟩ := List.mem_map.mp member
    exact inherit_idempotent parser.global own

end Sound

section Reread

-- What a field becomes when its printed value is parsed again.
def reread (kind : FieldKind) (value : Value) : Option Value := kind.parse (strip (uncommented value.getString))

theorem int_chars (n : Int) (c : Char) (other : c ≠ '-') (notDigit : c.isDigit = false) : c ∉ strInt n := by
  intro member
  rcases int_digits n c member with sign | digit
  · exact other sign
  · exact absurd digit (Bool.eq_false_iff.mp notDigit)

theorem lower_digit (c : Char) (small : c = '-' ∨ c.isDigit = true) : c.toLower ≠ 't' ∧ c.toLower ≠ 'f' := by
  rcases small with sign | digit
  · rw [sign]
    decide
  · have bounds : 48 ≤ c.val ∧ c.val ≤ 57 := by simpa [Char.isDigit] using digit
    have same : c.toLower = c := by
      refine dif_neg fun upper => ?_
      have low : (65 : UInt32) ≤ c.val := upper.1
      have high := bounds.2
      rw [UInt32.le_iff_toNat_le] at low high
      exact absurd (Nat.le_trans low high) (by decide)
    rw [same]
    constructor
    · intro isT
      rw [isT] at digit
      exact absurd digit (by decide)
    · intro isF
      rw [isF] at digit
      exact absurd digit (by decide)

theorem int_is_no_boolean (n : Int) : FieldKind.boolean.parse (strInt n) = none := by
  have chars : ∀ c ∈ lower (strInt n), c ≠ 't' ∧ c ≠ 'f' := by
    intro c member
    obtain ⟨d, listed, rfl⟩ := List.mem_map.mp member
    exact lower_digit d (int_digits n d listed)
  have notTrue : lower (strInt n) ≠ "true".toList := fun same => (chars 't' (by rw [same]; decide)).1 rfl
  have notFalse : lower (strInt n) ≠ "false".toList := fun same => (chars 'f' (by rw [same]; decide)).2 rfl
  rw [FieldKind.parse, if_neg (by simpa using notTrue), if_neg (by simpa using notFalse)]

theorem joined_chars (words : List Text) (c : Char) (member : c ∈ joined words) : c = ' ' ∨ ∃ word ∈ words, c ∈ word := by
  induction words with
  | nil => exact absurd member List.not_mem_nil
  | cons first rest ih =>
      cases rest with
      | nil =>
          rw [joined, List.intercalate_singleton] at member
          exact .inr ⟨first, List.mem_cons_self, member⟩
      | cons second rest =>
          rw [joined, List.intercalate_cons_cons, List.append_assoc] at member
          rcases List.mem_append.mp member with inFirst | inRest
          · exact .inr ⟨first, List.mem_cons_self, inFirst⟩
          · rcases List.mem_append.mp inRest with isBlank | later
            · exact .inl (List.mem_singleton.mp isBlank)
            · refine (ih later).imp id fun among => ?_
              obtain ⟨word, listed, found⟩ := among
              exact ⟨word, List.mem_cons_of_mem _ listed, found⟩

theorem joined_trimmed (words : List Text) (solid : ∀ word ∈ words, word ≠ [] ∧ ∀ c ∈ word, isSpace c = false) :
    Trimmed (joined words) ∧ (words ≠ [] → joined words ≠ []) := by
  induction words with
  | nil => exact ⟨trimmed_nil, fun nonempty => absurd rfl nonempty⟩
  | cons first rest ih =>
      obtain ⟨nonempty, firstSolid⟩ := solid first List.mem_cons_self
      cases rest with
      | nil =>
          rw [joined, List.intercalate_singleton]
          exact ⟨solid_trimmed first firstSolid, fun _ => nonempty⟩
      | cons second rest =>
          obtain ⟨restTrimmed, restNonempty⟩ := ih fun word member => solid word (List.mem_cons_of_mem _ member)
          rw [joined, List.intercalate_cons_cons, List.append_assoc]
          change Trimmed (first ++ ([' '] ++ joined (second :: rest))) ∧ _
          refine ⟨⟨?_, ?_⟩, fun _ => List.append_ne_nil_of_left_ne_nil nonempty _⟩
          · intro c head
            rw [List.head?_append_of_ne_nil _ nonempty] at head
            exact firstSolid c (List.mem_of_head? head)
          · intro c last
            rw [← List.append_assoc, List.getLast?_append_of_ne_nil _ (restNonempty (List.cons_ne_nil _ _))] at last
            exact restTrimmed.last c last

theorem string_trimmed (kind : FieldKind) (value : Value) (holds : kind.holds value = true) : Trimmed value.getString := by
  cases value with
  | text content =>
      cases kind with
      | text => exact (text_of_holds content holds).1
      | boolean => exact absurd holds nofun
      | integer => exact absurd holds nofun
      | list => exact absurd holds nofun
  | boolean b =>
      rw [trimmed_iff]
      cases b <;> decide
  | integer n => exact int_trimmed n
  | list words =>
      cases kind with
      | list => exact (joined_trimmed words ((list_holds_iff words).mp holds)).1
      | text => exact absurd holds nofun
      | boolean => exact absurd holds nofun
      | integer => exact absurd holds nofun

-- A printed value without a comment sign is read back as it is.
theorem plain_string (kind : FieldKind) (value : Value) (holds : kind.holds value = true) (plain : '#' ∉ value.getString) :
    strip (uncommented value.getString) = value.getString := by
  rw [uncommented_plain _ plain, strip_trimmed _ (string_trimmed kind value holds)]

theorem list_reread (words : List Text) (holds : FieldKind.list.holds (.list words) = true) :
    reread .list (.list words) = some (.list words) ↔ '#' ∉ joined words := by
  have solid := (list_holds_iff words).mp holds
  constructor
  · intro same member
    have parsed : split (strip (uncommented (joined words))) = words := Value.list.inj (Option.some_inj.mp same)
    rcases joined_chars words '#' member with isBlank | ⟨word, listed, found⟩
    · exact absurd isBlank (by decide)
    · rw [← parsed] at listed
      have inText := ((word_of_split _ word listed).2 '#' found).2
      exact uncommented_without _ (strip_member _ _ inText)
  · intro plain
    rw [reread, plain_string .list (.list words) holds plain, FieldKind.parse, Value.getString,
      split_joined words (fun word member => (solid word member).1) fun word member => (solid word member).2]

theorem text_reread (content : Text) (holds : FieldKind.text.holds (.text content) = true) :
    reread .text (.text content) = some (.text content) ↔ '#' ∉ content := by
  constructor
  · intro same member
    have parsed : strip (uncommented content) = content := Value.text.inj (Option.some_inj.mp same)
    rw [← parsed] at member
    exact uncommented_without _ (strip_member _ _ member)
  · intro plain
    rw [reread, plain_string .text (.text content) holds plain]
    rfl

theorem reread_iff (kind : FieldKind) (value : Value) (holds : kind.holds value = true) :
    reread kind value = some value ↔ '#' ∉ value.getString ∧ (kind = .boolean → ∃ b, value = .boolean b) := by
  cases kind with
  | text =>
      cases value with
      | text content => exact (text_reread content holds).trans ⟨fun plain => ⟨plain, nofun⟩, And.left⟩
      | boolean b => exact absurd holds nofun
      | integer n => exact absurd holds nofun
      | list words => exact absurd holds nofun
  | list =>
      cases value with
      | list words => exact (list_reread words holds).trans ⟨fun plain => ⟨plain, nofun⟩, And.left⟩
      | text content => exact absurd holds nofun
      | boolean b => exact absurd holds nofun
      | integer n => exact absurd holds nofun
  | integer =>
      cases value with
      | integer n =>
          have plain := int_chars n '#' (by decide) (by decide)
          refine ⟨fun _ => ⟨plain, nofun⟩, fun _ => ?_⟩
          rw [reread, plain_string .integer (.integer n) rfl plain, Value.getString, FieldKind.parse, parse_str_int, Option.map_some]
      | text content => exact absurd holds nofun
      | boolean b => exact absurd holds nofun
      | list words => exact absurd holds nofun
  | boolean =>
      cases value with
      | boolean b =>
          refine ⟨fun _ => ⟨?_, fun _ => ⟨b, rfl⟩⟩, fun _ => ?_⟩
          · cases b <;> decide
          · cases b <;> decide
      | integer n =>
          constructor
          · intro same
            rw [reread, plain_string .boolean (.integer n) rfl (int_chars n '#' (by decide) (by decide)), Value.getString,
              int_is_no_boolean] at same
            exact absurd same nofun
          · intro both
            obtain ⟨b, same⟩ := both.2 rfl
            exact absurd same nofun
      | text content => exact absurd holds nofun
      | list words => exact absurd holds nofun

theorem one_line (kind : FieldKind) (value : Value) (holds : kind.holds value = true) : '\n' ∉ value.getString := by
  cases value with
  | text content =>
      cases kind with
      | text => exact (text_of_holds content holds).2
      | boolean => exact absurd holds nofun
      | integer => exact absurd holds nofun
      | list => exact absurd holds nofun
  | boolean b => cases b <;> decide
  | integer n => exact int_chars n '\n' (by decide) (by decide)
  | list words =>
      cases kind with
      | list =>
          intro member
          rcases joined_chars words '\n' member with isBlank | ⟨word, listed, found⟩
          · exact absurd isBlank (by decide)
          · exact absurd (((list_holds_iff words).mp holds word listed).2 '\n' found) (by decide)
      | text => exact absurd holds nofun
      | boolean => exact absurd holds nofun
      | integer => exact absurd holds nofun

end Reread

end ToolchainUtils.Crosperf.ExperimentFile
