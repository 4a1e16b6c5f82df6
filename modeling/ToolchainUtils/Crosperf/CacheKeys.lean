import ToolchainUtils.Crosperf.ResultsCache

set_option autoImplicit false

namespace ToolchainUtils.Crosperf.CacheKeys

open PyString (Text spaces str str_digits str_injective)

open Glob

section Words

-- Every field of a key but the test name is hexadecimal or '*'.
def Word (text : Text) : Prop := ∀ c ∈ text, isHex c = true ∨ c = '*'

theorem word_without (text : Text) (word : Word text) (c : Char) (other : isHex c = false) (notStar : c ≠ '*') : c ∉ text := by
  intro member
  rcases word c member with hex | isStar
  · exact absurd (other.symm.trans hex) nofun
  · exact notStar isStar

theorem digest_word (digest : Digest) : Word digest.text := fun c member => .inl (List.all_eq_true.mp digest.hex c member)

theorem star_word : Word star := fun _ member => .inr (List.mem_singleton.mp member)

theorem str_word (n : Nat) : Word (str n) := by
  intro c member
  exact .inl (by rw [isHex, str_digits n c member, Bool.true_or])

theorem filename_append (first second : Text) :
    getFilenameFromString (first ++ second) = getFilenameFromString first ++ getFilenameFromString second := by
  simp only [getFilenameFromString, applySub, List.flatMap_append]

theorem filename_separated (first second : Text) :
    getFilenameFromString (first ++ ' ' :: second) = getFilenameFromString first ++ '_' :: getFilenameFromString second := by
  have blank : getFilenameFromString (' ' :: second) = '_' :: getFilenameFromString second := filename_append [' '] second
  rw [filename_append, blank]

theorem apply_sub_without (characters : List Char) (replacement text : Text) (without : ∀ c ∈ characters, c ∉ text) :
    applySub characters replacement text = text := by
  rw [applySub]
  induction text with
  | nil => rfl
  | cons c rest ih =>
      have kept : characters.contains c = false := by
        simpa using fun member => without c member List.mem_cons_self
      rw [List.flatMap_cons, kept, ih fun d member found => without d member (List.mem_cons_of_mem c found)]
      rfl

theorem filename_word (text : Text) (word : Word text) : getFilenameFromString text = text := by
  have without : ∀ c ∈ ['/'] ++ spaces ++ dropped, c ∉ text := by
    intro c member
    have other : isHex c = false ∧ c ≠ '*' := by
      revert c
      decide
    exact word_without text word c other.1 other.2
  have slash := apply_sub_without ['/'] ['_', '_'] text fun c member =>
    without c (List.mem_append_left _ (List.mem_append_left _ member))
  have blank := apply_sub_without spaces ['_'] text fun c member =>
    without c (List.mem_append_left _ (List.mem_append_right _ member))
  have gone := apply_sub_without dropped [] text fun c member => without c (List.mem_append_right _ member)
  rw [getFilenameFromString, slash, blank, gone]

end Words

section Parts

variable (md5 : Text → Digest) (cache : ResultsCache) (conditions : List CacheCondition) (read : Bool)

-- A name is its head, the iteration, the checksum of the arguments and its tail.
def ResultsCache.keyHead : Text :=
  ResultsCache.demanded conditions read .imagePathMatch (md5 cache.chromeosImage).text ++ '_' ::
    getFilenameFromString cache.testName

def ResultsCache.keyTail : Text :=
  ResultsCache.demanded conditions read .checksumsMatch (cache.checksum md5) ++ '_' ::
    (ResultsCache.demanded conditions read .machinesMatch (cache.machineChecksum cache.label.name).text ++ '_' ::
      (ResultsCache.demanded conditions read .sameMachineMatch cache.machineIdChecksum.text ++ '_' :: str cache.cacheVersion))

theorem demanded_word (condition : CacheCondition) (field : Text) (word : Word field) :
    Word (ResultsCache.demanded conditions read condition field) := by
  rw [ResultsCache.demanded]
  split
  · exact star_word
  · exact word

theorem checksum_word : Word (cache.checksum md5) := by
  rw [ResultsCache.checksum]
  split
  · exact digest_word _
  · exact star_word
  · exact digest_word _

theorem cache_name_parts : cache.cacheName md5 conditions read =
    cache.keyHead md5 conditions read ++ '_' :: (str cache.iteration ++ '_' ::
      ((cache.testArgsChecksum md5).text ++ '_' :: cache.keyTail md5 conditions read)) := by
  have image := demanded_word conditions read .imagePathMatch _ (digest_word (md5 cache.chromeosImage))
  have checksum := demanded_word conditions read .checksumsMatch _ (checksum_word md5 cache)
  have machine := demanded_word conditions read .machinesMatch _ (digest_word (cache.machineChecksum cache.label.name))
  have machineId := demanded_word conditions read .sameMachineMatch _ (digest_word cache.machineIdChecksum)
  simp only [ResultsCache.cacheName, ResultsCache.getCacheKeyList, List.intercalate_cons_cons, List.intercalate_singleton,
    List.append_assoc, List.nil_append, filename_separated, filename_word _ image, filename_word _ (str_word _),
    filename_word _ (digest_word _), filename_word _ checksum, filename_word _ machine, filename_word _ machineId,
    ResultsCache.keyHead, ResultsCache.keyTail, List.cons_append]

end Parts

section Reading

variable (md5 : Text → Digest) (conditions : List CacheCondition) (reader writer : ResultsCache)

theorem word_plain (text : Text) (hex : text.all isHex = true) : hasMagic text = false := by
  rw [hasMagic, List.any_eq_false]
  intro c member magic
  have digit := List.all_eq_true.mp hex c member
  rcases (by simpa using magic : (c = '*' ∨ c = '?') ∨ c = '[') with (rfl | rfl) | rfl <;> exact absurd digit (by decide)

theorem digest_match (digest : Digest) (text : Text) : fnmatch digest.text text = true ↔ text = digest.text :=
  fnmatch_plain digest.text text (word_plain digest.text digest.hex)

theorem star_match (text : Text) : fnmatch star text = true := star_is_match text

theorem str_plain (n : Nat) : hasMagic (str n) = false :=
  word_plain (str n) (List.all_eq_true.mpr fun c member => by
    rw [isHex, Nat.isDigit_of_mem_toDigits (by decide) (by decide) member, Bool.true_or])

theorem str_match (n : Nat) (text : Text) : fnmatch (str n) text = true ↔ text = str n := fnmatch_plain (str n) text (str_plain n)

-- Only the test name can have brackets.
theorem word_cuts (first second : Text) (word : Word first) : Cuts '_' first second :=
  ⟨by decide, by decide, by decide, .inl (word_without first word '[' (by decide) (by decide))⟩

theorem key_tail_no_bracket (cache : ResultsCache) (read : Bool) : ']' ∉ cache.keyTail md5 conditions read := by
  have none_ := fun text (word : Word text) => word_without text word ']' (by decide) (by decide)
  have checksum := none_ _ (demanded_word conditions read .checksumsMatch _ (checksum_word md5 cache))
  have machine := none_ _ (demanded_word conditions read .machinesMatch _ (digest_word (cache.machineChecksum cache.label.name)))
  have machineId := none_ _ (demanded_word conditions read .sameMachineMatch _ (digest_word cache.machineIdChecksum))
  have version := none_ _ (str_word cache.cacheVersion)
  simp [ResultsCache.keyTail, checksum, machine, machineId, version]

theorem name_match (text : Text) : fnmatch (reader.cacheName md5 conditions true) text = true ↔
    ∃ head tail, text = head ++ '_' :: (str reader.iteration ++ '_' :: ((reader.testArgsChecksum md5).text ++ '_' :: tail)) ∧
      fnmatch (reader.keyHead md5 conditions true) head = true ∧ fnmatch (reader.keyTail md5 conditions true) tail = true := by
  have tail := key_tail_no_bracket md5 conditions reader true
  have iteration := word_without _ (str_word reader.iteration) ']' (by decide) (by decide)
  have args := word_without _ (digest_word (reader.testArgsChecksum md5)) ']' (by decide) (by decide)
  have cuts : Cuts '_' (reader.keyHead md5 conditions true) (str reader.iteration ++ '_' ::
      ((reader.testArgsChecksum md5).text ++ '_' :: reader.keyTail md5 conditions true)) :=
    ⟨by decide, by decide, by decide, .inr (by simp [tail, iteration, args])⟩
  rw [cache_name_parts, fnmatch_separated _ _ _ _ cuts]
  simp only [fnmatch_separated _ _ _ _ (word_cuts _ _ (str_word reader.iteration)),
    fnmatch_separated _ _ _ _ (word_cuts _ _ (digest_word (reader.testArgsChecksum md5))), str_match, digest_match]
  constructor
  · rintro ⟨head, _, rfl, here, _, _, rfl, rfl, _, last, rfl, rfl, tailed⟩
    exact ⟨head, last, rfl, here, tailed⟩
  · rintro ⟨head, last, rfl, here, tailed⟩
    exact ⟨head, _, rfl, here, _, _, rfl, rfl, _, last, rfl, rfl, tailed⟩

-- What stands after a '_' of the text.
def laterParts : Text → List Text
  | [] => []
  | c :: rest => if c = '_' then rest :: laterParts rest else laterParts rest

theorem mem_later_parts (text part : Text) : part ∈ laterParts text ↔ ∃ before, text = before ++ '_' :: part := by
  induction text with
  | nil => simp [laterParts]
  | cons c rest ih =>
      have here : (∃ before, c :: rest = before ++ '_' :: part) ↔ (c = '_' ∧ rest = part) ∨ ∃ before, rest = before ++ '_' :: part := by
        constructor
        · rintro ⟨before, split⟩
          cases before with
          | nil => exact .inl (List.cons.inj split)
          | cons d before => exact .inr ⟨before, (List.cons.inj split).2⟩
        · rintro (⟨rfl, rfl⟩ | ⟨before, rfl⟩)
          · exact ⟨[], rfl⟩
          · exact ⟨c :: before, rfl⟩
      rw [here, laterParts]
      split
      · rename_i isSeparator
        simp [ih, isSeparator, eq_comm]
      · rename_i other
        simp [ih, other]

-- Which parts of a stored test name the pattern's test name is held against: without
-- IMAGE_PATH_MATCH the '*' in front of it takes anything up to some '_'.
def readableParts (testName : Text) : List Text :=
  if conditions.contains .imagePathMatch then [testName] else testName :: laterParts testName

def NamesMeet : Prop :=
  (readableParts conditions (getFilenameFromString writer.testName)).any
    (fnmatch (getFilenameFromString reader.testName)) = true

structure SameFields : Prop where
  iteration : writer.iteration = reader.iteration
  version : writer.cacheVersion = reader.cacheVersion
  testArgs : writer.testArgsChecksum md5 = reader.testArgsChecksum md5
  machines : conditions.contains .machinesMatch = true →
    writer.machineChecksum writer.label.name = reader.machineChecksum reader.label.name
  checksums : conditions.contains .checksumsMatch = true → reader.label.imageType ≠ .official →
    writer.checksum md5 = reader.checksum md5
  imagePath : conditions.contains .imagePathMatch = true → writer.chromeosImage = reader.chromeosImage
  sameMachine : conditions.contains .sameMachineMatch = true → writer.machineIdChecksum = reader.machineIdChecksum

structure RightHit : Prop extends SameFields md5 conditions reader writer where
  testName : writer.testName = reader.testName

-- The stored name read with part of its test name as the iteration and the arguments.
def ReadInside : Prop :=
  ∃ head between, writer.keyHead md5 conditions false ++ '_' :: (str writer.iteration ++ '_' :: (writer.testArgsChecksum md5).text) =
      head ++ '_' :: (str reader.iteration ++ '_' :: ((reader.testArgsChecksum md5).text ++ '_' :: between)) ∧
    fnmatch (reader.keyHead md5 conditions true) head = true ∧
    fnmatch (reader.keyTail md5 conditions true) (between ++ '_' :: writer.keyTail md5 conditions false) = true

theorem demanded_match (condition : CacheCondition) (digest : Digest) (text : Text) :
    fnmatch (ResultsCache.demanded conditions true condition digest.text) text = true ↔
      (conditions.contains condition = true → text = digest.text) := by
  rw [ResultsCache.demanded, Bool.true_and]
  cases demands : conditions.contains condition with
  | true => simp [digest_match]
  | false => simp [star_match]

theorem checksum_match (text : Text) :
    fnmatch (ResultsCache.demanded conditions true .checksumsMatch (reader.checksum md5)) text = true ↔
      (conditions.contains .checksumsMatch = true → reader.label.imageType ≠ .official → text = reader.checksum md5) := by
  rw [ResultsCache.demanded, Bool.true_and]
  cases demands : conditions.contains CacheCondition.checksumsMatch with
  | false => simp [star_match]
  | true =>
      cases image : reader.label.imageType with
      | official => simp [ResultsCache.checksum, image, star_match]
      | trybot => simp [ResultsCache.checksum, image, digest_match]
      | localImage => simp [ResultsCache.checksum, image, digest_match]

theorem demanded_write (condition : CacheCondition) (field : Text) : ResultsCache.demanded conditions false condition field = field := rfl

theorem digest_text_inj (first second : Digest) : first.text = second.text ↔ first = second :=
  ⟨fun same => by cases first; cases second; simpa using same, fun same => same ▸ rfl⟩

theorem no_separator (text : Text) (word : Word text) : '_' ∉ text := word_without text word '_' (by decide) (by decide)

theorem at_least_nothing (tokens : List (Token Char)) : AtLeast '_' tokens 0 := fun _ _ => Nat.zero_le _

theorem key_tail_count (cache : ResultsCache) (read : Bool) : (cache.keyTail md5 conditions read).count '_' = 3 := by
  have none_ := fun text (word : Word text) => List.count_eq_zero_of_not_mem (no_separator text word)
  have checksum := none_ _ (demanded_word conditions read .checksumsMatch _ (checksum_word md5 cache))
  have machine := none_ _ (demanded_word conditions read .machinesMatch _ (digest_word (cache.machineChecksum cache.label.name)))
  have machineId := none_ _ (demanded_word conditions read .sameMachineMatch _ (digest_word cache.machineIdChecksum))
  have version := none_ _ (str_word cache.cacheVersion)
  simp [ResultsCache.keyTail, checksum, machine, machineId, version]

theorem key_tail_least : AtLeast '_' (translate (reader.keyTail md5 conditions true)) 3 :=
  at_least_cut '_' _ _ 2 (word_cuts _ _ (demanded_word _ _ _ _ (checksum_word md5 reader)))
    (at_least_cut '_' _ _ 1 (word_cuts _ _ (demanded_word _ _ _ _ (digest_word _)))
      (at_least_cut '_' _ _ 0 (word_cuts _ _ (demanded_word _ _ _ _ (digest_word _))) (at_least_nothing _)))

theorem tail_match : fnmatch (reader.keyTail md5 conditions true) (writer.keyTail md5 conditions false) = true ↔
    (conditions.contains .checksumsMatch = true → reader.label.imageType ≠ .official → writer.checksum md5 = reader.checksum md5) ∧
    (conditions.contains .machinesMatch = true →
      writer.machineChecksum writer.label.name = reader.machineChecksum reader.label.name) ∧
    (conditions.contains .sameMachineMatch = true → writer.machineIdChecksum = reader.machineIdChecksum) ∧
    writer.cacheVersion = reader.cacheVersion := by
  have cuts := fun (condition : CacheCondition) (field second : Text) (word : Word field) =>
    word_cuts (ResultsCache.demanded conditions true condition field) second (demanded_word conditions true condition field word)
  have none_ := fun text (word : Word text) => List.count_eq_zero_of_not_mem (no_separator text word)
  have last := cuts .sameMachineMatch _ (str reader.cacheVersion) (digest_word reader.machineIdChecksum)
  have middle := cuts .machinesMatch _ (ResultsCache.demanded conditions true .sameMachineMatch reader.machineIdChecksum.text ++
    '_' :: str reader.cacheVersion) (digest_word (reader.machineChecksum reader.label.name))
  have one_ := at_least_cut '_' _ _ 0 last (at_least_nothing _)
  have two := at_least_cut '_' _ _ 1 middle one_
  rw [ResultsCache.keyTail, ResultsCache.keyTail, demanded_write, demanded_write, demanded_write,
    fnmatch_word '_' _ _ _ _ (cuts .checksumsMatch _ _ (checksum_word md5 reader)) (no_separator _ (checksum_word md5 writer))
      (by simpa [none_ _ (digest_word _), none_ _ (str_word _)] using two),
    fnmatch_word '_' _ _ _ _ middle (no_separator _ (digest_word _)) (by simpa [none_ _ (digest_word _), none_ _ (str_word _)] using one_),
    fnmatch_word '_' _ _ _ _ last (no_separator _ (digest_word _)) (by simpa [none_ _ (str_word _)] using at_least_nothing _),
    checksum_match, demanded_match, demanded_match, str_match, digest_text_inj, digest_text_inj]
  exact and_congr_right fun _ => and_congr_right fun _ => and_congr_right fun _ =>
    ⟨str_injective _ _, congrArg str⟩

theorem key_head_cuts : Cuts '_' (ResultsCache.demanded conditions true .imagePathMatch (md5 reader.chromeosImage).text)
    (getFilenameFromString reader.testName) :=
  word_cuts _ _ (demanded_word conditions true .imagePathMatch _ (digest_word _))

theorem head_match (injective : md5 writer.chromeosImage = md5 reader.chromeosImage → writer.chromeosImage = reader.chromeosImage)
    (part : Text) : fnmatch (reader.keyHead md5 conditions true) ((md5 writer.chromeosImage).text ++ '_' :: part) = true ↔
      (conditions.contains .imagePathMatch = true → writer.chromeosImage = reader.chromeosImage) ∧
        (readableParts conditions part).any (fnmatch (getFilenameFromString reader.testName)) = true := by
  have whole := no_separator _ (digest_word (md5 writer.chromeosImage))
  rw [ResultsCache.keyHead, readableParts, fnmatch_separated '_' _ _ _ (key_head_cuts md5 conditions reader)]
  simp only [demanded_match]
  cases demands : conditions.contains CacheCondition.imagePathMatch with
  | true =>
      simp only [forall_const, if_true, List.any_cons, List.any_nil, Bool.or_false]
      constructor
      · rintro ⟨before, after, split, same, found⟩
        have own := no_separator _ (digest_word (md5 reader.chromeosImage))
        obtain ⟨image, rfl⟩ := first_word '_' _ before _ after whole (same ▸ own) split
        exact ⟨injective ((digest_text_inj _ _).mp (image.trans same)), found⟩
      · rintro ⟨image, found⟩
        exact ⟨_, _, rfl, by rw [image], found⟩
  | false =>
      simp only [Bool.false_eq_true, if_false, false_implies, true_and, List.any_cons, Bool.or_eq_true, List.any_eq_true]
      constructor
      · rintro ⟨before, after, split, found⟩
        rcases List.append_eq_append_iff.mp split with ⟨between, inside, tail⟩ | ⟨between, inside, tail⟩
        · cases between with
          | nil => exact .inl ((List.cons.inj tail).2 ▸ found)
          | cons c between =>
              exact .inr ⟨after, (mem_later_parts _ after).mpr ⟨between, (List.cons.inj tail).2⟩, found⟩
        · cases between with
          | nil => exact .inl ((List.cons.inj tail).2 ▸ found)
          | cons c between =>
              rw [(List.cons.inj tail).1.symm] at inside
              exact absurd (inside ▸ List.mem_append_right before List.mem_cons_self) whole
      · rintro (found | ⟨later, member, found⟩)
        · exact ⟨_, _, rfl, found⟩
        · obtain ⟨before, split⟩ := (mem_later_parts _ later).mp member
          exact ⟨(md5 writer.chromeosImage).text ++ '_' :: before, later, by rw [split]; simp, found⟩

-- The name takes the text as it is, unless it has characters that glob reads.
def Answers (name text : Text) : Prop := if hasMagic name then fnmatch name text = true else text = name

theorem answers_iff (name text : Text) : fnmatch name text = true ↔ Answers name text := by
  rw [Answers]
  split
  · exact Iff.rfl
  · rename_i plain
    exact fnmatch_plain name text (by simpa using plain)

-- Without IMAGE_PATH_MATCH the '*' in front of the name can end at any '_' of the text.
def TakesName (text : Text) : Prop :=
  Answers (getFilenameFromString reader.testName) text ∨
    (conditions.contains .imagePathMatch = false ∧
      ∃ before later, text = before ++ '_' :: later ∧ Answers (getFilenameFromString reader.testName) later)

theorem takes_name_iff (text : Text) :
    (readableParts conditions text).any (fnmatch (getFilenameFromString reader.testName)) = true ↔
      TakesName conditions reader text := by
  rw [readableParts, TakesName]
  cases conditions.contains CacheCondition.imagePathMatch with
  | true => simp [answers_iff]
  | false =>
      simp only [Bool.false_eq_true, if_false, List.any_cons, Bool.or_eq_true, List.any_eq_true, answers_iff, mem_later_parts, true_and]
      exact or_congr_right ⟨fun ⟨later, ⟨before, split⟩, taken⟩ => ⟨before, later, split, taken⟩,
        fun ⟨before, later, split, taken⟩ => ⟨later, ⟨before, split⟩, taken⟩⟩

-- The stored name as the reader can take it apart with only a part of the test name, or
-- of what follows it, as the test name: the text goes on with the reader's iteration and
-- arguments, and what is left of it still gives three checksums.
structure ReadAs (part between checksum machine machineId : Text) : Prop where
  front : getFilenameFromString writer.testName ++ '_' :: (str writer.iteration ++ '_' :: (writer.testArgsChecksum md5).text) =
    part ++ '_' :: (str reader.iteration ++ '_' :: ((reader.testArgsChecksum md5).text ++ '_' :: between))
  back : between ++ '_' :: (writer.checksum md5 ++ '_' ::
      ((writer.machineChecksum writer.label.name).text ++ '_' :: writer.machineIdChecksum.text)) =
    checksum ++ '_' :: (machine ++ '_' :: machineId)
  name : TakesName conditions reader part
  image : conditions.contains .imagePathMatch = true → writer.chromeosImage = reader.chromeosImage
  checksums : conditions.contains .checksumsMatch = true → reader.label.imageType ≠ .official → checksum = reader.checksum md5
  machines : conditions.contains .machinesMatch = true → machine = (reader.machineChecksum reader.label.name).text
  machineIds : conditions.contains .sameMachineMatch = true → machineId = reader.machineIdChecksum.text
  version : writer.cacheVersion = reader.cacheVersion

theorem tail_reads (between : Text) :
    fnmatch (reader.keyTail md5 conditions true) (between ++ '_' :: writer.keyTail md5 conditions false) = true ↔
      ∃ checksum machine machineId, between ++ '_' :: (writer.checksum md5 ++ '_' ::
          ((writer.machineChecksum writer.label.name).text ++ '_' :: writer.machineIdChecksum.text)) =
        checksum ++ '_' :: (machine ++ '_' :: machineId) ∧
        (conditions.contains .checksumsMatch = true → reader.label.imageType ≠ .official → checksum = reader.checksum md5) ∧
        (conditions.contains .machinesMatch = true → machine = (reader.machineChecksum reader.label.name).text) ∧
        (conditions.contains .sameMachineMatch = true → machineId = reader.machineIdChecksum.text) ∧
        writer.cacheVersion = reader.cacheVersion := by
  have cuts := fun (condition : CacheCondition) (field second : Text) (word : Word field) =>
    word_cuts (ResultsCache.demanded conditions true condition field) second (demanded_word conditions true condition field word)
  rw [ResultsCache.keyTail, ResultsCache.keyTail, demanded_write, demanded_write, demanded_write,
    fnmatch_separated _ _ _ _ (cuts .checksumsMatch _ _ (checksum_word md5 reader))]
  simp only [fnmatch_separated _ _ _ _ (cuts .machinesMatch _ _ (digest_word (reader.machineChecksum reader.label.name))),
    fnmatch_separated _ _ _ _ (cuts .sameMachineMatch _ _ (digest_word reader.machineIdChecksum)), checksum_match, demanded_match,
    str_match]
  constructor
  · rintro ⟨checksum, _, split, sameChecksum, machine, _, rfl, sameMachine, machineId, _, rfl, sameId, rfl⟩
    obtain ⟨front, version⟩ := last_word '_' (between ++ '_' :: (writer.checksum md5 ++ '_' ::
        ((writer.machineChecksum writer.label.name).text ++ '_' :: writer.machineIdChecksum.text)))
      (checksum ++ '_' :: (machine ++ '_' :: machineId)) _ _ (no_separator _ (str_word _)) (no_separator _ (str_word _))
      (by simpa using split)
    exact ⟨checksum, machine, machineId, front, sameChecksum, sameMachine, sameId, str_injective _ _ version⟩
  · rintro ⟨checksum, machine, machineId, front, sameChecksum, sameMachine, sameId, version⟩
    refine ⟨checksum, _, ?_, sameChecksum, machine, _, rfl, sameMachine, machineId, _, rfl, sameId, rfl⟩
    have followed := congrArg (· ++ '_' :: str writer.cacheVersion) front
    rw [← version]
    simpa using followed

theorem read_inside_iff (injective : md5 writer.chromeosImage = md5 reader.chromeosImage → writer.chromeosImage = reader.chromeosImage) :
    ReadInside md5 conditions reader writer ↔
      ∃ part between checksum machine machineId, ReadAs md5 conditions reader writer part between checksum machine machineId := by
  have regroup : writer.keyHead md5 conditions false ++ '_' :: (str writer.iteration ++ '_' :: (writer.testArgsChecksum md5).text) =
      (md5 writer.chromeosImage).text ++ '_' :: (getFilenameFromString writer.testName ++ '_' ::
        (str writer.iteration ++ '_' :: (writer.testArgsChecksum md5).text)) := by
    simp [ResultsCache.keyHead, demanded_write]
  rw [ReadInside, regroup]
  constructor
  · rintro ⟨head, between, front, headed, tailed⟩
    -- The head has a '_' of its own, and the checksum of the image has none.
    have whole := no_separator _ (digest_word (md5 writer.chromeosImage))
    obtain ⟨part, rfl, split⟩ : ∃ part, head = (md5 writer.chromeosImage).text ++ '_' :: part ∧
        getFilenameFromString writer.testName ++ '_' :: (str writer.iteration ++ '_' :: (writer.testArgsChecksum md5).text) =
          part ++ '_' :: (str reader.iteration ++ '_' :: ((reader.testArgsChecksum md5).text ++ '_' :: between)) := by
      obtain ⟨before, after, rfl, _, _⟩ := (fnmatch_separated '_' _ _ _ (key_head_cuts md5 conditions reader)).mp headed
      rw [List.append_assoc, List.cons_append] at front
      rcases List.append_eq_append_iff.mp front with ⟨more, inside, tail⟩ | ⟨more, inside, tail⟩
      · cases more with
        | nil => exact ⟨after, by rw [inside, List.append_nil], (List.cons.inj tail).2⟩
        | cons c more =>
            obtain ⟨rfl, later⟩ := List.cons.inj tail
            exact ⟨more ++ '_' :: after, by rw [inside]; simp, by rw [later]; simp⟩
      · cases more with
        | nil => exact ⟨after, by rw [inside, List.append_nil], (List.cons.inj tail).2.symm⟩
        | cons c more =>
            rw [(List.cons.inj tail).1.symm] at inside
            exact absurd (inside ▸ List.mem_append_right before List.mem_cons_self) whole
    obtain ⟨image, taken⟩ := (head_match md5 conditions reader writer injective part).mp headed
    obtain ⟨checksum, machine, machineId, back, checksums, machines, machineIds, version⟩ :=
      (tail_reads md5 conditions reader writer between).mp tailed
    exact ⟨part, between, checksum, machine, machineId, split, back, (takes_name_iff conditions reader part).mp taken, image,
      checksums, machines, machineIds, version⟩
  · rintro ⟨part, between, checksum, machine, machineId, read⟩
    refine ⟨(md5 writer.chromeosImage).text ++ '_' :: part, between, by rw [read.front]; simp, ?_, ?_⟩
    · exact (head_match md5 conditions reader writer injective part).mpr
        ⟨read.image, (takes_name_iff conditions reader part).mpr read.name⟩
    · exact (tail_reads md5 conditions reader writer between).mpr
        ⟨checksum, machine, machineId, read.back, read.checksums, read.machines, read.machineIds, read.version⟩

theorem filename_bracket (name : Text) (closed : '[' ∉ name) : '[' ∉ getFilenameFromString name := by
  have kept : ∀ (characters : List Char) (replacement text : Text), '[' ∉ replacement → '[' ∉ text →
      '[' ∉ applySub characters replacement text := by
    intro characters replacement text apart also member
    obtain ⟨c, among, here⟩ := List.mem_flatMap.mp member
    split at here
    · exact apart here
    · exact also (List.mem_singleton.mp here ▸ among)
  exact kept _ _ _ (by decide) (kept _ _ _ (by decide) (kept _ _ _ (by decide) closed))

theorem takes_name_count (closed : '[' ∉ reader.testName) (text : Text) (taken : TakesName conditions reader text) :
    (getFilenameFromString reader.testName).count '_' ≤ text.count '_' := by
  have least := at_least_literals '_' _ (filename_bracket reader.testName closed) (by decide)
  rcases taken with answers | ⟨_, before, later, rfl, answers⟩
  · exact least text ((answers_iff _ _).mpr answers)
  · have enough := least later ((answers_iff _ _).mpr answers)
    rw [List.count_append, List.count_cons_self]
    omega

-- A part of a test name is never taken for the test name itself, brackets apart.
theorem read_as_other_test (closed : '[' ∉ reader.testName) (part between checksum machine machineId : Text)
    (read : ReadAs md5 conditions reader writer part between checksum machine machineId) : writer.testName ≠ reader.testName := by
  intro same
  have least := takes_name_count conditions reader closed part read.name
  have none_ := fun text (word : Word text) => List.count_eq_zero_of_not_mem (no_separator text word)
  have counted := congrArg (List.count '_') read.front
  simp only [List.count_append, List.count_cons_self, none_ _ (digest_word _), none_ _ (str_word _), same] at counted
  omega

-- The checksum of the arguments is read where it was written, or further to the left.
theorem stored_name_match (injective : md5 writer.chromeosImage = md5 reader.chromeosImage → writer.chromeosImage = reader.chromeosImage) :
    fnmatch (reader.cacheName md5 conditions true) (writer.cacheName md5 conditions false) = true ↔
      (SameFields md5 conditions reader writer ∧ NamesMeet conditions reader writer) ∨ ReadInside md5 conditions reader writer := by
  rw [name_match, cache_name_parts]
  have regroup : ∀ head iteration args tail : Text, head ++ '_' :: (iteration ++ '_' :: (args ++ '_' :: tail)) =
      (head ++ '_' :: (iteration ++ '_' :: args)) ++ '_' :: tail := fun _ _ _ _ => by simp
  constructor
  · rintro ⟨head, tail, split, headed, tailed⟩
    rw [regroup, regroup] at split
    have enough : (writer.keyTail md5 conditions false).count '_' ≤ tail.count '_' := by
      rw [key_tail_count]
      exact key_tail_least md5 conditions reader tail tailed
    rcases cut_twice '_' _ _ _ tail enough split with ⟨front, rfl⟩ | ⟨between, front, rfl⟩
    · left
      have args := no_separator _ (digest_word (writer.testArgsChecksum md5))
      have also := no_separator _ (digest_word (reader.testArgsChecksum md5))
      obtain ⟨front, sameArgs⟩ := last_word '_' (writer.keyHead md5 conditions false ++ '_' :: str writer.iteration)
        (head ++ '_' :: str reader.iteration) _ _ args also (by simpa using front)
      obtain ⟨rfl, iteration⟩ := last_word '_' _ head _ _ (no_separator _ (str_word _)) (no_separator _ (str_word _)) front
      obtain ⟨image, names⟩ := (head_match md5 conditions reader writer injective _).mp headed
      obtain ⟨checksums, machines, machineIds, version⟩ := (tail_match md5 conditions reader writer).mp tailed
      exact ⟨⟨str_injective _ _ iteration, version, (digest_text_inj _ _).mp sameArgs, machines, checksums, image, machineIds⟩, names⟩
    · exact .inr ⟨head, between, by rw [front]; simp, headed, tailed⟩
  · rintro (⟨same, names⟩ | ⟨head, between, front, headed, tailed⟩)
    · refine ⟨writer.keyHead md5 conditions false, writer.keyTail md5 conditions false, by rw [same.iteration, same.testArgs], ?_, ?_⟩
      · exact (head_match md5 conditions reader writer injective _).mpr ⟨same.imagePath, names⟩
      · exact (tail_match md5 conditions reader writer).mpr ⟨same.checksums, same.machines, same.sameMachine, same.version⟩
    · exact ⟨head, between ++ '_' :: writer.keyTail md5 conditions false, by rw [regroup, front]; simp, headed, tailed⟩

end Reading

section Directories

variable (md5 : Text → Digest) (exists_ : Path → Bool) (conditions : List CacheCondition) (reader writer : ResultsCache)

-- The directory that the writer stores to is one that the reader globs.
def Matched : Prop :=
  ∃ dir ∈ writer.getCacheDirForWrite md5 exists_ conditions,
    ∃ patterns ∈ reader.formCacheDir exists_ (reader.cacheName md5 conditions true), patterns.any (globPath · dir) = true

-- The shared caches of both are there, and the reader looks into the writer's cache.
def HomesMeet : Prop :=
  writer.sharedCaches.all exists_ = true ∧ reader.sharedCaches.all exists_ = true ∧
    reader.cacheHomes.any (globPath · writer.label.cacheHome) = true

theorem glob_path_snoc (patterns names : Path) (pattern name : Text) :
    globPath (patterns ++ [pattern]) (names ++ [name]) = (globPath patterns names && globName pattern name) := by
  induction patterns generalizing names with
  | nil =>
      cases names with
      | nil => simp [globPath]
      | cons other rest => cases rest <;> simp [globPath]
  | cons first rest ih =>
      cases names with
      | nil => cases rest <;> simp [globPath]
      | cons other more => simp [globPath, ih, Bool.and_assoc]

theorem stored_name_visible : (writer.cacheName md5 conditions false).head? ≠ some '.' := by
  rw [cache_name_parts, ResultsCache.keyHead, demanded_write]
  cases text : (md5 writer.chromeosImage).text with
  | nil => exact nofun
  | cons c rest =>
      intro dot
      have first : c = '.' := by simpa using dot
      have hex := digest_word (md5 writer.chromeosImage) c (by rw [text]; exact List.mem_cons_self)
      rw [first] at hex
      exact absurd hex (by decide)

theorem glob_name_iff (pattern : Text) : globName pattern (writer.cacheName md5 conditions false) = true ↔
    fnmatch pattern (writer.cacheName md5 conditions false) = true := by
  rw [globName]
  split
  · have visible : ((writer.cacheName md5 conditions false).head? != some '.') = true :=
      bne_iff_ne.mpr (stored_name_visible md5 conditions writer)
    rw [visible, Bool.or_true, Bool.and_true]
  · rename_i plain
    rw [fnmatch_plain _ _ (by simpa using plain), beq_iff_eq, eq_comm]

theorem matched_iff (injective : md5 writer.chromeosImage = md5 reader.chromeosImage → writer.chromeosImage = reader.chromeosImage) :
    Matched md5 exists_ conditions reader writer ↔ HomesMeet exists_ reader writer ∧
      ((SameFields md5 conditions reader writer ∧ NamesMeet conditions reader writer) ∨ ReadInside md5 conditions reader writer) := by
  rw [← stored_name_match md5 conditions reader writer injective, ← glob_name_iff, Matched, HomesMeet]
  simp only [ResultsCache.getCacheDirForWrite, ResultsCache.formCacheDir, ResultsCache.cacheHomes]
  cases stored : writer.sharedCaches.all exists_ with
  | false => simp
  | true =>
      cases found : reader.sharedCaches.all exists_ with
      | false => simp
      | true =>
          simp only [if_true, Option.bind_some, List.map_cons, List.head?_cons, Option.mem_some_iff, exists_eq_left',
            List.any_cons, List.any_map, Function.comp_def, glob_path_snoc, true_and]
          cases globName (reader.cacheName md5 conditions true) (writer.cacheName md5 conditions false) <;> simp

-- What the test names must be like where the reader looks into the writer's cache.
structure Unambiguous : Prop where
  names : writer.testName ≠ reader.testName → SameFields md5 conditions reader writer →
    ¬ TakesName conditions reader (getFilenameFromString writer.testName)
  inside : ∀ part between checksum machine machineId, ReadAs md5 conditions reader writer part between checksum machine machineId →
    '[' ∈ reader.testName ∧ RightHit md5 conditions reader writer

theorem hit_is_right_iff (injective : md5 writer.chromeosImage = md5 reader.chromeosImage → writer.chromeosImage = reader.chromeosImage) :
    (Matched md5 exists_ conditions reader writer → RightHit md5 conditions reader writer) ↔
      (HomesMeet exists_ reader writer → Unambiguous md5 conditions reader writer) := by
  rw [matched_iff md5 exists_ conditions reader writer injective, read_inside_iff md5 conditions reader writer injective, NamesMeet,
    takes_name_iff]
  constructor
  · intro right homes
    constructor
    · exact fun apart same taken => apart (right ⟨homes, .inl ⟨same, taken⟩⟩).testName
    · intro part between checksum machine machineId read
      have hit := right ⟨homes, .inr ⟨part, between, checksum, machine, machineId, read⟩⟩
      refine ⟨?_, hit⟩
      by_contra closed
      exact read_as_other_test md5 conditions reader writer closed part between checksum machine machineId read hit.testName
  · rintro unambiguous ⟨homes, ⟨same, taken⟩ | ⟨part, between, checksum, machine, machineId, read⟩⟩
    · refine ⟨same, ?_⟩
      by_contra apart
      exact (unambiguous homes).names apart same taken
    · exact ((unambiguous homes).inside part between checksum machine machineId read).2

-- Test names without separators and without characters that are lost or globbed.
def Ordinary (name : Text) : Prop := ∀ c ∈ name, c ∉ ['/', '_', '*', '['] ++ spaces ++ dropped

theorem ordinary_filename (name : Text) (ordinary : Ordinary name) :
    getFilenameFromString name = name ∧ hasMagic name = false ∧ '_' ∉ name := by
  have without : ∀ c ∈ ['/', '_', '*', '['] ++ spaces ++ dropped, c ∉ name := fun c listed member => ordinary c member listed
  have slash := apply_sub_without ['/'] ['_', '_'] name fun c member => without c (by simp_all)
  have blank := apply_sub_without spaces ['_'] name fun c member => without c (by simp [member])
  have gone := apply_sub_without dropped [] name fun c member => without c (by simp [member])
  refine ⟨by rw [getFilenameFromString, slash, blank, gone], ?_, without '_' (by decide)⟩
  rw [hasMagic, List.any_eq_false]
  intro c member magic
  rcases (by simpa using magic : (c = '*' ∨ c = '?') ∨ c = '[') with (rfl | rfl) | rfl
  · exact without '*' (by decide) member
  · exact without '?' (by decide) member
  · exact without '[' (by decide) member

theorem ordinary_names_unambiguous (ordinary : Ordinary reader.testName) (also : Ordinary writer.testName) :
    Unambiguous md5 conditions reader writer := by
  obtain ⟨wanted, plain, _⟩ := ordinary_filename reader.testName ordinary
  obtain ⟨own, _, single⟩ := ordinary_filename writer.testName also
  constructor
  · intro apart _ taken
    rw [TakesName, wanted, own] at taken
    simp only [Answers, plain, Bool.false_eq_true, if_false] at taken
    rcases taken with same | ⟨_, before, later, split, _⟩
    · exact apart same
    · exact single (split ▸ List.mem_append_right before List.mem_cons_self)
  · intro part between checksum machine machineId read
    have none_ := fun text (word : Word text) => List.count_eq_zero_of_not_mem (no_separator text word)
    have counted := congrArg (List.count '_') read.front
    simp only [List.count_append, List.count_cons_self, none_ _ (digest_word _), none_ _ (str_word _), own,
      List.count_eq_zero_of_not_mem single] at counted
    omega

-- With every field of the tail demanded there is no '*' for what is left over.
theorem not_inside_plain (plain : hasMagic (reader.keyTail md5 conditions true) = false) :
    ¬ ReadInside md5 conditions reader writer := by
  rintro ⟨head, between, _, _, tailed⟩
  have counted := congrArg (List.count '_') ((fnmatch_plain _ _ plain).mp tailed)
  rw [List.count_append, List.count_cons_self, key_tail_count, key_tail_count] at counted
  omega

-- The same configuration, read before the run has a machine or with some machine of its own.
structure FoundAgain (cache : ResultsCache) (machine : Option CrosMachine) : Prop where
  matched : Matched md5 exists_ conditions { cache with machine := machine } cache
  returned : ∀ dir ∈ cache.getCacheDirForWrite md5 exists_ conditions, ∀ dirs, dir ∈ dirs →
    ∃ hit, { cache with machine := machine }.getCacheDirForRead md5 exists_ conditions dirs = some (some hit)

structure FindsItself (cache : ResultsCache) (machine : Option CrosMachine) : Prop where
  home : cache.cacheHomes.any (globPath · cache.label.cacheHome) = true
  name : ((conditions.contains .sameMachineMatch = true →
      cache.machineIdChecksum = { cache with machine := machine }.machineIdChecksum) ∧ NamesMeet conditions cache cache) ∨
    ReadInside md5 conditions { cache with machine := machine } cache

theorem matched_returned (dirs : List Path) (dir : Path) (written : writer.getCacheDirForWrite md5 exists_ conditions = some dir)
    (there : dir ∈ dirs) (matched : Matched md5 exists_ conditions reader writer) :
    ∃ hit, reader.getCacheDirForRead md5 exists_ conditions dirs = some (some hit) := by
  obtain ⟨other, also, patterns, formed, found⟩ := matched
  obtain rfl : dir = other := Option.some.inj (written.symm.trans also)
  obtain ⟨pattern, listed, globs⟩ := List.any_eq_true.mp found
  have hit : dir ∈ patterns.flatMap (glob dirs) :=
    List.mem_flatMap.mpr ⟨pattern, listed, List.mem_filter.mpr ⟨there, globs⟩⟩
  obtain ⟨first, rest, hits⟩ := List.exists_cons_of_ne_nil (List.ne_nil_of_mem hit)
  refine ⟨first, ?_⟩
  rw [ResultsCache.getCacheDirForRead, show reader.formCacheDir exists_ (reader.cacheName md5 conditions true) = some patterns
    from formed, Option.map_some, hits]
  rfl

theorem found_again_iff (cache : ResultsCache) (machine : Option CrosMachine) (dir : Path)
    (stored : cache.getCacheDirForWrite md5 exists_ conditions = some dir) :
    FoundAgain md5 exists_ conditions cache machine ↔ FindsItself md5 conditions cache machine := by
  have shared : cache.sharedCaches.all exists_ = true := by
    by_contra missing
    simp [ResultsCache.getCacheDirForWrite, ResultsCache.formCacheDir, missing] at stored
  have matched := matched_iff md5 exists_ conditions { cache with machine := machine } cache fun _ => rfl
  constructor
  · rintro ⟨found, _⟩
    obtain ⟨⟨_, _, home⟩, ⟨same, names⟩ | inside⟩ := matched.mp found
    · exact ⟨home, .inl ⟨same.sameMachine, names⟩⟩
    · exact ⟨home, .inr inside⟩
  · rintro ⟨home, name⟩
    have found : Matched md5 exists_ conditions { cache with machine := machine } cache := by
      refine matched.mpr ⟨⟨shared, shared, home⟩, ?_⟩
      rcases name with ⟨machineIds, names⟩ | inside
      · exact .inl ⟨⟨rfl, rfl, rfl, fun _ => rfl, fun _ _ => rfl, fun _ => rfl, machineIds⟩, names⟩
      · exact .inr inside
    exact ⟨found, fun other written dirs there => matched_returned md5 exists_ conditions _ cache dirs other written there found⟩

end Directories

def imagePath : Text := "/tmp/image.bin".toList

def noArgs : Text := "  False".toList

def md5Of (text : Text) : Digest :=
  if text = imagePath then ⟨"f3f3ccd7f2a74e9f06b6614a89648637".toList, by decide⟩
  else if text = noArgs then ⟨"fda29412ceccb72977516c4785d08e2c".toList, by decide⟩
  else noDigest

def lumpy : CrosMachine := { name := "lumpy".toList, machineIdChecksum := noDigest }

-- A configuration that differs from others in the name of its test.
def running (testName : String) : ResultsCache where
  chromeosImage := imagePath
  testName := testName.toList
  iteration := 1
  testArgs := []
  profilerArgs := []
  runLocal := false
  label := { name := "image".toList, imageType := .localImage, chromeosImage := imagePath,
             imageChecksum := md5Of imagePath, remote := [lumpy.name], cacheHome := ["cache".toList] }
  machineChecksum _ := noDigest
  allMachines := [lumpy]
  machine := some lumpy
  sharedCaches := []
  cacheVersion := 6

def allMatch : List CacheCondition := [.machinesMatch, .checksumsMatch, .imagePathMatch, .sameMachineMatch]

def usualConditions : List CacheCondition := [.cacheFileExists, .checksumsMatch, .runSucceeded]

theorem same_test_hit_is_right : Matched md5Of (fun _ => true) allMatch (running "WebGLAquarium") (running "WebGLAquarium") ∧
    RightHit md5Of allMatch (running "WebGLAquarium") (running "WebGLAquarium") := by
  have matched : Matched md5Of (fun _ => true) allMatch (running "WebGLAquarium") (running "WebGLAquarium") :=
    (matched_iff md5Of (fun _ => true) allMatch _ _ fun _ => rfl).mpr ⟨⟨rfl, rfl, rfl⟩, .inl ⟨⟨rfl, rfl, rfl, fun _ => rfl,
      fun _ _ => rfl, fun _ => rfl, fun _ => rfl⟩, by rw [NamesMeet]; decide⟩⟩
  exact ⟨matched, (hit_is_right_iff md5Of (fun _ => true) allMatch _ _ fun _ => rfl).mpr
    (fun _ => ordinary_names_unambiguous md5Of allMatch _ _ (by unfold Ordinary; decide) (by unfold Ordinary; decide)) matched⟩

theorem other_test_is_hit :
    Matched md5Of (fun _ => true) usualConditions (running "WebGLAquarium") (running "graphics_WebGLAquarium") ∧
    ¬ RightHit md5Of usualConditions (running "WebGLAquarium") (running "graphics_WebGLAquarium") := by
  have fields : SameFields md5Of usualConditions (running "WebGLAquarium") (running "graphics_WebGLAquarium") :=
    ⟨rfl, rfl, rfl, fun _ => rfl, fun _ _ => rfl, fun _ => rfl, fun _ => rfl⟩
  have names : NamesMeet usualConditions (running "WebGLAquarium") (running "graphics_WebGLAquarium") := by
    rw [NamesMeet]
    decide
  constructor
  · exact (matched_iff md5Of (fun _ => true) usualConditions (running "WebGLAquarium") (running "graphics_WebGLAquarium")
      fun _ => rfl).mpr ⟨⟨rfl, rfl, rfl⟩, .inl ⟨fields, names⟩⟩
  · exact fun right => absurd right.testName (by decide)

-- Read before the run has acquired a machine, as ReadCache does.
theorem stored_test_is_found : FoundAgain md5Of (fun _ => true) usualConditions (running "graphics_WebGLAquarium") none :=
  (found_again_iff md5Of (fun _ => true) usualConditions (running "graphics_WebGLAquarium") none _ rfl).mpr
    ⟨rfl, .inl ⟨fun _ => rfl, by rw [NamesMeet]; decide⟩⟩

theorem bracketed_test_is_not_found :
    (running "media[vp8]").getCacheDirForWrite md5Of (fun _ => true) allMatch ≠ none ∧
    ¬ FoundAgain md5Of (fun _ => true) allMatch (running "media[vp8]") none := by
  refine ⟨by simp [ResultsCache.getCacheDirForWrite, ResultsCache.formCacheDir, running, ResultsCache.cacheHomes], fun found => ?_⟩
  rcases ((matched_iff md5Of (fun _ => true) allMatch { running "media[vp8]" with machine := none } (running "media[vp8]")
    fun _ => rfl).mp found.matched).2 with ⟨_, names⟩ | inside
  · rw [NamesMeet] at names
    exact absurd names (by decide)
  · exact absurd inside (not_inside_plain md5Of allMatch _ _ (by decide))

end ToolchainUtils.Crosperf.CacheKeys
