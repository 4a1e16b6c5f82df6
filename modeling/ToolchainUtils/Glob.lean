import Mathlib.Data.List.Infix

set_option autoImplicit false

namespace ToolchainUtils.Glob

-- A pattern is a list of tokens; one token takes one character or any run of them.
inductive Token (α : Type) where
  | one (accepts : α → Bool)
  | star

def literal {α : Type} [DecidableEq α] (c : α) : Token α := .one (c == ·)

def literals {α : Type} [DecidableEq α] (text : List α) : List (Token α) := text.map literal

def isMatch {α : Type} : List (Token α) → List α → Bool
  | [], text => text.isEmpty
  | .one _ :: _, [] => false
  | .one accepts :: rest, c :: text => accepts c && isMatch rest text
  | .star :: rest, text => text.tails.any (isMatch rest)

section Matching

variable {α : Type}

theorem is_match_nil (text : List α) : isMatch [] text = true ↔ text = [] := by
  rw [isMatch, List.isEmpty_iff]

theorem is_match_one (accepts : α → Bool) (rest : List (Token α)) (text : List α) :
    isMatch (.one accepts :: rest) text = true ↔
      ∃ c tail, text = c :: tail ∧ accepts c = true ∧ isMatch rest tail = true := by
  cases text with
  | nil => simp [isMatch]
  | cons c tail => simp [isMatch]

theorem is_match_star (rest : List (Token α)) (text : List α) :
    isMatch (.star :: rest) text = true ↔ ∃ skipped tail, text = skipped ++ tail ∧ isMatch rest tail = true := by
  rw [isMatch, List.any_eq_true]
  constructor
  · rintro ⟨tail, suffix, found⟩
    obtain ⟨skipped, split⟩ := (List.mem_tails tail text).mp suffix
    exact ⟨skipped, tail, split.symm, found⟩
  · rintro ⟨skipped, tail, split, found⟩
    exact ⟨tail, (List.mem_tails tail text).mpr ⟨skipped, split.symm⟩, found⟩

theorem is_match_append (first second : List (Token α)) (text : List α) :
    isMatch (first ++ second) text = true ↔
      ∃ before after, text = before ++ after ∧ isMatch first before = true ∧ isMatch second after = true := by
  induction first generalizing text with
  | nil => simp [is_match_nil]
  | cons token rest ih =>
      rw [List.cons_append]
      cases token with
      | one accepts =>
          simp only [is_match_one, ih]
          constructor
          · rintro ⟨c, _, rfl, accepted, before, after, rfl, here, later⟩
            exact ⟨c :: before, after, rfl, ⟨c, before, rfl, accepted, here⟩, later⟩
          · rintro ⟨_, after, rfl, ⟨c, before, rfl, accepted, here⟩, later⟩
            exact ⟨c, before ++ after, rfl, accepted, before, after, rfl, here, later⟩
      | star =>
          simp only [is_match_star, ih]
          constructor
          · rintro ⟨skipped, _, rfl, before, after, rfl, here, later⟩
            exact ⟨skipped ++ before, after, (List.append_assoc _ _ _).symm, ⟨skipped, before, rfl, here⟩, later⟩
          · rintro ⟨_, after, rfl, ⟨skipped, before, rfl, here⟩, later⟩
            exact ⟨skipped, before ++ after, List.append_assoc _ _ _, before, after, rfl, here, later⟩

theorem star_is_match (text : List α) : isMatch [.star] text = true :=
  (is_match_star [] text).mpr ⟨text, [], (List.append_nil text).symm, rfl⟩

theorem is_match_literals [DecidableEq α] (word text : List α) : isMatch (literals word) text = true ↔ text = word := by
  induction word generalizing text with
  | nil => exact is_match_nil text
  | cons c word ih =>
      rw [literals, List.map_cons, literal, is_match_one]
      constructor
      · rintro ⟨d, tail, rfl, same, found⟩
        rw [(ih tail).mp found, eq_of_beq same]
      · rintro rfl
        exact ⟨c, word, rfl, beq_self_eq_true c, (ih word).mpr rfl⟩

-- A literal separator in front of the rest of a pattern.
theorem is_match_separated [DecidableEq α] (first second : List (Token α)) (separator : α) (text : List α) :
    isMatch (first ++ literal separator :: second) text = true ↔
      ∃ before after, text = before ++ separator :: after ∧ isMatch first before = true ∧ isMatch second after = true := by
  simp only [is_match_append, literal, is_match_one, beq_iff_eq]
  constructor
  · rintro ⟨before, _, rfl, here, _, after, rfl, rfl, later⟩
    exact ⟨before, after, rfl, here, later⟩
  · rintro ⟨before, after, rfl, here, later⟩
    exact ⟨before, _, rfl, here, _, after, rfl, rfl, later⟩

end Matching

section Separators

variable {α : Type} [DecidableEq α] (separator : α)

-- Two ways to cut a text at a separator, the first one not after the second.
theorem cut_twice (first second third fourth : List α) (enough : third.count separator ≤ fourth.count separator)
    (same : first ++ separator :: third = second ++ separator :: fourth) :
    first = second ∧ third = fourth ∨ ∃ between, first = second ++ separator :: between ∧ fourth = between ++ separator :: third := by
  rcases List.append_eq_append_iff.mp same with ⟨between, split, tail⟩ | ⟨between, split, tail⟩
  · cases between with
    | nil =>
        rw [List.append_nil] at split
        exact .inl ⟨split.symm, (List.cons.inj tail).2⟩
    | cons c between =>
        rw [List.cons_append] at tail
        rw [(List.cons.inj tail).2, List.count_append, List.count_cons_self] at enough
        omega
  · cases between with
    | nil =>
        rw [List.append_nil] at split
        exact .inl ⟨split, (List.cons.inj tail).2.symm⟩
    | cons c between =>
        rw [List.cons_append] at tail
        obtain ⟨here, later⟩ := List.cons.inj tail
        exact .inr ⟨between, by rw [split, here], later⟩

theorem last_word (first second third fourth : List α) (whole : separator ∉ third) (also : separator ∉ fourth)
    (same : first ++ separator :: third = second ++ separator :: fourth) : first = second ∧ third = fourth := by
  have enough : third.count separator ≤ fourth.count separator := by
    rw [List.count_eq_zero_of_not_mem whole, List.count_eq_zero_of_not_mem also]
  rcases cut_twice separator first second third fourth enough same with cut | ⟨between, _, inside⟩
  · exact cut
  · exact absurd (inside ▸ List.mem_append_right between List.mem_cons_self) also

theorem first_word (first second third fourth : List α) (whole : separator ∉ first) (also : separator ∉ second)
    (same : first ++ separator :: third = second ++ separator :: fourth) : first = second ∧ third = fourth := by
  have mirrored := congrArg List.reverse same
  simp only [List.reverse_append, List.reverse_cons, List.append_assoc, List.singleton_append] at mirrored
  obtain ⟨tail, head⟩ := last_word separator third.reverse fourth.reverse first.reverse second.reverse
    (by simpa using whole) (by simpa using also) mirrored
  exact ⟨List.reverse_injective head, List.reverse_injective tail⟩

-- What a pattern matches has at least its separators.
def AtLeast (tokens : List (Token α)) (count : Nat) : Prop := ∀ text, isMatch tokens text = true → count ≤ text.count separator

theorem at_least_separated (first second : List (Token α)) (count : Nat) (rest : AtLeast separator second count) :
    AtLeast separator (first ++ literal separator :: second) (count + 1) := by
  intro text found
  obtain ⟨before, after, rfl, _, later⟩ := (is_match_separated first second separator text).mp found
  have more := rest after later
  rw [List.count_append, List.count_cons_self]
  omega

-- A token of a pattern that leaves no separators to spare can not take more than a word.
theorem is_match_word (first second : List (Token α)) (word text : List α) (whole : separator ∉ word)
    (rest : AtLeast separator second (text.count separator)) :
    isMatch (first ++ literal separator :: second) (word ++ separator :: text) = true ↔
      isMatch first word = true ∧ isMatch second text = true := by
  rw [is_match_separated]
  constructor
  · rintro ⟨before, after, split, here, later⟩
    rcases cut_twice separator word before text after (rest after later) split with ⟨rfl, rfl⟩ | ⟨between, inside, _⟩
    · exact ⟨here, later⟩
    · exact absurd (inside ▸ List.mem_append_right before List.mem_cons_self) whole
  · rintro ⟨here, later⟩
    exact ⟨word, text, rfl, here, later⟩

end Separators

-- What stands between the brackets: characters and ranges.
def inSequence : List Char → Char → Bool
  | low :: '-' :: high :: rest, c => (low ≤ c && c ≤ high) || inSequence rest c
  | x :: rest, c => x == c || inSequence rest c
  | [], _ => false

def sequence (inside : List Char) : Token Char :=
  match inside with
  | '!' :: seq => .one fun c => !inSequence seq c
  | seq => .one (inSequence seq)

-- A bracket that follows the opening one, or the opening one and '!', does not close it.
def skipped (pattern : List Char) : Nat :=
  let negated := if pattern.head? = some '!' then 1 else 0
  if (pattern.drop negated).head? = some ']' then negated + 1 else negated

def untilBracket : List Char → Option (List Char × List Char)
  | [] => none
  | c :: rest => if c = ']' then some ([], rest) else (untilBracket rest).map fun found => (c :: found.1, found.2)

def brackets (pattern : List Char) : Option (List Char × List Char) :=
  (untilBracket (pattern.drop (skipped pattern))).map fun found => (pattern.take (skipped pattern) ++ found.1, found.2)

-- fnmatch.translate; the number bounds the length of what is left of the pattern.
def translateUpTo : Nat → List Char → List (Token Char)
  | 0, _ => []
  | _ + 1, [] => []
  | bound + 1, c :: rest =>
      if c = '*' then .star :: translateUpTo bound rest
      else if c = '?' then .one (fun _ => true) :: translateUpTo bound rest
      else if c = '[' then
        match brackets rest with
        | some (inside, after) => sequence inside :: translateUpTo bound after
        | none => literal c :: translateUpTo bound rest
      else literal c :: translateUpTo bound rest

def translate (pattern : List Char) : List (Token Char) := translateUpTo pattern.length pattern

def fnmatch (pattern name : List Char) : Bool := isMatch (translate pattern) name

def hasMagic (pattern : List Char) : Bool := pattern.any fun c => c == '*' || c == '?' || c == '['

section Translating

theorem until_bracket_length (pattern inside after : List Char) (found : untilBracket pattern = some (inside, after)) :
    after.length < pattern.length := by
  induction pattern generalizing inside after with
  | nil => exact absurd found nofun
  | cons c rest ih =>
      rw [untilBracket] at found
      split at found
      · obtain ⟨rfl, rfl⟩ := Prod.mk.inj (Option.some.inj found)
        exact Nat.lt_succ_self _
      · obtain ⟨⟨more, later⟩, here, same⟩ := Option.map_eq_some_iff.mp found
        obtain ⟨_, rfl⟩ := Prod.mk.inj same
        exact Nat.lt_succ_of_lt (ih more later here)

theorem brackets_length (pattern inside after : List Char) (found : brackets pattern = some (inside, after)) :
    after.length < pattern.length := by
  rw [brackets] at found
  obtain ⟨⟨more, later⟩, here, same⟩ := Option.map_eq_some_iff.mp found
  obtain ⟨_, rfl⟩ := Prod.mk.inj same
  have shorter := until_bracket_length _ more later here
  rw [List.length_drop] at shorter
  exact Nat.lt_of_lt_of_le shorter (Nat.sub_le _ _)

theorem translate_bounds (first second : Nat) (pattern : List Char) (enough : pattern.length ≤ first)
    (also : pattern.length ≤ second) : translateUpTo first pattern = translateUpTo second pattern := by
  induction first generalizing second pattern with
  | zero =>
      obtain rfl : pattern = [] := List.length_eq_zero_iff.mp (Nat.le_zero.mp enough)
      cases second <;> rfl
  | succ first ih =>
      cases pattern with
      | nil => cases second <;> rfl
      | cons c rest =>
          cases second with
          | zero => exact absurd also (Nat.not_succ_le_zero _)
          | succ second =>
              have fits : rest.length ≤ first := Nat.le_of_succ_le_succ enough
              have alsoFits : rest.length ≤ second := Nat.le_of_succ_le_succ also
              rw [translateUpTo, translateUpTo, ih second rest fits alsoFits]
              rcases found : brackets rest with _ | ⟨inside, after⟩
              · rfl
              · have shorter := brackets_length rest inside after found
                simp only [ih second after (by omega) (by omega)]

theorem translate_cons (c : Char) (rest : List Char) : translate (c :: rest) =
    if c = '*' then .star :: translate rest
    else if c = '?' then .one (fun _ => true) :: translate rest
    else if c = '[' then
      match brackets rest with
      | some (inside, after) => sequence inside :: translate after
      | none => literal c :: translate rest
    else literal c :: translate rest := by
  rw [translate, List.length_cons, translateUpTo, translate]
  rcases found : brackets rest with _ | ⟨inside, after⟩
  · rfl
  · have shorter := brackets_length rest inside after found
    simp only [translate, translate_bounds rest.length after.length after (by omega) (Nat.le_refl _)]

theorem until_bracket_none (pattern : List Char) (open_ : ']' ∉ pattern) : untilBracket pattern = none := by
  induction pattern with
  | nil => rfl
  | cons c rest ih =>
      obtain ⟨apart, later⟩ : ']' ≠ c ∧ ']' ∉ rest := by simpa using open_
      rw [untilBracket, if_neg (Ne.symm apart), ih later]
      rfl

theorem until_bracket_append (first second : List Char) (open_ : ']' ∉ second) :
    untilBracket (first ++ second) = (untilBracket first).map fun found => (found.1, found.2 ++ second) := by
  induction first with
  | nil => exact until_bracket_none second open_
  | cons c rest ih =>
      rw [List.cons_append, untilBracket, untilBracket]
      split
      · rfl
      · rw [ih, Option.map_map, Option.map_map]
        rfl

theorem head_bracket_append (word second : List Char) (open_ : ']' ∉ second) :
    (word ++ second).head? = some ']' ↔ word.head? = some ']' := by
  cases word with
  | nil =>
      cases second with
      | nil => exact Iff.rfl
      | cons d more =>
          have apart : d ≠ ']' := fun same => open_ (same ▸ List.mem_cons_self)
          simpa using apart
  | cons d more => exact Iff.rfl

theorem skipped_append (c : Char) (rest second : List Char) (open_ : ']' ∉ second) :
    skipped (c :: rest ++ second) = skipped (c :: rest) ∧ skipped (c :: rest) ≤ (c :: rest).length := by
  by_cases negated : c = '!'
  · have same := head_bracket_append rest second open_
    simp only [skipped, List.cons_append, List.head?_cons, negated, if_true, List.drop_succ_cons, List.drop_zero, same,
      true_and]
    cases rest with
    | nil => simp
    | cons d more =>
        simp only [List.length_cons]
        split <;> omega
  · simp only [skipped, List.cons_append, List.head?_cons, Option.some.injEq, negated, if_false, List.drop_zero, true_and,
      List.length_cons]
    split <;> omega

theorem brackets_append (first second : List Char) (open_ : ']' ∉ second) :
    brackets (first ++ second) = (brackets first).map fun found => (found.1, found.2 ++ second) := by
  cases first with
  | nil =>
      have dropped : ']' ∉ second.drop (skipped second) := fun member => open_ (List.mem_of_mem_drop member)
      rw [List.nil_append, brackets, until_bracket_none _ dropped]
      rfl
  | cons c rest =>
      obtain ⟨same, within⟩ := skipped_append c rest second open_
      rw [brackets, brackets, same, List.drop_append_of_le_length within, until_bracket_append _ second open_,
        List.take_append_of_le_length within, Option.map_map, Option.map_map]
      rfl

theorem translate_append (first second : List Char) (open_ : ']' ∉ second) :
    translate (first ++ second) = translate first ++ translate second := by
  induction bound : first.length using Nat.strongRecOn generalizing first with
  | ind length ih =>
      subst bound
      cases first with
      | nil => rfl
      | cons c rest =>
          have tail := ih rest.length (Nat.lt_succ_self _) rest rfl
          rw [List.cons_append, translate_cons, translate_cons, brackets_append rest second open_, tail]
          rcases found : brackets rest with _ | ⟨inside, after⟩
          · simp only [Option.map_none]
            split_ifs <;> rfl
          · have shorter := brackets_length rest inside after found
            have more := ih after.length (Nat.lt_succ_of_lt shorter) after rfl
            simp only [Option.map_some, more]
            split_ifs <;> rfl

theorem translate_append_left (first second : List Char) (closed : '[' ∉ first) :
    translate (first ++ second) = translate first ++ translate second := by
  induction first with
  | nil => rfl
  | cons c rest ih =>
      obtain ⟨apart, later⟩ : '[' ≠ c ∧ '[' ∉ rest := by simpa using closed
      rw [List.cons_append, translate_cons, translate_cons, ih later]
      simp only [Ne.symm apart, if_false]
      split_ifs <;> rfl

theorem translate_plain (word : List Char) (plain : hasMagic word = false) : translate word = literals word := by
  induction word with
  | nil => rfl
  | cons c rest ih =>
      obtain ⟨here, later⟩ : (c ≠ '*' ∧ c ≠ '?' ∧ c ≠ '[') ∧ hasMagic rest = false := by
        simpa [hasMagic, and_assoc, not_or] using plain
      rw [translate_cons, if_neg here.1, if_neg here.2.1, if_neg here.2.2, ih later]
      rfl

theorem fnmatch_plain (word name : List Char) (plain : hasMagic word = false) : fnmatch word name = true ↔ name = word := by
  rw [fnmatch, translate_plain word plain, is_match_literals]

-- A separator cuts a pattern in two unless it stands between brackets.
def Cuts (separator : Char) (first second : List Char) : Prop :=
  separator ≠ '*' ∧ separator ≠ '?' ∧ separator ≠ '[' ∧ ('[' ∉ first ∨ ']' ∉ separator :: second)

theorem translate_separated (separator : Char) (first second : List Char) (cuts : Cuts separator first second) :
    translate (first ++ separator :: second) = translate first ++ literal separator :: translate second := by
  obtain ⟨notStar, notAny, notOpen, closed⟩ := cuts
  have tail : translate (separator :: second) = literal separator :: translate second := by
    rw [translate_cons, if_neg notStar, if_neg notAny, if_neg notOpen]
  rcases closed with left | right
  · rw [translate_append_left first _ left, tail]
  · rw [translate_append first _ right, tail]

theorem fnmatch_separated (separator : Char) (first second name : List Char) (cuts : Cuts separator first second) :
    fnmatch (first ++ separator :: second) name = true ↔
      ∃ before after, name = before ++ separator :: after ∧ fnmatch first before = true ∧ fnmatch second after = true := by
  rw [fnmatch, translate_separated separator first second cuts, is_match_separated]
  rfl

theorem at_least_cut (separator : Char) (first second : List Char) (count : Nat) (cuts : Cuts separator first second)
    (rest : AtLeast separator (translate second) count) : AtLeast separator (translate (first ++ separator :: second)) (count + 1) := by
  rw [translate_separated separator first second cuts]
  exact at_least_separated separator _ _ count rest

theorem at_least_literals (separator : Char) (pattern : List Char) (closed : '[' ∉ pattern) (apart : separator ≠ '*' ∧ separator ≠ '?') :
    AtLeast separator (translate pattern) (pattern.count separator) := by
  induction pattern with
  | nil => exact fun _ _ => Nat.zero_le _
  | cons c rest ih =>
      obtain ⟨notOpen, later⟩ : '[' ≠ c ∧ '[' ∉ rest := by simpa using closed
      intro text found
      rw [translate_cons, if_neg (Ne.symm notOpen)] at found
      split at found
      · rename_i isStar
        obtain ⟨skipped, tail, rfl, more⟩ := (is_match_star _ _).mp found
        have enough := ih later tail more
        rw [List.count_cons_of_ne (isStar ▸ apart.1.symm), List.count_append]
        omega
      · split at found
        · rename_i _ isAny
          obtain ⟨d, tail, rfl, _, more⟩ := (is_match_one _ _ _).mp found
          have enough := ih later tail more
          rw [List.count_cons_of_ne (isAny ▸ apart.2.symm), List.count_cons]
          omega
        · obtain ⟨d, tail, rfl, same, more⟩ := (is_match_one _ _ _).mp found
          obtain rfl : c = d := by simpa using same
          have enough := ih later tail more
          rw [List.count_cons, List.count_cons]
          omega

theorem fnmatch_word (separator : Char) (first second word name : List Char) (cuts : Cuts separator first second)
    (whole : separator ∉ word) (rest : AtLeast separator (translate second) (name.count separator)) :
    fnmatch (first ++ separator :: second) (word ++ separator :: name) = true ↔
      fnmatch first word = true ∧ fnmatch second name = true := by
  rw [fnmatch, translate_separated separator first second cuts, is_match_word separator _ _ word name whole rest]
  rfl

end Translating

end ToolchainUtils.Glob
