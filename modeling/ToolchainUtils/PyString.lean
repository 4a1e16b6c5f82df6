import Mathlib.Data.List.DropRight

set_option autoImplicit false

-- Python's str as a list of bytes, with the methods that programs on text files use.
namespace ToolchainUtils.PyString

abbrev Text := List Char

-- What holds of each character of a text is decided along the text, and not for
-- every character that there is.
instance (priority := 2000) decidableEachChar (p : Char → Prop) [DecidablePred p] (text : Text) : Decidable (∀ c ∈ text, p c) :=
  List.decidableBAll p text

instance (priority := 2000) decidableMemText (word : Text) (words : List Text) : Decidable (word ∈ words) := inferInstance

def spaces : List Char := [' ', '\t', '\n', '\r', '\x0b', '\x0c']

def isSpace (c : Char) : Bool := spaces.contains c

-- file.readlines, where a line keeps its end.
def readlines : Text → List Text
  | [] => []
  | c :: rest =>
      if c == '\n' then [c] :: readlines rest
      else
        match readlines rest with
        | [] => [[c]]
        | line :: lines => (c :: line) :: lines

-- str.splitlines.
def splitlines : Text → List Text
  | [] => []
  | '\r' :: '\n' :: rest => [] :: splitlines rest
  | c :: rest =>
      if c == '\n' || c == '\r' then [] :: splitlines rest
      else
        match splitlines rest with
        | [] => [[c]]
        | line :: lines => (c :: line) :: lines

def word (text : Text) : Text := text.takeWhile fun c => !isSpace c

-- str.find.
def find (needle : Text) : Text → Option Nat
  | [] => if needle.isEmpty then some 0 else none
  | c :: rest => if needle.isPrefixOf (c :: rest) then some 0 else (find needle rest).map (· + 1)

theorem find_is_some_iff (needle text : Text) : (find needle text).isSome ↔ needle <:+: text := by
  induction text with
  | nil =>
      rw [find, List.infix_nil]
      cases needle with
      | nil => exact iff_of_true rfl rfl
      | cons c rest => exact iff_of_false Bool.false_ne_true (List.cons_ne_nil c rest)
  | cons c rest ih =>
      rw [find, List.infix_cons_iff]
      by_cases here : needle.isPrefixOf (c :: rest) = true
      · rw [if_pos here]
        exact iff_of_true rfl (Or.inl (List.isPrefixOf_iff_prefix.mp here))
      · rw [if_neg here, Option.isSome_map, ih, or_iff_right (fun front => here (List.isPrefixOf_iff_prefix.mpr front))]

theorem find_char_absent (c : Char) (text : Text) (absent : c ∉ text) : find [c] text = none := by
  rw [← Option.not_isSome_iff_eq_none, find_is_some_iff]
  exact fun inside => absent (inside.subset List.mem_cons_self)

theorem find_char_first (c : Char) (front rest : Text) (absent : c ∉ front) :
    find [c] (front ++ c :: rest) = some front.length := by
  induction front with
  | nil =>
      rw [List.nil_append, find, if_pos (by simp)]
      rfl
  | cons d front ih =>
      obtain ⟨other, absent⟩ := List.ne_and_not_mem_of_not_mem_cons absent
      rw [List.cons_append, find, if_neg (by simpa using other), ih absent]
      rfl

def lstrip (text : Text) : Text := text.dropWhile isSpace

def rstrip (text : Text) : Text := text.rdropWhile isSpace

def strip (text : Text) : Text := rstrip (lstrip text)

-- str.split() and ' '.join.
def split (text : Text) : List Text := (text.splitOnP isSpace).filter fun piece => !piece.isEmpty

def joined (words : List Text) : Text := [' '].intercalate words

def str (n : Nat) : Text := Nat.toDigits 10 n

def strInt : Int → Text
  | .ofNat n => str n
  | .negSucc n => '-' :: str (n + 1)

def parseNat (text : Text) : Option Nat :=
  if !text.isEmpty && text.all Char.isDigit then some (Nat.ofDigitChars 10 text 0) else none

-- int(text): white space around a number with or without a sign.
def parseInt (text : Text) : Option Int :=
  match strip text with
  | '-' :: digits => (parseNat digits).map fun n => -(n : Int)
  | '+' :: digits => (parseNat digits).map fun n => (n : Int)
  | digits => (parseNat digits).map fun n => (n : Int)

-- What a text spells as a float, before it is rounded: digits times a power of ten.
inductive FloatText where
  | nan
  | infinite (negative : Bool)
  | decimal (negative : Bool) (digits : Nat) (exponent : Int)
deriving DecidableEq, Repr

def signed (text : Text) : Bool × Text :=
  match text with
  | '-' :: rest => (true, rest)
  | '+' :: rest => (false, rest)
  | _ => (false, text)

-- The digits around the point and the number of them behind it.
def parseDigits (text : Text) : Option (Nat × Nat) :=
  let fraction := (text.dropWhile (· != '.')).drop 1
  (parseNat (text.takeWhile (· != '.') ++ fraction)).map fun digits => (digits, fraction.length)

def parseExponent (text : Text) : Option Int :=
  match text with
  | [] => some 0
  | _ :: rest => (parseNat (signed rest).2).map fun n => if (signed rest).1 then -(n : Int) else n

-- float(text): white space around a number with or without a sign, a point and an exponent.
def parseFloat (text : Text) : Option FloatText :=
  let negative := (signed (strip text)).1
  let number := (signed (strip text)).2.map Char.toLower
  if number = "nan".toList then some .nan
  else if number = "inf".toList ∨ number = "infinity".toList then some (.infinite negative)
  else
    match parseDigits (number.takeWhile (· != 'e')), parseExponent (number.dropWhile (· != 'e')) with
    | some (digits, behind), some exponent => some (.decimal negative digits (exponent - behind))
    | _, _ => none

example : parseFloat " -12.50e+3 ".toList = some (.decimal true 1250 1) := by decide

section Lines

theorem readlines_line (line rest : Text) (oneLine : '\n' ∉ line) :
    readlines (line ++ '\n' :: rest) = (line ++ ['\n']) :: readlines rest := by
  induction line with
  | nil =>
      rw [List.nil_append, readlines, if_pos (beq_self_eq_true _)]
      rfl
  | cons c line ih =>
      have other : (c == '\n') = false := by simpa using fun same : c = '\n' => oneLine (by rw [same]; exact List.mem_cons_self)
      rw [List.cons_append, readlines, other, ih fun member => oneLine (List.mem_cons_of_mem _ member)]
      rfl

theorem readlines_last (last : Text) (oneLine : '\n' ∉ last) : readlines last = if last = [] then [] else [last] := by
  induction last with
  | nil => rfl
  | cons c rest ih =>
      obtain ⟨other, oneLine⟩ := List.ne_and_not_mem_of_not_mem_cons oneLine
      have plain : (c == '\n') = false := by simpa using Ne.symm other
      rw [readlines, plain, if_neg Bool.false_ne_true, ih oneLine]
      cases rest <;> rfl

theorem readlines_cons_ne_nil (c : Char) (rest : Text) : readlines (c :: rest) ≠ [] := by
  rw [readlines]
  split
  · exact List.cons_ne_nil _ _
  · cases readlines rest <;> exact List.cons_ne_nil _ _

theorem readlines_newline (first rest : Text) :
    readlines (first ++ '\n' :: rest) = readlines (first ++ ['\n']) ++ readlines rest := by
  induction first with
  | nil => rfl
  | cons c first ih =>
      rw [List.cons_append, List.cons_append, readlines, readlines, ih]
      cases c == '\n' with
      | true => rfl
      | false =>
          cases lines : readlines (first ++ ['\n']) with
          | nil => cases first <;> exact absurd lines (readlines_cons_ne_nil _ _)
          | cons line lines => rfl

theorem readlines_lines (lines : List Text) (oneLine : ∀ line ∈ lines, '\n' ∉ line) :
    readlines (lines.flatMap fun line => line ++ ['\n']) = lines.map fun line => line ++ ['\n'] := by
  induction lines with
  | nil => rfl
  | cons line rest ih =>
      rw [List.flatMap_cons, List.append_assoc, List.singleton_append, readlines_line line _ (oneLine line List.mem_cons_self),
        ih fun other member => oneLine other (List.mem_cons_of_mem _ member)]
      rfl

-- A text is a line after the other, and a last one that does not end.
theorem lines_induction (p : Text → Prop) (last : ∀ text, '\n' ∉ text → p text)
    (line : ∀ body rest, '\n' ∉ body → p rest → p (body ++ '\n' :: rest)) (text : Text) : p text := by
  by_cases ended : '\n' ∈ text
  · obtain ⟨body, rest, split, oneLine⟩ := List.eq_append_cons_of_mem ended
    have shorter : rest.length < text.length := by
      rw [split, List.length_append, List.length_cons]
      omega
    rw [split]
    exact line body rest oneLine (lines_induction p last line rest)
  · exact last text ended
termination_by text.length

theorem readlines_flatten (text : Text) : (readlines text).flatten = text := by
  induction text using lines_induction with
  | last text oneLine =>
      rw [readlines_last text oneLine]
      by_cases empty : text = []
      · rw [if_pos empty, empty]
        rfl
      · rw [if_neg empty, List.flatten_singleton]
  | line body rest oneLine ih => rw [readlines_line body rest oneLine, List.flatten_cons, ih, List.append_assoc, List.singleton_append]

-- A line of a text: not empty, and with a newline at its end if at all.
structure IsLine (line : Text) : Prop where
  filled : line ≠ []
  oneLine : '\n' ∉ line.dropLast

theorem readlines_are_lines (text : Text) : ∀ line ∈ readlines text, IsLine line := by
  induction text using lines_induction with
  | last text oneLine =>
      rw [readlines_last text oneLine]
      by_cases empty : text = []
      · rw [if_pos empty]
        exact List.forall_mem_nil _
      · rw [if_neg empty, List.forall_mem_singleton]
        exact ⟨empty, fun member => oneLine (List.dropLast_subset text member)⟩
  | line body rest oneLine ih =>
      rw [readlines_line body rest oneLine, List.forall_mem_cons]
      exact ⟨⟨List.append_ne_nil_of_right_ne_nil body (List.cons_ne_nil _ _), by rwa [List.dropLast_concat]⟩, ih⟩

theorem readlines_end (text : Text) : ∀ line ∈ (readlines text).dropLast, line.getLast? = some '\n' := by
  induction text using lines_induction with
  | last text oneLine =>
      rw [readlines_last text oneLine]
      split <;> exact List.forall_mem_nil _
  | line body rest oneLine ih =>
      rw [readlines_line body rest oneLine]
      cases lines : readlines rest with
      | nil => exact List.forall_mem_nil _
      | cons next others =>
          rw [lines] at ih
          rw [List.dropLast_cons_cons, List.forall_mem_cons]
          exact ⟨List.getLast?_concat, ih⟩

end Lines

section Trimmed

-- Neither the first nor the last character is white space.
structure Trimmed (text : Text) : Prop where
  first : ∀ c, text.head? = some c → isSpace c = false
  last : ∀ c, text.getLast? = some c → isSpace c = false

theorem lstrip_of_first (text : Text) (first : ∀ c, text.head? = some c → isSpace c = false) : lstrip text = text := by
  cases text with
  | nil => rfl
  | cons c rest => rw [lstrip, List.dropWhile_cons, first c rfl, if_neg Bool.false_ne_true]

theorem rstrip_of_last (text : Text) (last : ∀ c, text.getLast? = some c → isSpace c = false) : rstrip text = text := by
  rw [rstrip, List.rdropWhile_eq_self_iff]
  intro nonempty space
  rw [last _ (List.getLast?_eq_getLast_of_ne_nil nonempty)] at space
  exact absurd space Bool.false_ne_true

theorem strip_trimmed (text : Text) (trimmed : Trimmed text) : strip text = text := by
  rw [strip, lstrip_of_first text trimmed.first, rstrip_of_last text trimmed.last]

theorem lstrip_first (text : Text) (c : Char) (first : (lstrip text).head? = some c) : isSpace c = false := by
  induction text with
  | nil => exact absurd first nofun
  | cons d rest ih =>
      rw [lstrip, List.dropWhile_cons] at first
      split at first
      · exact ih first
      · rename_i other
        rw [← Option.some_inj.mp first]
        exact Bool.eq_false_iff.mpr other

theorem rstrip_last (text : Text) (c : Char) (last : (rstrip text).getLast? = some c) : isSpace c = false := by
  have nonempty : rstrip text ≠ [] := by
    intro empty
    rw [empty] at last
    exact absurd last nofun
  have final := List.rdropWhile_last_not isSpace text nonempty
  rw [List.getLast?_eq_getLast_of_ne_nil nonempty, Option.some_inj] at last
  rw [← last]
  exact Bool.eq_false_iff.mpr final

theorem rstrip_starts (text : Text) : rstrip text <+: text := List.rdropWhile_prefix isSpace text

theorem strip_is_trimmed (text : Text) : Trimmed (strip text) := by
  constructor
  · intro c first
    obtain ⟨rest, split⟩ := rstrip_starts (lstrip text)
    apply lstrip_first text c
    rw [← split]
    change (strip text ++ rest).head? = some c
    rw [List.head?_append, first]
    rfl
  · exact rstrip_last (lstrip text)

theorem trimmed_iff (text : Text) : Trimmed text ↔ strip text = text := by
  constructor
  · exact strip_trimmed text
  · intro same
    rw [← same]
    exact strip_is_trimmed text

theorem strip_member (text : Text) (c : Char) (member : c ∈ strip text) : c ∈ text :=
  (List.dropWhile_sublist isSpace).subset ((rstrip_starts (lstrip text)).subset member)

theorem rstrip_newline (text : Text) : rstrip (text ++ ['\n']) = rstrip text := List.rdropWhile_concat_pos isSpace text '\n' (by decide)

theorem rstrip_append (first rest : Text) (c : Char) (solid : isSpace c = false) :
    rstrip (first ++ c :: rest) = first ++ c :: rstrip rest := by
  induction rest using List.reverseRecOn with
  | nil => exact List.rdropWhile_concat_neg isSpace first c (by rw [solid]; exact Bool.false_ne_true)
  | append_singleton rest d ih =>
      rw [← List.cons_append, ← List.append_assoc]
      by_cases space : isSpace d = true
      · rw [rstrip, List.rdropWhile_concat_pos isSpace _ d space, rstrip, List.rdropWhile_concat_pos isSpace rest d space]
        exact ih
      · rw [rstrip, List.rdropWhile_concat_neg isSpace _ d space, rstrip, List.rdropWhile_concat_neg isSpace rest d space,
          List.append_assoc]
        rfl

theorem lstrip_spaces (first rest : Text) (space : ∀ c ∈ first, isSpace c = true) : lstrip (first ++ rest) = lstrip rest :=
  List.dropWhile_append_of_pos space

theorem lstrip_solid (c : Char) (rest : Text) (solid : isSpace c = false) : lstrip (c :: rest) = c :: rest :=
  lstrip_of_first (c :: rest) fun d first => by rw [← Option.some_inj.mp first, solid]

theorem lstrip_lstrip (text : Text) : lstrip (lstrip text) = lstrip text := lstrip_of_first _ (lstrip_first text)

theorem lstrip_rstrip (text : Text) : lstrip (rstrip text) = strip text := by
  rw [strip]
  cases start : lstrip text with
  | nil =>
      have blank : rstrip text = [] := List.rdropWhile_eq_nil_iff.mpr (List.dropWhile_eq_nil_iff.mp start)
      rw [blank]
      rfl
  | cons c rest =>
      have solid : isSpace c = false := lstrip_first text c (by rw [start]; rfl)
      have split : text = text.takeWhile isSpace ++ c :: rest := by
        rw [← start]
        exact List.takeWhile_append_dropWhile.symm
      rw [split, rstrip_append _ rest c solid, lstrip_spaces _ _ fun d member => List.mem_takeWhile_imp member,
        lstrip_solid c _ solid]
      exact (rstrip_append [] rest c solid).symm

theorem take_to_stop (p : Char → Bool) (first rest : Text) (c : Char) (all : ∀ d ∈ first, p d = true) (stop : p c = false) :
    (first ++ c :: rest).takeWhile p = first := by
  rw [List.takeWhile_append_of_pos all, List.takeWhile_cons_of_neg (by rw [stop]; exact Bool.false_ne_true), List.append_nil]

theorem drop_to_stop (p : Char → Bool) (first rest : Text) (c : Char) (all : ∀ d ∈ first, p d = true) (stop : p c = false) :
    (first ++ c :: rest).dropWhile p = c :: rest := by
  rw [List.dropWhile_append_of_pos all, List.dropWhile_cons_of_neg (by rw [stop]; exact Bool.false_ne_true)]

theorem trimmed_nil : Trimmed [] := ⟨nofun, nofun⟩

theorem trimmed_append (first second : Text) (left : Trimmed first) (right : Trimmed second) : Trimmed (first ++ second) := by
  constructor
  · intro c head
    cases first with
    | nil => exact right.first c head
    | cons d rest => exact left.first c head
  · intro c last
    rcases List.eq_nil_or_concat second with empty | ⟨rest, d, split⟩
    · rw [empty, List.append_nil] at last
      exact left.last c last
    · rw [split, List.concat_eq_append] at last right
      rw [← List.append_assoc, List.getLast?_concat] at last
      exact right.last c (by rw [List.getLast?_concat, last])

end Trimmed

section Splitting

theorem split_word (first rest : Text) (nonempty : first ≠ []) (solid : ∀ c ∈ first, isSpace c = false) (blank : Char) (space : isSpace blank = true) :
    split (first ++ blank :: rest) = first :: split rest := by
  rw [split, List.splitOnP_append_cons_of_forall_mem solid blank space, List.filter_cons_of_pos]
  · rfl
  · simpa using nonempty

theorem split_joined (words : List Text) (nonempty : ∀ w ∈ words, w ≠ []) (solid : ∀ w ∈ words, ∀ c ∈ w, isSpace c = false) :
    split (joined words) = words := by
  induction words with
  | nil => rfl
  | cons first rest ih =>
      have firstSolid := solid first List.mem_cons_self
      have firstNonempty := nonempty first List.mem_cons_self
      cases rest with
      | nil =>
          rw [joined, List.intercalate_singleton, split, List.splitOnP_eq_singleton firstSolid, List.filter_cons_of_pos]
          · rfl
          · simpa using firstNonempty
      | cons second rest =>
          rw [joined, List.intercalate_cons_cons, List.append_assoc, List.singleton_append,
            split_word first _ firstNonempty firstSolid ' ' (by decide)]
          exact congrArg _ (ih (fun w member => nonempty w (List.mem_cons_of_mem _ member))
            fun w member => solid w (List.mem_cons_of_mem _ member))

theorem piece_of_split (p : Char → Bool) (text piece : Text) (member : piece ∈ text.splitOnP p) : ∀ c ∈ piece, p c = false ∧ c ∈ text := by
  induction text generalizing piece with
  | nil =>
      rw [List.splitOnP_nil, List.mem_singleton] at member
      rw [member]
      exact fun c found => absurd found List.not_mem_nil
  | cons d rest ih =>
      rw [List.splitOnP_cons_eq_if_modifyHead] at member
      split at member
      · rcases List.mem_cons.mp member with empty | later
        · rw [empty]
          exact fun c found => absurd found List.not_mem_nil
        · exact fun c found => (ih piece later c found).imp id (List.mem_cons_of_mem _)
      · rename_i other
        cases pieces : rest.splitOnP p with
        | nil => exact absurd pieces (List.splitOnP_ne_nil p rest)
        | cons first others =>
            rw [pieces, List.modifyHead_cons] at member
            rcases List.mem_cons.mp member with same | later
            · rw [same]
              intro c found
              rcases List.mem_cons.mp found with isFirst | inFirst
              · rw [isFirst]
                exact ⟨Bool.eq_false_iff.mpr other, List.mem_cons_self⟩
              · exact (ih first (by rw [pieces]; exact List.mem_cons_self) c inFirst).imp id (List.mem_cons_of_mem _)
            · exact fun c found => (ih piece (by rw [pieces]; exact List.mem_cons_of_mem _ later) c found).imp id (List.mem_cons_of_mem _)

theorem word_of_split (text piece : Text) (member : piece ∈ split text) :
    piece ≠ [] ∧ ∀ c ∈ piece, isSpace c = false ∧ c ∈ text := by
  rw [split, List.mem_filter] at member
  exact ⟨by simpa using member.2, piece_of_split isSpace text piece member.1⟩

end Splitting

section Numbers

theorem str_digits (n : Nat) : ∀ c ∈ str n, c.isDigit = true :=
  fun _ member => Nat.isDigit_of_mem_toDigits (by decide) (by decide) member

theorem str_value (n : Nat) : Nat.ofDigitChars 10 (str n) 0 = n := Nat.ofDigitChars_toDigits (by decide) (by decide)

theorem str_injective (m n : Nat) (same : str m = str n) : m = n := by
  rw [← str_value m, ← str_value n, same]

theorem str_nonempty (n : Nat) : str n ≠ [] := Nat.toDigits_ne_nil

theorem digit_solid (c : Char) (digit : c.isDigit = true) : isSpace c = false := by
  rw [Bool.eq_false_iff]
  intro space
  have member : c ∈ spaces := List.contains_iff_mem.mp space
  have none : ∀ d ∈ spaces, d.isDigit = false := by decide
  exact absurd digit (Bool.eq_false_iff.mp (none c member))

theorem parse_nat_str (n : Nat) : parseNat (str n) = some n := by
  rw [parseNat, if_pos, str_value]
  rw [Bool.and_eq_true, List.all_eq_true]
  exact ⟨by simpa using str_nonempty n, str_digits n⟩

theorem int_digits (n : Int) : ∀ c ∈ strInt n, c = '-' ∨ c.isDigit = true := by
  cases n with
  | ofNat n => exact fun c member => .inr (str_digits n c member)
  | negSucc n =>
      intro c member
      rcases List.mem_cons.mp member with sign | digit
      · exact .inl sign
      · exact .inr (str_digits (n + 1) c digit)

theorem solid_trimmed (text : Text) (solid : ∀ c ∈ text, isSpace c = false) : Trimmed text :=
  ⟨fun c head => solid c (List.mem_of_head? head), fun c last => solid c (List.mem_of_getLast? last)⟩

theorem int_trimmed (n : Int) : Trimmed (strInt n) := by
  apply solid_trimmed
  intro c member
  rcases int_digits n c member with sign | digit
  · rw [sign]
    decide
  · exact digit_solid c digit

theorem parse_str_int (n : Int) : parseInt (strInt n) = some n := by
  rw [parseInt, strip_trimmed _ (int_trimmed n)]
  cases n with
  | ofNat n =>
      cases digits : str n with
      | nil => exact absurd digits (str_nonempty n)
      | cons c rest =>
          have isDigit := str_digits n c (by rw [digits]; exact List.mem_cons_self)
          have notMinus : c ≠ '-' := fun same => absurd isDigit (by rw [same]; decide)
          have notPlus : c ≠ '+' := fun same => absurd isDigit (by rw [same]; decide)
          have parsed := parse_nat_str n
          rw [digits] at parsed
          simp [strInt, digits, notMinus, notPlus, parsed]
  | negSucc n =>
      simp only [strInt, parse_nat_str]
      rfl

end Numbers

end ToolchainUtils.PyString
