import Mathlib.Algebra.GroupWithZero.Nat
import Mathlib.Data.List.Forall2
import ToolchainUtils.TextReplace

set_option autoImplicit false

-- Where a text can be cut so that what is found in it is found in its parts.
namespace ToolchainUtils.TextReplace

variable {α : Type} [DecidableEq α]

section Cutting

-- An occurrence of the pattern begins in the first text and ends in the second.
def Straddles (pattern first second : List α) : Prop :=
  ∃ k, 0 < k ∧ k < pattern.length ∧ pattern.take k <:+ first ∧ pattern.drop k <+: second

theorem replace_from_append (pattern replacement first second : List α) (skip : Nat) (within : skip ≤ first.length)
    (cut : ¬ Straddles pattern first second) : replaceFrom pattern replacement skip (first ++ second) =
      replaceFrom pattern replacement skip first ++ replaceFrom pattern replacement 0 second := by
  induction first generalizing skip with
  | nil =>
      rw [Nat.le_zero.mp within]
      rfl
  | cons c rest ih =>
      have later : ¬ Straddles pattern rest second := fun ⟨k, positive, short, ends, starts⟩ =>
        cut ⟨k, positive, short, ends.trans (List.suffix_cons c rest), starts⟩
      cases skip with
      | succ skip => exact ih skip (Nat.le_of_succ_le_succ within) later
      | zero =>
          rw [List.cons_append, replaceFrom, replaceFrom]
          by_cases short : pattern.length ≤ (c :: rest).length
          · have same : pattern.isPrefixOf (c :: (rest ++ second)) = pattern.isPrefixOf (c :: rest) := by
              rw [Bool.eq_iff_iff, List.isPrefixOf_iff_prefix, List.isPrefixOf_iff_prefix]
              exact ⟨fun starts => List.prefix_of_prefix_length_le starts (List.prefix_append (c :: rest) second) short,
                fun starts => starts.trans (List.prefix_append (c :: rest) second)⟩
            have left : pattern.length - 1 ≤ rest.length := by
              rw [List.length_cons] at short
              omega
            rw [same, ih _ left later, ih 0 (Nat.zero_le _) later]
            split
            · rw [List.append_assoc]
            · rfl
          · -- Too long for what is left of the first text, and not cut by its end.
            have long : (c :: rest).length < pattern.length := Nat.lt_of_not_le short
            have none : ¬ pattern.isPrefixOf (c :: rest) = true := fun starts =>
              short (List.isPrefixOf_iff_prefix.mp starts).length_le
            have neither : ¬ pattern.isPrefixOf (c :: (rest ++ second)) = true := by
              intro starts
              obtain ⟨tail, joined⟩ := List.isPrefixOf_iff_prefix.mp starts
              have front : pattern.take (c :: rest).length = c :: rest := by
                have taken := congrArg (List.take (c :: rest).length) joined
                rwa [List.take_append_of_le_length (Nat.le_of_lt long), ← List.cons_append, List.take_left] at taken
              refine cut ⟨(c :: rest).length, Nat.succ_pos _, long, by rw [front], ⟨tail, ?_⟩⟩
              have dropped := congrArg (List.drop (c :: rest).length) joined
              rwa [List.drop_append_of_le_length (Nat.le_of_lt long), ← List.cons_append, List.drop_left] at dropped
            rw [if_neg none, if_neg neither, ih 0 (Nat.zero_le _) later]
            rfl

theorem replace_append (pattern replacement first second : List α) (cut : ¬ Straddles pattern first second) :
    replace pattern replacement (first ++ second) = replace pattern replacement first ++ replace pattern replacement second :=
  replace_from_append pattern replacement first second 0 (Nat.zero_le _) cut

-- Counted by a replacement that is one longer than the pattern.
theorem occurrences_append (pattern first second : List α) (cut : ¬ Straddles pattern first second) (filled : pattern ≠ []) :
    occurrences pattern (first ++ second) = occurrences pattern first + occurrences pattern second := by
  obtain ⟨value, rest, shape⟩ := List.exists_cons_of_ne_nil filled
  have counted := fun text => count_replace pattern filled (value :: pattern) text value
  have whole := counted (first ++ second)
  have left := counted first
  have right := counted second
  rw [replace_append pattern _ first second cut, List.count_append, List.count_append] at whole
  rw [List.count_cons_self, Nat.mul_succ] at whole left right
  omega

end Cutting

section Apart

variable (pattern text : List α)

-- No occurrence of the pattern overlaps the text by a part of it, wherever it stands.
def Apart : Prop := ∀ k < pattern.length, 0 < k →
  ¬ pattern.drop k <+: text ∧ ¬ text <+: pattern.drop k ∧ ¬ pattern.take k <:+ text

instance : Decidable (Apart pattern text) := by
  unfold Apart
  infer_instance

variable {pattern text}

omit [DecidableEq α] in
theorem apart_before (apart : Apart pattern text) (before after : List α) : ¬ Straddles pattern before (text ++ after) := by
  rintro ⟨k, positive, short, _, starts⟩
  obtain ⟨within, beyond, _⟩ := apart k short positive
  rcases List.prefix_or_prefix_of_prefix starts (List.prefix_append text after) with part | part
  · exact within part
  · exact beyond part

omit [DecidableEq α] in
theorem apart_after (apart : Apart pattern text) (after : List α) : ¬ Straddles pattern text after := by
  rintro ⟨k, positive, short, ends, _⟩
  exact (apart k short positive).2.2 ends

theorem replace_around (apart : Apart pattern text) (replacement before after : List α) :
    replace pattern replacement (before ++ (text ++ after)) =
      replace pattern replacement before ++ (replace pattern replacement text ++ replace pattern replacement after) := by
  rw [replace_append _ _ _ _ (apart_before apart before after), replace_append _ _ _ _ (apart_after apart after)]

theorem occurrences_around (apart : Apart pattern text) (filled : pattern ≠ []) (before after : List α) :
    occurrences pattern (before ++ (text ++ after)) = occurrences pattern before + (occurrences pattern text + occurrences pattern after) := by
  rw [occurrences_append _ _ _ (apart_before apart before after) filled, occurrences_append _ _ _ (apart_after apart after) filled]

end Apart

section Pieces

-- Replacing is splitting and joining again.
theorem replace_split_from (pattern replacement : List α) (skip : Nat) (text : List α) :
    replacement.intercalate (splitFrom pattern skip text) = replaceFrom pattern replacement skip text := by
  induction text generalizing skip with
  | nil => rfl
  | cons c rest ih =>
      cases skip with
      | succ skip => exact ih skip
      | zero =>
          rw [splitFrom, replaceFrom]
          split
          · obtain ⟨piece, pieces, shape⟩ := List.exists_cons_of_ne_nil (split_from_ne_nil pattern (pattern.length - 1) rest)
            have joined := ih (pattern.length - 1)
            rw [shape] at joined
            rw [shape, List.intercalate_cons_cons, List.nil_append, joined]
          · obtain ⟨piece, pieces, shape⟩ := List.exists_cons_of_ne_nil (split_from_ne_nil pattern 0 rest)
            have joined := ih 0
            rw [shape] at joined
            rw [shape, ← joined]
            cases pieces with
            | nil => simp
            | cons next others => simp [List.intercalate_cons_cons]

theorem replace_split (pattern replacement text : List α) :
    replacement.intercalate (splitAt pattern text) = replace pattern replacement text :=
  replace_split_from pattern replacement 0 text

-- A change of texts that leaves this one, wherever it stands, as it is.
def Passes (change : List α → List α) (text : List α) : Prop :=
  ∀ before after, change (before ++ (text ++ after)) = change before ++ (text ++ change after)

omit [DecidableEq α] in
theorem passes_id (text : List α) : Passes id text := fun _ _ => rfl

theorem passes_replace (pattern replacement text : List α) (apart : Apart pattern text) (kept : replace pattern replacement text = text) :
    Passes (replace pattern replacement) text := fun before after => by rw [replace_around apart, kept]

omit [DecidableEq α] in
theorem passes_comp (first second : List α → List α) (text : List α) (passes : Passes first text) (also : Passes second text) :
    Passes (second ∘ first) text := fun before after => by
  rw [Function.comp_apply, passes, also]
  rfl

omit [DecidableEq α] in
theorem passes_pieces (change : List α → List α) (text : List α) (passes : Passes change text) (first : List α) (rest : List (List α)) :
    change (text.intercalate (first :: rest)) = text.intercalate (change first :: rest.map change) := by
  induction rest generalizing first with
  | nil => simp
  | cons second rest ih =>
      have split : text.intercalate (first :: second :: rest) = first ++ (text ++ text.intercalate (second :: rest)) := by
        rw [List.intercalate_cons_cons, List.append_assoc]
      rw [split, passes, ih, List.map_cons, List.intercalate_cons_cons, List.append_assoc]

theorem occurrences_pieces (pattern text : List α) (apart : Apart pattern text) (filled : pattern ≠ []) (first : List α)
    (rest : List (List α)) : occurrences pattern (text.intercalate (first :: rest)) =
      ((first :: rest).map (occurrences pattern)).sum + rest.length * occurrences pattern text := by
  induction rest generalizing first with
  | nil => simp
  | cons second rest ih =>
      have split : text.intercalate (first :: second :: rest) = first ++ (text ++ text.intercalate (second :: rest)) := by
        rw [List.intercalate_cons_cons, List.append_assoc]
      rw [split, occurrences_around apart filled, ih, List.length_cons, Nat.succ_mul]
      simp only [List.map_cons, List.sum_cons]
      omega

-- What one substitution does to how often another pattern is found later.
theorem occurrences_substituted (change : List α → List α) (pattern old new text : List α) (some : old ≠ []) (filled : pattern ≠ [])
    (passesOld : Passes change old) (passesNew : Passes change new) (apartOld : Apart pattern old) (apartNew : Apart pattern new) :
    occurrences pattern (change (replace old new text)) + occurrences old text * occurrences pattern old =
      occurrences pattern (change text) + occurrences old text * occurrences pattern new := by
  have pieces := length_split old text
  obtain ⟨first, rest, shape⟩ := List.exists_cons_of_ne_nil (split_from_ne_nil old 0 text)
  have joined := join_split old some text
  have replaced := replace_split old new text
  rw [show splitAt old text = first :: rest from shape] at joined replaced pieces
  have times : rest.length = occurrences old text := Nat.succ.inj pieces
  have before : change text = old.intercalate (change first :: rest.map change) := by
    rw [← joined, passes_pieces change old passesOld]
  rw [← replaced, before, passes_pieces change new passesNew, occurrences_pieces pattern new apartNew filled,
    occurrences_pieces pattern old apartOld filled, List.length_map, times]
  omega

-- A text that neither side of the substitution fits into is left or made by it alike.
theorem change_substituted (change : List α → List α) (old new text goal : List α) (some : old ≠ []) (passesOld : Passes change old)
    (passesNew : Passes change new) (foreignOld : ∃ c ∈ old, c ∉ goal) (foreignNew : ∃ c ∈ new, c ∉ goal) :
    change (replace old new text) = goal ↔ change text = goal := by
  obtain ⟨first, rest, shape⟩ := List.exists_cons_of_ne_nil (split_from_ne_nil old 0 text)
  have joined := join_split old some text
  have replaced := replace_split old new text
  rw [show splitAt old text = first :: rest from shape] at joined replaced
  have foreign : ∀ between : List α, (∃ c ∈ between, c ∉ goal) → Passes change between → ∀ second more,
      change (between.intercalate (first :: second :: more)) ≠ goal := by
    intro between outside passes second more same
    obtain ⟨c, member, absent⟩ := outside
    rw [passes_pieces change between passes, List.map_cons, List.intercalate_cons_cons, List.append_assoc] at same
    exact absent (same ▸ List.mem_append_right _ (List.mem_append_left _ member))
  cases rest with
  | nil => rw [← replaced, ← joined, List.intercalate_singleton, List.intercalate_singleton]
  | cons second more =>
      rw [← replaced]
      refine iff_of_false (foreign new foreignNew passesNew second more) ?_
      rw [← joined]
      exact foreign old foreignOld passesOld second more

end Pieces

section Alike

-- Texts that differ only in characters a pattern does not tell apart.
variable (related : α → α → Prop) (same : ∀ value, related value value)

def Blind (pattern : List α) : Prop := ∀ value other, related value other → ∀ c ∈ pattern, c = value ↔ c = other

omit [DecidableEq α] in
theorem prefix_alike (pattern first second : List α) (blind : Blind related pattern) (alike : List.Forall₂ related first second) :
    pattern <+: first ↔ pattern <+: second := by
  induction alike generalizing pattern with
  | nil => exact Iff.rfl
  | cons here _ ih =>
      cases pattern with
      | nil => exact iff_of_true List.nil_prefix List.nil_prefix
      | cons c rest =>
          rw [List.cons_prefix_cons, List.cons_prefix_cons, blind _ _ here c List.mem_cons_self,
            ih rest fun value other pair d member => blind value other pair d (List.mem_cons_of_mem c member)]

theorem is_prefix_alike (pattern first second : List α) (blind : Blind related pattern) (alike : List.Forall₂ related first second) :
    pattern.isPrefixOf first = pattern.isPrefixOf second := by
  rw [Bool.eq_iff_iff, List.isPrefixOf_iff_prefix, List.isPrefixOf_iff_prefix]
  exact prefix_alike related pattern first second blind alike

theorem split_alike_from (pattern : List α) (blind : Blind related pattern) (skip : Nat) (first second : List α)
    (alike : List.Forall₂ related first second) :
    List.Forall₂ (List.Forall₂ related) (splitFrom pattern skip first) (splitFrom pattern skip second) := by
  induction alike generalizing skip with
  | nil => exact .cons .nil .nil
  | cons here rest ih =>
      cases skip with
      | succ skip => exact ih skip
      | zero =>
          rw [splitFrom, splitFrom, is_prefix_alike related pattern _ _ blind (.cons here rest)]
          split
          · exact .cons .nil (ih _)
          · obtain ⟨piece, pieces, shape⟩ := List.exists_cons_of_ne_nil (split_from_ne_nil pattern 0 _)
            obtain ⟨other, others, also⟩ := List.exists_cons_of_ne_nil (split_from_ne_nil pattern 0 _)
            have later := ih 0
            rw [shape, also] at later ⊢
            obtain ⟨front, back⟩ := List.forall₂_cons.mp later
            exact .cons (.cons here front) back

theorem split_alike (pattern first second : List α) (blind : Blind related pattern) (alike : List.Forall₂ related first second) :
    List.Forall₂ (List.Forall₂ related) (splitAt pattern first) (splitAt pattern second) :=
  split_alike_from related pattern blind 0 first second alike

theorem occurrences_alike (pattern first second : List α) (blind : Blind related pattern) (alike : List.Forall₂ related first second) :
    occurrences pattern first = occurrences pattern second := by
  have lengths := (split_alike related pattern first second blind alike).length_eq
  rw [length_split, length_split] at lengths
  exact Nat.succ.inj lengths

include same in
omit [DecidableEq α] in
theorem intercalate_alike (between : List α) (pieces others : List (List α)) (alike : List.Forall₂ (List.Forall₂ related) pieces others) :
    List.Forall₂ related (between.intercalate pieces) (between.intercalate others) := by
  have unchanged : List.Forall₂ related between between := List.forall₂_same.mpr fun value _ => same value
  induction alike with
  | nil => exact .nil
  | cons here rest ih =>
      cases rest with
      | nil => simpa using here
      | cons next more =>
          rw [List.intercalate_cons_cons, List.intercalate_cons_cons]
          exact List.rel_append (List.rel_append here unchanged) ih

include same in
theorem replace_alike (pattern replacement first second : List α) (blind : Blind related pattern)
    (alike : List.Forall₂ related first second) :
    List.Forall₂ related (replace pattern replacement first) (replace pattern replacement second) := by
  rw [← replace_split, ← replace_split]
  exact intercalate_alike related same replacement _ _ (split_alike related pattern first second blind alike)

end Alike

section Nothing

theorem replace_from_drop (pattern replacement : List α) (skip : Nat) (text : List α) :
    replaceFrom pattern replacement skip text = replaceFrom pattern replacement 0 (text.drop skip) := by
  induction text generalizing skip with
  | nil => rw [List.drop_nil, replaceFrom, replaceFrom]
  | cons c rest ih =>
      cases skip with
      | zero => rfl
      | succ skip => exact ih skip

theorem replace_front (pattern replacement rest : List α) (filled : pattern ≠ []) :
    replace pattern replacement (pattern ++ rest) = replacement ++ replace pattern replacement rest := by
  obtain ⟨value, tail, rfl⟩ := List.exists_cons_of_ne_nil filled
  rw [replace, List.cons_append, replaceFrom, if_pos (by simp), replace_from_drop]
  simp [replace]

omit [DecidableEq α] in
theorem intercalate_nothing (pieces : List (List α)) : ([] : List α).intercalate pieces = pieces.flatten := by
  induction pieces with
  | nil => rfl
  | cons first rest ih =>
      cases rest with
      | nil => simp
      | cons second rest => rw [List.intercalate_cons_cons, ih, List.append_nil, ← List.flatten_cons]

-- Only repetitions of the pattern are deleted as a whole.
theorem replace_nothing_iff (pattern text : List α) (filled : pattern ≠ []) :
    replace pattern [] text = [] ↔ ∃ count, text = (List.replicate count pattern).flatten := by
  constructor
  · intro gone
    have empty : ∀ piece ∈ splitAt pattern text, piece = [] := by
      have joined := replace_split pattern [] text
      rw [gone, intercalate_nothing, List.flatten_eq_nil_iff] at joined
      exact joined
    obtain ⟨first, rest, shape⟩ := List.exists_cons_of_ne_nil (split_from_ne_nil pattern 0 text)
    have joined := join_split pattern filled text
    rw [show splitAt pattern text = first :: rest from shape] at empty joined
    obtain ⟨rfl, others⟩ := List.forall_mem_cons.mp empty
    refine ⟨rest.length, joined.symm.trans ?_⟩
    clear joined shape empty
    induction rest with
    | nil => rfl
    | cons second rest ih =>
        obtain ⟨rfl, later⟩ := List.forall_mem_cons.mp others
        rw [List.intercalate_cons_cons, List.length_cons, List.replicate_succ, List.flatten_cons, ih later]
        rfl
  · rintro ⟨count, rfl⟩
    induction count with
    | zero => rfl
    | succ count ih => rw [List.replicate_succ, List.flatten_cons, replace_front pattern [] _ filled, ih]; rfl

end Nothing

end ToolchainUtils.TextReplace
