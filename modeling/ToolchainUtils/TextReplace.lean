import Mathlib.Data.List.Infix

set_option autoImplicit false

-- str.replace and str.split with a separator. Both find the pattern, which is not empty,
-- from the left, without overlaps. While they skip, the pattern goes on.
namespace ToolchainUtils.TextReplace

variable {α : Type} [DecidableEq α]

def replaceFrom (pattern replacement : List α) : Nat → List α → List α
  | _, [] => []
  | skip + 1, _ :: rest => replaceFrom pattern replacement skip rest
  | 0, c :: rest =>
      if pattern.isPrefixOf (c :: rest) then replacement ++ replaceFrom pattern replacement (pattern.length - 1) rest
      else c :: replaceFrom pattern replacement 0 rest

def occurrencesFrom (pattern : List α) : Nat → List α → Nat
  | _, [] => 0
  | skip + 1, _ :: rest => occurrencesFrom pattern skip rest
  | 0, c :: rest =>
      if pattern.isPrefixOf (c :: rest) then occurrencesFrom pattern (pattern.length - 1) rest + 1
      else occurrencesFrom pattern 0 rest

def splitFrom (pattern : List α) : Nat → List α → List (List α)
  | _, [] => [[]]
  | skip + 1, _ :: rest => splitFrom pattern skip rest
  | 0, c :: rest =>
      if pattern.isPrefixOf (c :: rest) then [] :: splitFrom pattern (pattern.length - 1) rest
      else
        match splitFrom pattern 0 rest with
        | [] => [[c]]
        | piece :: pieces => (c :: piece) :: pieces

def replace (pattern replacement text : List α) : List α := replaceFrom pattern replacement 0 text

def occurrences (pattern text : List α) : Nat := occurrencesFrom pattern 0 text

def splitAt (pattern text : List α) : List (List α) := splitFrom pattern 0 text

section Counting

variable (pattern : List α) (filled : pattern ≠ [])

include filled

-- What is left of the pattern is at the front of the text.
theorem count_replace_from (replacement : List α) (value : α) (left text : List α) (starts : left <+: text) :
    (replaceFrom pattern replacement left.length text).count value + left.count value +
        occurrencesFrom pattern left.length text * pattern.count value =
      text.count value + occurrencesFrom pattern left.length text * replacement.count value := by
  induction text generalizing left with
  | nil =>
      rw [List.prefix_nil.mp starts]
      simp [replaceFrom, occurrencesFrom]
  | cons c rest ih =>
      cases left with
      | cons head tail =>
          obtain ⟨rfl, later⟩ := List.cons_prefix_cons.mp starts
          have counted := ih tail later
          rw [List.length_cons, replaceFrom, occurrencesFrom, List.count_cons, List.count_cons]
          omega
      | nil =>
          rw [List.length_nil, replaceFrom, occurrencesFrom, List.count_nil, Nat.add_zero]
          by_cases here : pattern.isPrefixOf (c :: rest) = true
          · obtain ⟨first, tail, rfl⟩ := List.exists_cons_of_ne_nil filled
            obtain ⟨rfl, later⟩ := List.cons_prefix_cons.mp (List.isPrefixOf_iff_prefix.mp here)
            have counted := ih tail later
            rw [if_pos here, if_pos here, List.count_append, List.length_cons, Nat.add_sub_cancel, Nat.succ_mul, Nat.succ_mul]
            rw [List.count_cons] at counted ⊢
            rw [List.count_cons]
            omega
          · have counted := ih [] List.nil_prefix
            rw [List.length_nil, List.count_nil] at counted
            rw [if_neg here, if_neg here, List.count_cons, List.count_cons]
            omega

theorem count_replace (replacement text : List α) (value : α) :
    (replace pattern replacement text).count value + occurrences pattern text * pattern.count value =
      text.count value + occurrences pattern text * replacement.count value :=
  count_replace_from pattern filled replacement value [] text List.nil_prefix

omit filled in
theorem split_from_ne_nil (skip : Nat) (text : List α) : splitFrom pattern skip text ≠ [] := by
  induction text generalizing skip with
  | nil => exact List.cons_ne_nil _ _
  | cons c rest ih =>
      cases skip with
      | succ skip => exact ih skip
      | zero =>
          rw [splitFrom]
          split
          · exact List.cons_ne_nil _ _
          · split
            · exact List.cons_ne_nil _ _
            · exact List.cons_ne_nil _ _

omit filled in
theorem length_split_from (skip : Nat) (text : List α) : (splitFrom pattern skip text).length = occurrencesFrom pattern skip text + 1 := by
  induction text generalizing skip with
  | nil => rfl
  | cons c rest ih =>
      cases skip with
      | succ skip => exact ih skip
      | zero =>
          rw [splitFrom, occurrencesFrom]
          by_cases here : pattern.isPrefixOf (c :: rest) = true
          · rw [if_pos here, if_pos here, List.length_cons, ih]
          · rw [if_neg here, if_neg here, ← ih]
            split
            next none => exact absurd none (split_from_ne_nil pattern 0 rest)
            next piece pieces some => rw [some]; rfl

omit filled in
theorem length_split (text : List α) : (splitAt pattern text).length = occurrences pattern text + 1 := length_split_from pattern 0 text

-- The pieces, with the pattern between them, are the text again.
theorem join_split_from (left text : List α) (starts : left <+: text) :
    left ++ pattern.intercalate (splitFrom pattern left.length text) = text := by
  induction text generalizing left with
  | nil =>
      rw [List.prefix_nil.mp starts]
      rfl
  | cons c rest ih =>
      cases left with
      | cons head tail =>
          obtain ⟨rfl, later⟩ := List.cons_prefix_cons.mp starts
          exact congrArg (List.cons head) (ih tail later)
      | nil =>
          rw [List.length_nil, splitFrom, List.nil_append]
          by_cases here : pattern.isPrefixOf (c :: rest) = true
          · obtain ⟨first, tail, rfl⟩ := List.exists_cons_of_ne_nil filled
            obtain ⟨rfl, later⟩ := List.cons_prefix_cons.mp (List.isPrefixOf_iff_prefix.mp here)
            have joined := ih tail later
            rw [if_pos here, List.length_cons, Nat.add_sub_cancel]
            obtain ⟨piece, pieces, shape⟩ := List.exists_cons_of_ne_nil (split_from_ne_nil (first :: tail) tail.length rest)
            rw [shape] at joined ⊢
            rw [List.intercalate_cons_cons]
            simpa using joined
          · have joined := ih [] List.nil_prefix
            rw [if_neg here]
            obtain ⟨piece, pieces, shape⟩ := List.exists_cons_of_ne_nil (split_from_ne_nil pattern 0 rest)
            rw [List.length_nil, shape, List.nil_append] at joined
            rw [shape]
            dsimp only
            rw [← joined]
            cases pieces with
            | nil => simp
            | cons next others => simp [List.intercalate_cons_cons]

theorem join_split (text : List α) : pattern.intercalate (splitAt pattern text) = text :=
  join_split_from pattern filled [] text List.nil_prefix

end Counting

-- A single value occurs as often as it is counted.
theorem occurrences_single (value : α) (text : List α) : occurrences [value] text = text.count value := by
  induction text with
  | nil => rfl
  | cons c rest ih =>
      change occurrencesFrom [value] 0 (c :: rest) = _
      rw [occurrencesFrom, List.count_cons]
      by_cases same : value = c
      · subst same
        rw [if_pos (by simp), if_pos (by simp)]
        exact congrArg (· + 1) ih
      · rw [if_neg (by simp [same]), if_neg (by simp [Ne.symm same])]
        exact ih

theorem split_at_absent (value : α) (text : List α) (absent : value ∉ text) : splitAt [value] text = [text] := by
  induction text with
  | nil => rfl
  | cons c rest ih =>
      obtain ⟨different, later⟩ := List.ne_and_not_mem_of_not_mem_cons absent
      change splitFrom [value] 0 (c :: rest) = _
      rw [splitFrom, if_neg (by simp [different])]
      rw [show splitFrom [value] 0 rest = [rest] from ih later]

theorem split_at_first (value : α) (first rest : List α) (absent : value ∉ first) :
    splitAt [value] (first ++ value :: rest) = first :: splitAt [value] rest := by
  induction first with
  | nil =>
      change splitFrom [value] 0 (value :: rest) = _
      rw [splitFrom, if_pos (by simp)]
      rfl
  | cons c first ih =>
      obtain ⟨different, later⟩ := List.ne_and_not_mem_of_not_mem_cons absent
      change splitFrom [value] 0 (c :: (first ++ value :: rest)) = _
      rw [splitFrom, if_neg (by simp [different])]
      rw [show splitFrom [value] 0 (first ++ value :: rest) = first :: splitAt [value] rest from ih later]

end ToolchainUtils.TextReplace
