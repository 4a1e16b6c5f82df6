import Mathlib.Data.List.Infix

set_option autoImplicit false

-- A scan that pairs each line that opens with the first line after it that closes. A line
-- that cuts begins a part of its own that nothing has opened.
namespace ToolchainUtils.MarkPairing

inductive Mark where
  | opens
  | cuts
  | closes
  | other
deriving DecidableEq, Repr

section Scan

variable {Line : Type} (mark : Line → Mark)

-- afterCut is what a cut leaves of the line that has opened.
def pairs (afterCut : Option Line → Option Line) : Option Line → List Line → List (Line × Line)
  | _, [] => []
  | opened, line :: rest =>
      match mark line with
      | .opens => pairs afterCut (some line) rest
      | .cuts => pairs afterCut (afterCut opened) rest
      | .closes => (opened.map fun first => (first, line)).toList ++ pairs afterCut none rest
      | .other => pairs afterCut opened rest

def heldPairs (opened : Option Line) (lines : List Line) : List (Line × Line) := pairs mark id opened lines

def ownPairs (opened : Option Line) (lines : List Line) : List (Line × Line) := pairs mark (fun _ => none) opened lines

def IsHead (line : Line) : Prop := mark line = .opens ∨ mark line = .cuts

instance (line : Line) : Decidable (IsHead mark line) := inferInstanceAs (Decidable (_ ∨ _))

-- The lines up to the next head.
def body (lines : List Line) : List Line := lines.takeWhile fun line => ¬ IsHead mark line

def parts : List Line → List (Line × List Line)
  | [] => []
  | line :: rest => if IsHead mark line then (line, body mark rest) :: parts rest else parts rest

def firstClosing (lines : List Line) : Option Line := lines.find? fun line => mark line = .closes

def partPair (part : Line × List Line) : Option (Line × Line) :=
  if mark part.1 = .opens then (firstClosing mark part.2).map fun line => (part.1, line) else none

-- Nothing closes before something opens.
def Clean (lines : List Line) : Prop := ∀ line ∈ lines.takeWhile (fun line => mark line ≠ .opens), mark line ≠ .closes

-- What comes first is a cut, and something closes behind it.
def CutOff (lines : List Line) : Prop :=
  ∃ cut after, lines.dropWhile (fun line => mark line = .other) = cut :: after ∧ mark cut = .cuts ∧ ¬ Clean mark after

def Stale (lines : List Line) : Prop := ∃ first rest, first :: rest <:+ lines ∧ mark first = .opens ∧ CutOff mark rest

theorem pairs_opens (afterCut : Option Line → Option Line) (opened : Option Line) (line : Line) (rest : List Line)
    (kind : mark line = .opens) : pairs mark afterCut opened (line :: rest) = pairs mark afterCut (some line) rest := by
  rw [pairs, kind]

theorem pairs_cuts (afterCut : Option Line → Option Line) (opened : Option Line) (line : Line) (rest : List Line)
    (kind : mark line = .cuts) : pairs mark afterCut opened (line :: rest) = pairs mark afterCut (afterCut opened) rest := by
  rw [pairs, kind]

theorem pairs_closes (afterCut : Option Line → Option Line) (opened : Option Line) (line : Line) (rest : List Line)
    (kind : mark line = .closes) : pairs mark afterCut opened (line :: rest) =
      (opened.map fun first => (first, line)).toList ++ pairs mark afterCut none rest := by
  rw [pairs, kind]

theorem pairs_other (afterCut : Option Line → Option Line) (opened : Option Line) (line : Line) (rest : List Line)
    (kind : mark line = .other) : pairs mark afterCut opened (line :: rest) = pairs mark afterCut opened rest := by
  rw [pairs, kind]

theorem body_head (line : Line) (rest : List Line) (head : IsHead mark line) : body mark (line :: rest) = [] := by
  rw [body, List.takeWhile_cons_of_neg (by simpa using head)]

theorem body_inside (line : Line) (rest : List Line) (inside : ¬ IsHead mark line) :
    body mark (line :: rest) = line :: body mark rest := by
  rw [body, List.takeWhile_cons_of_pos (by simpa using inside), body]

theorem inside_of (line : Line) (kind : mark line = .closes ∨ mark line = .other) : ¬ IsHead mark line := by
  rcases kind with kind | kind
  · simp [IsHead, kind]
  · simp [IsHead, kind]

theorem first_closing_here (line : Line) (rest : List Line) (kind : mark line = .closes) :
    firstClosing mark (line :: rest) = some line := by
  rw [firstClosing, List.find?_cons_of_pos (by simpa using kind)]

theorem first_closing_later (line : Line) (rest : List Line) (kind : mark line ≠ .closes) :
    firstClosing mark (line :: rest) = firstClosing mark rest := by
  rw [firstClosing, List.find?_cons_of_neg (by simpa using kind), firstClosing]

-- What has opened takes the first line of the running part that closes.
theorem own_pairs_from (opened : Option Line) (lines : List Line) :
    ownPairs mark opened lines =
      (opened.bind fun first => (firstClosing mark (body mark lines)).map fun line => (first, line)).toList ++
        (parts mark lines).filterMap (partPair mark) := by
  induction lines generalizing opened with
  | nil => cases opened <;> rfl
  | cons line rest ih =>
      unfold ownPairs at ih ⊢
      cases kind : mark line with
      | opens =>
          have head : IsHead mark line := .inl kind
          rw [pairs_opens mark _ opened line rest kind, ih, body_head mark line rest head, parts, if_pos head, List.filterMap_cons,
            partPair, if_pos kind]
          cases opened <;> cases firstClosing mark (body mark rest) <;> rfl
      | cuts =>
          have head : IsHead mark line := .inr kind
          have closed : mark line ≠ .opens := by simp [kind]
          rw [pairs_cuts mark _ opened line rest kind, ih, body_head mark line rest head, parts, if_pos head, List.filterMap_cons,
            partPair, if_neg closed]
          cases opened <;> rfl
      | closes =>
          have inside := inside_of mark line (.inl kind)
          rw [pairs_closes mark _ opened line rest kind, ih, body_inside mark line rest inside, parts, if_neg inside,
            first_closing_here mark line _ kind]
          cases opened <;> rfl
      | other =>
          have inside := inside_of mark line (.inr kind)
          rw [pairs_other mark _ opened line rest kind, ih, body_inside mark line rest inside, parts, if_neg inside,
            first_closing_later mark line _ (by simp [kind])]

theorem own_pairs_parts (lines : List Line) : ownPairs mark none lines = (parts mark lines).filterMap (partPair mark) :=
  own_pairs_from mark none lines

theorem clean_cons (line : Line) (rest : List Line) :
    Clean mark (line :: rest) ↔ mark line = .opens ∨ mark line ≠ .closes ∧ Clean mark rest := by
  by_cases first : mark line = .opens
  · rw [Clean, List.takeWhile_cons_of_neg (by simpa using first)]
    exact iff_of_true (List.forall_mem_nil _) (.inl first)
  · rw [Clean, List.takeWhile_cons_of_pos (by simpa using first), List.forall_mem_cons, or_iff_right first, Clean]

-- What has opened does not matter when nothing closes it.
theorem held_pairs_clean (opened : Option Line) (lines : List Line) (clean : Clean mark lines) :
    heldPairs mark opened lines = heldPairs mark none lines := by
  induction lines with
  | nil => rfl
  | cons line rest ih =>
      unfold heldPairs at ih ⊢
      rw [clean_cons] at clean
      cases kind : mark line with
      | opens => rw [pairs_opens mark _ _ line rest kind, pairs_opens mark _ _ line rest kind]
      | cuts =>
          rw [pairs_cuts mark _ _ line rest kind, pairs_cuts mark _ _ line rest kind]
          exact ih (clean.resolve_left (by simp [kind])).2
      | closes => exact absurd kind (clean.resolve_left (by simp [kind])).1
      | other =>
          rw [pairs_other mark _ _ line rest kind, pairs_other mark _ _ line rest kind]
          exact ih (clean.resolve_left (by simp [kind])).2

-- Otherwise it makes one pair more.
theorem held_pairs_closed (first : Line) (lines : List Line) (closed : ¬ Clean mark lines) :
    (heldPairs mark (some first) lines).length = (heldPairs mark none lines).length + 1 := by
  induction lines with
  | nil => exact absurd (List.forall_mem_nil _) closed
  | cons line rest ih =>
      unfold heldPairs at ih ⊢
      rw [clean_cons, not_or, not_and] at closed
      cases kind : mark line with
      | opens => exact absurd kind closed.1
      | cuts =>
          rw [pairs_cuts mark _ _ line rest kind, pairs_cuts mark _ _ line rest kind]
          exact ih (closed.2 (by simp [kind]))
      | closes =>
          rw [pairs_closes mark _ _ line rest kind, pairs_closes mark _ _ line rest kind]
          rw [Option.map_some, Option.map_none, Option.toList_some, Option.toList_none, List.singleton_append, List.nil_append,
            List.length_cons]
      | other =>
          rw [pairs_other mark _ _ line rest kind, pairs_other mark _ _ line rest kind]
          exact ih (closed.2 (by simp [kind]))

theorem held_pairs_grow (opened : Option Line) (lines : List Line) :
    (heldPairs mark none lines).length ≤ (heldPairs mark opened lines).length := by
  cases opened with
  | none => exact le_refl _
  | some first =>
      by_cases clean : Clean mark lines
      · exact le_of_eq (congrArg List.length (held_pairs_clean mark (some first) lines clean).symm)
      · rw [held_pairs_closed mark first lines clean]
        exact Nat.le_succ _

theorem own_pairs_fewer (opened : Option Line) (lines : List Line) :
    (ownPairs mark opened lines).length ≤ (heldPairs mark opened lines).length := by
  induction lines generalizing opened with
  | nil => exact le_refl _
  | cons line rest ih =>
      have grow := held_pairs_grow mark opened rest
      unfold ownPairs heldPairs at ih ⊢
      unfold heldPairs at grow
      cases kind : mark line with
      | opens =>
          rw [pairs_opens mark _ _ line rest kind, pairs_opens mark _ _ line rest kind]
          exact ih (some line)
      | cuts =>
          rw [pairs_cuts mark _ _ line rest kind, pairs_cuts mark _ _ line rest kind]
          exact (ih none).trans grow
      | closes =>
          rw [pairs_closes mark _ _ line rest kind, pairs_closes mark _ _ line rest kind, List.length_append, List.length_append]
          exact Nat.add_le_add_left (ih none) _
      | other =>
          rw [pairs_other mark _ _ line rest kind, pairs_other mark _ _ line rest kind]
          exact ih opened

theorem cut_off_other (line : Line) (rest : List Line) (kind : mark line = .other) :
    CutOff mark (line :: rest) ↔ CutOff mark rest := by
  rw [CutOff, List.dropWhile_cons_of_pos (by simpa using kind), CutOff]

theorem cut_off_here (line : Line) (rest : List Line) (kind : mark line ≠ .other) :
    CutOff mark (line :: rest) ↔ mark line = .cuts ∧ ¬ Clean mark rest := by
  rw [CutOff, List.dropWhile_cons_of_neg (by simpa using kind)]
  constructor
  · rintro ⟨cut, after, same, cuts, closed⟩
    cases same
    exact ⟨cuts, closed⟩
  · exact fun both => ⟨line, rest, rfl, both⟩

theorem stale_cons (line : Line) (rest : List Line) :
    Stale mark (line :: rest) ↔ mark line = .opens ∧ CutOff mark rest ∨ Stale mark rest := by
  constructor
  · rintro ⟨first, after, behind, both⟩
    rcases List.suffix_cons_iff.mp behind with same | behind
    · cases same
      exact .inl both
    · exact .inr ⟨first, after, behind, both⟩
  · rintro (both | ⟨first, after, behind, both⟩)
    · exact ⟨line, rest, List.suffix_refl _, both⟩
    · exact ⟨first, after, behind.trans (List.suffix_cons line rest), both⟩

-- Only a cut between what opens and what closes makes a difference, whatever is shown for a pair.
theorem held_own_from {Shown : Type} (shown : Line × Line → Shown) (opened : Option Line) (lines : List Line) :
    (heldPairs mark opened lines).map shown = (ownPairs mark opened lines).map shown ↔
      ¬ (opened.isSome ∧ CutOff mark lines) ∧ ¬ Stale mark lines := by
  induction lines generalizing opened with
  | nil =>
      refine iff_of_true rfl ⟨?_, ?_⟩
      · rintro ⟨-, cut, after, same, -⟩
        cases same
      · rintro ⟨first, rest, behind, -⟩
        cases List.suffix_nil.mp behind
  | cons line rest ih =>
      rw [stale_cons]
      unfold heldPairs ownPairs at ih ⊢
      cases kind : mark line with
      | opens =>
          rw [pairs_opens mark _ _ line rest kind, pairs_opens mark _ _ line rest kind, ih,
            cut_off_here mark line rest (by simp [kind])]
          simp [kind]
      | cuts =>
          have same := ih none
          rw [pairs_cuts mark _ _ line rest kind, pairs_cuts mark _ _ line rest kind, cut_off_here mark line rest (by simp [kind])]
          cases opened with
          | none =>
              rw [id, same]
              simp
          | some first =>
              by_cases clean : Clean mark rest
              · have dropped := held_pairs_clean mark (some first) rest clean
                unfold heldPairs at dropped
                rw [id, dropped, same]
                simp [clean]
              · refine iff_of_false (fun equal => ?_) (fun both => both.1 ⟨rfl, kind, clean⟩)
                have longer := held_pairs_closed mark first rest clean
                have fewer := own_pairs_fewer mark none rest
                unfold heldPairs at longer fewer
                unfold ownPairs at fewer
                have lengths := congrArg List.length equal
                rw [id, List.length_map, List.length_map] at lengths
                omega
      | closes =>
          rw [pairs_closes mark _ _ line rest kind, pairs_closes mark _ _ line rest kind, List.map_append, List.map_append,
            List.append_cancel_left_eq, ih, cut_off_here mark line rest (by simp [kind])]
          simp [kind]
      | other =>
          rw [pairs_other mark _ _ line rest kind, pairs_other mark _ _ line rest kind, ih, cut_off_other mark line rest kind]
          simp

theorem held_own_iff {Shown : Type} (shown : Line × Line → Shown) (lines : List Line) :
    (heldPairs mark none lines).map shown = (ownPairs mark none lines).map shown ↔ ¬ Stale mark lines := by
  rw [held_own_from]
  exact and_iff_right fun both => Bool.false_ne_true both.1

end Scan

end ToolchainUtils.MarkPairing
