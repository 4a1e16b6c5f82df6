import Mathlib.Data.List.Induction
import Mathlib.Order.Lattice

set_option autoImplicit false

-- A loop that keeps the entries with the best value so far, in their order.
namespace ToolchainUtils.RunningBest

variable {Entry Value : Type} (better : Value → Value → Bool) (value : Entry → Value)

structure StrictOrder : Prop where
  irreflexive : ∀ first, better first first = false
  transitive : ∀ first second third, better first second = true → better second third = true → better first third = true
  total : ∀ first second, better first second = true ∨ first = second ∨ better second first = true

theorem less_strict [LinearOrder Value] : StrictOrder fun first second : Value => decide (first < second) := by
  refine ⟨fun first => decide_eq_false (lt_irrefl first), fun first second third lower upper => ?_, fun first second => ?_⟩
  · exact decide_eq_true (lt_trans (of_decide_eq_true lower) (of_decide_eq_true upper))
  · rcases lt_trichotomy first second with below | same | above
    · exact .inl (decide_eq_true below)
    · exact .inr (.inl same)
    · exact .inr (.inr (decide_eq_true above))

theorem reversed_strict (order : StrictOrder better) : StrictOrder fun first second => better second first where
  irreflexive := order.irreflexive
  transitive first second third upper lower := order.transitive third second first lower upper
  total first second := (order.total second first).imp id fun rest => rest.imp Eq.symm id

def keep [DecidableEq Value] (kept : List Entry) (entry : Entry) : List Entry :=
  match kept with
  | [] => []
  | first :: _ =>
      if better (value entry) (value first) then [entry] else if value entry = value first then kept ++ [entry] else kept

def bests (entries : List Entry) : List Entry :=
  entries.filter fun entry => entries.all fun other => !better (value other) (value entry)

theorem mem_bests (entries : List Entry) (entry : Entry) :
    entry ∈ bests better value entries ↔ entry ∈ entries ∧ ∀ other ∈ entries, better (value other) (value entry) = false := by
  simp [bests]

section Order

variable (order : StrictOrder better)

include order

-- What is not better than a best entry is worse or as good.
theorem below_best (entries : List Entry) (first entry : Entry) (best : first ∈ bests better value entries)
    (member : entry ∈ entries) : value first = value entry ∨ better (value first) (value entry) = true := by
  have unbeaten := ((mem_bests better value entries first).mp best).2 entry member
  rcases order.total (value first) (value entry) with above | same | below
  · exact .inr above
  · exact .inl same
  · exact absurd (unbeaten.symm.trans below) Bool.false_ne_true

theorem bests_better (entries : List Entry) (first entry : Entry) (best : first ∈ bests better value entries)
    (above : better (value entry) (value first) = true) : bests better value (entries ++ [entry]) = [entry] := by
  have beats : ∀ other ∈ entries, better (value entry) (value other) = true := by
    intro other member
    cases below_best better value order entries first other best member with
    | inl same => exact same ▸ above
    | inr below => exact order.transitive _ _ _ above below
  have unbeaten : ∀ other ∈ entries, better (value other) (value entry) = false := by
    intro other member
    by_contra beaten
    have cycle := order.transitive _ _ _ (beats other member) (eq_true_of_ne_false beaten)
    rw [order.irreflexive] at cycle
    cases cycle
  have none : entries.filter (fun other => (entries ++ [entry]).all fun third => !better (value third) (value other)) = [] := by
    apply List.filter_eq_nil_iff.mpr
    intro other member all
    have last := List.all_eq_true.mp all entry (List.mem_append_right entries List.mem_cons_self)
    rw [beats other member] at last
    cases last
  rw [bests, List.filter_append, none, List.nil_append]
  apply List.filter_eq_self.mpr
  intro last member
  rw [List.mem_singleton.mp member, List.all_eq_true]
  intro other inside
  cases List.mem_append.mp inside with
  | inl earlier => rw [unbeaten other earlier]; rfl
  | inr same => rw [List.mem_singleton.mp same, order.irreflexive]; rfl

-- An entry that does not beat the best ones leaves them as they are.
theorem bests_unbeaten (entries : List Entry) (first entry : Entry) (best : first ∈ bests better value entries)
    (below : better (value entry) (value first) = false) :
    entries.filter (fun other => (entries ++ [entry]).all fun third => !better (value third) (value other)) =
      bests better value entries := by
  apply List.filter_congr
  intro other member
  rw [List.all_append, List.all_cons, List.all_nil, Bool.and_true]
  cases good : entries.all fun third => !better (value third) (value other) with
  | false => rfl
  | true =>
      have both : other ∈ bests better value entries := List.mem_filter.mpr ⟨member, good⟩
      have inside := ((mem_bests better value entries first).mp best).1
      rw [Bool.true_and]
      cases below_best better value order entries other first both inside with
      | inl same => rw [same, below]; rfl
      | inr above =>
          have unbeaten := ((mem_bests better value entries first).mp best).2 other member
          exact absurd (unbeaten.symm.trans above) Bool.false_ne_true

theorem keep_bests [DecidableEq Value] (entries : List Entry) (filled : bests better value entries ≠ []) (entry : Entry) :
    keep better value (bests better value entries) entry = bests better value (entries ++ [entry]) := by
  obtain ⟨first, rest, shape⟩ := List.exists_cons_of_ne_nil filled
  have best : first ∈ bests better value entries := by
    rw [shape]
    exact List.mem_cons_self
  rw [shape, keep]
  by_cases above : better (value entry) (value first) = true
  · rw [if_pos above, bests_better better value order entries first entry best above]
  · have below := eq_false_of_ne_true above
    have kept := bests_unbeaten better value order entries first entry best below
    rw [if_neg above, bests, List.filter_append, kept, shape]
    by_cases same : value entry = value first
    · rw [if_pos same]
      refine congrArg _ (List.filter_eq_self.mpr fun last member => ?_).symm
      rw [List.mem_singleton.mp member, List.all_eq_true]
      intro other inside
      cases List.mem_append.mp inside with
      | inl earlier =>
          rw [same, ((mem_bests better value entries first).mp best).2 other earlier]
          rfl
      | inr last => rw [List.mem_singleton.mp last, order.irreflexive]; rfl
    · rw [if_neg same]
      have dropped : [entry].filter (fun other => (entries ++ [entry]).all fun third => !better (value third) (value other)) = [] := by
        apply List.filter_eq_nil_iff.mpr
        intro last member all
        rw [List.mem_singleton.mp member] at all
        have inside := ((mem_bests better value entries first).mp best).1
        have unbeaten := List.all_eq_true.mp all first (List.mem_append_left _ inside)
        rcases order.total (value entry) (value first) with up | equal | down
        · exact above up
        · exact same equal
        · rw [down] at unbeaten
          cases unbeaten
      rw [dropped, List.append_nil]

omit order in
theorem keep_filled [DecidableEq Value] (kept : List Entry) (entry : Entry) (filled : kept ≠ []) :
    keep better value kept entry ≠ [] := by
  obtain ⟨first, rest, rfl⟩ := List.exists_cons_of_ne_nil filled
  rw [keep]
  split
  · exact List.cons_ne_nil _ _
  · split
    · exact List.append_ne_nil_of_left_ne_nil filled _
    · exact filled

theorem running_best [DecidableEq Value] (start : Entry) (entries : List Entry) :
    entries.foldl (keep better value) [start] = bests better value (start :: entries) := by
  have both : entries.foldl (keep better value) [start] = bests better value (start :: entries) ∧
      entries.foldl (keep better value) [start] ≠ [] := by
    induction entries using List.reverseRecOn with
    | nil =>
        refine ⟨(List.filter_eq_self.mpr fun entry member => ?_).symm, List.cons_ne_nil _ _⟩
        rw [List.mem_singleton.mp member, List.all_cons, order.irreflexive]
        rfl
    | append_singleton entries entry ih =>
        obtain ⟨same, filled⟩ := ih
        rw [List.foldl_append, List.foldl_cons, List.foldl_nil]
        refine ⟨?_, keep_filled better value _ entry filled⟩
        rw [same] at filled ⊢
        exact keep_bests better value order (start :: entries) filled entry
  exact both.1

-- The entry that the loop starts from is dropped by a better one, and only so.
theorem start_dropped_iff (start : Entry) (entries : List Entry) :
    bests better value (start :: entries) = bests better value entries ↔
      ∃ entry ∈ entries, better (value entry) (value start) = true := by
  constructor
  · intro dropped
    by_contra none
    have unbeaten : ∀ entry ∈ entries, better (value entry) (value start) = false := fun entry member =>
      eq_false_of_ne_true fun above => none ⟨entry, member, above⟩
    have inside : start ∈ bests better value (start :: entries) := by
      refine (mem_bests better value _ start).mpr ⟨List.mem_cons_self, fun other member => ?_⟩
      cases List.mem_cons.mp member with
      | inl same => rw [same, order.irreflexive]
      | inr later => exact unbeaten other later
    -- The start is then one of the entries and is kept once more than among them.
    have member := ((mem_bests better value entries start).mp (dropped ▸ inside)).1
    have twice : bests better value (start :: entries) = start :: bests better value entries := by
      have first := ((mem_bests better value _ start).mp inside).2
      rw [bests, List.filter_cons_of_pos (by simpa using first), bests]
      refine congrArg _ (List.filter_congr fun other _ => ?_)
      rw [List.all_cons]
      cases good : entries.all fun third => !better (value third) (value other) with
      | false => exact Bool.and_false _
      | true => rw [List.all_eq_true.mp good start member]; rfl
    rw [twice] at dropped
    exact List.cons_ne_self start _ dropped
  · rintro ⟨entry, member, above⟩
    have beaten : ¬ (start :: entries).all (fun other => !better (value other) (value start)) = true := by
      intro all
      have last := List.all_eq_true.mp all entry (List.mem_cons_of_mem _ member)
      rw [above] at last
      cases last
    rw [bests, List.filter_cons, if_neg beaten, bests]
    refine List.filter_congr fun other inside => ?_
    rw [List.all_cons]
    cases good : entries.all fun third => !better (value third) (value other) with
    | false => exact Bool.and_false _
    | true =>
        have best : other ∈ bests better value entries := List.mem_filter.mpr ⟨inside, good⟩
        have higher : better (value other) (value start) = true := by
          cases below_best better value order entries other entry best member with
          | inl same => exact same ▸ above
          | inr below => exact order.transitive _ _ _ below above
        cases back : better (value start) (value other) with
        | false => rfl
        | true =>
            have cycle := order.transitive _ _ _ higher back
            rw [order.irreflexive] at cycle
            cases cycle

end Order

end ToolchainUtils.RunningBest
