import Mathlib.Data.List.Chain
import Mathlib.Data.List.Count

set_option autoImplicit false

namespace ToolchainUtils.RemovingLoop

variable {α : Type} [DecidableEq α]

def removeIf (unwanted : α → Bool) (items : List α) (item : α) : List α :=
  if unwanted item then items.erase item else items

theorem remove_if_length (unwanted : α → Bool) (items : List α) (item : α) :
    (removeIf unwanted items item).length ≤ items.length := by
  unfold removeIf
  split
  · exact List.erase_sublist.length_le
  · exact Nat.le_refl _

-- A loop over a list that removes the elements it does not want from that very list:
-- the iterator is a position, and remove takes out the first element that is equal.
def removeLoop (unwanted : α → Bool) (items : List α) (index : Nat) : List α :=
  if within : index < items.length then removeLoop unwanted (removeIf unwanted items items[index]) (index + 1)
  else items
termination_by items.length - index
decreasing_by
  have shorter := remove_if_length unwanted items items[index]
  omega

def removeUnwanted (unwanted : α → Bool) (items : List α) : List α := removeLoop unwanted items 0

-- No two neighbours are to be removed.
def Apart (unwanted : α → Bool) (items : List α) : Prop :=
  items.IsChain fun first second => ¬ (unwanted first = true ∧ unwanted second = true)

-- The elements to remove that the loop never looks at.
def passedOver (unwanted : α → Bool) : List α → List α
  | [] => []
  | [_] => []
  | first :: second :: rest =>
      if unwanted first then (if unwanted second then [second] else []) ++ passedOver unwanted rest
      else passedOver unwanted (second :: rest)

theorem remove_loop_finished (unwanted : α → Bool) (items : List α) (index : Nat) (finished : items.length ≤ index) :
    removeLoop unwanted items index = items := by
  rw [removeLoop, dif_neg (by omega)]

theorem remove_loop_next (unwanted : α → Bool) (passed rest : List α) (item : α) :
    removeLoop unwanted (passed ++ item :: rest) passed.length =
      removeLoop unwanted (removeIf unwanted (passed ++ [item]) item ++ rest) (passed.length + 1) := by
  have erased : removeIf unwanted (passed ++ [item]) item ++ rest = removeIf unwanted (passed ++ item :: rest) item := by
    unfold removeIf
    split
    · rw [← List.erase_append_left rest (by simp), List.append_assoc, List.singleton_append]
    · simp
  rw [removeLoop, dif_pos (by simp), erased]
  simp

theorem remove_if_perm (unwanted : α → Bool) (passed : List α) (item : α) :
    (removeIf unwanted (passed ++ [item]) item).Perm (passed ++ if unwanted item then [] else [item]) := by
  unfold removeIf
  split
  · rw [List.append_nil]
    exact ((List.perm_append_singleton item passed).erase item).trans (by rw [List.erase_cons_head])
  · exact List.Perm.refl _

theorem remove_if_erases (unwanted : α → Bool) (passed : List α) (item : α) (remove : unwanted item = true) :
    (removeIf unwanted (passed ++ [item]) item).length = passed.length := by
  rw [removeIf, if_pos remove, List.length_erase_of_mem (by simp), List.length_append, List.length_singleton,
    Nat.add_sub_cancel]

-- Behind a removal the iterator is one element further on than it should be.
theorem remove_loop_perm (unwanted : α → Bool) (passed rest : List α) :
    (removeLoop unwanted (passed ++ rest) passed.length).Perm
      (passed ++ (rest.filter (fun item => !unwanted item) ++ passedOver unwanted rest)) := by
  induction rest using passedOver.induct unwanted generalizing passed with
  | case1 =>
      rw [remove_loop_finished unwanted (passed ++ []) _ (by simp)]
      exact List.Perm.refl _
  | case2 item =>
      have shorter := remove_if_length unwanted (passed ++ [item]) item
      rw [List.length_append, List.length_singleton] at shorter
      rw [remove_loop_next, List.append_nil, remove_loop_finished _ _ _ shorter, passedOver, List.append_nil]
      refine (remove_if_perm unwanted passed item).trans (List.Perm.append_left passed ?_)
      cases wanted : unwanted item <;> simp [wanted]
  | case3 first second rest remove ih =>
      have later := ih (removeIf unwanted (passed ++ [first]) first ++ [second])
      have taken := remove_if_perm unwanted passed first
      rw [if_pos remove, List.append_nil] at taken
      rw [List.append_assoc, List.singleton_append, List.length_append, remove_if_erases unwanted passed first remove,
        List.length_singleton] at later
      rw [remove_loop_next]
      refine later.trans ?_
      rw [List.append_assoc, passedOver, if_pos remove, List.filter_cons_of_neg (by simp [remove])]
      refine taken.append ?_
      cases wanted : unwanted second with
      | true =>
          rw [List.filter_cons_of_neg (by simp [wanted]), if_pos rfl, List.singleton_append, List.singleton_append]
          exact List.perm_middle.symm
      | false =>
          rw [List.filter_cons_of_pos (by simp [wanted]), if_neg Bool.false_ne_true]
          exact List.Perm.refl _
  | case4 first second rest keep ih =>
      have later := ih (passed ++ [first])
      have stays : removeIf unwanted (passed ++ [first]) first = passed ++ [first] := if_neg keep
      rw [List.append_assoc, List.singleton_append, List.length_append, List.length_singleton] at later
      rw [remove_loop_next, stays, List.append_assoc, List.singleton_append, passedOver, if_neg keep,
        List.filter_cons_of_pos (by simpa using keep)]
      rw [List.append_assoc, List.singleton_append] at later
      exact later

theorem mem_remove_unwanted (unwanted : α → Bool) (items : List α) (item : α) :
    item ∈ removeUnwanted unwanted items ↔ item ∈ items ∧ unwanted item = false ∨ item ∈ passedOver unwanted items := by
  have left := (remove_loop_perm unwanted [] items).mem_iff (a := item)
  refine left.trans ?_
  simp [List.mem_filter]

theorem wanted_after_remove (unwanted : α → Bool) (items : List α) (item : α) :
    (removeIf unwanted items item).filter (fun other => !unwanted other) = items.filter fun other => !unwanted other := by
  unfold removeIf
  split
  · rename_i remove
    induction items with
    | nil => rfl
    | cons first rest ih =>
        by_cases same : first = item
        · subst same
          simp [remove]
        · rw [List.erase_cons_tail (by simpa using same), List.filter_cons, List.filter_cons, ih]
  · rfl

-- What is wanted stays, in order.
theorem remove_loop_wanted (unwanted : α → Bool) (items : List α) (index : Nat) :
    (removeLoop unwanted items index).filter (fun item => !unwanted item) = items.filter fun item => !unwanted item := by
  fun_induction removeLoop unwanted items index with
  | case1 items index within ih => rw [ih, wanted_after_remove]
  | case2 => rfl

omit [DecidableEq α] in
theorem passed_over_none_iff (unwanted : α → Bool) (items : List α) : passedOver unwanted items = [] ↔ Apart unwanted items := by
  induction items using passedOver.induct unwanted with
  | case1 => simp [passedOver, Apart]
  | case2 item => simp [passedOver, Apart]
  | case3 first second rest remove ih =>
      rw [passedOver, if_pos remove, Apart, List.isChain_cons_cons]
      cases next : unwanted second with
      | true => simp [remove]
      | false =>
          rw [List.append_eq_nil_iff, ih, Apart]
          cases rest with
          | nil => simp
          | cons third rest => simp [List.isChain_cons_cons, next]
  | case4 first second rest keep ih =>
      rw [passedOver, if_neg keep, ih, Apart, Apart, List.isChain_cons_cons]
      simp [keep]

-- The loop leaves exactly what it should when no two neighbours are to be removed.
theorem remove_unwanted_iff (unwanted : α → Bool) (items : List α) :
    removeUnwanted unwanted items = items.filter (fun item => !unwanted item) ↔ Apart unwanted items := by
  have left := remove_loop_perm unwanted [] items
  have wanted := remove_loop_wanted unwanted items 0
  rw [← passed_over_none_iff]
  constructor
  · intro exact
    have long := left.length_eq
    rw [List.nil_append, List.nil_append, List.length_append, show removeLoop unwanted items [].length = _ from exact] at long
    exact List.eq_nil_of_length_eq_zero (by omega)
  · intro none
    rw [none, List.append_nil, List.nil_append, List.nil_append] at left
    rw [← wanted]
    refine (List.filter_eq_self.mpr fun item member => ?_).symm
    exact (List.mem_filter.mp (left.mem_iff.mp member)).2

end ToolchainUtils.RemovingLoop
