import Mathlib.Data.Finset.Basic
import Mathlib.Data.List.Infix

set_option autoImplicit false

-- A pool that is filled from values drawn one after another. A value that the pool
-- has, or that is taken, is rejected.
namespace ToolchainUtils.FreshDraws

variable {κ : Type} [DecidableEq κ] (taken : Finset κ)

def pooled (pool : List κ) : List κ → List κ
  | [] => pool
  | value :: rest => if value ∉ pool ∧ value ∉ taken then pooled (value :: pool) rest else pooled pool rest

def rejected (pool : List κ) : List κ → Nat
  | [] => 0
  | value :: rest => if value ∉ pool ∧ value ∉ taken then rejected (value :: pool) rest else rejected pool rest + 1

structure Fresh (pool : List κ) : Prop where
  distinct : pool.Nodup
  outside : ∀ value ∈ pool, value ∉ taken

-- The last of the values is the one that fills the pool.
structure Completes (target : Nat) (pool drawn : List κ) : Prop where
  full : (pooled taken pool drawn).length = target
  before : ∀ part, part <+: drawn → part ≠ drawn → (pooled taken pool part).length < target

variable {taken}

omit [DecidableEq κ] in
theorem fresh_nil : Fresh taken [] := ⟨List.nodup_nil, List.forall_mem_nil _⟩

omit [DecidableEq κ] in
theorem fresh_cons (pool : List κ) (value : κ) (fresh : Fresh taken pool) (isNew : value ∉ pool ∧ value ∉ taken) :
    Fresh taken (value :: pool) :=
  ⟨List.nodup_cons.mpr ⟨isNew.1, fresh.distinct⟩, List.forall_mem_cons.mpr ⟨isNew.2, fresh.outside⟩⟩

theorem pooled_fresh (pool drawn : List κ) (fresh : Fresh taken pool) : Fresh taken (pooled taken pool drawn) := by
  induction drawn generalizing pool with
  | nil => exact fresh
  | cons value rest ih =>
      rw [pooled]
      by_cases isNew : value ∉ pool ∧ value ∉ taken
      · rw [if_pos isNew]
        exact ih (value :: pool) (fresh_cons pool value fresh isNew)
      · rw [if_neg isNew]
        exact ih pool fresh

theorem pooled_append (pool first second : List κ) :
    pooled taken pool (first ++ second) = pooled taken (pooled taken pool first) second := by
  induction first generalizing pool with
  | nil => rfl
  | cons value rest ih =>
      rw [List.cons_append, pooled, pooled]
      by_cases isNew : value ∉ pool ∧ value ∉ taken
      · rw [if_pos isNew, if_pos isNew, ih]
      · rw [if_neg isNew, if_neg isNew, ih]

theorem rejected_append (pool first second : List κ) :
    rejected taken pool (first ++ second) = rejected taken pool first + rejected taken (pooled taken pool first) second := by
  induction first generalizing pool with
  | nil => exact (Nat.zero_add _).symm
  | cons value rest ih =>
      rw [List.cons_append, rejected, rejected, pooled]
      by_cases isNew : value ∉ pool ∧ value ∉ taken
      · rw [if_pos isNew, if_pos isNew, if_pos isNew, ih]
      · rw [if_neg isNew, if_neg isNew, if_neg isNew, ih]
        omega

-- Every value is kept or rejected.
theorem drawn_counted (pool drawn : List κ) :
    (pooled taken pool drawn).length + rejected taken pool drawn = pool.length + drawn.length := by
  induction drawn generalizing pool with
  | nil => rfl
  | cons value rest ih =>
      rw [pooled, rejected, List.length_cons]
      by_cases isNew : value ∉ pool ∧ value ∉ taken
      · rw [if_pos isNew, if_pos isNew, ih, List.length_cons]
        omega
      · rw [if_neg isNew, if_neg isNew]
        have counted := ih pool
        omega

theorem pooled_grows (pool drawn : List κ) : pool.length ≤ (pooled taken pool drawn).length := by
  induction drawn generalizing pool with
  | nil => exact Nat.le_refl _
  | cons value rest ih =>
      rw [pooled]
      split
      · exact (Nat.le_succ _).trans (ih (value :: pool))
      · exact ih pool

theorem pooled_of_part (pool part drawn : List κ) (starts : part <+: drawn) :
    (pooled taken pool part).length ≤ (pooled taken pool drawn).length := by
  obtain ⟨rest, rfl⟩ := starts
  rw [pooled_append]
  exact pooled_grows _ rest

theorem rejected_of_part (pool part drawn : List κ) (starts : part <+: drawn) :
    rejected taken pool part ≤ rejected taken pool drawn := by
  obtain ⟨rest, rfl⟩ := starts
  rw [rejected_append]
  exact Nat.le_add_right _ _

theorem completes_unique (target : Nat) (pool drawn other : List κ) (fills : Completes taken target pool drawn)
    (again : Completes taken target pool other) (comparable : drawn <+: other ∨ other <+: drawn) : drawn = other := by
  by_contra different
  cases comparable with
  | inl shorter =>
      have fewer := again.before drawn shorter different
      rw [fills.full] at fewer
      exact Nat.lt_irrefl _ fewer
  | inr longer =>
      have fewer := fills.before other longer (Ne.symm different)
      rw [again.full] at fewer
      exact Nat.lt_irrefl _ fewer

-- Values that do not fill the pool, before those that do.
theorem completes_append (target : Nat) (pool first rest : List κ) (room : (pooled taken pool first).length < target)
    (fills : Completes taken target (pooled taken pool first) rest) : Completes taken target pool (first ++ rest) := by
  refine ⟨(congrArg List.length (pooled_append pool first rest)).trans fills.full, fun part starts other => ?_⟩
  cases List.prefix_or_prefix_of_prefix starts (List.prefix_append first rest) with
  | inl within => exact (pooled_of_part pool part first within).trans_lt room
  | inr beyond =>
      obtain ⟨tail, rfl⟩ := beyond
      rw [pooled_append]
      exact fills.before tail ((List.prefix_append_right_inj first).mp starts) fun same => other (congrArg _ same)

theorem completes_single (pool : List κ) (value : κ) (isNew : value ∉ pool ∧ value ∉ taken) :
    Completes taken (pool.length + 1) pool [value] := by
  refine ⟨?_, fun part starts other => ?_⟩
  · rw [pooled, if_pos isNew]
    rfl
  · have short := starts.length_le
    have none : part = [] := by
      cases part with
      | nil => rfl
      | cons head tail => exact absurd (starts.eq_of_length (by simp at short ⊢; omega)) other
    rw [none]
    exact Nat.lt_succ_self _

end ToolchainUtils.FreshDraws
