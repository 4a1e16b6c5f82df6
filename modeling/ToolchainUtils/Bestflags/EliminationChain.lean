import Mathlib.Algebra.Order.BigOperators.Group.List
import ToolchainUtils.Bestflags.ExhaustedNeighbourhoods

set_option autoImplicit false

namespace ToolchainUtils.Bestflags

open PyString Randomised Transition

-- The generations that a run makes, each with the cache it is made against.
def Algorithm.made {κ ρ σ : Type} [DecidableEq κ] (algorithm : Algorithm κ ρ σ) :
    SteeringState κ ρ σ → List (Returned κ ρ) → List (Finset κ × NewGeneration κ ρ σ)
  | _, [] => []
  | state, returned :: rest =>
      match algorithm.answer state returned, algorithm.step state returned with
      | .ok answered, some next => (answered.2.map fun new => (state.cache, new)) ++ algorithm.made next rest
      | _, _ => []

theorem answer_completed {κ ρ σ : Type} [DecidableEq κ] (algorithm : Algorithm κ ρ σ) (state : SteeringState κ ρ σ)
    (returned : Returned κ ρ) (generation : Generation κ ρ σ) (completed : state.completes returned.task = some generation)
    (improved : Bool) (own : σ) (compared : algorithm.isImproved generation = .ok (improved, own)) :
    algorithm.answer state returned =
      if improved then (algorithm.next { generation with own } state.cache returned.source).map fun new => (true, new.1)
      else .ok (false, []) := by
  rw [Algorithm.answer, completed]
  cases improved with
  | false => simp only [compared, bind, Except.bind, pure, Except.pure, Bool.false_eq_true, if_false]
  | true =>
      simp only [compared, bind, Except.bind, pure, Except.pure, if_true]
      cases algorithm.next { generation with own } state.cache returned.source <;> rfl

namespace IterativeElimination

-- Flags with one flag decreased.
def Decrease (parent flags : FlagSet) : Prop := ∃ spec ∈ parent.keys, Always (decreaseFlag parent spec) fun found => found = flags

theorem decrease_iff (parent flags : FlagSet) (legal : Legal parent) :
    Decrease parent flags ↔ ∃ spec ∈ parent.keys, flags = decreased parent spec := by
  refine exists_congr fun spec => and_congr_right fun held => ?_
  have always := decrease_flag_legal parent legal spec held
  constructor
  · intro decreases
    obtain ⟨found, rest, ran, same⟩ := decreases fun _ => 0
    obtain ⟨other, final, again, equal⟩ := always fun _ => 0
    rw [ran] at again
    rw [← same, (Prod.mk.inj (Except.ok.inj again)).1, equal]
  · intro same
    rw [same]
    exact always

theorem decrease_rank (parent flags : FlagSet) (legal : Legal parent) (decrease : Decrease parent flags) :
    rank flags = rank parent - 1 := by
  obtain ⟨spec, held, rfl⟩ := (decrease_iff parent flags legal).mp decrease
  obtain ⟨value, has⟩ := (SortedDict.mem_keys parent spec).mp held
  exact rank_decreased parent spec value has

theorem rank_nonnegative (flags : FlagSet) (legal : Legal flags) : 0 ≤ rank flags := by
  refine List.sum_nonneg fun height listed => ?_
  obtain ⟨item, member, rfl⟩ := List.mem_map.mp listed
  have above := legal item.1 item.2 ((SortedDict.mem_entries flags item.1 item.2).mp member)
  rw [weight]
  cases range : search item.1 with
  | none => exact Int.one_nonneg
  | some ends =>
      have least := above ends.1 ends.2 range
      dsimp only
      omega

section Costs

variable {ρ : Type} [LinearOrder ρ] (cost : FlagSet → ρ)

def Costed (task : Task FlagSet ρ) : Prop := task.result = some (cost task.flags)

theorem costed_improved (task other : Task FlagSet ρ) (here : Costed cost task) (there : Costed cost other) :
    task.isImproved other = .ok (decide (cost task.flags < cost other.flags)) := by
  rw [Task.isImproved, here, there]
  rfl

theorem any_improved_costed (parentTask : Task FlagSet ρ) (known : Costed cost parentTask) (tasks : List (Task FlagSet ρ))
    (costed : ∀ task ∈ tasks, Costed cost task) :
    anyImproved parentTask tasks = .ok (tasks.any fun task => decide (cost task.flags < cost parentTask.flags)) := by
  induction tasks with
  | nil => rfl
  | cons task rest ih =>
      obtain ⟨here, later⟩ := List.forall_mem_cons.mp costed
      rw [anyImproved, costed_improved cost task parentTask here known, ih later, List.any_cons]
      cases decide (cost task.flags < cost parentTask.flags) <;> rfl

theorem find_worst_costed (tasks : List (Task FlagSet ρ)) (worst : Task FlagSet ρ) (known : Costed cost worst)
    (costed : ∀ task ∈ tasks, Costed cost task) :
    ∃ found, findWorst worst tasks = .ok found ∧ found ∈ worst :: tasks ∧
      ∀ task ∈ worst :: tasks, cost found.flags ≤ cost task.flags := by
  induction tasks generalizing worst with
  | nil => exact ⟨worst, rfl, List.mem_cons_self, fun task member => by rw [List.mem_singleton.mp member]⟩
  | cons task rest ih =>
      obtain ⟨here, later⟩ := List.forall_mem_cons.mp costed
      have compared := costed_improved cost task worst here known
      by_cases better : cost task.flags < cost worst.flags
      · obtain ⟨found, ran, member, least⟩ := ih task here later
        refine ⟨found, ?_, List.mem_cons_of_mem _ member, ?_⟩
        · rw [findWorst, compared, decide_eq_true better]
          exact ran
        · intro other among
          cases List.mem_cons.mp among with
          | inl isWorst => exact isWorst ▸ (least task List.mem_cons_self).trans better.le
          | inr isTask => exact least other isTask
      · obtain ⟨found, ran, member, least⟩ := ih worst known later
        refine ⟨found, ?_, ?_, ?_⟩
        · rw [findWorst, compared, decide_eq_false better]
          exact ran
        · cases List.mem_cons.mp member with
          | inl isWorst => exact isWorst ▸ List.mem_cons_self
          | inr among => exact List.mem_cons_of_mem _ (List.mem_cons_of_mem _ among)
        · intro other among
          have belowWorst := least worst List.mem_cons_self
          cases List.mem_cons.mp among with
          | inl isWorst => exact isWorst ▸ belowWorst
          | inr present =>
              cases List.mem_cons.mp present with
              | inl isTask => exact isTask ▸ belowWorst.trans (not_lt.mp better)
              | inr isRest => exact least other (List.mem_cons_of_mem _ isRest)

-- The waiting generation of one parent, as far as its results have come back.
structure Evaluates (parent : FlagSet) (generation : Generation FlagSet ρ (IterativeElimination ρ)) : Prop where
  parentFlags : generation.own.parentTask.flags = parent
  parentCost : generation.own.isFirst = false → Costed cost generation.own.parentTask
  costs : ∀ task ∈ generation.exeSet.tasks, task.result = none ∨ Costed cost task
  keys : ∀ flags, flags ≠ parent → (flags ∈ generation.keys ↔ Decrease parent flags)

omit [LinearOrder ρ] in
theorem evaluates_updated (parent : FlagSet) (generation after : Generation FlagSet ρ (IterativeElimination ρ))
    (task : Task FlagSet ρ) (evaluates : Evaluates cost parent generation) (costed : Costed cost task)
    (taken : generation.updateTask task = some after) : Evaluates cost parent after := by
  obtain ⟨-, sameKeys, -, sameOwn⟩ := update_task_some generation after task taken
  refine ⟨sameOwn ▸ evaluates.parentFlags, sameOwn ▸ evaluates.parentCost, ?_, sameKeys ▸ evaluates.keys⟩
  intro other member
  rw [update_task_tasks generation after task taken] at member
  cases replaced_tasks generation.exeSet task other member with
  | inl same => exact .inr (same ▸ costed)
  | inr old => exact evaluates.costs other old.1

-- The last parent is no worse than any decrease, or the task that was chosen to follow
-- it has no flags left.
def Optimum (last : FlagSet) : Prop :=
  (∀ flags, Decrease last flags → cost last ≤ cost flags) ∨
    ∃ chosen, Decrease last chosen ∧ cost chosen < cost last ∧ (∀ flags, Decrease last flags → cost chosen ≤ cost flags) ∧
      chosen.keys = []

section Completed

variable (bounds : Bounds) (parent : FlagSet) (generation : Generation FlagSet ρ (IterativeElimination ρ)) (cache : Finset FlagSet)

-- Once all costs are there, `IsImproved` compares every decrease with the parent.
theorem is_improved_costed (fits : Fits bounds generation cache) (evaluates : Evaluates cost parent generation)
    (evaluated : ∀ task ∈ generation.exeSet.tasks, task.result.isSome) :
    ∃ parentTask, parentTask.flags = parent ∧ Costed cost parentTask ∧
      (∀ task ∈ others parentTask generation.exeSet.tasks, Costed cost task) ∧
      (∀ flags, Decrease parent flags ↔ ∃ task ∈ others parentTask generation.exeSet.tasks, task.flags = flags) ∧
      isImproved generation = .ok ((others parentTask generation.exeSet.tasks).any fun task => decide (cost task.flags < cost parent),
        { generation.own with parentTask }) := by
  have legal : Legal parent := evaluates.parentFlags ▸ holds_legal bounds _ fits.parentHeld
  have costed : ∀ task ∈ generation.exeSet.tasks, Costed cost task := fun task member =>
    (evaluates.costs task member).resolve_left (Option.isSome_iff_ne_none.mp (evaluated task member))
  have base := fits.base
  obtain ⟨parentTask, equal, origin, compared⟩ := is_improved_parent generation fun isFirst => by rwa [if_pos isFirst] at base
  have sameFlags : parentTask.flags = parent := equal.trans evaluates.parentFlags
  have known : Costed cost parentTask := by
    cases isFirst : generation.own.isFirst with
    | true =>
        rw [if_pos isFirst] at origin
        exact costed parentTask origin
    | false =>
        rw [isFirst, if_neg Bool.false_ne_true] at origin
        exact origin ▸ evaluates.parentCost isFirst
  have othersCosted : ∀ task ∈ others parentTask generation.exeSet.tasks, Costed cost task := fun task member =>
    costed task ((mem_others parentTask task _).mp member).1
  refine ⟨parentTask, sameFlags, known, othersCosted, fun flags => ?_, ?_⟩
  · constructor
    · intro decrease
      have different : flags ≠ parent := by
        intro same
        have below := decrease_rank parent flags legal decrease
        rw [same] at below
        omega
      obtain ⟨task, member, same⟩ := List.mem_map.mp ((evaluates.keys flags different).mpr decrease)
      exact ⟨task, (mem_others parentTask task _).mpr ⟨member, by rw [same, sameFlags]; exact different⟩, same⟩
    · intro listed
      obtain ⟨task, member, rfl⟩ := listed
      obtain ⟨present, different⟩ := (mem_others parentTask task _).mp member
      exact (evaluates.keys task.flags (sameFlags ▸ different)).mp (List.mem_map_of_mem present)
  · rw [compared, any_improved_costed cost parentTask known _ othersCosted, sameFlags]
    rfl

-- What the algorithm answers once every decrease of the parent has its cost.
theorem answer_costed (state : SteeringState FlagSet ρ (IterativeElimination ρ)) (returned : Returned FlagSet ρ)
    (completed : state.completes returned.task = some generation) (fits : Fits bounds generation state.cache)
    (evaluates : Evaluates cost parent generation) (evaluated : ∀ task ∈ generation.exeSet.tasks, task.result.isSome)
    (improved : Bool) (fresh : List (NewGeneration FlagSet ρ (IterativeElimination ρ)))
    (answer : algorithm.answer state returned = .ok (improved, fresh)) :
    (fresh = [] ∧ Optimum cost parent) ∨
      improved = true ∧ ∃ worst, Costed cost worst ∧ Decrease parent worst.flags ∧ cost worst.flags < cost parent ∧
        worst.flags.keys ≠ [] ∧ NextOf worst state.cache fresh := by
  obtain ⟨parentTask, sameFlags, known, othersCosted, decreases, compared⟩ :=
    is_improved_costed cost bounds parent generation state.cache fits evaluates evaluated
  rw [answer_completed algorithm state returned generation completed _ _ compared] at answer
  cases better : (others parentTask generation.exeSet.tasks).any fun task => decide (cost task.flags < cost parent) with
  | false =>
      rw [better, if_neg Bool.false_ne_true] at answer
      refine .inl ⟨(Prod.mk.inj (Except.ok.inj answer)).2.symm, .inl fun flags decrease => ?_⟩
      obtain ⟨task, member, rfl⟩ := (decreases flags).mp decrease
      have notBetter := List.any_eq_false.mp better task member
      exact not_lt.mp (by simpa using notBetter)
  | true =>
      rw [better, if_pos rfl] at answer
      obtain ⟨lower, among, isLower⟩ := List.any_eq_true.mp better
      obtain ⟨worst, ran, member, least⟩ := find_worst_costed cost (others parentTask generation.exeSet.tasks) parentTask known othersCosted
      have cheaper : cost worst.flags < cost parent :=
        (least lower (List.mem_cons_of_mem _ among)).trans_lt (of_decide_eq_true isLower)
      have isOther : worst ∈ others parentTask generation.exeSet.tasks := by
        refine (List.mem_cons.mp member).resolve_left fun isParent => ?_
        rw [isParent, sameFlags] at cheaper
        exact lt_irrefl _ cheaper
      have decrease : Decrease parent worst.flags := (decreases worst.flags).mpr ⟨worst, isOther, rfl⟩
      obtain ⟨present, different⟩ := (mem_others parentTask worst _).mp isOther
      have held := fits.inside worst.flags (List.mem_map_of_mem present)
      have below : rank worst.flags = rank generation.own.parentTask.flags - 1 :=
        fits.below worst.flags (List.mem_map_of_mem present) (by rw [evaluates.parentFlags, ← sameFlags]; exact different)
      have lowest : ∀ cached ∈ state.cache, rank worst.flags ≤ rank cached := fun cached inside => below ▸ fits.cached cached inside
      have makes := next_made generation state.cache { generation.own with parentTask } worst (holds_legal bounds worst.flags held) ran
        different lowest
      obtain ⟨new, rest, drawn, nextOf⟩ := makes returned.source
      change next _ _ _ = _ at drawn
      have same : fresh = new := by
        change (next _ _ _).map _ = _ at answer
        rw [drawn] at answer
        exact (Prod.mk.inj (Except.ok.inj answer)).2.symm
      rw [same]
      by_cases isOver : worst.flags.keys = []
      · refine .inl ⟨?_, .inr ⟨worst.flags, decrease, cheaper, fun flags decreased => ?_, isOver⟩⟩
        · cases nextOf with
          | inl stops => exact stops.2
          | inr goesOn => exact absurd isOver goesOn.1
        · obtain ⟨task, listed, rfl⟩ := (decreases flags).mp decreased
          exact least task (List.mem_cons_of_mem _ listed)
      · have workedOut : Costed cost worst := othersCosted worst isOther
        have isImproved : improved = true := by
          change (next _ _ _).map _ = _ at answer
          rw [drawn] at answer
          exact (Prod.mk.inj (Except.ok.inj answer)).1.symm
        exact .inr ⟨isImproved, worst, workedOut, decrease, cheaper, isOver, nextOf⟩

end Completed

-- A generation that follows the parent.
structure Follows (parent : FlagSet) (cache : Finset FlagSet) (new : NewGeneration FlagSet ρ (IterativeElimination ρ)) : Prop where
  decrease : Decrease parent new.own.parentTask.flags
  cheaper : cost new.own.parentTask.flags < cost parent
  decreases : ∀ flags, flags ∈ new.exeSet.keys ↔ Decrease new.own.parentTask.flags flags
  uncached : ∀ flags ∈ new.exeSet.keys, flags ∉ cache

structure Descending (bounds : Bounds) (parent : FlagSet) (state : SteeringState FlagSet ρ (IterativeElimination ρ)) : Prop where
  one : OneGeneration {flags | bounds.Holds flags} (Fits bounds) state
  held : bounds.Holds parent
  waits : state.status = .running → ∀ generation, state.waiting = [generation] → Evaluates cost parent generation
  stops : state.status = .finished → Optimum cost parent

-- One result: no generation is made and the parent stays, or one that follows it.
theorem descending_step (bounds : Bounds) (parent : FlagSet) (state next : SteeringState FlagSet ρ (IterativeElimination ρ))
    (returned : Returned FlagSet ρ) (descending : Descending cost bounds parent state) (costed : Costed cost returned.task)
    (taken : algorithm.step state returned = some next) :
    (∃ improved, algorithm.answer state returned = .ok (improved, []) ∧ Descending cost bounds parent next) ∨
      ∃ new, algorithm.answer state returned = .ok (true, [new]) ∧ Follows cost parent state.cache new ∧
        Descending cost bounds new.own.parentTask.flags next := by
  have isSome : returned.task.result.isSome := by
    rw [costed]
    rfl
  have allowed : returned.task.result.isSome ∧ Completing (fun _ _ => True) state returned := ⟨isSome, fun _ _ => trivial⟩
  have after_one := one_generation_step algorithm _ _ _ state returned next (contract bounds) descending.one allowed taken
  obtain ⟨running, generation, after, alone, fits, updates, -, result⟩ :=
    one_generation_cases algorithm _ _ _ state returned next (contract bounds) descending.one allowed taken
  have evaluates := evaluates_updated cost parent generation after returned.task
    (descending.waits running generation alone) costed updates
  have fitsAfter := (contract bounds).updated generation after state.cache returned.task fits updates
  have notFinished : state.status ≠ .finished := fun finished => absurd (running.symm.trans finished) nofun
  cases result with
  | waits still answer =>
      refine .inl ⟨false, answer, after_one, descending.held, ?_, fun finished => absurd finished notFinished⟩
      intro _ waiting same
      rw [← (List.cons.inj same).1]
      exact evaluates
  | completes completed evaluated improved fresh answer continues =>
      cases answer_costed cost bounds parent after state returned completed fitsAfter evaluates evaluated improved fresh answer with
      | inl isOver =>
          obtain ⟨rfl, optimum⟩ := isOver
          refine .inl ⟨improved, answer, after_one, descending.held, ?_, fun _ => optimum⟩
          intro stillRuns
          rw [ite_self, submit_nothing _ rfl] at stillRuns
          cases stillRuns
      | inr goesOn =>
          obtain ⟨rfl, worst, workedOut, decrease, cheaper, remaining, nextOf⟩ := goesOn
          obtain ⟨-, set, rfl, filled, unrun, keys, uncached⟩ := nextOf.resolve_left fun stops => remaining stops.1
          have legalParent := holds_legal bounds parent descending.held
          have heldWorst : bounds.Holds worst.flags := by
            obtain ⟨spec, -, same⟩ := (decrease_iff parent worst.flags legalParent).mp decrease
            rw [same]
            exact decreased_held bounds parent descending.held spec
          have decreases : ∀ flags, flags ∈ set.keys ↔ Decrease worst.flags flags := fun flags =>
            (keys flags).trans (decrease_iff worst.flags flags (holds_legal bounds worst.flags heldWorst)).symm
          refine .inr ⟨⟨set, ⟨worst, false⟩⟩, answer, ⟨decrease, cheaper, decreases, uncached⟩, after_one, heldWorst, ?_, ?_⟩
          · intro _ waiting same
            rw [if_pos rfl, submit_single _ _ filled] at same
            rw [← (List.cons.inj same).1]
            exact ⟨rfl, fun _ => workedOut, fun task member => .inl (unrun task member), fun flags _ => decreases flags⟩
          · intro finished
            rw [if_pos rfl, submit_single _ _ filled] at finished
            exact absurd finished notFinished

-- The parents of the generations that a run makes, in order.
def parents (generations : List (Finset FlagSet × NewGeneration FlagSet ρ (IterativeElimination ρ))) : List FlagSet :=
  generations.map fun one => one.2.own.parentTask.flags

structure Descends (base : FlagSet) (generations : List (Finset FlagSet × NewGeneration FlagSet ρ (IterativeElimination ρ)))
    (state : SteeringState FlagSet ρ (IterativeElimination ρ)) : Prop where
  chain : (base :: parents generations).IsChain fun parent next => Decrease parent next ∧ cost next < cost parent
  decreases : ∀ one ∈ generations, ∀ flags, flags ∈ one.2.exeSet.keys ↔ Decrease one.2.own.parentTask.flags flags
  uncached : ∀ one ∈ generations, ∀ flags ∈ one.2.exeSet.keys, flags ∉ one.1
  few : (generations.length : Int) ≤ rank base
  optimum : state.status = .finished → Optimum cost ((parents generations).getLastD base)

theorem descending_run (bounds : Bounds) (parent : FlagSet) (state finish : SteeringState FlagSet ρ (IterativeElimination ρ))
    (returned : List (Returned FlagSet ρ)) (descending : Descending cost bounds parent state)
    (costed : ∀ result ∈ returned, Costed cost result.task) (run : exec algorithm.step state returned = some finish) :
    Descends cost parent (algorithm.made state returned) finish := by
  induction returned generalizing parent state with
  | nil =>
      have same : state = finish := by simpa [exec] using run
      have least := rank_nonnegative parent (holds_legal bounds parent descending.held)
      exact ⟨List.isChain_singleton parent, List.forall_mem_nil _, List.forall_mem_nil _, least, same ▸ descending.stops⟩
  | cons result rest ih =>
      obtain ⟨next, taken, remaining⟩ := (exec_cons algorithm.step state finish result rest).mp run
      obtain ⟨here, later⟩ := List.forall_mem_cons.mp costed
      cases descending_step cost bounds parent state next result descending here taken with
      | inl stays =>
          obtain ⟨improved, answer, still⟩ := stays
          rw [Algorithm.made, answer, taken]
          exact ih parent next still later remaining
      | inr goesOn =>
          obtain ⟨new, answer, follows, after⟩ := goesOn
          have tail := ih new.own.parentTask.flags next after later remaining
          have below := decrease_rank parent new.own.parentTask.flags (holds_legal bounds parent descending.held) follows.decrease
          rw [Algorithm.made, answer, taken]
          refine ⟨List.isChain_cons_cons.mpr ⟨⟨follows.decrease, follows.cheaper⟩, tail.chain⟩, ?_, ?_, ?_, ?_⟩
          · exact List.forall_mem_cons.mpr ⟨follows.decreases, tail.decreases⟩
          · exact List.forall_mem_cons.mpr ⟨follows.uncached, tail.uncached⟩
          · have few := tail.few
            change ((algorithm.made next rest).length + 1 : Int) ≤ rank parent
            omega
          · intro finished
            change Optimum cost (List.getLastD (new.own.parentTask.flags :: parents (algorithm.made next rest)) parent)
            rw [List.getLastD_cons]
            exact tail.optimum finished

section Start

variable (base : FlagSet) (order : List FlagSet) (distinct : order.Nodup)
  (starts : ∀ flags, flags ∈ order ↔ flags = base ∨ Decrease base flags)

include starts

omit [LinearOrder ρ] in
theorem start_base : base ∈ (TaskSet.unrun order distinct : TaskSet FlagSet ρ).keys := by
  rw [TaskSet.unrun_keys]
  exact (starts base).mpr (.inl rfl)

omit [LinearOrder ρ] in
theorem start_decreases (legal : Legal base) (flags : FlagSet) (member : flags ∈ (TaskSet.unrun order distinct : TaskSet FlagSet ρ).keys)
    (different : flags ≠ base) : ∃ spec ∈ base.keys, flags = decreased base spec := by
  rw [TaskSet.unrun_keys] at member
  exact (decrease_iff base flags legal).mp (((starts flags).mp member).resolve_left different)

theorem descending_start (bounds : Bounds) (held : bounds.Holds base) :
    Descending cost bounds base (.start ∅ [first (.unrun order distinct) ⟨base, none⟩]) := by
  have isBase := start_base (ρ := ρ) base order distinct starts
  have filled : (TaskSet.unrun order distinct : TaskSet FlagSet ρ).tasks ≠ [] := fun empty =>
    List.ne_nil_of_mem isBase ((TaskSet.unrun order distinct).keys_eq_nil.mpr empty)
  have fits := first_fits bounds (.unrun order distinct) (⟨base, none⟩ : Task FlagSet ρ) held isBase
    (start_decreases base order distinct starts (holds_legal bounds base held))
  refine ⟨start_one_generation _ _ (contract bounds).inside _ filled fits, held, ?_, ?_⟩
  · intro _ generation waiting
    rw [start_single _ filled] at waiting
    rw [← (List.cons.inj waiting).1]
    refine ⟨rfl, nofun, fun task member => .inl ?_, fun flags different => ?_⟩
    · obtain ⟨flags, -, rfl⟩ := List.mem_map.mp member
      rfl
    · change flags ∈ (TaskSet.unrun order distinct : TaskSet FlagSet ρ).keys ↔ _
      rw [TaskSet.unrun_keys, starts flags]
      exact or_iff_right different
  · intro finished
    rw [start_single _ filled] at finished
    exact absurd finished nofun

theorem elimination_descends (legal : Legal base) :
    ∃ bound, ∀ returned state, (∀ result ∈ returned, Costed cost result.task) →
      exec algorithm.step (.start ∅ [first (.unrun order distinct) ⟨base, none⟩]) returned = some state →
        EndsByItself bound returned state ∧
          Descends cost base (algorithm.made (.start ∅ [first (.unrun order distinct) ⟨base, none⟩]) returned) state := by
  obtain ⟨bounds, -, held⟩ := bounds_exist [] [base] fun flags member => List.mem_singleton.mp member ▸ legal
  obtain ⟨bound, ends⟩ := elimination_ends (.unrun order distinct) (⟨base, none⟩ : Task FlagSet ρ) legal
    (start_base base order distinct starts) (start_decreases base order distinct starts legal)
  refine ⟨bound, fun returned state costed run => ⟨ends returned state ⟨?_, ?_, run⟩, ?_⟩⟩
  · intro result member
    rw [costed result member]
    rfl
  · exact along_of_forall _ _ _ returned fun _ _ _ _ _ => trivial
  · exact descending_run cost bounds base _ state returned
      (descending_start cost base order distinct starts bounds (held base List.mem_cons_self)) costed run

end Start

end Costs

def inlineLimit (value : Int) : FlagSet := noFlags.insert "-finline-limit=[1-2]".toList value

def lessIsCheaper (flags : FlagSet) : Nat := (rank flags).toNat

theorem inline_limit_legal : Legal (inlineLimit 2) := by
  intro spec value found start last range
  have listed : (spec, value) ∈ [("-finline-limit=[1-2]".toList, (2 : Int))] :=
    (SortedDict.mem_entries (inlineLimit 2) spec value).mpr found
  obtain ⟨rfl, rfl⟩ := Prod.mk.inj (List.mem_singleton.mp listed)
  have ends : (1, 2) = (start, last) := Option.some.inj range
  rw [← (Prod.mk.inj ends).1]
  decide

theorem inline_limit_starts (flags : FlagSet) :
    flags ∈ [inlineLimit 2, inlineLimit 1] ↔ flags = inlineLimit 2 ∨ Decrease (inlineLimit 2) flags := by
  have lower : decreased (inlineLimit 2) "-finline-limit=[1-2]".toList = inlineLimit 1 := by decide
  have keys : (inlineLimit 2).keys = ["-finline-limit=[1-2]".toList] := rfl
  rw [decrease_iff _ _ inline_limit_legal, keys]
  simp only [List.mem_cons, List.not_mem_nil, or_false, exists_eq_left, lower]

-- The value of one numeric flag is lowered to its start, and then no flag is left.
theorem inline_limit_descends :
    ∃ state, exec algorithm.step (.start ∅ [first (.unrun [inlineLimit 2, inlineLimit 1] (by decide)) ⟨inlineLimit 2, none⟩])
        [⟨⟨inlineLimit 2, some 2⟩, fun _ => 0⟩, ⟨⟨inlineLimit 1, some 1⟩, fun _ => 0⟩, ⟨⟨noFlags, some 0⟩, fun _ => 0⟩] = some state ∧
      state.status = .finished ∧
      Descends lessIsCheaper (inlineLimit 2)
        (algorithm.made (.start ∅ [first (.unrun [inlineLimit 2, inlineLimit 1] (by decide)) ⟨inlineLimit 2, none⟩])
          [⟨⟨inlineLimit 2, some 2⟩, fun _ => 0⟩, ⟨⟨inlineLimit 1, some 1⟩, fun _ => 0⟩, ⟨⟨noFlags, some 0⟩, fun _ => 0⟩]) state := by
  obtain ⟨bound, descends⟩ := elimination_descends lessIsCheaper (inlineLimit 2) [inlineLimit 2, inlineLimit 1] (by decide)
    inline_limit_starts inline_limit_legal
  refine ⟨_, rfl, rfl, (descends _ _ ?_ rfl).2⟩
  intro result member
  cases member with
  | head => exact rfl
  | tail _ later =>
      cases later with
      | head => exact rfl
      | tail _ last =>
          rw [List.mem_singleton.mp last]
          exact rfl

end IterativeElimination

end ToolchainUtils.Bestflags
