import ToolchainUtils.FairRuns
import ToolchainUtils.Bestflags.PipelineRuns

set_option autoImplicit false

namespace ToolchainUtils.Bestflags.Pipeline

open FairRuns

variable {κ ι ρ : Type}

def ProcessControl.weight : ProcessControl → Nat
  | .running => 4
  | .closing => 3
  | .joining => 1
  | .ended => 0

def Worker.weight : Worker κ ι ρ → Nat
  | .idle => 0
  | .taken _ => 5
  | .worked _ => 4
  | .reported _ => 1

def messageWeight : Message (StageTask κ ι ρ) → Nat
  | .task _ => 2
  | .poisonpill => 1

def HelperLoop.weight : HelperLoop → Nat
  | .pulling => 2
  | .draining => 1

def HelperControl.weight : HelperControl κ ι ρ → Nat
  | .top loop => loop.weight
  | .collecting loop => loop.weight
  | .resolving loop _ _ => loop.weight + 1
  | .ended => 0
  | .failed => 0

def Stage.work (stage : Stage κ ι ρ) : Nat :=
  7 * (tasksIn stage.taskQueue).length + stage.process.weight + 6 * stage.poolQueue.length +
    (stage.workers.map Worker.weight).sum + (stage.helperQueue.map messageWeight).sum +
    2 * stage.completedQueue.length + stage.waitingList.length + stage.helper.weight

-- The helper polls. When the pool is joined it does so at most once before the next
-- task, result or pill is there for it.
def HelperControl.polls (waiting : List (StageTask κ ι ρ)) (completed : List (ι × ρ)) : HelperControl κ ι ρ → Bool
  | .top .draining => !waiting.isEmpty
  | .collecting _ => completed.isEmpty
  | _ => false

def Stage.poll (stage : Stage κ ι ρ) : Nat :=
  if stage.process = .joining ∧ stage.helper.polls stage.waitingList stage.completedQueue = true then 1 else 0

def Stage.rank (stage : Stage κ ι ρ) : Nat := 2 * stage.work + stage.poll

theorem poll_le_one (stage : Stage κ ι ρ) : stage.poll ≤ 1 := by
  unfold Stage.poll
  split <;> omega

theorem rank_lt_of_work (stage next : Stage κ ι ρ) (less : next.work < stage.work) : next.rank < stage.rank := by
  have bound := poll_le_one next
  unfold Stage.rank
  omega

variable [DecidableEq κ] [DecidableEq ι]

omit [DecidableEq κ] in
theorem process_works (stage next : Stage κ ι ρ) (taken : stage.processStep = some next) : next.work < stage.work := by
  cases process_moves stage next taken with
  | readPill rest running read =>
      simp only [Stage.work, Stage.put, read, running, tasks_in_pill, ProcessControl.weight]
      omega
  | toHelper task rest running read known =>
      simp only [Stage.work, read, tasks_in_task, List.length_cons, List.map_append, List.sum_append, List.map_cons,
        List.map_nil, List.sum_cons, List.sum_nil, messageWeight]
      omega
  | toPool task rest running read new =>
      simp only [Stage.work, read, tasks_in_task, List.length_cons, List.length_append, List.length_nil]
      omega
  | joinPool closing allTaken idle =>
      simp only [Stage.work, closing, ProcessControl.weight, List.map_append, List.sum_append, List.map_cons,
        List.map_nil, List.sum_cons, List.sum_nil, messageWeight]
      omega
  | joinHelper joining ended =>
      simp only [Stage.work, joining, ProcessControl.weight]
      omega

omit [DecidableEq κ] [DecidableEq ι] in
theorem worker_works (stage next : Stage κ ι ρ) (slot : Nat) (result : ρ)
    (taken : stage.workerStep slot result = some next) : next.work < stage.work := by
  cases worker_moves stage next slot result taken with
  | take task rest idle waiting =>
      have moved := sum_set Worker.weight stage.workers slot _ (.taken task) idle
      simp only [Worker.weight] at moved
      simp only [Stage.work, waiting, List.length_cons]
      omega
  | giveUp task here done =>
      have moved := sum_set Worker.weight stage.workers slot _ .idle here
      simp only [Worker.weight] at moved
      simp only [Stage.work]
      omega
  | work task here blank =>
      have moved := sum_set Worker.weight stage.workers slot _ (.worked { task with result := some result }) here
      simp only [Worker.weight] at moved
      simp only [Stage.work]
      omega
  | report task found worked has =>
      have moved := sum_set Worker.weight stage.workers slot _ (.reported task) worked
      simp only [Worker.weight] at moved
      simp only [Stage.work, List.length_append, List.length_cons, List.length_nil]
      omega
  | send task reported =>
      have moved := sum_set Worker.weight stage.workers slot _ .idle reported
      simp only [Worker.weight] at moved
      simp only [Stage.work, Stage.put]
      omega

section Progress

variable (cache : List (ι × ρ)) (input : List (StageTask κ ι ρ))

-- A waiting task has been given to the pool, so its result is in the completed queue
-- when the pool is joined and the helper does not have it.
theorem waits_for_completed (stage : Stage κ ι ρ) (inv : Sound cache input stage) (isOver : joined stage.process = true)
    (task : StageTask κ ι ρ) (waiting : task ∈ stage.waitingList)
    (unknown : stage.doneDict.lookup task.identifier = none) : stage.completedQueue ≠ [] := by
  obtain ⟨noneQueued, idle⟩ := inv.poolJoined isOver
  obtain ⟨given, uncached, _⟩ := inv.waits task waiting
  have counted := inv.assigned task.identifier
  have once : 0 < stage.mycache.count task.identifier := List.count_pos_iff.mpr given
  have notCached : (cache.map (·.1)).count task.identifier = 0 := List.count_eq_zero.mpr uncached
  have notQueued : identified task.identifier stage.poolQueue = 0 := by simp [noneQueued, identified]
  have notTaken : unworked task.identifier stage.workers = 0 := by
    apply List.sum_eq_zero_iff_forall_eq_nat.mpr
    intro number member
    obtain ⟨worker, present, rfl⟩ := List.mem_map.mp member
    have quiet := idle worker present
    cases worker <;> simp [Worker.isIdle] at quiet
    rfl
  have logged : task.identifier ∈ stage.workLog.map (·.1) := List.count_pos_iff.mp (by omega)
  obtain ⟨entry, worked, same⟩ := List.mem_map.mp logged
  obtain ⟨other, busy, _⟩ | ⟨result, completed⟩ | known := inv.onTheWay entry worked
  · exact absurd (idle _ busy) Bool.false_ne_true
  · exact List.ne_nil_of_mem completed
  · exact absurd (same ▸ unknown) known

theorem helper_works (stage next : Stage κ ι ρ) (inv : Sound cache input stage) (taken : stage.helperStep = some next) :
    next.work < stage.work ∨ (next = { stage with helper := next.helper } ∧ next.work = stage.work ∧
      (stage.process = .joining → stage.poll = 1 ∧ next.poll = 0)) := by
  cases helper_moves stage next taken with
  | nothing top empty =>
      refine Or.inr ⟨rfl, by simp [Stage.work, top, HelperControl.weight], fun joining => ?_⟩
      have feed := inv.helperFeed
      simp [empty, top, joining, joined, HelperControl.loop] at feed
  | readPill rest top read =>
      apply Or.inl
      simp only [Stage.work, top, read, HelperControl.weight, HelperLoop.weight, List.map_cons, List.sum_cons]
      omega
  | failAssert task rest top read done =>
      have blank := inv.blank task (by simp [read])
      simp [blank] at done
  | resolveNow task rest result top read blank found =>
      apply Or.inl
      simp only [Stage.work, Stage.put, top, read, HelperControl.weight, List.map_cons, List.sum_cons, messageWeight]
      omega
  | putOff task rest top read blank unknown =>
      apply Or.inl
      simp only [Stage.work, top, read, HelperControl.weight, List.map_cons, List.sum_cons, messageWeight,
        List.length_append, List.length_cons, List.length_nil]
      omega
  | finish top empty =>
      apply Or.inl
      simp only [Stage.work, top, HelperControl.weight, HelperLoop.weight]
      omega
  | drain top waits =>
      refine Or.inr ⟨rfl, by simp [Stage.work, top, HelperControl.weight], fun joining => ?_⟩
      obtain ⟨task, waiting⟩ := List.exists_mem_of_ne_nil _ waits
      have unknown : stage.doneDict.lookup task.identifier = none := by
        have state := (inv.waits task waiting).2.2
        simpa [top] using state
      have completed := waits_for_completed cache input stage inv (by simp [joining, joined]) task waiting unknown
      simp [Stage.poll, joining, top, HelperControl.polls, waits, completed]
  | nothingCompleted after collecting empty =>
      refine Or.inr ⟨rfl, by simp [Stage.work, collecting, HelperControl.weight], fun joining => ?_⟩
      cases after with
      | pulling => simp [Stage.poll, joining, collecting, HelperControl.polls, empty]
      | draining =>
          cases waits : stage.waitingList with
          | nil => simp [Stage.poll, joining, collecting, HelperControl.polls, empty]
          | cons task rest =>
              have waiting : task ∈ stage.waitingList := by simp [waits]
              have unknown : stage.doneDict.lookup task.identifier = none := by
                have state := (inv.waits task waiting).2.2
                simpa [collecting] using state
              have completed := waits_for_completed cache input stage inv (by simp [joining, joined]) task waiting unknown
              exact absurd empty completed
  | collect after identifier result rest collecting read =>
      apply Or.inl
      simp only [Stage.work, collecting, read, HelperControl.weight, List.length_cons]
      omega
  | resolved after result control =>
      apply Or.inl
      simp only [Stage.work, control, HelperControl.weight]
      omega
  | resolve after result task rest control =>
      apply Or.inl
      obtain ⟨identifier, found, listed⟩ := inv.resolving after result _ control
      have waiting : task ∈ stage.waitingList := List.mem_of_mem_filter (listed ▸ List.mem_cons_self)
      have removed := List.length_eraseP_of_mem (p := fun other => other.flags = task.flags) waiting (by simp)
      have some := List.length_pos_of_mem waiting
      simp only [Stage.work, Stage.put, control, HelperControl.weight]
      omega

def firstBusy (workers : List (Worker κ ι ρ)) : Option Nat := workers.findIdx? fun worker => !worker.isIdle

-- The actor whose turn lowers the rank.
def Stage.helpful (stage : Stage κ ι ρ) : Actor :=
  match stage.process with
  | .running => .process
  | .closing =>
      match firstBusy stage.workers with
      | some slot => .worker slot
      | none => if stage.poolQueue.isEmpty then .process else .worker 0
  | .joining => if stage.helper.hasEnded then .process else .helper
  | .ended => .process

def live (numProcesses : Nat) : Actor → Prop
  | .process => True
  | .worker slot => slot < numProcesses
  | .helper => True

omit [DecidableEq κ] [DecidableEq ι] in
theorem busy_slot (workers : List (Worker κ ι ρ)) (slot : Nat) (found : firstBusy workers = some slot) :
    ∃ worker, workers[slot]? = some worker ∧ worker.isIdle = false := by
  obtain ⟨bound, busy, _⟩ := List.findIdx?_eq_some_iff_getElem.mp found
  exact ⟨workers[slot], List.getElem?_eq_getElem bound, by simpa using busy⟩

omit [DecidableEq κ] [DecidableEq ι] in
theorem all_idle (workers : List (Worker κ ι ρ)) (none : firstBusy workers = none) (worker : Worker κ ι ρ)
    (present : worker ∈ workers) : worker.isIdle = true := by
  have quiet := List.findIdx?_eq_none_iff.mp none worker present
  simpa using quiet

theorem turn_works (stage : Stage κ ι ρ) (turn : Turn ρ) (inv : Sound cache input stage) :
    stage.turn turn = stage ∨ (stage.turn turn).work < stage.work ∨
      (stage.turn turn = { stage with helper := (stage.turn turn).helper } ∧ (stage.turn turn).work = stage.work ∧
        (stage.process = .joining → stage.poll = 1 ∧ (stage.turn turn).poll = 0)) := by
  obtain ⟨actor, result⟩ := turn
  cases taken : stage.step ⟨actor, result⟩ with
  | none => exact Or.inl (by simp [Stage.turn, taken])
  | some next =>
      have moved : stage.turn ⟨actor, result⟩ = next := by simp [Stage.turn, taken]
      rw [moved]
      apply Or.inr
      cases actor with
      | process => exact Or.inl (process_works stage next taken)
      | worker slot => exact Or.inl (worker_works stage next slot result taken)
      | helper => exact helper_works cache input stage next inv taken

-- The process can move in each of these states.
theorem process_enabled (stage : Stage κ ι ρ) (inv : Sound cache input stage) (running : stage.process = .running) :
    stage.processStep ≠ none := by
  have feed := inv.feed
  unfold Stage.processStep
  cases queue : stage.taskQueue with
  | nil => simp [queue, running] at feed
  | cons message rest =>
      cases message with
      | poisonpill => simp [running]
      | task task =>
          simp only [running]
          split <;> exact nofun

theorem worker_enabled (stage : Stage κ ι ρ) (inv : Sound cache input stage) (slot : Nat) (result : ρ)
    (worker : Worker κ ι ρ) (here : stage.workers[slot]? = some worker)
    (something : worker.isIdle = false ∨ stage.poolQueue ≠ []) : stage.workerStep slot result ≠ none := by
  have sound := inv.workers worker (List.mem_of_getElem? here)
  unfold Stage.workerStep
  cases worker with
  | idle =>
      obtain busy | waiting := something
      · exact absurd busy nofun
      · obtain ⟨task, rest, queue⟩ := List.exists_cons_of_ne_nil waiting
        simp [here, queue]
  | taken task =>
      have blank : task.result = none := sound
      simp [here, blank]
  | worked task =>
      obtain ⟨found, has, _⟩ := sound
      simp [here, has]
  | reported task => simp [here]

theorem helper_enabled (stage : Stage κ ι ρ) (inv : Sound cache input stage) (going : stage.helper.hasEnded = false) :
    stage.helperStep ≠ none := by
  have alive := inv.alive
  unfold Stage.helperStep
  cases control : stage.helper with
  | top loop =>
      cases loop with
      | pulling =>
          cases queue : stage.helperQueue with
          | nil => simp
          | cons message rest =>
              cases message with
              | poisonpill => simp
              | task task =>
                  have blank := inv.blank task (by simp [queue])
                  cases answer : stage.doneDict.lookup task.identifier <;> simp [blank, answer]
      | draining =>
          dsimp only
          split <;> exact nofun
  | collecting after => cases queue : stage.completedQueue <;> simp
  | resolving after result tasks => cases tasks <;> simp
  | ended => simp [control, HelperControl.hasEnded] at going
  | failed => exact absurd control alive

theorem rank_never_up (stage : Stage κ ι ρ) (turn : Turn ρ) (inv : Sound cache input stage) :
    (stage.turn turn).rank ≤ stage.rank := by
  obtain same | less | ⟨spun, same, polled⟩ := turn_works cache input stage turn inv
  · exact Nat.le_of_eq (congrArg Stage.rank same)
  · exact Nat.le_of_lt (rank_lt_of_work _ _ less)
  · by_cases joining : stage.process = .joining
    · obtain ⟨before, after⟩ := polled joining
      unfold Stage.rank
      omega
    · have process : (stage.turn turn).process = stage.process := by rw [spun]
      simp [Stage.rank, same, Stage.poll, process, joining]

theorem helpful_stays (stage : Stage κ ι ρ) (turn : Turn ρ) (inv : Sound cache input stage)
    (equal : (stage.turn turn).rank = stage.rank) : (stage.turn turn).helpful = stage.helpful := by
  obtain same | less | ⟨spun, same, polled⟩ := turn_works cache input stage turn inv
  · exact congrArg Stage.helpful same
  · exact absurd equal (Nat.ne_of_lt (rank_lt_of_work _ _ less))
  · by_cases joining : stage.process = .joining
    · obtain ⟨before, after⟩ := polled joining
      unfold Stage.rank at equal
      omega
    · rw [spun]
      unfold Stage.helpful
      cases control : stage.process with
      | joining => exact absurd control joining
      | running => rfl
      | closing => rfl
      | ended => rfl

theorem process_turn_drops (stage : Stage κ ι ρ) (result : ρ) (enabled : stage.processStep ≠ none) :
    (stage.turn ⟨.process, result⟩).rank < stage.rank := by
  obtain ⟨next, taken⟩ := Option.ne_none_iff_exists'.mp enabled
  have moved : stage.turn ⟨.process, result⟩ = next := by simp [Stage.turn, Stage.step, taken]
  rw [moved]
  exact rank_lt_of_work stage next (process_works stage next taken)

theorem worker_turn_drops (stage : Stage κ ι ρ) (slot : Nat) (result : ρ) (enabled : stage.workerStep slot result ≠ none) :
    (stage.turn ⟨.worker slot, result⟩).rank < stage.rank := by
  obtain ⟨next, taken⟩ := Option.ne_none_iff_exists'.mp enabled
  have moved : stage.turn ⟨.worker slot, result⟩ = next := by simp [Stage.turn, Stage.step, taken]
  rw [moved]
  exact rank_lt_of_work stage next (worker_works stage next slot result taken)

theorem helper_turn_drops (stage : Stage κ ι ρ) (result : ρ) (inv : Sound cache input stage)
    (joining : stage.process = .joining) (enabled : stage.helperStep ≠ none) :
    (stage.turn ⟨.helper, result⟩).rank < stage.rank := by
  obtain ⟨next, taken⟩ := Option.ne_none_iff_exists'.mp enabled
  have moved : stage.turn ⟨.helper, result⟩ = next := by simp [Stage.turn, Stage.step, taken]
  rw [moved]
  obtain less | ⟨_, same, polled⟩ := helper_works cache input stage next inv taken
  · exact rank_lt_of_work stage next less
  · obtain ⟨before, after⟩ := polled joining
    unfold Stage.rank
    omega

theorem rank_drops (stage : Stage κ ι ρ) (turn : Turn ρ) (inv : Sound cache input stage) (crew : 0 < stage.workers.length)
    (going : stage.process ≠ .ended) (who : turn.actor = stage.helpful) : (stage.turn turn).rank < stage.rank := by
  obtain ⟨actor, result⟩ := turn
  dsimp only at who
  unfold Stage.helpful at who
  cases control : stage.process with
  | running =>
      simp only [control] at who
      subst who
      exact process_turn_drops stage result (process_enabled cache input stage inv control)
  | closing =>
      simp only [control] at who
      cases busy : firstBusy stage.workers with
      | some slot =>
          simp only [busy] at who
          subst who
          obtain ⟨worker, here, notIdle⟩ := busy_slot stage.workers slot busy
          exact worker_turn_drops stage slot result
            (worker_enabled cache input stage inv slot result worker here (Or.inl notIdle))
      | none =>
          simp only [busy] at who
          cases queue : stage.poolQueue with
          | nil =>
              simp only [queue, List.isEmpty_nil, if_true] at who
              subst who
              have idle := all_idle stage.workers busy
              apply process_turn_drops stage result
              simpa [Stage.processStep, control, queue] using idle
          | cons task rest =>
              simp only [queue, List.isEmpty_cons, Bool.false_eq_true, if_false] at who
              subst who
              exact worker_turn_drops stage 0 result (worker_enabled cache input stage inv 0 result stage.workers[0]
                (List.getElem?_eq_getElem crew) (Or.inr (by simp [queue])))
  | joining =>
      simp only [control] at who
      cases isOver : stage.helper.hasEnded with
      | true =>
          simp only [isOver, if_true] at who
          subst who
          exact process_turn_drops stage result (by simp [Stage.processStep, control, isOver])
      | false =>
          simp only [isOver, Bool.false_eq_true, if_false] at who
          subst who
          exact helper_turn_drops cache input stage result inv control (helper_enabled cache input stage inv isOver)
  | ended => exact absurd control going

end Progress

-- The pool keeps its size.
theorem turn_crew (stage : Stage κ ι ρ) (turn : Turn ρ) : (stage.turn turn).workers.length = stage.workers.length := by
  unfold Stage.turn
  cases taken : stage.step turn with
  | none => rfl
  | some next =>
      obtain ⟨actor, result⟩ := turn
      cases actor with
      | process => cases process_moves stage next taken <;> rfl
      | worker slot => cases worker_moves stage next slot result taken <;> simp [Stage.put]
      | helper => cases helper_moves stage next taken <;> rfl

omit [DecidableEq κ] [DecidableEq ι] in
theorem helpful_live (stage : Stage κ ι ρ) (crew : 0 < stage.workers.length) : live stage.workers.length stage.helpful := by
  unfold Stage.helpful
  cases stage.process with
  | running => trivial
  | closing =>
      cases busy : firstBusy stage.workers with
      | some slot =>
          obtain ⟨worker, here, _⟩ := busy_slot stage.workers slot busy
          exact (List.getElem?_eq_some_iff.mp here).1
      | none =>
          cases queue : stage.poolQueue with
          | nil => trivial
          | cons task rest => exact crew
  | joining => cases isOver : stage.helper.hasEnded <;> trivial
  | ended => trivial

end ToolchainUtils.Bestflags.Pipeline
