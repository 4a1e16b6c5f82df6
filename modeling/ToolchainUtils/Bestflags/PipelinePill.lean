import ToolchainUtils.Bestflags.PipelineRuns

set_option autoImplicit false

namespace ToolchainUtils.Bestflags.Pipeline

open Transition

section Queues

variable {α : Type}

def PillIsLast (queue : List (Message α)) : Prop := ∀ before after, queue = before ++ .poisonpill :: after → after = []

-- What the next stage reads: it stops at the first pill.
def received : List (Message α) → List α
  | [] => []
  | .poisonpill :: _ => []
  | .task task :: rest => task :: received rest

theorem received_all (queue : List (Message α)) (last : PillIsLast queue) : received queue = tasksIn queue := by
  induction queue with
  | nil => rfl
  | cons message rest ih =>
      cases message with
      | poisonpill =>
          obtain rfl := last [] rest rfl
          rfl
      | task task =>
          have later : PillIsLast rest := fun before after split =>
            last (.task task :: before) after (congrArg (List.cons (.task task)) split)
          rw [received, tasks_in_task, ih later]

theorem pill_is_last_of_none (queue : List (Message α)) (none : .poisonpill ∉ queue) : PillIsLast queue :=
  fun before _ split => absurd (split ▸ List.mem_append_right before List.mem_cons_self) none

theorem pill_is_last_put (queue : List (Message α)) (none : .poisonpill ∉ queue) :
    PillIsLast (queue ++ [.poisonpill]) := by
  intro before after split
  cases later : after.reverse with
  | nil => exact List.reverse_eq_nil_iff.mp later
  | cons message rest =>
      have shape : after = rest.reverse ++ [message] := by
        rw [← List.reverse_reverse after, later, List.reverse_cons]
      rw [shape, ← List.cons_append, ← List.append_assoc] at split
      obtain ⟨early, _⟩ := List.append_inj' split rfl
      exact absurd (early ▸ List.mem_append_right before List.mem_cons_self) none

end Queues

variable {κ ι ρ : Type}

def Stage.readsPill (stage : Stage κ ι ρ) : Bool :=
  match stage.process, stage.taskQueue with
  | .running, .poisonpill :: _ => true
  | _, _ => false

def HelperControl.pending : HelperControl κ ι ρ → List (StageTask κ ι ρ)
  | .resolving _ _ tasks => tasks
  | _ => []

-- Neither the pool nor the helper has a task.
structure Stage.Quiet (stage : Stage κ ι ρ) : Prop where
  pool : stage.poolQueue = []
  workers : ∀ worker ∈ stage.workers, worker.isIdle
  queued : tasksIn stage.helperQueue = []
  waiting : stage.waitingList = []
  pending : stage.helper.pending = []

instance decidableQuiet [DecidableEq κ] [DecidableEq ι] [DecidableEq ρ] (stage : Stage κ ι ρ) : Decidable stage.Quiet :=
  decidable_of_iff (stage.poolQueue = [] ∧ (∀ worker ∈ stage.workers, worker.isIdle) ∧ tasksIn stage.helperQueue = [] ∧
      stage.waitingList = [] ∧ stage.helper.pending = [])
    ⟨fun ⟨pool, workers, queued, waiting, pending⟩ => ⟨pool, workers, queued, waiting, pending⟩,
      fun quiet => ⟨quiet.pool, quiet.workers, quiet.queued, quiet.waiting, quiet.pending⟩⟩

-- The pill is read when everything is done that came before it.
def ReadWhenQuiet (stage : Stage κ ι ρ) (turn : Turn ρ) : Prop :=
  turn.actor = .process → stage.readsPill = true → stage.Quiet

instance decidableReadWhenQuiet [DecidableEq κ] [DecidableEq ι] [DecidableEq ρ] (stage : Stage κ ι ρ) (turn : Turn ρ) :
    Decidable (ReadWhenQuiet stage turn) :=
  inferInstanceAs (Decidable (turn.actor = .process → stage.readsPill = true → stage.Quiet))

def PillOrder (stage : Stage κ ι ρ) : Prop :=
  (stage.process = .running ∧ .poisonpill ∉ stage.resultQueue) ∨
    (stage.process ≠ .running ∧ stage.Quiet ∧ PillIsLast stage.resultQueue)

theorem pill_order_last (stage : Stage κ ι ρ) (order : PillOrder stage) : PillIsLast stage.resultQueue := by
  obtain ⟨_, none⟩ | ⟨_, _, last⟩ := order
  · exact pill_is_last_of_none _ none
  · exact last

variable [DecidableEq κ] [DecidableEq ι]

omit [DecidableEq κ] in
theorem process_pill_order (stage next : Stage κ ι ρ) (order : PillOrder stage)
    (quiet : stage.readsPill = true → stage.Quiet) (taken : stage.processStep = some next) : PillOrder next := by
  cases process_moves stage next taken with
  | readPill rest running read =>
      have before : stage.Quiet := quiet (by simp [Stage.readsPill, running, read])
      obtain ⟨_, none⟩ | ⟨stopped, _⟩ := order
      · exact Or.inr ⟨nofun, ⟨before.pool, before.workers, before.queued, before.waiting, before.pending⟩,
          pill_is_last_put _ none⟩
      · exact absurd running stopped
  | toHelper task rest running read known =>
      obtain ⟨_, none⟩ | ⟨stopped, _⟩ := order
      · exact Or.inl ⟨running, none⟩
      · exact absurd running stopped
  | toPool task rest running read new =>
      obtain ⟨_, none⟩ | ⟨stopped, _⟩ := order
      · exact Or.inl ⟨running, none⟩
      · exact absurd running stopped
  | joinPool closing allTaken idle =>
      obtain ⟨running, _⟩ | ⟨_, before, last⟩ := order
      · exact absurd (running.symm.trans closing) nofun
      · exact Or.inr ⟨nofun, { before with queued := by simpa using before.queued }, last⟩
  | joinHelper joining ended =>
      obtain ⟨running, _⟩ | ⟨_, before, last⟩ := order
      · exact absurd (running.symm.trans joining) nofun
      · exact Or.inr ⟨nofun, { before with }, last⟩

omit [DecidableEq κ] [DecidableEq ι] in
theorem worker_pill_order (stage next : Stage κ ι ρ) (slot : Nat) (result : ρ) (order : PillOrder stage)
    (taken : stage.workerStep slot result = some next) : PillOrder next := by
  obtain ⟨running, none⟩ | ⟨_, quiet, _⟩ := order
  · apply Or.inl
    cases worker_moves stage next slot result taken with
    | send task reported => exact ⟨running, by simpa [Stage.put] using none⟩
    | _ => exact ⟨running, none⟩
  · have idle : ∀ worker, stage.workers[slot]? = some worker → worker.isIdle := fun worker here =>
      quiet.workers worker (List.mem_of_getElem? here)
    cases worker_moves stage next slot result taken with
    | take task rest _ waiting => exact absurd (waiting.symm.trans quiet.pool) (List.cons_ne_nil task rest)
    | giveUp task here _ => exact absurd (idle _ here) Bool.false_ne_true
    | work task here _ => exact absurd (idle _ here) Bool.false_ne_true
    | report task found worked _ => exact absurd (idle _ worked) Bool.false_ne_true
    | send task reported => exact absurd (idle _ reported) Bool.false_ne_true

theorem helper_pill_order (stage next : Stage κ ι ρ) (order : PillOrder stage)
    (taken : stage.helperStep = some next) : PillOrder next := by
  obtain ⟨running, none⟩ | ⟨stopped, quiet, last⟩ := order
  · apply Or.inl
    cases helper_moves stage next taken with
    | resolveNow => exact ⟨running, by simpa [Stage.put] using none⟩
    | resolve => exact ⟨running, by simpa [Stage.put] using none⟩
    | _ => exact ⟨running, none⟩
  · have noTask : ∀ task rest, stage.helperQueue ≠ .task task :: rest := fun task rest read => by
      have queued := quiet.queued
      simp [read] at queued
    cases helper_moves stage next taken with
    | nothing top empty => exact Or.inr ⟨stopped, { quiet with pending := rfl }, last⟩
    | readPill rest top read =>
        exact Or.inr ⟨stopped, { quiet with
          queued := by simpa [read] using quiet.queued
          pending := rfl }, last⟩
    | failAssert task rest top read done => exact absurd read (noTask task rest)
    | resolveNow task rest result top read => exact absurd read (noTask task rest)
    | putOff task rest top read => exact absurd read (noTask task rest)
    | finish top empty => exact Or.inr ⟨stopped, { quiet with pending := rfl }, last⟩
    | drain top waits => exact absurd quiet.waiting waits
    | nothingCompleted after collecting empty => exact Or.inr ⟨stopped, { quiet with pending := rfl }, last⟩
    | collect after identifier result rest collecting read =>
        exact Or.inr ⟨stopped, { quiet with pending := by simp [HelperControl.pending, quiet.waiting] }, last⟩
    | resolved after result control => exact Or.inr ⟨stopped, { quiet with pending := rfl }, last⟩
    | resolve after result task rest control =>
        have pending := quiet.pending
        simp [control, HelperControl.pending] at pending

theorem pill_comes_last (cache : List (ι × ρ)) (input : List (StageTask κ ι ρ)) (numProcesses : Nat)
    (turns : List (Turn ρ)) (quiet : Along Stage.step ReadWhenQuiet (Stage.start cache input numProcesses) turns) :
    Throughout Stage.step
      (fun stage => PillIsLast stage.resultQueue ∧ received stage.resultQueue = tasksIn stage.resultQueue)
      (Stage.start cache input numProcesses) turns := by
  refine throughout_mono Stage.step PillOrder _ ?_ _ turns
    (throughout_of_along Stage.step ReadWhenQuiet PillOrder ?_ turns _ ?_ quiet)
  · intro stage order
    have last := pill_order_last stage order
    exact ⟨last, received_all _ last⟩
  · rintro stage ⟨actor, result⟩ next order allowed taken
    cases actor with
    | process => exact process_pill_order stage next order (allowed rfl) taken
    | worker slot => exact worker_pill_order stage next slot result order taken
    | helper => exact helper_pill_order stage next order taken
  · exact Or.inl ⟨rfl, nofun⟩

-- The one task has its result in the cache, and the helper sends it before the pill is
-- read.
theorem pill_after_cached_task : Throughout Stage.step
    (fun stage => PillIsLast stage.resultQueue ∧ received stage.resultQueue = tasksIn stage.resultQueue)
    (Stage.start [(5, 50)] [⟨1, 5, none⟩] 1 : Stage Nat Nat Nat) [⟨.process, 0⟩, ⟨.helper, 0⟩, ⟨.process, 0⟩] :=
  pill_comes_last [(5, 50)] [⟨1, 5, none⟩] 1 _ (by decide)

-- The process reads the pill while the pool has the only task.
theorem pill_overtakes_the_pool : ∃ turns finish,
    exec Stage.step (Stage.start [] [⟨1, 5, none⟩] 1 : Stage Nat Nat Nat) turns = some finish ∧
      ¬ PillIsLast finish.resultQueue ∧ received finish.resultQueue = [] ∧
        tasksIn finish.resultQueue = [⟨1, 5, some 50⟩] := by
  refine ⟨[⟨.process, 0⟩, ⟨.process, 0⟩, ⟨.worker 0, 0⟩, ⟨.worker 0, 50⟩, ⟨.worker 0, 0⟩, ⟨.worker 0, 0⟩], _, rfl, ?_, rfl, rfl⟩
  intro last
  exact absurd (last [] [.task ⟨1, 5, some 50⟩] rfl) nofun

end ToolchainUtils.Bestflags.Pipeline
