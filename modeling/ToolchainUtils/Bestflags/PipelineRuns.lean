import Mathlib.Data.List.Nodup
import ToolchainUtils.Bestflags.PipelineMoves

set_option autoImplicit false

namespace ToolchainUtils.Bestflags.Pipeline

open Transition

section Lists

variable {α : Type}

def tasksIn (queue : List (Message α)) : List α :=
  queue.filterMap fun message =>
    match message with
    | .task task => some task
    | .poisonpill => none

@[simp] theorem tasks_in_nil : tasksIn ([] : List (Message α)) = [] := rfl

@[simp] theorem tasks_in_task (task : α) (rest : List (Message α)) :
    tasksIn (.task task :: rest) = task :: tasksIn rest := rfl

@[simp] theorem tasks_in_pill (rest : List (Message α)) : tasksIn (.poisonpill :: rest) = tasksIn rest := rfl

@[simp] theorem tasks_in_append (first second : List (Message α)) :
    tasksIn (first ++ second) = tasksIn first ++ tasksIn second :=
  List.filterMap_append

@[simp] theorem tasks_in_map (tasks : List α) : tasksIn (tasks.map .task) = tasks := by
  simp [tasksIn, List.filterMap_map]

theorem sum_set (weight : α → Nat) (elements : List α) (slot : Nat) (old new : α) (present : elements[slot]? = some old) :
    ((elements.set slot new).map weight).sum + weight old = (elements.map weight).sum + weight new := by
  induction elements generalizing slot with
  | nil => exact absurd present nofun
  | cons first rest ih =>
      cases slot with
      | zero =>
          obtain rfl := Option.some.inj present
          simp only [List.set_cons_zero, List.map_cons, List.sum_cons]
          omega
      | succ slot =>
          have later := ih slot present
          simp only [List.set_cons_succ, List.map_cons, List.sum_cons]
          omega

theorem mem_set_of_ne (elements : List α) (slot : Nat) (old new other : α) (present : elements[slot]? = some old)
    (member : other ∈ elements) (different : other ≠ old) : other ∈ elements.set slot new := by
  obtain ⟨place, found⟩ := List.mem_iff_getElem?.mp member
  apply List.mem_iff_getElem?.mpr
  refine ⟨place, ?_⟩
  rw [List.getElem?_set_ne, found]
  intro same
  rw [← same, present] at found
  exact different (Option.some.inj found).symm

-- When the first element that meets `narrow` meets `wide`, it is the first that does.
theorem erase_first (elements : List α) (wide narrow : α → Bool) (first : α) (rest : List α)
    (listed : elements.filter wide = first :: rest) (here : narrow first = true)
    (implies : ∀ element, elements.find? narrow = some element → wide element = true) :
    (elements.eraseP narrow).filter wide = rest ∧ elements.Perm (first :: elements.eraseP narrow) := by
  induction elements with
  | nil => exact absurd listed nofun
  | cons element others ih =>
      by_cases isWide : wide element = true
      · rw [List.filter_cons_of_pos isWide] at listed
        obtain ⟨rfl, tail⟩ := List.cons.inj listed
        rw [List.eraseP_cons_of_pos here]
        exact ⟨tail, List.Perm.refl _⟩
      · rw [List.filter_cons_of_neg isWide] at listed
        have notNarrow : ¬ narrow element = true := fun isNarrow =>
          isWide (implies element (List.find?_cons_of_pos isNarrow))
        rw [List.find?_cons_of_neg notNarrow] at implies
        obtain ⟨filtered, perm⟩ := ih listed implies
        rw [List.eraseP_cons_of_neg notNarrow, List.filter_cons_of_neg isWide]
        exact ⟨filtered, (perm.cons element).trans (List.Perm.swap first element _)⟩

end Lists

variable {κ ι ρ : Type} [DecidableEq κ] [DecidableEq ι]

-- The tasks that go to the helper: their identifier is in the cache or that of an
-- earlier task.
def duplicates (seen : List ι) : List (StageTask κ ι ρ) → List (StageTask κ ι ρ)
  | [] => []
  | task :: rest =>
      if task.identifier ∈ seen then task :: duplicates seen rest
      else duplicates (seen ++ [task.identifier]) rest

-- Of the tasks that may have to wait for a result, equal ones have one identifier.
def Coherent (cache : List (ι × ρ)) (input : List (StageTask κ ι ρ)) : Prop :=
  ∀ first ∈ duplicates (cache.map (·.1)) input, ∀ second ∈ duplicates (cache.map (·.1)) input,
    first.identifier ∉ cache.map (·.1) → second.identifier ∉ cache.map (·.1) → first.flags = second.flags →
      first.identifier = second.identifier

-- The task that waiting_list.remove finds has the identifier of the task that was
-- resolved.
def Stage.RemovesAlike (stage : Stage κ ι ρ) : Prop :=
  ∀ after result task rest, stage.helper = .resolving after result (task :: rest) →
    ∀ other, stage.waitingList.find? (fun other => other.flags = task.flags) = some other →
      other.identifier = task.identifier

def copies (key : κ × ι) (tasks : List (StageTask κ ι ρ)) : Nat :=
  tasks.countP fun task => (task.flags, task.identifier) = key

def Worker.tasks : Worker κ ι ρ → List (StageTask κ ι ρ)
  | .idle => []
  | .taken task => [task]
  | .worked task => [task]
  | .reported task => [task]

def held (key : κ × ι) (workers : List (Worker κ ι ρ)) : Nat := (workers.map fun worker => copies key worker.tasks).sum

def identified (identifier : ι) (tasks : List (StageTask κ ι ρ)) : Nat :=
  tasks.countP fun task => task.identifier = identifier

def Worker.unworked : Worker κ ι ρ → List (StageTask κ ι ρ)
  | .taken task => [task]
  | _ => []

def unworked (identifier : ι) (workers : List (Worker κ ι ρ)) : Nat :=
  (workers.map fun worker => identified identifier worker.unworked).sum

-- The task has the result that the cache has for its identifier, or that of the call
-- of `Work` for it.
def Resolved (cache log : List (ι × ρ)) (task : StageTask κ ι ρ) : Prop :=
  ∃ result, task.result = some result ∧ ((task.identifier, result) ∈ cache ∨ (task.identifier, result) ∈ log)

def Worker.Sound (log : List (ι × ρ)) : Worker κ ι ρ → Prop
  | .idle => True
  | .taken task => task.result = none
  | .worked task => ∃ result, task.result = some result ∧ (task.identifier, result) ∈ log
  | .reported task => ∃ result, task.result = some result ∧ (task.identifier, result) ∈ log

def HelperControl.loop : HelperControl κ ι ρ → HelperLoop
  | .top loop => loop
  | .collecting loop => loop
  | .resolving loop _ _ => loop
  | .ended => .draining
  | .failed => .pulling

def joined (process : ProcessControl) : Bool := process == .joining || process == .ended

structure Sound (cache : List (ι × ρ)) (input : List (StageTask κ ι ρ)) (stage : Stage κ ι ρ) : Prop where
  placed : ∀ key, copies key (tasksIn stage.taskQueue) + copies key stage.poolQueue + held key stage.workers +
    copies key (tasksIn stage.helperQueue) + copies key stage.waitingList + copies key (tasksIn stage.resultQueue) =
      copies key input
  blank : ∀ task ∈ tasksIn stage.taskQueue ++ stage.poolQueue ++ tasksIn stage.helperQueue ++ stage.waitingList,
    task.result = none
  workers : ∀ worker ∈ stage.workers, worker.Sound stage.workLog
  sent : ∀ task ∈ tasksIn stage.resultQueue, Resolved cache stage.workLog task
  -- Every identifier is given to the pool once, and never one of the cache.
  distinct : stage.mycache.Nodup
  assigned : ∀ identifier, stage.mycache.count identifier = (cache.map (·.1)).count identifier +
    identified identifier stage.poolQueue + unworked identifier stage.workers +
      (stage.workLog.map (·.1)).count identifier
  seen : ∀ task ∈ input, task ∈ tasksIn stage.taskQueue ∨ task.identifier ∈ stage.mycache
  sources : ∀ identifier ∈ stage.mycache, identifier ∈ cache.map (·.1) ∨ ∃ task ∈ input, task.identifier = identifier
  remaining : ∀ task ∈ tasksIn stage.taskQueue, task ∈ input
  queued : ∀ task ∈ tasksIn stage.helperQueue, task.identifier ∈ stage.mycache
  repeated : ∀ task ∈ stage.waitingList ++ tasksIn stage.helperQueue ++
    duplicates stage.mycache (tasksIn stage.taskQueue), task ∈ duplicates (cache.map (·.1)) input
  -- What becomes of the results of the calls of `Work`.
  completed : ∀ entry ∈ stage.completedQueue, entry ∈ stage.workLog
  known : ∀ entry ∈ stage.doneDict, entry ∈ cache ∨ entry ∈ stage.workLog
  cached : ∀ identifier ∈ cache.map (·.1), stage.doneDict.lookup identifier ≠ none
  onTheWay : ∀ entry ∈ stage.workLog, (∃ task, .worked task ∈ stage.workers ∧ task.identifier = entry.1) ∨
    (∃ result, (entry.1, result) ∈ stage.completedQueue) ∨ stage.doneDict.lookup entry.1 ≠ none
  -- The waiting list holds what has no result yet, or is just being resolved.
  waits : ∀ task ∈ stage.waitingList, task.identifier ∈ stage.mycache ∧ task.identifier ∉ cache.map (·.1) ∧
    (stage.doneDict.lookup task.identifier = none ∨
      ∃ after result tasks, stage.helper = .resolving after result tasks ∧ task ∈ tasks)
  resolving : ∀ after result tasks, stage.helper = .resolving after result tasks →
    ∃ identifier, stage.doneDict.lookup identifier = some result ∧
      tasks = stage.waitingList.filter fun task => task.identifier = identifier
  -- Where the process and the helper are.
  feed : stage.taskQueue = (tasksIn stage.taskQueue).map .task ++ if stage.process = .running then [.poisonpill] else []
  fed : stage.process ≠ .running → tasksIn stage.taskQueue = []
  helperFeed : stage.helperQueue = (tasksIn stage.helperQueue).map .task ++
    if joined stage.process = true ∧ stage.helper.loop = .pulling then [.poisonpill] else []
  drained : stage.helper.loop = .draining → tasksIn stage.helperQueue = [] ∧ joined stage.process = true
  poolJoined : joined stage.process = true → stage.poolQueue = [] ∧ ∀ worker ∈ stage.workers, worker.isIdle
  ended : stage.process = .ended → stage.helper = .ended
  emptied : stage.helper = .ended → stage.waitingList = []
  alive : stage.helper ≠ .failed

theorem lookup_mem (dict : List (ι × ρ)) (identifier : ι) (result : ρ) (found : dict.lookup identifier = some result) :
    (identifier, result) ∈ dict := by
  induction dict with
  | nil => exact absurd found nofun
  | cons entry rest ih =>
      rw [List.lookup_cons] at found
      by_cases same : identifier = entry.1
      · simp only [same, BEq.rfl] at found
        obtain ⟨id, value⟩ := entry
        obtain rfl := Option.some.inj found
        obtain rfl := same
        exact List.mem_cons_self
      · have different : (identifier == entry.1) = false := by simpa using same
        simp only [different] at found
        exact List.mem_cons_of_mem _ (ih found)

theorem lookup_known (dict : List (ι × ρ)) (identifier : ι) (member : identifier ∈ dict.map (·.1)) :
    dict.lookup identifier ≠ none := by
  induction dict with
  | nil => exact absurd member nofun
  | cons entry rest ih =>
      rw [List.lookup_cons]
      by_cases same : identifier = entry.1
      · simp [same]
      · have different : (identifier == entry.1) = false := by simpa using same
        simp only [different]
        exact ih ((List.mem_cons.mp member).resolve_left same)

theorem copies_cons (key : κ × ι) (task : StageTask κ ι ρ) (rest : List (StageTask κ ι ρ)) :
    copies key (task :: rest) = copies key [task] + copies key rest := by
  rw [← List.singleton_append]
  exact List.countP_append

theorem copies_append (key : κ × ι) (first second : List (StageTask κ ι ρ)) :
    copies key (first ++ second) = copies key first + copies key second :=
  List.countP_append

omit [DecidableEq κ] in
theorem identified_cons (identifier : ι) (task : StageTask κ ι ρ) (rest : List (StageTask κ ι ρ)) :
    identified identifier (task :: rest) = identified identifier [task] + identified identifier rest := by
  rw [← List.singleton_append]
  exact List.countP_append

omit [DecidableEq κ] in
theorem identified_append (identifier : ι) (first second : List (StageTask κ ι ρ)) :
    identified identifier (first ++ second) = identified identifier first + identified identifier second :=
  List.countP_append

omit [DecidableEq κ] [DecidableEq ι] in
theorem pill_is_last (rest tail : List (Message (StageTask κ ι ρ)))
    (feed : .poisonpill :: rest = (tasksIn rest).map .task ++ tail) : tasksIn rest = [] ∧ .poisonpill :: rest = tail := by
  cases tasks : tasksIn rest with
  | nil => exact ⟨rfl, by simpa [tasks] using feed⟩
  | cons task others => simp [tasks] at feed

section Moves

variable (cache : List (ι × ρ)) (input : List (StageTask κ ι ρ))

theorem to_helper_sound (stage : Stage κ ι ρ) (inv : Sound cache input stage) (task : StageTask κ ι ρ)
    (rest : List (Message (StageTask κ ι ρ))) (running : stage.process = .running)
    (read : stage.taskQueue = .task task :: rest) (known : task.identifier ∈ stage.mycache) :
    Sound cache input { stage with
      taskQueue := rest
      helperQueue := stage.helperQueue ++ [.task task] } :=
  { inv with
    placed := fun key => by
      have before := inv.placed key
      simp only [read, tasks_in_task, copies_cons key task (tasksIn rest)] at before
      simp only [tasks_in_append, tasks_in_task, tasks_in_nil, copies_append]
      omega
    blank := by
      have before := inv.blank
      simp only [read, tasks_in_task, List.mem_append, List.mem_cons] at before
      simp only [tasks_in_append, tasks_in_task, tasks_in_nil, List.mem_append, List.mem_singleton]
      intro other member
      apply before
      tauto
    seen := by
      intro other member
      have before := inv.seen other member
      rw [read, tasks_in_task, List.mem_cons] at before
      obtain (rfl | later) | old := before
      · exact Or.inr known
      · exact Or.inl later
      · exact Or.inr old
    remaining := fun other member => inv.remaining other (by simp [read, member])
    queued := by
      intro other member
      simp only [tasks_in_append, tasks_in_task, tasks_in_nil, List.mem_append, List.mem_singleton] at member
      obtain old | rfl := member
      · exact inv.queued other old
      · exact known
    repeated := by
      have before := inv.repeated
      simp only [read, tasks_in_task, duplicates, if_pos known, List.mem_append, List.mem_cons] at before
      simp only [tasks_in_append, tasks_in_task, tasks_in_nil, List.mem_append, List.mem_singleton]
      intro other member
      apply before
      tauto
    feed := by simpa [read, running] using inv.feed
    fed := fun stopped => absurd running stopped
    helperFeed := by simpa [running, joined] using inv.helperFeed
    drained := fun loop => by simpa [running, joined] using inv.drained loop }

theorem to_pool_sound (stage : Stage κ ι ρ) (inv : Sound cache input stage) (task : StageTask κ ι ρ)
    (rest : List (Message (StageTask κ ι ρ))) (running : stage.process = .running)
    (read : stage.taskQueue = .task task :: rest) (new : task.identifier ∉ stage.mycache) :
    Sound cache input { stage with
      taskQueue := rest
      poolQueue := stage.poolQueue ++ [task]
      mycache := stage.mycache ++ [task.identifier] } :=
  { inv with
    placed := fun key => by
      have before := inv.placed key
      simp only [read, tasks_in_task, copies_cons key task (tasksIn rest)] at before
      simp only [copies_append]
      omega
    blank := by
      have before := inv.blank
      simp only [read, tasks_in_task, List.mem_append, List.mem_cons] at before
      simp only [List.mem_append, List.mem_singleton]
      intro other member
      apply before
      tauto
    distinct := by
      apply List.nodup_append.mpr
      refine ⟨inv.distinct, List.nodup_singleton _, ?_⟩
      rintro identifier member other single rfl
      exact new (List.mem_singleton.mp single ▸ member)
    assigned := fun identifier => by
      have before := inv.assigned identifier
      rw [List.count_append, identified_append, before]
      simp only [identified, List.count_singleton, List.countP_singleton, beq_iff_eq, decide_eq_true_eq]
      omega
    seen := by
      intro other member
      have before := inv.seen other member
      rw [read, tasks_in_task, List.mem_cons] at before
      obtain (rfl | later) | old := before
      · exact Or.inr (List.mem_append_right _ List.mem_cons_self)
      · exact Or.inl later
      · exact Or.inr (List.mem_append_left _ old)
    sources := by
      intro identifier member
      obtain old | single := List.mem_append.mp member
      · exact inv.sources identifier old
      · obtain rfl := List.mem_singleton.mp single
        exact Or.inr ⟨task, inv.remaining task (by simp [read]), rfl⟩
    remaining := fun other member => inv.remaining other (by simp [read, member])
    queued := fun other member => List.mem_append_left _ (inv.queued other member)
    repeated := by
      have before := inv.repeated
      simpa only [read, tasks_in_task, duplicates, if_neg new] using before
    waits := by
      intro other member
      obtain ⟨known, rest⟩ := inv.waits other member
      exact ⟨List.mem_append_left _ known, rest⟩
    feed := by simpa [read, running] using inv.feed
    fed := fun stopped => absurd running stopped
    poolJoined := fun isOver => absurd isOver (by simp [running, joined]) }

theorem process_sound (stage next : Stage κ ι ρ) (inv : Sound cache input stage) (taken : stage.processStep = some next) :
    Sound cache input next := by
  cases process_moves stage next taken with
  | readPill rest running read =>
      obtain ⟨noTasks, only⟩ := pill_is_last rest _ (by simpa [read, running] using inv.feed)
      exact { inv with
        placed := by simpa [read, Stage.put] using inv.placed
        blank := by simpa [read, Stage.put] using inv.blank
        sent := by simpa [Stage.put] using inv.sent
        seen := by simpa [read, Stage.put] using inv.seen
        remaining := by simpa [read] using inv.remaining
        repeated := by simpa [read, Stage.put] using inv.repeated
        feed := by simpa [noTasks] using only
        fed := fun _ => noTasks
        helperFeed := by simpa [running, joined, Stage.put] using inv.helperFeed
        drained := fun loop => by simpa [running, joined] using inv.drained loop
        poolJoined := nofun
        ended := nofun }
  | toHelper task rest running read known => exact to_helper_sound cache input stage inv task rest running read known
  | toPool task rest running read new => exact to_pool_sound cache input stage inv task rest running read new
  | joinPool closing allTaken idle =>
      have pulling : stage.helper.loop = .pulling := by
        cases loop : stage.helper.loop with
        | pulling => rfl
        | draining => simpa [closing, joined] using inv.drained loop
      exact { inv with
        placed := by simpa using inv.placed
        blank := by simpa using inv.blank
        queued := by simpa using inv.queued
        repeated := by simpa using inv.repeated
        feed := by simpa [closing] using inv.feed
        fed := fun _ => inv.fed (by simp [closing])
        helperFeed := by simpa [closing, joined, pulling] using inv.helperFeed
        drained := fun loop => absurd (pulling.symm.trans loop) nofun
        poolJoined := fun _ => ⟨allTaken, idle⟩
        ended := nofun }
  | joinHelper joining ended =>
      have isOver : stage.helper = .ended := by
        cases control : stage.helper <;> simp [control, HelperControl.hasEnded] at ended ⊢
      exact { inv with
        feed := by simpa [joining] using inv.feed
        fed := fun _ => inv.fed (by simp [joining])
        helperFeed := by simpa [joining, joined] using inv.helperFeed
        drained := fun loop => ⟨(inv.drained loop).1, rfl⟩
        poolJoined := fun _ => inv.poolJoined (by simp [joining, joined])
        ended := fun _ => isOver }

omit [DecidableEq κ] [DecidableEq ι] in
theorem resolved_later (log : List (ι × ρ)) (entry : ι × ρ) (task : StageTask κ ι ρ) (resolved : Resolved cache log task) :
    Resolved cache (log ++ [entry]) task := by
  obtain ⟨result, has, source⟩ := resolved
  exact ⟨result, has, source.imp_right (List.mem_append_left _)⟩

omit [DecidableEq κ] [DecidableEq ι] in
theorem worker_sound_later (log : List (ι × ρ)) (entry : ι × ρ) (worker : Worker κ ι ρ) (sound : worker.Sound log) :
    worker.Sound (log ++ [entry]) := by
  cases worker with
  | idle => trivial
  | taken task => exact sound
  | worked task =>
      obtain ⟨result, has, logged⟩ := sound
      exact ⟨result, has, List.mem_append_left _ logged⟩
  | reported task =>
      obtain ⟨result, has, logged⟩ := sound
      exact ⟨result, has, List.mem_append_left _ logged⟩

theorem held_set (key : κ × ι) (workers : List (Worker κ ι ρ)) (slot : Nat) (old new : Worker κ ι ρ)
    (present : workers[slot]? = some old) :
    held key (workers.set slot new) + copies key old.tasks = held key workers + copies key new.tasks :=
  sum_set (fun worker : Worker κ ι ρ => copies key worker.tasks) workers slot old new present

omit [DecidableEq κ] in
theorem unworked_set (identifier : ι) (workers : List (Worker κ ι ρ)) (slot : Nat) (old new : Worker κ ι ρ)
    (present : workers[slot]? = some old) :
    unworked identifier (workers.set slot new) + identified identifier old.unworked =
      unworked identifier workers + identified identifier new.unworked :=
  sum_set (fun worker : Worker κ ι ρ => identified identifier worker.unworked) workers slot old new present

-- Once the pool is joined no worker is busy.
theorem joined_not (stage : Stage κ ι ρ) (inv : Sound cache input stage) (slot : Nat) (worker : Worker κ ι ρ)
    (here : stage.workers[slot]? = some worker) (busy : worker.isIdle = false) : joined stage.process = false := by
  cases isOver : joined stage.process with
  | false => rfl
  | true =>
      have idle := (inv.poolJoined isOver).2 worker (List.mem_of_getElem? here)
      exact absurd (busy.symm.trans idle) nofun

theorem take_sound (stage : Stage κ ι ρ) (inv : Sound cache input stage) (slot : Nat) (task : StageTask κ ι ρ)
    (rest : List (StageTask κ ι ρ)) (idle : stage.workers[slot]? = some .idle) (waiting : stage.poolQueue = task :: rest) :
    Sound cache input { stage with
      poolQueue := rest
      workers := stage.workers.set slot (.taken task) } :=
  { inv with
    placed := fun key => by
      have before := inv.placed key
      have moved := held_set key stage.workers slot .idle (.taken task) idle
      rw [waiting, copies_cons key task rest] at before
      simp only [Worker.tasks] at moved
      have nothing : copies key ([] : List (StageTask κ ι ρ)) = 0 := rfl
      dsimp only
      omega
    blank := by
      have before := inv.blank
      simp only [waiting, List.mem_append, List.mem_cons] at before
      simp only [List.mem_append]
      intro other member
      apply before
      tauto
    workers := by
      intro worker member
      obtain old | rfl := List.mem_or_eq_of_mem_set member
      · exact inv.workers worker old
      · exact inv.blank task (by simp [waiting])
    assigned := fun identifier => by
      have before := inv.assigned identifier
      have moved := unworked_set identifier stage.workers slot .idle (.taken task) idle
      rw [waiting, identified_cons identifier task rest] at before
      simp only [Worker.unworked] at moved
      have nothing : identified identifier ([] : List (StageTask κ ι ρ)) = 0 := rfl
      dsimp only
      omega
    onTheWay := by
      intro entry member
      obtain ⟨worked, busy, same⟩ | later := inv.onTheWay entry member
      · exact Or.inl ⟨worked, mem_set_of_ne stage.workers slot .idle _ _ idle busy nofun, same⟩
      · exact Or.inr later
    poolJoined := fun isOver => absurd (waiting.symm.trans (inv.poolJoined isOver).1) nofun }

theorem work_sound (stage : Stage κ ι ρ) (inv : Sound cache input stage) (slot : Nat) (result : ρ) (task : StageTask κ ι ρ)
    (taken : stage.workers[slot]? = some (.taken task)) :
    Sound cache input { stage with
      workers := stage.workers.set slot (.worked { task with result := some result })
      workLog := stage.workLog ++ [(task.identifier, result)] } :=
  { inv with
    placed := fun key => by
      have before := inv.placed key
      have moved := held_set key stage.workers slot _ (.worked { task with result := some result }) taken
      have same : copies key (Worker.worked { task with result := some result }).tasks = copies key [task] := rfl
      simp only [Worker.tasks] at moved same
      dsimp only
      omega
    workers := by
      intro worker member
      obtain old | rfl := List.mem_or_eq_of_mem_set member
      · exact worker_sound_later _ _ _ (inv.workers worker old)
      · exact ⟨result, rfl, List.mem_append_right _ List.mem_cons_self⟩
    sent := fun other member => resolved_later cache _ _ _ (inv.sent other member)
    assigned := fun identifier => by
      have before := inv.assigned identifier
      have moved := unworked_set identifier stage.workers slot _ (.worked { task with result := some result }) taken
      have nothing : identified identifier ([] : List (StageTask κ ι ρ)) = 0 := rfl
      have one : identified identifier [task] = [task.identifier].count identifier := by
        simp [identified, List.count_singleton, List.countP_singleton]
      simp only [Worker.unworked] at moved
      simp only [List.map_append, List.map_cons, List.map_nil, List.count_append]
      omega
    completed := fun entry member => List.mem_append_left _ (inv.completed entry member)
    known := fun entry member => (inv.known entry member).imp_right (List.mem_append_left _)
    onTheWay := by
      intro entry member
      obtain old | new := List.mem_append.mp member
      · obtain ⟨worked, busy, same⟩ | later := inv.onTheWay entry old
        · exact Or.inl ⟨worked, mem_set_of_ne stage.workers slot _ _ _ taken busy nofun, same⟩
        · exact Or.inr later
      · obtain rfl := List.mem_singleton.mp new
        have bound : slot < stage.workers.length := (List.getElem?_eq_some_iff.mp taken).1
        exact Or.inl ⟨_, List.mem_set bound _, rfl⟩
    poolJoined := fun isOver => absurd ((joined_not cache input stage inv slot _ taken rfl).symm.trans isOver) nofun }

theorem report_sound (stage : Stage κ ι ρ) (inv : Sound cache input stage) (slot : Nat) (task : StageTask κ ι ρ) (found : ρ)
    (worked : stage.workers[slot]? = some (.worked task)) (has : task.result = some found) :
    Sound cache input { stage with
      workers := stage.workers.set slot (.reported task)
      completedQueue := stage.completedQueue ++ [(task.identifier, found)] } := by
  obtain ⟨result, same, logged⟩ := inv.workers _ (List.mem_of_getElem? worked)
  obtain rfl := Option.some.inj (has.symm.trans same)
  exact { inv with
    placed := fun key => by
      have before := inv.placed key
      have moved := held_set key stage.workers slot _ (.reported task) worked
      simp only [Worker.tasks] at moved
      dsimp only
      omega
    workers := by
      intro worker member
      obtain old | rfl := List.mem_or_eq_of_mem_set member
      · exact inv.workers worker old
      · exact ⟨found, has, logged⟩
    assigned := fun identifier => by
      have before := inv.assigned identifier
      have moved := unworked_set identifier stage.workers slot _ (.reported task) worked
      simp only [Worker.unworked] at moved
      dsimp only
      omega
    completed := by
      intro entry member
      obtain old | new := List.mem_append.mp member
      · exact inv.completed entry old
      · exact List.mem_singleton.mp new ▸ logged
    onTheWay := by
      intro entry member
      obtain ⟨other, busy, identifier⟩ | ⟨result, queued⟩ | later := inv.onTheWay entry member
      · by_cases here : other = task
        · refine Or.inr (Or.inl ⟨found, List.mem_append_right _ ?_⟩)
          rw [← identifier, here]
          exact List.mem_cons_self
        · exact Or.inl ⟨other, mem_set_of_ne stage.workers slot _ _ _ worked busy (by simpa using here), identifier⟩
      · exact Or.inr (Or.inl ⟨result, List.mem_append_left _ queued⟩)
      · exact Or.inr (Or.inr later)
    poolJoined := fun isOver => absurd ((joined_not cache input stage inv slot _ worked rfl).symm.trans isOver) nofun }

theorem send_sound (stage : Stage κ ι ρ) (inv : Sound cache input stage) (slot : Nat) (task : StageTask κ ι ρ)
    (reported : stage.workers[slot]? = some (.reported task)) :
    Sound cache input { stage.put (.task task) with workers := stage.workers.set slot .idle } :=
  { inv with
    placed := fun key => by
      have before := inv.placed key
      have moved := held_set key stage.workers slot _ .idle reported
      have nothing : copies key ([] : List (StageTask κ ι ρ)) = 0 := rfl
      simp only [Worker.tasks] at moved
      simp only [Stage.put, tasks_in_append, tasks_in_task, tasks_in_nil, copies_append]
      omega
    workers := by
      intro worker member
      obtain old | rfl := List.mem_or_eq_of_mem_set member
      · exact inv.workers worker old
      · trivial
    sent := by
      intro other member
      simp only [Stage.put, tasks_in_append, tasks_in_task, tasks_in_nil, List.mem_append, List.mem_singleton] at member
      obtain old | rfl := member
      · exact inv.sent other old
      · obtain ⟨result, has, logged⟩ := inv.workers _ (List.mem_of_getElem? reported)
        exact ⟨result, has, Or.inr logged⟩
    assigned := fun identifier => by
      have before := inv.assigned identifier
      have moved := unworked_set identifier stage.workers slot _ .idle reported
      simp only [Worker.unworked] at moved
      simp only [Stage.put]
      omega
    onTheWay := by
      intro entry member
      obtain ⟨worked, busy, same⟩ | later := inv.onTheWay entry member
      · exact Or.inl ⟨worked, mem_set_of_ne stage.workers slot _ _ _ reported busy nofun, same⟩
      · exact Or.inr later
    poolJoined := fun isOver => absurd ((joined_not cache input stage inv slot _ reported rfl).symm.trans isOver) nofun }

theorem worker_sound (stage next : Stage κ ι ρ) (inv : Sound cache input stage) (slot : Nat) (result : ρ)
    (taken : stage.workerStep slot result = some next) : Sound cache input next := by
  cases worker_moves stage next slot result taken with
  | take task rest idle waiting => exact take_sound cache input stage inv slot task rest idle waiting
  | giveUp task here done =>
      have blank : task.result = none := inv.workers _ (List.mem_of_getElem? here)
      simp [blank] at done
  | work task here blank => exact work_sound cache input stage inv slot result task here
  | report task found worked has => exact report_sound cache input stage inv slot task found worked has
  | send task reported => exact send_sound cache input stage inv slot task reported

-- A turn of the helper that stays in its loop and leaves the queue.
theorem helper_feed_stays (stage : Stage κ ι ρ) (inv : Sound cache input stage) (helper : HelperControl κ ι ρ)
    (same : stage.helper.loop = helper.loop) : stage.helperQueue = (tasksIn stage.helperQueue).map .task ++
      if joined stage.process = true ∧ helper.loop = .pulling then [.poisonpill] else [] := by
  rw [← same]
  exact inv.helperFeed

-- The task that the helper reads has no result, and the queue goes on without it.
theorem helper_read (stage : Stage κ ι ρ) (inv : Sound cache input stage) (task : StageTask κ ι ρ)
    (rest : List (Message (StageTask κ ι ρ))) (top : stage.helper = .top .pulling)
    (read : stage.helperQueue = .task task :: rest) :
    rest = (tasksIn rest).map .task ++ if joined stage.process = true then [.poisonpill] else [] := by
  have feed := inv.helperFeed
  simpa [read, top, HelperControl.loop] using feed

theorem resolve_now_sound (stage : Stage κ ι ρ) (inv : Sound cache input stage) (task : StageTask κ ι ρ)
    (rest : List (Message (StageTask κ ι ρ))) (result : ρ) (top : stage.helper = .top .pulling)
    (read : stage.helperQueue = .task task :: rest) (found : stage.doneDict.lookup task.identifier = some result) :
    Sound cache input { stage.put (.task { task with result := some result }) with
      helperQueue := rest
      helper := .collecting .pulling } :=
  { inv with
    placed := fun key => by
      have before := inv.placed key
      have same : copies key [{ task with result := some result }] = copies key [task] := rfl
      simp only [read, tasks_in_task, copies_cons key task (tasksIn rest)] at before
      simp only [Stage.put, tasks_in_append, tasks_in_task, tasks_in_nil, copies_append]
      omega
    blank := by
      have before := inv.blank
      simp only [read, tasks_in_task, List.mem_append, List.mem_cons] at before
      simp only [Stage.put, List.mem_append]
      intro other member
      apply before
      tauto
    sent := by
      intro other member
      simp only [Stage.put, tasks_in_append, tasks_in_task, tasks_in_nil, List.mem_append, List.mem_singleton] at member
      obtain old | rfl := member
      · exact inv.sent other old
      · exact ⟨result, rfl, inv.known _ (lookup_mem stage.doneDict task.identifier result found)⟩
    queued := fun other member => inv.queued other (by simp [read, member])
    repeated := by
      have before := inv.repeated
      simp only [read, tasks_in_task, List.mem_append, List.mem_cons] at before
      simp only [Stage.put, List.mem_append]
      intro other member
      apply before
      tauto
    waits := by
      intro other member
      have before := inv.waits other member
      simpa [top, Stage.put] using before
    resolving := nofun
    helperFeed := by simpa [HelperControl.loop, Stage.put] using helper_read cache input stage inv task rest top read
    drained := nofun
    ended := fun isOver => absurd (top.symm.trans (inv.ended isOver)) nofun
    emptied := nofun
    alive := nofun }

theorem put_off_sound (stage : Stage κ ι ρ) (inv : Sound cache input stage) (task : StageTask κ ι ρ)
    (rest : List (Message (StageTask κ ι ρ))) (top : stage.helper = .top .pulling)
    (read : stage.helperQueue = .task task :: rest) (unknown : stage.doneDict.lookup task.identifier = none) :
    Sound cache input { stage with
      helperQueue := rest
      waitingList := stage.waitingList ++ [task]
      helper := .collecting .pulling } :=
  { inv with
    placed := fun key => by
      have before := inv.placed key
      simp only [read, tasks_in_task, copies_cons key task (tasksIn rest)] at before
      simp only [copies_append]
      omega
    blank := by
      have before := inv.blank
      simp only [read, tasks_in_task, List.mem_append, List.mem_cons] at before
      simp only [List.mem_append, List.mem_singleton]
      intro other member
      apply before
      tauto
    queued := fun other member => inv.queued other (by simp [read, member])
    repeated := by
      have before := inv.repeated
      simp only [read, tasks_in_task, List.mem_append, List.mem_cons] at before
      simp only [List.mem_append, List.mem_singleton]
      intro other member
      apply before
      tauto
    waits := by
      intro other member
      obtain old | new := List.mem_append.mp member
      · have before := inv.waits other old
        simpa [top] using before
      · obtain rfl := List.mem_singleton.mp new
        exact ⟨inv.queued other (by simp [read]), fun known => inv.cached other.identifier known unknown, Or.inl unknown⟩
    resolving := nofun
    helperFeed := by simpa [HelperControl.loop] using helper_read cache input stage inv task rest top read
    drained := nofun
    ended := fun isOver => absurd (top.symm.trans (inv.ended isOver)) nofun
    emptied := nofun
    alive := nofun }

theorem collect_sound (stage : Stage κ ι ρ) (inv : Sound cache input stage) (after : HelperLoop) (identifier : ι)
    (result : ρ) (rest : List (ι × ρ)) (collecting : stage.helper = .collecting after)
    (read : stage.completedQueue = (identifier, result) :: rest) :
    Sound cache input { stage with
      completedQueue := rest
      doneDict := (identifier, result) :: stage.doneDict
      helper := .resolving after result (stage.waitingList.filter fun task => task.identifier = identifier) } :=
  { inv with
    completed := fun entry member => inv.completed entry (by simp [read, member])
    known := by
      intro entry member
      obtain rfl | old := List.mem_cons.mp member
      · exact Or.inr (inv.completed _ (by simp [read]))
      · exact inv.known entry old
    cached := by
      intro other member
      rw [List.lookup_cons]
      split
      · exact nofun
      · exact inv.cached other member
    onTheWay := by
      intro entry member
      have listed : ∀ found, stage.doneDict.lookup entry.1 = some found ∨ entry.1 = identifier →
          ((identifier, result) :: stage.doneDict).lookup entry.1 ≠ none := by
        intro found why
        rw [List.lookup_cons]
        split
        · exact nofun
        · next different =>
            obtain same | same := why
            · simp [same]
            · simp [same] at different
      obtain busy | ⟨found, queued⟩ | later := inv.onTheWay entry member
      · exact Or.inl busy
      · rw [read, List.mem_cons] at queued
        obtain same | queued := queued
        · exact Or.inr (Or.inr (listed found (Or.inr (congrArg Prod.fst same))))
        · exact Or.inr (Or.inl ⟨found, queued⟩)
      · obtain ⟨found, same⟩ := Option.ne_none_iff_exists'.mp later
        exact Or.inr (Or.inr (listed found (Or.inl same)))
    waits := by
      intro task member
      obtain ⟨known, uncached, unknown | ⟨_, _, _, resolving, _⟩⟩ := inv.waits task member
      · refine ⟨known, uncached, ?_⟩
        by_cases same : task.identifier = identifier
        · exact Or.inr ⟨after, result, _, rfl, List.mem_filter.mpr ⟨member, by simpa using same⟩⟩
        · have different : (task.identifier == identifier) = false := by simpa using same
          exact Or.inl (by rw [List.lookup_cons, different]; exact unknown)
      · exact absurd (collecting.symm.trans resolving) nofun
    resolving := by
      rintro _ _ _ ⟨⟩
      exact ⟨identifier, by simp, rfl⟩
    helperFeed := helper_feed_stays cache input stage inv _ (by rw [collecting]; rfl)
    drained := fun loop => inv.drained (by rw [collecting]; exact loop)
    ended := fun isOver => absurd (collecting.symm.trans (inv.ended isOver)) nofun
    emptied := nofun
    alive := nofun }

-- The place where the waiting list may lose another task: the task that is removed is
-- the first with the flags of the one that was sent.
theorem resolve_sound (stage : Stage κ ι ρ) (inv : Sound cache input stage) (alike : stage.RemovesAlike)
    (after : HelperLoop) (result : ρ) (task : StageTask κ ι ρ) (rest : List (StageTask κ ι ρ))
    (control : stage.helper = .resolving after result (task :: rest)) :
    Sound cache input { stage.put (.task { task with result := some result }) with
      waitingList := stage.waitingList.eraseP fun other => other.flags = task.flags
      helper := .resolving after result rest } := by
  obtain ⟨identifier, found, listed⟩ := inv.resolving after result _ control
  have member : task ∈ stage.waitingList.filter fun other => other.identifier = identifier :=
    listed ▸ List.mem_cons_self
  obtain ⟨waiting, named⟩ := List.mem_filter.mp member
  have here : task.identifier = identifier := of_decide_eq_true named
  obtain ⟨filtered, perm⟩ := erase_first stage.waitingList (fun other => other.identifier = identifier)
    (fun other => other.flags = task.flags) task rest listed.symm (by simp) fun other first =>
      decide_eq_true ((alike after result task rest control other first).trans here)
  have subset : ∀ other ∈ stage.waitingList.eraseP (fun other => other.flags = task.flags), other ∈ stage.waitingList :=
    fun other left => List.eraseP_subset left
  exact { inv with
    placed := fun key => by
      have before := inv.placed key
      have removed : copies key stage.waitingList = _ := perm.countP_eq _
      have split := copies_cons key task (stage.waitingList.eraseP fun other => other.flags = task.flags)
      have same : copies key [{ task with result := some result }] = copies key [task] := rfl
      simp only [Stage.put, tasks_in_append, tasks_in_task, tasks_in_nil, copies_append]
      simp only [copies] at *
      omega
    blank := by
      have before := inv.blank
      simp only [List.mem_append] at before
      simp only [Stage.put, List.mem_append]
      intro other left
      apply before
      exact left.imp_right (subset other)
    sent := by
      intro other sent
      simp only [Stage.put, tasks_in_append, tasks_in_task, tasks_in_nil, List.mem_append, List.mem_singleton] at sent
      obtain old | rfl := sent
      · exact inv.sent other old
      · refine ⟨result, rfl, inv.known _ (lookup_mem stage.doneDict task.identifier result ?_)⟩
        rw [here, found]
    repeated := by
      have before := inv.repeated
      simp only [List.mem_append] at before
      simp only [Stage.put, List.mem_append]
      intro other left
      apply before
      exact left.imp_left (Or.imp_left (subset other))
    waits := by
      intro other left
      obtain ⟨known, uncached, unknown | ⟨_, _, _, resolving, among⟩⟩ := inv.waits other (subset other left)
      · exact ⟨known, uncached, Or.inl unknown⟩
      · obtain ⟨-, -, rfl⟩ := HelperControl.resolving.inj (control.symm.trans resolving)
        have named : other.identifier = identifier := by
          have inFilter := listed ▸ among
          simpa using (List.mem_filter.mp inFilter).2
        refine ⟨known, uncached, Or.inr ⟨after, result, rest, rfl, ?_⟩⟩
        exact filtered ▸ List.mem_filter.mpr ⟨left, by simpa using named⟩
    resolving := by
      rintro _ _ _ ⟨⟩
      exact ⟨identifier, found, filtered.symm⟩
    helperFeed := helper_feed_stays cache input stage inv _ (by rw [control]; rfl)
    drained := fun loop => inv.drained (by rw [control]; exact loop)
    ended := fun isOver => absurd (control.symm.trans (inv.ended isOver)) nofun
    emptied := nofun
    alive := nofun }

theorem helper_sound (stage next : Stage κ ι ρ) (inv : Sound cache input stage) (alike : stage.RemovesAlike)
    (taken : stage.helperStep = some next) : Sound cache input next := by
  cases helper_moves stage next taken with
  | nothing top empty =>
      exact { inv with
        waits := by simpa [top] using inv.waits
        resolving := nofun
        helperFeed := helper_feed_stays cache input stage inv _ (by rw [top]; rfl)
        drained := nofun
        ended := fun isOver => absurd (top.symm.trans (inv.ended isOver)) nofun
        emptied := nofun
        alive := nofun }
  | readPill rest top read =>
      obtain ⟨noTasks, only⟩ := pill_is_last rest _ (by simpa [read, top, HelperControl.loop] using inv.helperFeed)
      have isOver : joined stage.process = true := by
        cases isOver : joined stage.process with
        | true => rfl
        | false => simp [isOver] at only
      exact { inv with
        placed := by simpa [read] using inv.placed
        blank := by simpa [read] using inv.blank
        queued := by simpa [read] using inv.queued
        repeated := by simpa [read] using inv.repeated
        waits := by simpa [top] using inv.waits
        resolving := nofun
        helperFeed := by simpa [isOver, noTasks, HelperControl.loop] using only
        drained := fun _ => ⟨noTasks, isOver⟩
        ended := fun isOver => absurd (top.symm.trans (inv.ended isOver)) nofun
        emptied := nofun
        alive := nofun }
  | failAssert task rest top read done =>
      have blank := inv.blank task (by simp [read])
      simp [blank] at done
  | resolveNow task rest result top read blank found =>
      exact resolve_now_sound cache input stage inv task rest result top read found
  | putOff task rest top read blank unknown => exact put_off_sound cache input stage inv task rest top read unknown
  | finish top empty =>
      exact { inv with
        waits := by simp [empty]
        resolving := nofun
        helperFeed := helper_feed_stays cache input stage inv _ (by rw [top]; rfl)
        drained := fun _ => inv.drained (by rw [top]; rfl)
        ended := fun _ => rfl
        emptied := fun _ => empty
        alive := nofun }
  | drain top waits =>
      exact { inv with
        waits := by simpa [top] using inv.waits
        resolving := nofun
        helperFeed := helper_feed_stays cache input stage inv _ (by rw [top]; rfl)
        drained := fun _ => inv.drained (by rw [top]; rfl)
        ended := fun isOver => absurd (top.symm.trans (inv.ended isOver)) nofun
        emptied := nofun
        alive := nofun }
  | nothingCompleted after collecting empty =>
      exact { inv with
        waits := by simpa [collecting] using inv.waits
        resolving := nofun
        helperFeed := helper_feed_stays cache input stage inv _ (by rw [collecting]; rfl)
        drained := fun loop => inv.drained (by rw [collecting]; exact loop)
        ended := fun isOver => absurd (collecting.symm.trans (inv.ended isOver)) nofun
        emptied := nofun
        alive := nofun }
  | collect after identifier result rest collecting read =>
      exact collect_sound cache input stage inv after identifier result rest collecting read
  | resolved after result control =>
      exact { inv with
        waits := by
          intro task member
          obtain ⟨known, uncached, unknown | ⟨_, _, _, resolving, among⟩⟩ := inv.waits task member
          · exact ⟨known, uncached, Or.inl unknown⟩
          · obtain ⟨-, -, rfl⟩ := HelperControl.resolving.inj (control.symm.trans resolving)
            exact absurd among nofun
        resolving := nofun
        helperFeed := helper_feed_stays cache input stage inv _ (by rw [control]; rfl)
        drained := fun loop => inv.drained (by rw [control]; exact loop)
        ended := fun isOver => absurd (control.symm.trans (inv.ended isOver)) nofun
        emptied := nofun
        alive := nofun }
  | resolve after result task rest control =>
      exact resolve_sound cache input stage inv alike after result task rest control

theorem turn_sound (stage : Stage κ ι ρ) (turn : Turn ρ) (inv : Sound cache input stage) (alike : stage.RemovesAlike) :
    Sound cache input (stage.turn turn) := by
  unfold Stage.turn
  cases taken : stage.step turn with
  | none => exact inv
  | some next =>
      obtain ⟨actor, result⟩ := turn
      cases actor with
      | process => exact process_sound cache input stage next inv taken
      | worker slot => exact worker_sound cache input stage next inv slot result taken
      | helper => exact helper_sound cache input stage next inv alike taken

-- A dict has one entry a key, and no task of the input was done before.
theorem start_sound (numProcesses : Nat) (keys : (cache.map (·.1)).Nodup) (fresh : ∀ task ∈ input, task.result = none) :
    Sound cache input (Stage.start cache input numProcesses) where
  placed := fun key => by simp [Stage.start, copies, held, Worker.tasks]
  blank := by simpa [Stage.start] using fresh
  workers := by
    intro worker member
    rw [List.eq_of_mem_replicate member]
    trivial
  sent := nofun
  distinct := keys
  assigned := fun identifier => by simp [Stage.start, identified, unworked, Worker.unworked]
  seen := fun task member => Or.inl (by simpa [Stage.start] using member)
  sources := fun identifier member => Or.inl member
  remaining := fun task member => by simpa [Stage.start] using member
  queued := nofun
  repeated := fun task member => by simpa [Stage.start] using member
  completed := nofun
  known := fun entry member => Or.inl member
  cached := lookup_known cache
  onTheWay := nofun
  waits := nofun
  resolving := nofun
  feed := by simp [Stage.start]
  fed := fun stopped => absurd rfl stopped
  helperFeed := by simp [Stage.start, joined]
  drained := nofun
  poolJoined := nofun
  ended := nofun
  emptied := nofun
  alive := nofun

theorem coherent_removes_alike (coherent : Coherent cache input) (stage : Stage κ ι ρ) (inv : Sound cache input stage) :
    stage.RemovesAlike := by
  intro after result task rest control other first
  obtain ⟨identifier, found, listed⟩ := inv.resolving after result _ control
  have member : task ∈ stage.waitingList.filter fun other => other.identifier = identifier :=
    listed ▸ List.mem_cons_self
  have waiting := List.mem_of_mem_filter member
  have alike : other.flags = task.flags := by simpa using List.find?_some first
  have original : ∀ waits ∈ stage.waitingList, waits ∈ duplicates (cache.map (·.1)) input := fun waits present =>
    inv.repeated waits (by simp [present])
  have present := List.mem_of_find?_eq_some first
  exact coherent other (original other present) task (original task waiting) (inv.waits other present).2.1
    (inv.waits task waiting).2.1 alike

end Moves

end ToolchainUtils.Bestflags.Pipeline
