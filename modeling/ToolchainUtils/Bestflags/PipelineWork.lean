import ToolchainUtils.Bestflags.PipelineProgress

set_option autoImplicit false

namespace ToolchainUtils.Bestflags.Pipeline

open FairRuns

variable {κ ι ρ : Type} [DecidableEq κ] [DecidableEq ι]

-- What holds at every moment of a run of the stage.
structure Faithful (cache : List (ι × ρ)) (input : List (StageTask κ ι ρ)) (stage : Stage κ ι ρ) : Prop where
  alive : stage.helper ≠ .failed
  resolved : ∀ task ∈ tasksIn stage.resultQueue, Resolved cache stage.workLog task
  sentAtMostOnce : ∀ key, copies key (tasksIn stage.resultQueue) ≤ copies key input
  workedAtMostOnce : (stage.workLog.map (·.1)).Nodup
  workedUncached : ∀ identifier ∈ stage.workLog.map (·.1),
    identifier ∉ cache.map (·.1) ∧ ∃ task ∈ input, task.identifier = identifier

-- What the stage has done when it has terminated: nobody can move any more.
structure Complete (cache : List (ι × ρ)) (input : List (StageTask κ ι ρ)) (stage : Stage κ ι ρ) : Prop where
  ended : stage.process = .ended ∧ stage.helper = .ended
  still : ∀ turn, stage.step turn = none
  sent : ((tasksIn stage.resultQueue).map fun task => (task.flags, task.identifier)).Perm
    (input.map fun task => (task.flags, task.identifier))
  worked : ∀ identifier, identifier ∈ stage.workLog.map (·.1) ↔
    identifier ∉ cache.map (·.1) ∧ ∃ task ∈ input, task.identifier = identifier

theorem copies_eq_count (key : κ × ι) (tasks : List (StageTask κ ι ρ)) :
    copies key tasks = (tasks.map fun task => (task.flags, task.identifier)).count key := by
  rw [List.count_eq_countP, List.countP_map]
  apply List.countP_congr
  intro task _
  simp

section Invariant

variable (cache : List (ι × ρ)) (input : List (StageTask κ ι ρ)) (stage : Stage κ ι ρ) (inv : Sound cache input stage)

include inv

theorem sound_worked (identifier : ι) (logged : identifier ∈ stage.workLog.map (·.1)) :
    (stage.workLog.map (·.1)).count identifier = 1 ∧ identifier ∉ cache.map (·.1) ∧
      ∃ task ∈ input, task.identifier = identifier := by
  have counted := inv.assigned identifier
  have unique := List.nodup_iff_count_le_one.mp inv.distinct identifier
  have positive := List.count_pos_iff.mpr logged
  have uncached : identifier ∉ cache.map (·.1) := List.count_eq_zero.mp (by omega)
  have given : identifier ∈ stage.mycache := List.count_pos_iff.mp (by omega)
  exact ⟨by omega, uncached, (inv.sources identifier given).resolve_left uncached⟩

theorem sound_faithful : Faithful cache input stage where
  alive := inv.alive
  resolved := inv.sent
  sentAtMostOnce := by
    intro key
    have placed := inv.placed key
    omega
  workedAtMostOnce := by
    apply List.nodup_iff_count_le_one.mpr
    intro identifier
    by_cases logged : identifier ∈ stage.workLog.map (·.1)
    · exact Nat.le_of_eq (sound_worked cache input stage inv identifier logged).1
    · exact List.count_eq_zero.mpr logged ▸ Nat.zero_le 1
  workedUncached := fun identifier logged => (sound_worked cache input stage inv identifier logged).2

theorem sound_complete (isOver : stage.process = .ended) : Complete cache input stage := by
  have helper := inv.ended isOver
  have isJoined : joined stage.process = true := by simp [isOver, joined]
  obtain ⟨noneQueued, idle⟩ := inv.poolJoined isJoined
  have read : tasksIn stage.taskQueue = [] := inv.fed (by simp [isOver])
  have drained : tasksIn stage.helperQueue = [] := (inv.drained (by rw [helper]; rfl)).1
  have noneHeld : ∀ worker ∈ stage.workers, worker = .idle := by
    intro worker present
    have quiet := idle worker present
    cases worker <;> first | rfl | exact absurd quiet Bool.false_ne_true
  exact {
    ended := ⟨isOver, helper⟩
    still := by
      rintro ⟨actor, result⟩
      cases actor with
      | process => simp [Stage.step, Stage.processStep, isOver]
      | worker slot =>
          cases here : stage.workers[slot]? with
          | none => simp [Stage.step, Stage.workerStep, here]
          | some worker =>
              obtain rfl := noneHeld worker (List.mem_of_getElem? here)
              simp [Stage.step, Stage.workerStep, here, noneQueued]
      | helper => simp [Stage.step, Stage.helperStep, helper]
    sent := by
      apply List.perm_iff_count.mpr
      intro key
      have placed := inv.placed key
      have holding : held key stage.workers = 0 := by
        apply List.sum_eq_zero_iff_forall_eq_nat.mpr
        intro number member
        obtain ⟨worker, present, rfl⟩ := List.mem_map.mp member
        rw [noneHeld worker present]
        rfl
      have nothing : copies key ([] : List (StageTask κ ι ρ)) = 0 := rfl
      rw [read, noneQueued, holding, drained, inv.emptied helper] at placed
      rw [← copies_eq_count, ← copies_eq_count]
      omega
    worked := by
      intro identifier
      constructor
      · exact fun logged => (sound_worked cache input stage inv identifier logged).2
      · rintro ⟨uncached, task, member, rfl⟩
        have seen : task.identifier ∈ stage.mycache := by
          have known := inv.seen task member
          rw [read] at known
          exact known.resolve_left List.not_mem_nil
        have counted := inv.assigned task.identifier
        have given := List.count_pos_iff.mpr seen
        have notCached := List.count_eq_zero.mpr uncached
        have unstarted : unworked task.identifier stage.workers = 0 := by
          apply List.sum_eq_zero_iff_forall_eq_nat.mpr
          intro number present
          obtain ⟨worker, listed, rfl⟩ := List.mem_map.mp present
          rw [noneHeld worker listed]
          rfl
        have nothing : identified task.identifier ([] : List (StageTask κ ι ρ)) = 0 := rfl
        rw [noneQueued] at counted
        exact List.count_pos_iff.mp (by omega) }

end Invariant

theorem run_sound (cache : List (ι × ρ)) (input : List (StageTask κ ι ρ)) (numProcesses : Nat) (schedule : Nat → Turn ρ)
    (keys : (cache.map (·.1)).Nodup) (fresh : ∀ task ∈ input, task.result = none)
    (alike : ∀ time, (run Stage.turn (Stage.start cache input numProcesses) schedule time).RemovesAlike) (time : Nat) :
    Sound cache input (run Stage.turn (Stage.start cache input numProcesses) schedule time) ∧
      (run Stage.turn (Stage.start cache input numProcesses) schedule time).workers.length = numProcesses := by
  refine run_invariant Stage.turn
    (fun stage => Sound cache input stage ∧ stage.workers.length = numProcesses) Stage.RemovesAlike ?_ _ ?_ schedule
    alike time
  · rintro stage turn ⟨inv, crew⟩ allowed
    exact ⟨turn_sound cache input stage turn inv allowed, (turn_crew stage turn).trans crew⟩
  · exact ⟨start_sound cache input numProcesses keys fresh, List.length_replicate⟩

-- An input whose waiting tasks agree never meets the removal of another task.
theorem coherent_run_alike (cache : List (ι × ρ)) (input : List (StageTask κ ι ρ)) (numProcesses : Nat)
    (schedule : Nat → Turn ρ) (keys : (cache.map (·.1)).Nodup) (fresh : ∀ task ∈ input, task.result = none)
    (coherent : Coherent cache input) (time : Nat) :
    (run Stage.turn (Stage.start cache input numProcesses) schedule time).RemovesAlike := by
  apply coherent_removes_alike cache input coherent
  refine run_invariant Stage.turn (Sound cache input) (fun _ => True) ?_ _ ?_ schedule (fun _ => trivial) time
  · intro stage turn inv _
    exact turn_sound cache input stage turn inv (coherent_removes_alike cache input coherent stage inv)
  · exact start_sound cache input numProcesses keys fresh

theorem stage_neither_loses_nor_repeats (cache : List (ι × ρ)) (input : List (StageTask κ ι ρ)) (numProcesses : Nat)
    (schedule : Nat → Turn ρ) (pool : 0 < numProcesses) (keys : (cache.map (·.1)).Nodup)
    (fresh : ∀ task ∈ input, task.result = none)
    (alike : ∀ time, (run Stage.turn (Stage.start cache input numProcesses) schedule time).RemovesAlike) :
    (∀ time, Faithful cache input (run Stage.turn (Stage.start cache input numProcesses) schedule time)) ∧
      (Fair Turn.actor (live numProcesses) schedule →
        ∃ time, Complete cache input (run Stage.turn (Stage.start cache input numProcesses) schedule time)) := by
  have holds := run_sound cache input numProcesses schedule keys fresh alike
  refine ⟨fun time => sound_faithful cache input _ (holds time).1, fun fair => ?_⟩
  obtain ⟨time, isOver⟩ := fair_run_ends Stage.turn Turn.actor (live numProcesses)
    (fun stage => Sound cache input stage ∧ stage.workers.length = numProcesses) (fun stage => stage.process = .ended)
    Stage.rank Stage.helpful
    (fun stage inv _ => inv.2 ▸ helpful_live stage (inv.2 ▸ pool))
    (fun stage turn inv _ => rank_never_up cache input stage turn inv.1)
    (fun stage turn inv _ => helpful_stays cache input stage turn inv.1)
    (fun stage turn inv going => rank_drops cache input stage turn inv.1 (inv.2 ▸ pool) going)
    (Stage.start cache input numProcesses) schedule holds fair
  exact ⟨time, sound_complete cache input _ (holds time).1 isOver⟩

-- Each actor in turn, which is a fair schedule.
def inTurn (numProcesses : Nat) (result : ρ) (time : Nat) : Turn ρ where
  actor :=
    if time % (numProcesses + 2) = numProcesses then .process
    else if time % (numProcesses + 2) = numProcesses + 1 then .helper
    else .worker (time % (numProcesses + 2))
  result := result

omit [DecidableEq κ] [DecidableEq ι] in
theorem in_turn_fair (numProcesses : Nat) (result : ρ) (first : Nat) (schedule : Nat → Turn ρ)
    (later : ∀ time, first ≤ time → schedule time = inTurn numProcesses result time) :
    Fair Turn.actor (live numProcesses) schedule := by
  have reached : ∀ place, place < numProcesses + 2 → ∀ time, ∃ moment, time ≤ moment ∧ first ≤ moment ∧
      moment % (numProcesses + 2) = place := by
    intro place small time
    have grows : time + first ≤ (numProcesses + 2) * (time + first) := Nat.le_mul_of_pos_left _ (Nat.succ_pos _)
    refine ⟨place + (numProcesses + 2) * (time + first), by omega, by omega, ?_⟩
    rw [Nat.add_mul_mod_self_left, Nat.mod_eq_of_lt small]
  intro who isLive time
  cases who with
  | process =>
      obtain ⟨moment, after, started, place⟩ := reached numProcesses (by omega) time
      exact ⟨moment, after, by simp [later moment started, inTurn, place]⟩
  | worker slot =>
      have bound : slot < numProcesses := isLive
      obtain ⟨moment, after, started, place⟩ := reached slot (by omega) time
      refine ⟨moment, after, ?_⟩
      have notProcess : slot ≠ numProcesses := by omega
      have notHelper : slot ≠ numProcesses + 1 := by omega
      simp [later moment started, inTurn, place, notProcess, notHelper]
  | helper =>
      obtain ⟨moment, after, started, place⟩ := reached (numProcesses + 1) (by omega) time
      exact ⟨moment, after, by simp [later moment started, inTurn, place]⟩

theorem stage_with_a_duplicate :
    ∃ time, Complete [(5, 50)] [⟨1, 5, none⟩, ⟨2, 7, none⟩, ⟨2, 7, none⟩]
      (run Stage.turn (Stage.start [(5, 50)] [⟨1, 5, none⟩, ⟨2, 7, none⟩, ⟨2, 7, none⟩] 2) (inTurn 2 30) time) := by
  have fresh : ∀ task ∈ ([⟨1, 5, none⟩, ⟨2, 7, none⟩, ⟨2, 7, none⟩] : List (StageTask Nat Nat Nat)), task.result = none := by
    simp
  have coherent : Coherent [(5, 50)] ([⟨1, 5, none⟩, ⟨2, 7, none⟩, ⟨2, 7, none⟩] : List (StageTask Nat Nat Nat)) := by
    unfold Coherent
    decide
  exact (stage_neither_loses_nor_repeats [(5, 50)] _ 2 (inTurn 2 30) (by decide) (by decide) fresh
    (coherent_run_alike _ _ 2 _ (by decide) fresh coherent)).2 (in_turn_fair 2 30 0 _ fun _ _ => rfl)

-- Two waiting tasks with the flags 3, for the identifiers 10 and 20. The result of 20
-- comes first, and the task of 10 leaves the waiting list unresolved.
def splitInput : List (StageTask Nat Nat Nat) := [⟨1, 20, none⟩, ⟨2, 10, none⟩, ⟨3, 10, none⟩, ⟨3, 20, none⟩]

def splitTurns : List Actor :=
  List.replicate 5 .process ++ List.replicate 4 .helper ++ List.replicate 8 (.worker 0) ++ [.process] ++
    List.replicate 8 .helper

def splitSchedule (time : Nat) : Turn Nat :=
  match splitTurns[time]? with
  | some actor => ⟨actor, 7⟩
  | none => inTurn 1 7 time

def splitStuck (helper : HelperControl Nat Nat Nat) : Stage Nat Nat Nat where
  taskQueue := []
  process := .joining
  mycache := [20, 10]
  poolQueue := []
  workers := [.idle]
  helperQueue := []
  completedQueue := []
  helper := helper
  doneDict := [(10, 7), (20, 7)]
  waitingList := [⟨3, 20, none⟩]
  resultQueue := [.poisonpill, .task ⟨1, 20, some 7⟩, .task ⟨2, 10, some 7⟩, .task ⟨3, 20, some 7⟩]
  workLog := [(20, 7), (10, 7)]

theorem split_stuck_stays (stage : Stage Nat Nat Nat) (turn : Turn Nat)
    (stuck : stage = splitStuck (.top .draining) ∨ stage = splitStuck (.collecting .draining)) :
    stage.turn turn = splitStuck (.top .draining) ∨ stage.turn turn = splitStuck (.collecting .draining) := by
  obtain ⟨actor, result⟩ := turn
  obtain rfl | rfl := stuck
  · cases actor with
    | process => exact Or.inl rfl
    | worker slot =>
        cases slot with
        | zero => exact Or.inl rfl
        | succ slot => exact Or.inl rfl
    | helper => exact Or.inr rfl
  · cases actor with
    | process => exact Or.inr rfl
    | worker slot =>
        cases slot with
        | zero => exact Or.inr rfl
        | succ slot => exact Or.inr rfl
    | helper => exact Or.inl rfl

theorem turn_of_blocked (stage : Stage κ ι ρ) (turn : Turn ρ) (blocked : stage.step turn = none) :
    stage.turn turn = stage := by
  simp [Stage.turn, blocked]

theorem complete_stays (cache : List (ι × ρ)) (input : List (StageTask κ ι ρ)) (start : Stage κ ι ρ)
    (schedule : Nat → Turn ρ) (time later : Nat) (complete : Complete cache input (run Stage.turn start schedule time)) :
    Complete cache input (run Stage.turn start schedule (time + later)) := by
  induction later with
  | zero => exact complete
  | succ later ih =>
      have same : (run Stage.turn start schedule (time + later)).turn (schedule (time + later)) =
          run Stage.turn start schedule (time + later) := turn_of_blocked _ _ (ih.still _)
      have next : run Stage.turn start schedule (time + (later + 1)) = run Stage.turn start schedule (time + later) := same
      rw [next]
      exact ih

theorem split_duplicates_never_complete :
    Fair Turn.actor (live 1) splitSchedule ∧
      ¬ ∃ time, Complete [] splitInput (run Stage.turn (Stage.start [] splitInput 1) splitSchedule time) := by
  constructor
  · apply in_turn_fair 1 7 26
    intro time late
    have isOver : splitTurns[time]? = none := List.getElem?_eq_none late
    simp [splitSchedule, isOver]
  · rintro ⟨time, complete⟩
    have stuck : ∀ delay, run Stage.turn (Stage.start [] splitInput 1) splitSchedule (26 + delay) =
        splitStuck (.top .draining) ∨ run Stage.turn (Stage.start [] splitInput 1) splitSchedule (26 + delay) =
          splitStuck (.collecting .draining) := by
      intro delay
      induction delay with
      | zero => exact Or.inl rfl
      | succ delay ih => exact split_stuck_stays _ _ ih
    have after := complete_stays [] splitInput _ splitSchedule time 26 complete
    rw [Nat.add_comm] at after
    obtain same | same := stuck time
    · exact absurd (same ▸ after.ended.1) nofun
    · exact absurd (same ▸ after.ended.1) nofun

end ToolchainUtils.Bestflags.Pipeline
