import ToolchainUtils.Bestflags.Steering
import ToolchainUtils.OutstandingWork

set_option autoImplicit false

namespace ToolchainUtils.Bestflags

open OutstandingWork Transition

variable {κ ρ σ : Type} [DecidableEq κ]

-- No task of an initial generation may be missing from what is sent: `_pending` is
-- set from the whole set, but a cached task or one of an earlier generation is skipped.
def InitialApart (cache : Finset κ) (generations : List (NewGeneration κ ρ σ)) : Prop :=
  (∀ generation ∈ generations, generation.exeSet.tasks ≠ []) ∧
    (∀ generation ∈ generations, ∀ flags ∈ generation.exeSet.keys, flags ∉ cache) ∧
    generations.Pairwise fun early late => ∀ flags ∈ early.exeSet.keys, flags ∉ late.exeSet.keys

def SteeringState.NextFresh (state : SteeringState κ ρ σ) (arrival : Arrival κ ρ σ) : Prop :=
  (state.completes arrival.task).isSome → arrival.isImproved = true →
    ∀ new ∈ arrival.next, new.exeSet.tasks ≠ [] ∧ ∀ flags ∈ new.exeSet.keys, flags ∉ state.cache

-- The first of two generations that share a task takes both of its results.
def SteeringState.NextApart (state : SteeringState κ ρ σ) (arrival : Arrival κ ρ σ) : Prop :=
  (state.completes arrival.task).isSome → arrival.isImproved = true →
    arrival.next.Pairwise fun early late =>
      ∀ flags ∈ early.exeSet.keys, flags ∈ late.exeSet.keys → early.exeSet.keys = [flags]

instance (state : SteeringState κ ρ σ) (arrival : Arrival κ ρ σ) : Decidable (state.NextFresh arrival) := by
  unfold SteeringState.NextFresh
  infer_instance

instance (state : SteeringState κ ρ σ) (arrival : Arrival κ ρ σ) : Decidable (state.NextApart arrival) := by
  unfold SteeringState.NextApart
  infer_instance

structure SteeringState.Accounted (state : SteeringState κ ρ σ) : Prop where
  alive : state.status = .running ∨ state.status = .finished
  counted : ∀ generation ∈ state.waiting,
    generation.pending = (outstanding state.inFlight generation.keys).length
  waits : ∀ generation ∈ state.waiting, generation.done = false
  moving : state.status = .running →
    state.inFlight ≠ [] ∧ state.resultQueue = state.tasksPut.map .task
  ended : state.status = .finished →
    state.waiting = [] ∧ state.inFlight = [] ∧ state.resultQueue = state.tasksPut.map .task ++ [.poisonpill]

def groups (waiting : List (Generation κ ρ σ)) : List (List κ) := waiting.map (·.keys)

structure Books (waiting : List (Generation κ ρ σ)) (cache : Finset κ) (inFlight : List κ) : Prop where
  accounts : Accounts (groups waiting) inFlight
  counted : ∀ generation ∈ waiting, generation.pending = (outstanding inFlight generation.keys).length
  cached : ∀ generation ∈ waiting, ∀ flags ∈ generation.keys, flags ∈ cache

theorem books_nil (cache : Finset κ) : Books ([] : List (Generation κ ρ σ)) cache [] :=
  ⟨accounts_nil, nofun, nofun⟩

theorem books_cached (waiting : List (Generation κ ρ σ)) (cache : Finset κ) (inFlight : List κ)
    (books : Books waiting cache inFlight) (flags : κ) (sent : flags ∈ inFlight) : flags ∈ cache := by
  obtain ⟨group, member, inside⟩ := owner_found (groups waiting) inFlight books.accounts flags sent
  obtain ⟨generation, waits, rfl⟩ := List.mem_map.mp member
  exact books.cached generation waits flags inside

theorem books_waiting_filled (waiting : List (Generation κ ρ σ)) (cache : Finset κ) (inFlight : List κ)
    (books : Books waiting cache inFlight) (generation : Generation κ ρ σ) (member : generation ∈ waiting) :
    outstanding inFlight generation.keys ≠ [] :=
  books.accounts.waits generation.keys (List.mem_map_of_mem member)

def newTasks (generations : List (NewGeneration κ ρ σ)) : List κ :=
  (generations.map (·.exeSet.keys)).flatten

omit [DecidableEq κ] in
theorem groups_append (first second : List (Generation κ ρ σ)) :
    groups (first ++ second) = groups first ++ groups second :=
  List.map_append

omit [DecidableEq κ] in
theorem groups_init (generations : List (NewGeneration κ ρ σ)) :
    groups (generations.map (·.init)) = generations.map (·.exeSet.keys) := by
  rw [groups, List.map_map]
  rfl

-- Generations of tasks outside the cache join those that wait.
theorem books_append (waiting : List (Generation κ ρ σ)) (cache : Finset κ) (inFlight : List κ)
    (books : Books waiting cache inFlight) (fresh : List (NewGeneration κ ρ σ))
    (filled : ∀ new ∈ fresh, new.exeSet.tasks ≠ [])
    (uncached : ∀ new ∈ fresh, ∀ flags ∈ new.exeSet.keys, flags ∉ cache)
    (alone : fresh.Pairwise fun early late =>
      ∀ flags ∈ early.exeSet.keys, flags ∈ late.exeSet.keys → early.exeSet.keys = [flags]) :
    Books (waiting ++ fresh.map (·.init)) (cache ∪ (newTasks fresh).toFinset) (inFlight ++ newTasks fresh) := by
  have unused : ∀ generation ∈ waiting, ∀ flags ∈ generation.keys, flags ∉ newTasks fresh := by
    intro generation member flags inside again
    obtain ⟨keys, added, held⟩ := List.mem_flatten.mp again
    obtain ⟨new, isNew, rfl⟩ := List.mem_map.mp added
    exact uncached new isNew flags held (books.cached generation member flags inside)
  have sent : ∀ new ∈ fresh, ∀ flags ∈ new.exeSet.keys, flags ∈ newTasks fresh := by
    intro new isNew flags inside
    exact List.mem_flatten.mpr ⟨new.exeSet.keys, List.mem_map_of_mem isNew, inside⟩
  constructor
  · rw [groups_append, groups_init]
    apply accounts_append (groups waiting) (fresh.map (·.exeSet.keys)) inFlight books.accounts
    · intro group member
      obtain ⟨new, isNew, rfl⟩ := List.mem_map.mp member
      exact new.exeSet.distinct
    · intro group member
      obtain ⟨new, isNew, rfl⟩ := List.mem_map.mp member
      exact fun empty => filled new isNew (new.exeSet.keys_eq_nil.mp empty)
    · exact List.pairwise_map.mpr alone
    · intro group member flags inside
      obtain ⟨new, isNew, rfl⟩ := List.mem_map.mp member
      have outside := uncached new isNew flags inside
      constructor
      · exact fun flying => outside (books_cached waiting cache inFlight books flags flying)
      · intro old present held
        obtain ⟨generation, waits, rfl⟩ := List.mem_map.mp present
        exact outside (books.cached generation waits flags held)
  · intro generation member
    cases List.mem_append.mp member with
    | inl old =>
        rw [outstanding_congr inFlight, books.counted generation old]
        intro flags inside
        simp [unused generation old flags inside]
    | inr added =>
        obtain ⟨new, isNew, rfl⟩ := List.mem_map.mp added
        rw [outstanding_all]
        · simp [NewGeneration.init, Generation.keys, TaskSet.keys]
        · intro flags inside
          exact List.mem_append_right _ (sent new isNew flags inside)
  · intro generation member flags inside
    cases List.mem_append.mp member with
    | inl old => exact Finset.mem_union_left _ (books.cached generation old flags inside)
    | inr added =>
        obtain ⟨new, isNew, rfl⟩ := List.mem_map.mp added
        exact Finset.mem_union_right _ (List.mem_toFinset.mpr (sent new isNew flags inside))

section Settling

variable (before after : List (Generation κ ρ σ)) (owner updated : Generation κ ρ σ) (cache : Finset κ)
  (inFlight : List κ) (task : Task κ ρ) (books : Books (before ++ owner :: after) cache inFlight)
  (held : task.flags ∈ inFlight) (taken : owner.updateTask task = some updated)
  (first : ∀ generation ∈ before, task.flags ∉ generation.keys)

include books first

theorem groups_split :
    Accounts (groups before ++ owner.keys :: groups after) inFlight ∧ ∀ group ∈ groups before, task.flags ∉ group := by
  constructor
  · simpa [groups] using books.accounts
  · intro group member
    obtain ⟨generation, waits, rfl⟩ := List.mem_map.mp member
    exact first generation waits

include held taken

theorem others_counted (generation : Generation κ ρ σ) (member : generation ∈ before ++ after) :
    generation.pending = (outstanding (inFlight.erase task.flags) generation.keys).length := by
  obtain ⟨accounts, before_clear⟩ := groups_split before after owner cache inFlight task books first
  have inGroups : generation.keys ∈ groups before ++ groups after := by
    rw [groups, groups, ← List.map_append]
    exact List.mem_map_of_mem member
  rw [others_unchanged (groups before) (groups after) owner.keys inFlight task.flags accounts held
    (update_task_some owner updated task taken).1 before_clear generation.keys inGroups]
  apply books.counted generation
  simp only [List.mem_append, List.mem_cons] at member ⊢
  tauto

-- A result lowers the counter of the generation that takes it to the number of
-- its tasks that are still in flight, or to zero with nothing left to wait for.
theorem books_settled (last : updated.pending = 0) :
    Books (before ++ after) cache (inFlight.erase task.flags) := by
  obtain ⟨accounts, before_clear⟩ := groups_split before after owner cache inFlight task books first
  obtain ⟨inside, sameKeys, lowered, -⟩ := update_task_some owner updated task taken
  have count := books.counted owner (by simp)
  have single : (outstanding inFlight owner.keys).length = 1 := by omega
  constructor
  · have settled := accounts_settled (groups before) (groups after) owner.keys inFlight task.flags accounts held inside
      before_clear single
    simpa [groups] using settled
  · exact others_counted before after owner updated cache inFlight task books held taken first
  · intro generation member
    apply books.cached generation
    simp only [List.mem_append, List.mem_cons] at member ⊢
    tauto

theorem books_continue (more : updated.pending ≠ 0) :
    0 ≤ updated.pending ∧ Books (before ++ updated :: after) cache (inFlight.erase task.flags) := by
  obtain ⟨accounts, before_clear⟩ := groups_split before after owner cache inFlight task books first
  obtain ⟨inside, sameKeys, lowered, -⟩ := update_task_some owner updated task taken
  have count := books.counted owner (by simp)
  have several : (outstanding inFlight owner.keys).length ≠ 1 := by omega
  have positive : 0 < (outstanding inFlight owner.keys).length :=
    List.length_pos_iff.mpr (books_waiting_filled _ cache inFlight books owner (by simp))
  have fewer := ((owner_loses_one (groups before) (groups after) owner.keys inFlight task.flags accounts held inside
    before_clear).resolve_left several).2
  constructor
  · omega
  · constructor
    · have continued := accounts_continue (groups before) (groups after) owner.keys inFlight task.flags accounts held
        inside before_clear several
      simpa [groups, sameKeys] using continued
    · intro generation member
      by_cases other : generation ∈ before ++ after
      · exact others_counted before after owner updated cache inFlight task books held taken first generation other
      · have same : generation = updated := by
          simp only [List.mem_append, List.mem_cons] at member other
          tauto
        rw [same, sameKeys]
        omega
    · intro generation member flags holds
      by_cases other : generation ∈ before ++ owner :: after
      · exact books.cached generation other flags holds
      · have same : generation = updated := by
          simp only [List.mem_append, List.mem_cons] at member other
          tauto
        rw [same, sameKeys] at holds
        exact books.cached owner (by simp) flags holds

end Settling

def SteeringState.sendAll (state : SteeringState κ ρ σ) (fresh : List (NewGeneration κ ρ σ)) : SteeringState κ ρ σ :=
  { state with
    waiting := state.waiting ++ fresh.map (·.init)
    cache := state.cache ∪ (newTasks fresh).toFinset
    resultQueue := state.resultQueue ++ (newTasks fresh).map .task
    inFlight := state.inFlight ++ newTasks fresh }

theorem submit_filled (fresh : List (NewGeneration κ ρ σ)) (state : SteeringState κ ρ σ)
    (filled : ∀ new ∈ fresh, new.exeSet.tasks ≠ []) : state.submit fresh = (state.sendAll fresh).loopTest := by
  induction fresh generalizing state with
  | nil => simp [SteeringState.submit, SteeringState.sendAll, newTasks]
  | cons new rest ih =>
      rw [SteeringState.submit, if_neg (filled new List.mem_cons_self),
        ih (state.send new) fun other member => filled other (List.mem_cons_of_mem _ member)]
      simp [SteeringState.sendAll, SteeringState.send, newTasks, Finset.union_assoc]

omit [DecidableEq κ] in
theorem tasks_put_map (tasks : List κ) (state : SteeringState κ ρ σ)
    (queue : state.resultQueue = tasks.map .task) : state.tasksPut = tasks := by
  simp [SteeringState.tasksPut, queue, List.filterMap_map]

omit [DecidableEq κ] in
theorem tasks_put_poisoned (tasks : List κ) (state : SteeringState κ ρ σ)
    (queue : state.resultQueue = tasks.map .task ++ [.poisonpill]) : state.tasksPut = tasks := by
  simp [SteeringState.tasksPut, queue, List.filterMap_append, List.filterMap_map]

inductive SteeringState.Sound (state : SteeringState κ ρ σ) : Prop where
  | running (status : state.status = .running) (waits : state.waiting ≠ [])
      (books : Books state.waiting state.cache state.inFlight)
      (tasks : List κ) (queue : state.resultQueue = tasks.map .task)
  | finished (status : state.status = .finished) (noneWaits : state.waiting = []) (landed : state.inFlight = [])
      (tasks : List κ) (queue : state.resultQueue = tasks.map .task ++ [.poisonpill])

theorem nothing_in_flight (cache : Finset κ) (inFlight : List κ)
    (books : Books ([] : List (Generation κ ρ σ)) cache inFlight) : inFlight = [] := by
  apply List.eq_nil_iff_forall_not_mem.mpr
  intro flags held
  obtain ⟨group, member, -⟩ := owner_found _ inFlight books.accounts flags held
  exact absurd member nofun

theorem loop_test_sound (state : SteeringState κ ρ σ) (status : state.status = .running)
    (books : Books state.waiting state.cache state.inFlight) (tasks : List κ)
    (queue : state.resultQueue = tasks.map .task) : state.loopTest.Sound := by
  by_cases isOver : state.waiting = []
  · have landed := nothing_in_flight state.cache state.inFlight (isOver ▸ books)
    rw [SteeringState.loopTest, if_pos isOver]
    exact .finished rfl isOver landed tasks (by rw [queue])
  · rw [SteeringState.loopTest, if_neg isOver]
    exact .running status isOver books tasks queue

theorem submit_sound (state : SteeringState κ ρ σ) (status : state.status = .running)
    (books : Books state.waiting state.cache state.inFlight) (tasks : List κ)
    (queue : state.resultQueue = tasks.map .task) (fresh : List (NewGeneration κ ρ σ))
    (filled : ∀ new ∈ fresh, new.exeSet.tasks ≠ [])
    (uncached : ∀ new ∈ fresh, ∀ flags ∈ new.exeSet.keys, flags ∉ state.cache)
    (alone : fresh.Pairwise fun early late =>
      ∀ flags ∈ early.exeSet.keys, flags ∈ late.exeSet.keys → early.exeSet.keys = [flags]) :
    (state.submit fresh).Sound := by
  rw [submit_filled fresh state filled]
  apply loop_test_sound (state.sendAll fresh) status
    (books_append state.waiting state.cache state.inFlight books fresh filled uncached alone) (tasks ++ newTasks fresh)
  rw [SteeringState.sendAll, queue, List.map_append]

theorem step_sound (state : SteeringState κ ρ σ) (arrival : Arrival κ ρ σ) (next : SteeringState κ ρ σ)
    (sound : state.Sound) (fresh : state.NextFresh arrival) (apart : state.NextApart arrival)
    (taken : state.step arrival = some next) : next.Sound := by
  obtain ⟨⟨running, held⟩, same⟩ := Option.ite_none_right_eq_some.mp taken
  obtain rfl := Option.some.inj same
  cases sound with
  | finished status _ _ _ _ => exact absurd (running.symm.trans status) nofun
  | running status waits books tasks queue =>
      rw [SteeringState.receive]
      split
      next missing =>
        obtain ⟨group, member, inside⟩ := owner_found _ state.inFlight books.accounts arrival.task.flags held
        obtain ⟨generation, isWaiting, rfl⟩ := List.mem_map.mp member
        exact absurd inside (find_owner_none arrival.task state.waiting missing generation isWaiting)
      next before updated after found =>
        obtain ⟨owner, whole, updates, first⟩ := find_owner_some arrival.task state.waiting before after updated found
        rw [whole] at books
        by_cases last : updated.pending = 0
        · have done : updated.done = true := by simp [Generation.done, last]
          have completes : (state.completes arrival.task).isSome := by
            simp [SteeringState.completes, found, done]
          have settled := books_settled before after owner updated state.cache state.inFlight arrival.task books held
            updates first last
          have submitted := submit_sound { state with
            waiting := before ++ after
            inFlight := state.inFlight.erase arrival.task.flags } running settled tasks queue
          rw [if_neg (by omega), if_pos done]
          cases improved : arrival.isImproved with
          | false => exact submitted [] nofun nofun List.Pairwise.nil
          | true =>
              apply submitted arrival.next
              · exact fun new member => (fresh completes improved new member).1
              · exact fun new member => (fresh completes improved new member).2
              · exact apart completes improved
        · have notDone : updated.done = false := by simp [Generation.done, last]
          obtain ⟨nonnegative, continued⟩ := books_continue before after owner updated state.cache state.inFlight
            arrival.task books held updates first last
          rw [if_neg (by omega), notDone, if_neg (by simp)]
          exact .running running (by simp) continued tasks queue

-- What the initial generations send is everything in them.
theorem initial_tasks_all (cache : Finset κ) (generations : List (NewGeneration κ ρ σ))
    (uncached : ∀ generation ∈ generations, ∀ flags ∈ generation.exeSet.keys, flags ∉ cache)
    (apart : generations.Pairwise fun early late => ∀ flags ∈ early.exeSet.keys, flags ∉ late.exeSet.keys) :
    initialTasks cache generations = newTasks generations := by
  induction generations generalizing cache with
  | nil => rfl
  | cons generation rest ih =>
      obtain ⟨here, later⟩ := List.pairwise_cons.mp apart
      have all : (generation.exeSet.keys.filter fun task => task ∉ cache) = generation.exeSet.keys := by
        apply List.filter_eq_self.mpr
        intro flags inside
        exact decide_eq_true (uncached generation List.mem_cons_self flags inside)
      rw [initialTasks, all, ih]
      · simp [newTasks]
      · intro other member flags inside
        have outside := uncached other (List.mem_cons_of_mem _ member) flags inside
        simp only [Finset.mem_union, List.mem_toFinset, not_or]
        exact ⟨outside, fun shared => here other member flags shared inside⟩
      · exact later

theorem start_sound (cache : Finset κ) (generations : List (NewGeneration κ ρ σ))
    (apart : InitialApart cache generations) : (SteeringState.start cache generations).Sound := by
  obtain ⟨filled, uncached, disjoint⟩ := apart
  have books := books_append ([] : List (Generation κ ρ σ)) cache [] (books_nil cache) generations filled uncached
    (disjoint.imp fun separate flags inside shared => absurd shared (separate flags inside))
  rw [SteeringState.start, initial_tasks_all cache generations uncached disjoint]
  by_cases none_sent : (newTasks generations).length = 0
  · rw [if_pos none_sent]
    have noTask := List.length_eq_zero_iff.mp none_sent
    have noGeneration : generations = [] := by
      cases generations with
      | nil => rfl
      | cons generation rest =>
          have empty := (List.flatten_eq_nil_iff.mp noTask) generation.exeSet.keys (by simp)
          exact absurd (generation.exeSet.keys_eq_nil.mp empty) (filled generation List.mem_cons_self)
    apply SteeringState.Sound.finished rfl _ noTask []
    · rfl
    · rw [noGeneration]
      rfl
  · rw [if_neg none_sent]
    apply SteeringState.Sound.running rfl _ books (newTasks generations) rfl
    intro noGeneration
    rw [List.map_eq_nil_iff.mp noGeneration] at none_sent
    exact none_sent rfl

theorem sound_accounted (state : SteeringState κ ρ σ) (sound : state.Sound) : state.Accounted := by
  cases sound with
  | running status waits books tasks queue =>
      have sent := tasks_put_map tasks state queue
      have someInFlight : state.inFlight ≠ [] := by
        obtain ⟨generation, member⟩ := List.exists_mem_of_ne_nil state.waiting waits
        obtain ⟨flags, present⟩ := List.exists_mem_of_ne_nil _
          (books_waiting_filled state.waiting state.cache state.inFlight books generation member)
        exact List.ne_nil_of_mem ((mem_outstanding state.inFlight generation.keys flags).mp present).2
      refine ⟨.inl status, books.counted, ?_, fun _ => ⟨someInFlight, sent.symm ▸ queue⟩, ?_⟩
      · intro generation member
        have positive := List.length_pos_iff.mpr
          (books_waiting_filled state.waiting state.cache state.inFlight books generation member)
        have counted := books.counted generation member
        simp only [Generation.done, beq_eq_false_iff_ne]
        omega
      · exact fun finished => absurd (status.symm.trans finished) nofun
  | finished status noneWaits landed tasks queue =>
      have sent := tasks_put_poisoned tasks state queue
      refine ⟨.inr status, ?_, ?_, ?_, fun _ => ⟨noneWaits, landed, sent.symm ▸ queue⟩⟩
      · exact fun generation member => absurd (noneWaits ▸ member) nofun
      · exact fun generation member => absurd (noneWaits ▸ member) nofun
      · exact fun running => absurd (status.symm.trans running) nofun

-- How many results have been read.
def SteeringState.resultsRead (state : SteeringState κ ρ σ) : Int := state.tasksPut.length - state.inFlight.length

omit [DecidableEq κ] in
theorem loop_test_results_read (state : SteeringState κ ρ σ) : state.loopTest.resultsRead = state.resultsRead := by
  by_cases isOver : state.waiting = []
  · simp [SteeringState.loopTest, isOver, SteeringState.resultsRead, SteeringState.tasksPut]
  · simp [SteeringState.loopTest, isOver]

theorem submit_results_read (fresh : List (NewGeneration κ ρ σ)) (state : SteeringState κ ρ σ) :
    (state.submit fresh).resultsRead = state.resultsRead := by
  induction fresh generalizing state with
  | nil => exact loop_test_results_read state
  | cons new rest ih =>
      rw [SteeringState.submit]
      split
      next => rfl
      next =>
        rw [ih]
        simp only [SteeringState.resultsRead, SteeringState.send, SteeringState.tasksPut, List.filterMap_append,
          List.filterMap_map, List.length_append]
        simp only [Function.comp_def, List.filterMap_some, Int.natCast_add]
        omega

theorem step_results_read (state : SteeringState κ ρ σ) (arrival : Arrival κ ρ σ) (next : SteeringState κ ρ σ)
    (taken : state.step arrival = some next) : next.resultsRead = state.resultsRead + 1 := by
  obtain ⟨⟨-, held⟩, same⟩ := Option.ite_none_right_eq_some.mp taken
  have one := List.length_erase_add_one held
  have erased : ({ state with inFlight := state.inFlight.erase arrival.task.flags } : SteeringState κ ρ σ).resultsRead =
      state.resultsRead + 1 := by
    simp only [SteeringState.resultsRead, SteeringState.tasksPut]
    omega
  obtain rfl := Option.some.inj same
  rw [← erased, SteeringState.receive]
  split
  next => rfl
  next before generation after found =>
    by_cases negative : generation.pending < 0
    · rw [if_pos negative]
      rfl
    · rw [if_neg negative]
      split
      next =>
        rw [submit_results_read]
        rfl
      next => rfl

theorem start_results_read (cache : Finset κ) (generations : List (NewGeneration κ ρ σ)) :
    (SteeringState.start cache generations).resultsRead = 0 := by
  rw [SteeringState.start]
  split
  next empty => simp [SteeringState.resultsRead, SteeringState.tasksPut, empty]
  next =>
    simp [SteeringState.resultsRead, SteeringState.tasksPut, List.filterMap_map]

-- Results may carry anything and come back in any order; what `IsImproved` and
-- `Next` answer is only bound by the two conditions.
theorem steering_accounts (cache : Finset κ) (generations : List (NewGeneration κ ρ σ))
    (arrivals : List (Arrival κ ρ σ)) (state : SteeringState κ ρ σ) (apart : InitialApart cache generations)
    (fresh : Along SteeringState.step SteeringState.NextFresh (.start cache generations) arrivals)
    (nextApart : Along SteeringState.step SteeringState.NextApart (.start cache generations) arrivals)
    (run : exec SteeringState.step (.start cache generations) arrivals = some state) :
    state.Accounted ∧ (state.inFlight = [] → state.status = .finished) ∧
      state.tasksPut.length = arrivals.length + state.inFlight.length := by
  have allowed := along_and SteeringState.step _ _ _ arrivals fresh nextApart
  have sound : state.Sound := along_invariant SteeringState.step _ SteeringState.Sound
    (fun before arrival next holds ok taken => step_sound before arrival next holds ok.1 ok.2 taken)
    arrivals _ state (start_sound cache generations apart) allowed run
  have accounted := sound_accounted state sound
  have counted := exec_counts SteeringState.step SteeringState.resultsRead step_results_read arrivals _ state run
  rw [start_results_read] at counted
  refine ⟨accounted, ?_, ?_⟩
  · intro landed
    exact accounted.alive.resolve_left fun running => (accounted.moving running).1 landed
  · rw [SteeringState.resultsRead] at counted
    omega

def numbered (keys : List Nat) (distinct : keys.Nodup) : NewGeneration Nat Nat Unit := ⟨.unrun keys distinct, ()⟩

def answered (flags : Nat) (next : List (NewGeneration Nat Nat Unit)) : Arrival Nat Nat Unit :=
  ⟨⟨flags, some 7⟩, !next.isEmpty, next⟩

theorem second_generation_accounted :
    ∃ state, exec SteeringState.step (.start ∅ [numbered [1, 2] (by decide)])
        [answered 2 [], answered 1 [numbered [3] (by decide)], answered 3 []] = some state ∧
      state.status = .finished ∧ state.resultQueue = [.task 1, .task 2, .task 3, .poisonpill] ∧ state.Accounted :=
  ⟨_, rfl, rfl, rfl, (steering_accounts ∅ [numbered [1, 2] (by decide)]
    [answered 2 [], answered 1 [numbered [3] (by decide)], answered 3 []] _
    ⟨by decide, by decide, by decide⟩ (by decide) (by decide) rfl).1⟩

-- A task of the initial generation that is in the cache is not sent, so its result
-- never comes; the loop spins with the other result read and nothing in flight.
theorem cached_task_is_awaited :
    ∃ state, exec SteeringState.step (.start {1} [numbered [1, 2] (by decide)]) [answered 2 []] = some state ∧
      Along SteeringState.step SteeringState.NextFresh (.start {1} [numbered [1, 2] (by decide)]) [answered 2 []] ∧
      state.status = .running ∧ state.waiting.map (·.pending) = [1] ∧ state.inFlight = [] ∧
      ¬ state.Accounted ∧ ∀ arrival, state.step arrival = none := by
  refine ⟨_, rfl, ?_, rfl, rfl, rfl, ?_, ?_⟩
  · decide
  · exact fun accounted => (accounted.moving rfl).1 rfl
  · exact fun arrival => rfl

end ToolchainUtils.Bestflags
