import Mathlib.Data.List.Dedup
import ToolchainUtils.AfeLockMachine.LockCommands
import ToolchainUtils.Crosperf.LockSessions

set_option autoImplicit false

namespace ToolchainUtils.Crosperf.ExperimentRunner

open PyString AfeLockMachine AtomicCalls AtomicCalls.Program Transition

def Locks : (request : Call) → Answer request → Address → Prop
  | .modifyHosts address updateData, .ok (), other => updateData.locked = true ∧ other = address
  | _, _, _ => False

def Unlocks : (request : Call) → Answer request → Address → Prop
  | .modifyHosts address updateData, .ok (), other => updateData.locked = false ∧ other = address
  | _, _, _ => False

theorem note_answer_held {Value : Type} (noted : Noted) (answer : Except Text Value) :
    (noteAnswer noted answer).held = noted.held := by
  cases answer <;> rfl

theorem mem_held_note (noted : Noted) (request : Call) (answer : Answer request) (address : Address) :
    address ∈ (note noted request answer).held ↔
      Locks request answer address ∨ address ∈ noted.held ∧ ¬ Unlocks request answer address := by
  have unchanged : ∀ held : List Address, held = noted.held →
      (address ∈ held ↔ False ∨ address ∈ noted.held ∧ ¬ False) := by
    rintro _ rfl
    rw [false_or, not_false_eq_true, and_true]
  cases request with
  | modifyHosts host updateData =>
      cases answer with
      | error text =>
          rw [note]
          split
          · exact unchanged _ rfl
          · exact unchanged _ rfl
      | ok _ =>
          cases locked : updateData.locked with
          | true => simp [note, Locks, Unlocks, locked]
          | false => simp [note, Locks, Unlocks, locked]
  | getHosts host =>
      rcases answer with text | (_ | ⟨info, rest⟩)
      · exact unchanged _ rfl
      · exact unchanged _ rfl
      · exact unchanged _ rfl
  | getHostnames => exact unchanged _ (note_answer_held noted answer)
  | createHost host => exact unchanged _ (note_answer_held noted answer)
  | startExperiment lockedMachines machines => exact unchanged _ rfl
  | endExperiment => exact unchanged _ rfl
  | report => exact unchanged _ rfl

theorem running_note (noted : Noted) (request : Call) (answer : Answer request) (m : Text)
    (running : m ∈ (note noted request answer).running) :
    m ∈ noted.running ∨ ∃ lockedMachines machines, request = .startExperiment lockedMachines machines ∧ m ∈ machines := by
  cases request with
  | modifyHosts host updateData =>
      cases locked : updateData.locked <;> cases answer <;> simp [note, noteFailure, locked] at running <;> exact .inl running
  | getHosts host =>
      rcases answer with text | (_ | ⟨info, rest⟩)
      · exact .inl running
      · exact .inl running
      · exact .inl running
  | getHostnames => cases answer <;> exact .inl running
  | createHost host => cases answer <;> exact .inl running
  | startExperiment lockedMachines machines => exact .inr ⟨lockedMachines, machines, rfl, running⟩
  | endExperiment => exact absurd running List.not_mem_nil
  | report => exact .inl running

theorem unlocks_allowed (user : Text) (experiment : Experiment) (noted : Noted) (request : Call) (answer : Answer request)
    (address : Address)
    (allowed : (rules user experiment).allowed noted request) (unlocks : Unlocks request answer address) :
    noted.running = [] ∧ (noted.exiting = true ∨ address ∈ noted.held) := by
  cases request with
  | modifyHosts host updateData =>
      cases answer with
      | error text => exact unlocks.elim
      | ok _ =>
          have unlocking := allowed.resolve_left fun locked => Bool.noConfusion (locked.symm.trans unlocks.1)
          exact ⟨unlocking.1, unlocking.2.imp_right fun held => unlocks.2 ▸ held⟩
  | _ => exact unlocks.elim

section Servers

variable {State Choice : Type} (servers : AutotestServers State Choice) (user : Text) (state : State) (choice : Choice)
  (request : Call) (address : Address)

theorem locks_free (locks : Locks request (servers.serve user state choice request).1 address) :
    servers.lockedBy state address = none ∧ servers.lockedBy (servers.serve user state choice request).2 address = some user := by
  cases request with
  | modifyHosts host updateData =>
      cases answer : (servers.serve user state choice (.modifyHosts host updateData)).1 with
      | error text =>
          rw [answer] at locks
          exact locks.elim
      | ok _ =>
          rw [answer] at locks
          exact locks.2 ▸ servers.locks user state choice host updateData locks.1 answer
  | _ => exact locks.elim

theorem unlocks_free (unlocks : Unlocks request (servers.serve user state choice request).1 address) :
    servers.lockedBy (servers.serve user state choice request).2 address = none := by
  cases request with
  | modifyHosts host updateData =>
      cases answer : (servers.serve user state choice (.modifyHosts host updateData)).1 with
      | error text =>
          rw [answer] at unlocks
          exact unlocks.elim
      | ok _ =>
          rw [answer] at unlocks
          exact unlocks.2 ▸ servers.unlocks user state choice host updateData unlocks.1 answer
  | _ => exact unlocks.elim

theorem lock_kept (locks : ¬ Locks request (servers.serve user state choice request).1 address)
    (unlocks : ¬ Unlocks request (servers.serve user state choice request).1 address) :
    servers.lockedBy (servers.serve user state choice request).2 address = servers.lockedBy state address := by
  apply servers.keeps
  intro changed
  revert locks unlocks changed
  generalize (servers.serve user state choice request).1 = answer
  intro locks unlocks changed
  cases request with
  | modifyHosts host updateData =>
      cases answer with
      | error text => exact changed
      | ok _ =>
          cases locked : updateData.locked with
          | true => exact locks ⟨locked, changed⟩
          | false => exact unlocks ⟨locked, changed⟩
  | _ => exact changed

theorem answer_possible (experiment : Experiment) (noted : Noted)
    (own : ∀ address ∈ noted.held, servers.lockedBy state address = some user) :
    (rules user experiment).possible noted request (servers.serve user state choice request).1 := by
  cases request with
  | getHosts host =>
      cases answer : (servers.serve user state choice (.getHosts host)).1 with
      | error text => trivial
      | ok infos =>
          intro info member
          obtain ⟨named, locked, owner⟩ := servers.tells user state choice host infos answer info member
          refine ⟨named, fun held => ⟨?_, owner user (own host held)⟩⟩
          rw [locked, own host held]
          rfl
  | modifyHosts host updateData =>
      cases answer : (servers.serve user state choice (.modifyHosts host updateData)).1 with
      | error text => trivial
      | ok _ =>
          intro locked held
          have free := (servers.locks user state choice host updateData locked answer).1
          rw [own host held] at free
          cases free
  | _ => trivial

end Servers

section Lab

variable {State Choice Run : Type} [DecidableEq Run] (servers : AutotestServers State Choice) (systems : Run → Python)
  (experiments : Run → Experiment)

abbrev Lab (Run State : Type) : Type := Configuration Run Answer Failure Unit State Noted

def labStep : Lab Run State → Run × Choice → Option (Lab Run State) := step (fun run => servers.serve (systems run).user) note

def start (state : State) : Lab Run State where
  programs run := crosperf (systems run).toSystem (experiments run)
  state := state
  notes _ := Noted.none

-- What a run has locked is locked for its user and by no other run.
structure Owned (state : State) (notes : Run → Noted) : Prop where
  own : ∀ run address, address ∈ (notes run).held → servers.lockedBy state address = some (systems run).user
  only : ∀ run other address, address ∈ (notes run).held → address ∈ (notes other).held → other = run

-- And an experiment that goes on has only machines that its run has locked.
structure Exclusive (state : State) (notes : Run → Noted) : Prop extends Owned servers systems state notes where
  used : ∀ run m, m ∈ (notes run).running → place m ∈ (notes run).held

-- The exit handler of a run unlocks no host that another run has locked.
def Spares (now : Lab Run State) (turn : Run × Choice) : Prop :=
  ∀ request answered, now.programs turn.1 = .call request answered → (now.notes turn.1).exiting = true →
    ∀ address, Unlocks request (servers.serve (systems turn.1).user now.state turn.2 request).1 address →
      ∀ other, other ≠ turn.1 → address ∉ (now.notes other).held

-- The machines that the loops over the lists of an experiment pass over are on hosts that its run has
-- locked.
def Trims (now : Lab Run State) (turn : Run × Choice) : Prop :=
  ∀ lockedMachines machines answered, now.programs turn.1 = .call (.startExperiment lockedMachines machines) answered →
    ∀ m ∈ ((experiments turn.1).lists.passedOver CrosMachine.name lockedMachines).names CrosMachine.name,
      ∃ other ∈ lockedMachines, place other = place m

variable {servers systems experiments}

theorem owned_served (now : Lab Run State) (turn : Run × Choice) (request : Call)
    (answered : Answer request → Session Unit) (program : now.programs turn.1 = .call request answered)
    (owned : Owned servers systems now.state now.notes)
    (allowed : (rules (systems turn.1).user (experiments turn.1)).allowed (now.notes turn.1) request)
    (spares : Spares servers systems now turn) :
    (rules (systems turn.1).user (experiments turn.1)).possible (now.notes turn.1) request
        (servers.serve (systems turn.1).user now.state turn.2 request).1 ∧
      Owned servers systems (servers.serve (systems turn.1).user now.state turn.2 request).2
        (Function.update now.notes turn.1 (note (now.notes turn.1) request
          (servers.serve (systems turn.1).user now.state turn.2 request).1)) := by
  have possible := answer_possible servers (systems turn.1).user now.state turn.2 request (experiments turn.1) (now.notes turn.1)
    (owned.own turn.1)
  have spared := spares request answered program
  have locked := locks_free servers (systems turn.1).user now.state turn.2 request
  have kept := lock_kept servers (systems turn.1).user now.state turn.2 request
  revert possible spared locked kept
  generalize servers.serve (systems turn.1).user now.state turn.2 request = served
  intro possible spared locked kept
  have unlocks := unlocks_allowed (systems turn.1).user (experiments turn.1) (now.notes turn.1) request served.1
  -- What another run has locked is not touched.
  have apart : ∀ run address, run ≠ turn.1 → address ∈ (now.notes run).held →
      ¬ Locks request served.1 address ∧ ¬ Unlocks request served.1 address := by
    intro run address other held
    refine ⟨fun locks => ?_, fun released => ?_⟩
    · have free := (locked address locks).1
      rw [owned.own run address held] at free
      cases free
    · rcases (unlocks address allowed released).2 with exiting | own
      · exact spared exiting address released run other held
      · exact other (owned.only turn.1 run address own held)
  have mine : ∀ address, address ∈ (note (now.notes turn.1) request served.1).held ↔
      Locks request served.1 address ∨ address ∈ (now.notes turn.1).held ∧ ¬ Unlocks request served.1 address :=
    mem_held_note (now.notes turn.1) request served.1
  refine ⟨possible, fun run address held => ?_, fun run other address held otherHeld => ?_⟩
  · by_cases same : run = turn.1
    · subst same
      rw [Function.update_self, mine] at held
      by_cases locks : Locks request served.1 address
      · exact (locked address locks).2
      · obtain ⟨before, still⟩ := held.resolve_left locks
        exact (kept address locks still).trans (owned.own turn.1 address before)
    · rw [Function.update_of_ne same] at held
      obtain ⟨locks, still⟩ := apart run address same held
      exact (kept address locks still).trans (owned.own run address held)
  · have before : ∀ run, run ≠ turn.1 → address ∈ (now.notes run).held →
        address ∈ (note (now.notes turn.1) request served.1).held → run = turn.1 := by
      intro run different theirs ours
      rcases (mine address).mp ours with locks | ⟨held, _⟩
      · exact absurd locks (apart run address different theirs).1
      · exact owned.only turn.1 run address held theirs
    by_cases same : run = turn.1
    · by_cases otherSame : other = turn.1
      · rw [same, otherSame]
      · rw [same, Function.update_self] at held
        rw [Function.update_of_ne otherSame] at otherHeld
        exact absurd (before other otherSame otherHeld held) otherSame
    · by_cases otherSame : other = turn.1
      · rw [Function.update_of_ne same] at held
        rw [otherSame, Function.update_self] at otherHeld
        exact absurd (before run same held otherHeld) same
      · rw [Function.update_of_ne same] at held
        rw [Function.update_of_ne otherSame] at otherHeld
        exact owned.only run other address held otherHeld

theorem used_served (now : Lab Run State) (turn : Run × Choice) (request : Call)
    (answered : Answer request → Session Unit) (program : now.programs turn.1 = .call request answered)
    (used : ∀ run m, m ∈ (now.notes run).running → place m ∈ (now.notes run).held)
    (allowed : (rules (systems turn.1).user (experiments turn.1)).allowed (now.notes turn.1) request)
    (trims : Trims experiments now turn) (answer : Answer request) (run : Run) (m : Text)
    (running : m ∈ (Function.update now.notes turn.1 (note (now.notes turn.1) request answer) run).running) :
    place m ∈ (Function.update now.notes turn.1 (note (now.notes turn.1) request answer) run).held := by
  by_cases same : run = turn.1
  · subst same
    rw [Function.update_self] at running ⊢
    rw [mem_held_note]
    rcases running_note (now.notes turn.1) request answer m running with before | ⟨lockedMachines, machines, rfl, listed⟩
    · refine .inr ⟨used turn.1 m before, fun released => ?_⟩
      rw [(unlocks_allowed (systems turn.1).user (experiments turn.1) (now.notes turn.1) request answer (place m) allowed
        released).1] at before
      exact absurd before List.not_mem_nil
    · refine .inr ⟨(allowed.1 (place m)).mpr ?_, fun released => released⟩
      rw [allowed.2, mem_names_left] at listed
      rcases listed with ⟨_, locked⟩ | passed
      · exact ⟨m, locked, rfl⟩
      · exact trims lockedMachines machines answered program m passed
  · rw [Function.update_of_ne same] at running ⊢
    exact used run m running

variable (servers systems experiments)

-- The runs all follow the rules as long as what is shared goes with what they have noted.
abbrev InOrder (shared : State → (Run → Noted) → Prop) (now : Lab Run State) : Prop :=
  Disciplined note (fun run => rules (systems run).user (experiments run))
    (fun _ _ later => later.exitFailed = false → later.held = later.stranded) (fun _ _ _ => False) shared now

omit [DecidableEq Run] in
theorem exclusive_start (state : State) : InOrder systems experiments (Exclusive servers systems) (start systems experiments state) :=
  ⟨⟨⟨fun _ _ held => absurd held List.not_mem_nil, fun _ _ _ held => absurd held List.not_mem_nil⟩,
    fun _ _ running => absurd running List.not_mem_nil⟩, fun run => obeys_crosperf (systems run) (experiments run)⟩

theorem owned_step (now next : Lab Run State) (turn : Run × Choice) (order : InOrder systems experiments (Owned servers systems) now)
    (spares : Spares servers systems now turn) (taken : labStep servers systems now turn = some next) :
    InOrder systems experiments (Owned servers systems) next :=
  step_disciplined (Spares servers systems) (fun now turn request answered program owned allowed spares =>
    owned_served now turn request answered program owned allowed spares) now next turn order spares taken

theorem exclusive_step (now next : Lab Run State) (turn : Run × Choice)
    (order : InOrder systems experiments (Exclusive servers systems) now)
    (fine : Spares servers systems now turn ∧ Trims experiments now turn) (taken : labStep servers systems now turn = some next) :
    InOrder systems experiments (Exclusive servers systems) next := by
  refine step_disciplined (fun now turn => Spares servers systems now turn ∧ Trims experiments now turn)
    (fun now turn request answered program exclusive allowed fine => ?_) now next turn order fine taken
  obtain ⟨possible, owned⟩ := owned_served now turn request answered program exclusive.toOwned allowed fine.1
  exact ⟨possible, owned, used_served now turn request answered program exclusive.used allowed fine.2 _⟩

-- Where the machines of a run stay its own, its exit handler has spared the others.
theorem exclusive_spares (now next : Lab Run State) (turn : Run × Choice) (taken : labStep servers systems now turn = some next)
    (exclusive : Exclusive servers systems next.state next.notes) : Spares servers systems now turn := by
  intro request answered program _ address released other different held
  obtain ⟨asked, continued, same, rfl⟩ := step_cases _ _ now next turn taken
  rw [program] at same
  cases same
  have free := unlocks_free servers (systems turn.1).user now.state turn.2 request address released
  have still := exclusive.own other address (by
    dsimp only
    rwa [Function.update_of_ne different])
  exact nomatch free.symm.trans still

-- Where an experiment has only machines of its run, nothing else has been passed over.
theorem exclusive_trims (now next : Lab Run State) (turn : Run × Choice)
    (order : InOrder systems experiments (Exclusive servers systems) now) (taken : labStep servers systems now turn = some next)
    (exclusive : Exclusive servers systems next.state next.notes) : Trims experiments now turn := by
  intro lockedMachines machines answered program m passed
  have follows := order.follows turn.1
  rw [program] at follows
  obtain ⟨held, left⟩ := (follows_call.mp follows).1
  obtain ⟨asked, continued, same, rfl⟩ := step_cases _ _ now next turn taken
  rw [program] at same
  cases same
  have used := exclusive.used turn.1 m
  dsimp only at used
  rw [Function.update_self] at used
  refine (held (place m)).mp (used ?_)
  show m ∈ machines
  rw [left, mem_names_left]
  exact .inr passed

-- Without two neighbours in a list that are not locked, nothing is passed over.
omit [DecidableEq Run] in
theorem apart_trims (now : Lab Run State) (turn : Run × Choice)
    (apart : ∀ lockedMachines machines answered, now.programs turn.1 = .call (.startExperiment lockedMachines machines) answered →
      UnlockedApart CrosMachine.name lockedMachines (experiments turn.1).lists) : Trims experiments now turn := by
  intro lockedMachines machines answered program m passed
  rw [(none_passed_over_iff CrosMachine.name _ lockedMachines).mpr (apart lockedMachines machines answered program)] at passed
  exact absurd passed List.not_mem_nil

-- In any number of runs of crosperf, for any users, experiments and answers of the servers and any
-- order of their calls: the machines of a run are its own, and its experiment has no others, until an
-- exit handler unlocks one of them or an experiment starts with a machine that has been passed over.
-- None is passed over in lists without two neighbours that are not locked.
theorem machines_exclusive_iff (state : State) (turns : List (Run × Choice)) :
    (Throughout (labStep servers systems) (fun now => Exclusive servers systems now.state now.notes)
        (start systems experiments state) turns ↔
      Along (labStep servers systems) (fun now turn => Spares servers systems now turn ∧ Trims experiments now turn)
        (start systems experiments state) turns) ∧
    ∀ (now : Lab Run State) (turn : Run × Choice),
      (∀ lockedMachines machines answered, now.programs turn.1 = .call (.startExperiment lockedMachines machines) answered →
        UnlockedApart CrosMachine.name lockedMachines (experiments turn.1).lists) → Trims experiments now turn := by
  refine ⟨?_, apart_trims experiments⟩
  apply good_iff_ok (labStep servers systems) (fun now turn => Spares servers systems now turn ∧ Trims experiments now turn)
    (InOrder systems experiments (Exclusive servers systems))
  · exact fun now turn next order fine taken => exclusive_step servers systems experiments now next turn order fine taken
  · exact fun now order => order.shared
  · exact fun now turn next order taken exclusive => ⟨exclusive_spares servers systems now next turn taken exclusive,
      exclusive_trims servers systems experiments now next turn order taken exclusive⟩
  · intro now turn stuck
    refine ⟨fun request answered program => ?_, fun lockedMachines machines answered program => ?_⟩
    · rw [labStep, step, program] at stuck
      cases stuck
    · rw [labStep, step, program] at stuck
      cases stuck
  · exact exclusive_start servers systems experiments state

theorem owned_along (turns : List (Run × Choice)) (now finish : Lab Run State)
    (order : InOrder systems experiments (Owned servers systems) now)
    (spares : Along (labStep servers systems) (Spares servers systems) now turns)
    (ran : exec (labStep servers systems) now turns = some finish) : InOrder systems experiments (Owned servers systems) finish :=
  along_invariant (labStep servers systems) (Spares servers systems) (InOrder systems experiments (Owned servers systems))
    (fun now turn next order spares taken => owned_step servers systems experiments now next turn order spares taken) turns now finish
    order spares ran

-- A run that has ended makes no call, and what it has noted stays.
theorem ended_stays (turns : List (Run × Choice)) (now finish : Lab Run State) (run : Run) (ended : now.programs run = .done ())
    (ran : exec (labStep servers systems) now turns = some finish) :
    finish.programs run = .done () ∧ finish.notes run = now.notes run := by
  refine along_invariant (labStep servers systems) (fun _ _ => True)
    (fun later => later.programs run = .done () ∧ later.notes run = now.notes run) ?_ turns now finish ⟨ended, rfl⟩
    (along_true _ _ _) ran
  rintro later turn next ⟨still, same⟩ _ taken
  obtain ⟨request, answered, program, rfl⟩ := step_cases _ _ later next turn taken
  have different : run ≠ turn.1 := by
    rintro rfl
    rw [still] at program
    cases program
  dsimp only
  rw [Function.update_of_ne different, Function.update_of_ne different]
  exact ⟨still, same⟩

-- A run whose exit handler got its answers leaves nothing locked but what it had locked when a
-- server would not lock the next machine. That stays locked, whatever comes later.
theorem ended_run_leaves (state : State) (turns : List (Run × Choice)) (finish : Lab Run State) (run : Run)
    (spares : Along (labStep servers systems) (Spares servers systems) (start systems experiments state) turns)
    (ran : exec (labStep servers systems) (start systems experiments state) turns = some finish)
    (ended : finish.programs run = .done ()) (answered : (finish.notes run).exitFailed = false) :
    (finish.notes run).held = (finish.notes run).stranded ∧ ∀ later last,
      Along (labStep servers systems) (Spares servers systems) finish later → exec (labStep servers systems) finish later = some last →
        ∀ address ∈ (finish.notes run).stranded, servers.lockedBy last.state address = some (systems run).user := by
  have initial := exclusive_start servers systems experiments state
  have order := owned_along servers systems experiments turns _ finish ⟨initial.shared.toOwned, initial.follows⟩ spares ran
  have follows := order.follows run
  rw [ended] at follows
  have left := follows_done.mp follows answered
  refine ⟨left, fun later last spared goesOn address member => ?_⟩
  have last_order := owned_along servers systems experiments later finish last order spared goesOn
  apply last_order.shared.own
  rw [(ended_stays servers systems later finish last run ended goesOn).2, left]
  exact member

end Lab

-- Servers that know every host, and answer a request to change a lock as they should or not at all.
def plainModify (user : Text) (locks : Address → Option Text) (answers : Bool) (address : Address) (updateData : UpdateData) :
    Except Text Unit × (Address → Option Text) :=
  if answers = true ∧ (updateData.locked = true → locks address = none) then
    (.ok (), Function.update locks address (if updateData.locked then some user else none))
  else (.error "refused".toList, locks)

theorem plain_modify_ok (user : Text) (locks : Address → Option Text) (answers : Bool) (address : Address) (updateData : UpdateData)
    (changed : (plainModify user locks answers address updateData).1 = .ok ()) :
    (updateData.locked = true → locks address = none) ∧ (plainModify user locks answers address updateData).2 =
      Function.update locks address (if updateData.locked then some user else none) := by
  unfold plainModify at changed ⊢
  by_cases fine : answers = true ∧ (updateData.locked = true → locks address = none)
  · rw [if_pos fine]
    exact ⟨fine.2, rfl⟩
  · rw [if_neg fine] at changed
    cases changed

def plainServe (user : Text) (locks : Address → Option Text) (answers : Bool) : (request : Call) → Answer request ×
    (Address → Option Text)
  | .getHostnames => (.ok ["stumpy".toList, "lumpy".toList], locks)
  | .getHosts address => (.ok [⟨address.host, none, (locks address).isSome, (locks address).getD [], []⟩], locks)
  | .modifyHosts address updateData => plainModify user locks answers address updateData
  | .createHost _ => (.ok (), locks)
  | .startExperiment _ _ => ((), locks)
  | .endExperiment => ((), locks)
  | .report => ((), locks)

def plainServers : AutotestServers (Address → Option Text) Bool where
  lockedBy locks address := locks address
  serve := plainServe
  tells := by
    rintro user locks answers address infos ⟨⟩ info member
    rw [List.mem_singleton.mp member]
    exact ⟨rfl, rfl, fun owner held => by rw [held]; rfl⟩
  locks := by
    intro user locks answers address updateData locked changed
    obtain ⟨free, set⟩ := plain_modify_ok user locks answers address updateData changed
    refine ⟨free locked, (congrFun set address).trans ?_⟩
    rw [Function.update_self, locked, if_pos rfl]
  unlocks := by
    intro user locks answers address updateData unlocked changed
    refine (congrFun (plain_modify_ok user locks answers address updateData changed).2 address).trans ?_
    rw [Function.update_self, unlocked, if_neg Bool.false_ne_true]
  keeps := by
    intro user locks answers request address same
    cases request with
    | modifyHosts host updateData =>
        change (plainModify user locks answers host updateData).2 address = locks address
        cases changed : (plainModify user locks answers host updateData).1 with
        | ok _ =>
            rw [(plain_modify_ok user locks answers host updateData changed).2]
            refine Function.update_of_ne (fun here => same ?_) _ _
            change changes (.modifyHosts host updateData) (plainModify user locks answers host updateData).1 address
            rw [changed]
            exact here
        | error text =>
            unfold plainModify at changed ⊢
            split
            · rename_i fine
              rw [if_pos fine] at changed
              cases changed
            · rfl
    | _ => rfl

def plainSystem : Python :=
  { exampleSystem with listSet := List.dedup, list_set_mem := fun _ _ => List.mem_dedup, list_set_nodup := List.nodup_dedup }

section Plain

-- A run alone on these servers, with machines that are not in the lab.
abbrev playing {Value : Type} (program : Session Value) (locks : Address → Option Text) (noted : Noted) (answers : List Bool) :
    Option (Except Failure Value × (Address → Option Text) × Noted × List Bool) :=
  alone (plainServe plainSystem.user) note program locks noted answers

def plainManager (lab machines : List Text) : AFELockManager := ⟨plainSystem.user, true, true, machines, lab, false⟩

variable (lab : List Text) (machine : Text) (outside : ¬ (machine ∈ lab ∨ machine ++ dotCros ∈ lab)) (machines : List Text)
  (locks : Address → Option Text) (noted : Noted) (answer : Bool) (answers : List Bool)

include outside

theorem plain_manager (distinct : (machine :: machines).Nodup) :
    newLockManagerFor plainSystem.toSystem (machine :: machines) lab = .done (plainManager lab (machine :: machines)) := by
  have listed : plainSystem.listSet (machine :: machines) = machine :: machines := List.dedup_eq_self.mpr distinct
  have used : usesLocal (lockOptions (machine :: machines)) (machine :: machines) lab = true :=
    if_neg fun both => outside (.inl (both.2 machine List.mem_cons_self))
  unfold newLockManagerFor
  rw [listed, used]
  rfl

theorem play_known (known : machine ∈ ["stumpy".toList, "lumpy".toList]) :
    playing (addUnknownMachine plainSystem.toSystem (plainManager lab machines) machine) locks noted (answer :: answers) =
      some (.ok (), locks, noted, answers) := by
  have unlisted : machine ∉ (plainManager lab machines).toolchainLabMachines := fun listed => outside (.inl listed)
  have connected : (plainManager lab machines).localAfe = true := rfl
  unfold addUnknownMachine machineIsKnown
  rw [if_neg unlisted, if_pos connected, playing, alone_bind, alone_bind]
  change (alone (plainServe plainSystem.user) note (if decide (machine ∈ ["stumpy".toList, "lumpy".toList]) then .done () else _)
    locks noted answers) = _
  rw [decide_eq_true known]
  rfl

def plainState : MachineState :=
  machineState ⟨machine, none, (locks ⟨.nonlab, machine⟩).isSome, (locks ⟨.nonlab, machine⟩).getD [], []⟩

theorem play_state (states : SortedDict Text MachineState) :
    playing (addMachineState (plainManager lab machines) states machine) locks noted (answer :: answers) =
      some (.ok (states.insert machine (plainState machine locks)), locks, noted, answers) := by
  have unlisted : ¬ (machine ∈ (plainManager lab machines).toolchainLabMachines ∨
    machine ++ dotCros ∈ (plainManager lab machines).toolchainLabMachines) := outside
  have connected : (plainManager lab machines).localAfe = true := rfl
  unfold addMachineState getHostInfo
  rw [if_neg unlisted, if_pos connected, playing, alone_bind]
  rfl

theorem play_update (lock : Bool) : ∃ reason failed,
    playing (updateLockInAFE (plainManager lab machines) lock machine) locks noted (answer :: answers) =
      playing (modifyHosts ⟨.nonlab, machine⟩ ⟨lock, reason⟩ >>= fun answer => ofExcept (answer.mapError failed)) locks noted
        (answer :: answers) := by
  have placed : modified (plainManager lab machines).toolchainLabMachines machine = ⟨.nonlab, machine⟩ := by
    have here : (plainManager lab machines).toolchainLabMachines = lab := rfl
    simp only [modified, here, if_neg fun listed => outside (.inr listed), if_neg fun listed => outside (.inl listed)]
  unfold updateLockInAFE
  rw [placed]
  exact ⟨_, _, rfl⟩

theorem play_refused : ∃ failure, playing (updateLockInAFE (plainManager lab machines) true machine) locks noted (false :: answers) =
    some (.error failure, locks, { noted with stranded := noted.held }, answers) := by
  obtain ⟨reason, failed, asks⟩ := play_update lab machine outside machines locks noted false answers true
  exact ⟨_, asks.trans rfl⟩

theorem play_locked (free : locks ⟨.nonlab, machine⟩ = none) :
    playing (updateLockInAFE (plainManager lab machines) true machine) locks noted (true :: answers) =
      some (.ok (), Function.update locks ⟨.nonlab, machine⟩ (some plainSystem.user),
        { noted with held := ⟨.nonlab, machine⟩ :: noted.held }, answers) := by
  obtain ⟨reason, failed, asks⟩ := play_update lab machine outside machines locks noted true answers true
  have ran : plainModify plainSystem.user locks true ⟨.nonlab, machine⟩ ⟨true, reason⟩ =
      (.ok (), Function.update locks ⟨.nonlab, machine⟩ (some plainSystem.user)) := if_pos ⟨rfl, fun _ => free⟩
  refine asks.trans ?_
  change alone _ note (Program.ofExcept ((plainModify plainSystem.user locks true _ _).1.mapError failed))
    (plainModify plainSystem.user locks true _ _).2
      (note noted (.modifyHosts _ _) (plainModify plainSystem.user locks true _ _).1) answers = _
  rw [ran]
  rfl

end Plain

theorem plain_outside (machine : Text) (unnamed : ¬ LabNamed machine ∧ ¬ LabNamed (machine ++ dotCros)) :
    ¬ (machine ∈ toolchainLabMachines ∨ machine ++ dotCros ∈ toolchainLabMachines) := fun listed =>
  listed.elim (fun full => unnamed.1 (lab_machines_named _ full)) fun short => unnamed.2 (lab_machines_named _ short)

def bothMachines : Experiment := ⟨["stumpy".toList, "lumpy".toList], [], [], [], by decide⟩

def stumpyLocked : Address → Option Text := Function.update (fun _ => none) ⟨.nonlab, "stumpy".toList⟩ (some plainSystem.user)

-- The server locks the first machine and does not lock the second one.
theorem play_refused_locking (lab : List Text) (read : getAllToolchainLabMachines defaultRemotes = some lab)
    (stumpyOutside : ¬ ("stumpy".toList ∈ lab ∨ "stumpy".toList ++ dotCros ∈ lab))
    (lumpyOutside : ¬ ("lumpy".toList ∈ lab ∨ "lumpy".toList ++ dotCros ∈ lab)) :
    ∃ failure, playing (lockAllMachines plainSystem.toSystem bothMachines) (fun _ => none) Noted.none
      [true, true, true, true, true, false, true] =
        some (.error failure, stumpyLocked, ⟨[⟨.nonlab, "stumpy".toList⟩], [], false, false, [⟨.nonlab, "stumpy".toList⟩]⟩,
          [true]) := by
  unfold lockAllMachines newLockManager
  rw [read]
  have listed : getMachineList bothMachines = .done ["stumpy".toList, "lumpy".toList] := if_pos (by decide)
  have made := plain_manager lab "stumpy".toList stumpyOutside ["lumpy".toList] (by decide)
  obtain ⟨failure, refused⟩ := play_refused lab "lumpy".toList lumpyOutside ["stumpy".toList, "lumpy".toList] stumpyLocked
    ⟨[⟨.nonlab, "stumpy".toList⟩], [], false, false, []⟩ [true]
  rw [listed]
  refine ⟨failure, ?_⟩
  refine (alone_then rfl).trans ?_
  refine (alone_then (congrArg (fun program => playing program _ _ _) made)).trans ?_
  have added : playing (forEach (addUnknownMachine plainSystem.toSystem (plainManager lab ["stumpy".toList, "lumpy".toList]))
      ["stumpy".toList, "lumpy".toList]) (fun _ => none) Noted.none [true, true, true, true, true, false, true] =
        some (.ok (), fun _ => none, Noted.none, [true, true, true, false, true]) := by
    refine (alone_then (play_known lab _ stumpyOutside _ _ _ _ _ (by decide))).trans ?_
    exact (alone_then (play_known lab _ lumpyOutside _ _ _ _ _ (by decide))).trans rfl
  refine (alone_then added).trans ?_
  have states : playing (getMachineStates (plainManager lab ["stumpy".toList, "lumpy".toList])) (fun _ => none) Noted.none
      [true, true, true, false, true] =
        some (.ok ((SortedDict.empty.insert "stumpy".toList (plainState "stumpy".toList fun _ => none)).insert "lumpy".toList
          (plainState "lumpy".toList fun _ => none)), fun _ => none, Noted.none, [true, false, true]) := by
    refine (alone_then (play_state lab _ stumpyOutside _ _ _ _ _ _)).trans ?_
    exact (alone_then (play_state lab _ lumpyOutside _ _ _ _ _ _)).trans rfl
  refine (alone_then states).trans ?_
  have free : playing (fromManager (checkMachineLocks plainSystem.user .lock (plainSystem.iteritems
      ((SortedDict.empty.insert "stumpy".toList (plainState "stumpy".toList fun _ => none)).insert "lumpy".toList
        (plainState "lumpy".toList fun _ => none))) ["stumpy".toList, "lumpy".toList])) (fun _ => none) Noted.none
      [true, false, true] = some (.ok ["stumpy".toList, "lumpy".toList], fun _ => none, Noted.none, [true, false, true]) := rfl
  refine (alone_then free).trans ?_
  have locked : playing (updateMachines (plainManager lab ["stumpy".toList, "lumpy".toList]) true ["stumpy".toList, "lumpy".toList])
      (fun _ => none) Noted.none [true, false, true] = some (.error failure, stumpyLocked,
        ⟨[⟨.nonlab, "stumpy".toList⟩], [], false, false, [⟨.nonlab, "stumpy".toList⟩]⟩, [true]) := by
    refine (alone_then (play_locked lab _ stumpyOutside _ _ _ _ rfl)).trans ?_
    exact alone_stops (alone_stops refused)
  exact alone_stops locked

theorem play_refused_run : playing (crosperf plainSystem.toSystem bothMachines) (fun _ => none) Noted.none
    [true, true, true, true, true, false, true] =
      some (.ok (), stumpyLocked, ⟨[⟨.nonlab, "stumpy".toList⟩], [], true, false, [⟨.nonlab, "stumpy".toList⟩]⟩, []) := by
  obtain ⟨failure, locking⟩ := play_refused_locking toolchainLabMachines lab_machines_read (plain_outside _ (by decide))
    (plain_outside _ (by decide))
  have ran : playing (runLocked plainSystem.toSystem bothMachines) (fun _ => none) Noted.none
      [true, true, true, true, true, false, true] =
        some (.ok [], stumpyLocked, ⟨[⟨.nonlab, "stumpy".toList⟩], [], false, false, [⟨.nonlab, "stumpy".toList⟩]⟩, [true]) := by
    refine (alone_then ((alone_attempt _ _ _ _ _).trans (congrArg _ locking))).trans ?_
    rfl
  refine (alone_then ran).trans ?_
  rfl

theorem single_run_spares (turns : List (Unit × Bool)) (now : Lab Unit (Address → Option Text)) :
    Along (labStep plainServers fun _ => plainSystem) (Spares plainServers fun _ => plainSystem) now turns :=
  along_of_forall _ _ now turns fun _ _ _ _ _ _ _ _ _ _ different => absurd rfl different

theorem stumpy_stranded : ∃ finish : Lab Unit (Address → Option Text),
    exec (labStep plainServers fun _ => plainSystem) (start (fun _ => plainSystem) (fun _ => bothMachines) fun _ => none)
        ([true, true, true, true, true, false, true].map fun answers => ((), answers)) = some finish ∧
      (finish.notes ()).stranded = [⟨.nonlab, "stumpy".toList⟩] ∧
      finish.state ⟨.nonlab, "stumpy".toList⟩ = some "user".toList := by
  obtain ⟨finish, ran, ended, _, noted⟩ := alone_runs (fun _ : Unit => plainServe plainSystem.user) () _
    (start (fun _ => plainSystem) (fun _ => bothMachines) fun _ => none) rfl _ _ _ _ play_refused_run
  have answered : (finish.notes ()).exitFailed = false := by rw [noted]
  have locked := (ended_run_leaves plainServers (fun _ => plainSystem) (fun _ => bothMachines) (fun _ => none) _
    finish () (single_run_spares _ _) ran ended answered).2 [] finish trivial rfl
  rw [noted] at locked
  exact ⟨finish, ran, by rw [noted], locked _ List.mem_cons_self⟩

end ToolchainUtils.Crosperf.ExperimentRunner
