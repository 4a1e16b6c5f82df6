import ToolchainUtils.Crosperf.BenchmarkRun

set_option autoImplicit false

namespace ToolchainUtils.Crosperf.RunTimeline

open Transition

def Complete (state : State) : Prop := (∃ recorded, state.point = .finished recorded) ∧ state.terminator.done = true

def EndsFailed (state : State) : Prop := state.asserted = false ∧ state.events.getLast? = some .failed

-- Once Terminate has recorded FAILED the run records nothing else and does not come to a
-- Record(FAILED) of its own, and Terminate comes to its Record before the run has left its own.
def InTime (state : State) : Action → Prop
  | .check => ∀ site ∈ state.point.checked, site.event = .failed → state.terminator ≠ .recorded
  | .append => ∀ site ∈ state.point.appended, site.event ≠ .failed → state.terminator ≠ .recorded
  | .terminateCheck => state.point.recordedFailed = false
  | _ => True

instance decidableInTime (state : State) : ∀ action, Decidable (InTime state action)
  | .check => inferInstanceAs (Decidable (∀ site ∈ state.point.checked, site.event = .failed → state.terminator ≠ .recorded))
  | .append => inferInstanceAs (Decidable (∀ site ∈ state.point.appended, site.event ≠ .failed → state.terminator ≠ .recorded))
  | .terminateCheck => inferInstanceAs (Decidable (state.point.recordedFailed = false))
  | .readCache _ | .lookAtResult _ | .testTerminated | .acquireMachine _ | .imageMachine _ | .runSuite _ | .storeResult _
  | .getChromeVersion _ | .getLastEvent | .releaseMachine | .terminate | .terminateGetLastEvent | .terminateAppend =>
      isTrue trivial

def Status.rank : Status → Nat
  | .pending => 0
  | .waiting => 1
  | .imaging => 2
  | .running => 3
  | .succeeded => 4
  | .failed => 5

-- The rank that the next event of the run has at least, FAILED apart.
def Point.level : Point → Nat
  | .start | .read _ => 1
  | .checking site | .appending site => site.event.rank
  | .acquiring | .requesting => 2
  | .imagingMachine => 3
  | .runningSuite | .storing _ | .versioning _ | .testingFlag _ => 4
  | .testingLast | .handling | .ending _ | .finished _ => 5

-- A FAILED event is one that Terminate or the run recorded, and it is the last event.
structure Timely (state : State) : Prop where
  passed : state.asserted = false
  failed : .failed ∈ state.events ↔ state.terminator = .recorded ∨ state.point.recordedFailed = true
  last : .failed ∈ state.events → state.events.getLast? = some .failed
  ranks : ∀ event ∈ state.events, event = .failed ∨ event.rank < state.point.level
  returned : state.terminator = .returned → state.point.recordedFailed = true
  raised : state.terminator ≠ .raised

-- An event after the FAILED of Terminate stays there: the next Record(FAILED) fails.
def Spoiled (state : State) : Prop :=
  state.asserted = true ∨
    (.failed ∈ state.events ∧ state.events.getLast? ≠ some .failed ∧ state.terminator = .recorded ∧
      ∀ site, state.point = .appending site → site.event ≠ .failed)

-- What one step does. The run moves on without a Record, or one half of a Record is done
-- by the run or by Terminate.
inductive Stepped (state : State) : Action → State → Prop
  | moved (action : Action) (point : Point) (inTime : InTime state action) (level : state.point.level ≤ point.level)
      (same : point.recordedFailed = state.point.recordedFailed) (outside : ∀ site, point ≠ .appending site) :
      Stepped state action (state.moveTo point)
  | checked (site : Site) (atSite : state.point = .checking site) : Stepped state .check (state.check site)
  | appended (site : Site) (atSite : state.point = .appending site) : Stepped state .append (state.append site)
  | terminates (idle : state.terminator = .idle) :
      Stepped state .terminate { state with terminated := true, terminator := .testing }
  | tested (testing : state.terminator = .testing) : Stepped state .terminateGetLastEvent
      { state with terminator := if state.lastFailed then .returned else .checking }
  | terminateChecked (checking : state.terminator = .checking) : Stepped state .terminateCheck state.terminateCheck
  | terminateAppended (appending : state.terminator = .appending) : Stepped state .terminateAppend
      { state with events := state.events ++ [.failed], terminator := .recorded }

section Moves

variable (state : State)

theorem follow_stepped {α : Type} (action : Action) (answer : Outcome α) (next : α → Point) (inTime : InTime state action)
    (levels : ∀ value, state.point.level ≤ (next value).level) (clean : ∀ value, (next value).recordedFailed = false)
    (outside : ∀ value site, next value ≠ .appending site)
    (early : state.point.level ≤ 5) (own : state.point.recordedFailed = false) :
    Stepped state action (state.follow answer next) := by
  cases answer with
  | returns value => exact .moved action (next value) inTime (levels value) ((clean value).trans own.symm) (outside value)
  | raises => exact .moved action .handling inTime early own.symm nofun
  | exits => exact .moved action (.ending false) inTime early own.symm nofun

theorem step_cases (br : BenchmarkRun) (action : Action) (next : State) (taken : step br state action = some next) :
    Stepped state action next := by
  cases action with
  | readCache answer =>
      simp only [step] at taken
      split at taken
      · rename_i start
        refine Option.some.inj taken ▸ follow_stepped state _ answer .read trivial ?_ ?_ nofun ?_ ?_ <;>
          simp [start, Point.level, Point.recordedFailed]
      · exact absurd taken nofun
  | lookAtResult answer =>
      simp only [step] at taken
      split at taken
      · rename_i retval read
        refine Option.some.inj taken ▸ follow_stepped state _ answer _ trivial ?_ ?_ nofun ?_ ?_ <;>
          simp [read, Point.level, Point.recordedFailed]
      · rename_i read
        split at taken
        · refine Option.some.inj taken ▸ follow_stepped state _ answer _ trivial ?_ ?_ nofun ?_ ?_ <;>
            simp [read, Point.level, Point.recordedFailed]
        · refine Option.some.inj taken ▸ .moved _ _ trivial ?_ ?_ nofun <;>
            simp [read, Point.level, Point.recordedFailed, Site.event, Status.rank]
      · exact absurd taken nofun
  | check =>
      simp only [step] at taken
      split at taken
      · rename_i site atSite
        exact Option.some.inj taken ▸ .checked site atSite
      · exact absurd taken nofun
  | append =>
      simp only [step] at taken
      split at taken
      · rename_i site atSite
        exact Option.some.inj taken ▸ .appended site atSite
      · exact absurd taken nofun
  | testTerminated =>
      simp only [step] at taken
      split at taken
      · rename_i acquiring
        split at taken
        · refine Option.some.inj taken ▸ .moved _ _ trivial ?_ ?_ nofun <;>
            simp [acquiring, Point.level, Point.recordedFailed, Site.event, Status.rank]
        · split at taken <;> refine Option.some.inj taken ▸ .moved _ _ trivial ?_ ?_ nofun <;>
            simp [acquiring, Point.level, Point.recordedFailed]
      · rename_i retval testing
        split at taken
        · refine Option.some.inj taken ▸ .moved _ _ trivial ?_ ?_ nofun <;>
            simp [testing, Point.level, Point.recordedFailed]
        · split at taken <;> refine Option.some.inj taken ▸ .moved _ _ trivial ?_ ?_ nofun <;>
            simp [testing, Point.level, Point.recordedFailed, Site.event, Status.rank]
      · exact absurd taken nofun
  | acquireMachine answer =>
      simp only [step] at taken
      split at taken
      · rename_i requesting
        refine Option.some.inj taken ▸ follow_stepped state _ answer _ trivial ?_ ?_ ?_ ?_ ?_
        · exact fun found => by cases found <;> simp [requesting, Point.level, Site.event, Status.rank]
        · exact fun found => by cases found <;> rfl
        · exact fun found site => by cases found <;> exact nofun
        · simp [requesting, Point.level]
        · simp [requesting, Point.recordedFailed]
      · exact absurd taken nofun
  | imageMachine answer =>
      simp only [step] at taken
      split at taken
      · rename_i imaging
        split at taken
        · refine Option.some.inj taken ▸ .moved _ _ trivial ?_ ?_ nofun <;>
            simp [imaging, Point.level, Point.recordedFailed, Site.event, Status.rank]
        · refine Option.some.inj taken ▸ follow_stepped state _ answer _ trivial ?_ ?_ nofun ?_ ?_ <;>
            simp [imaging, Point.level, Point.recordedFailed, Site.event, Status.rank]
      · exact absurd taken nofun
  | runSuite answer =>
      simp only [step] at taken
      split at taken
      · rename_i running
        refine Option.some.inj taken ▸ follow_stepped state _ answer _ trivial ?_ ?_ nofun ?_ ?_ <;>
          simp [running, Point.level, Point.recordedFailed]
      · exact absurd taken nofun
  | storeResult answer =>
      simp only [step] at taken
      split at taken
      · rename_i retval storing
        refine Option.some.inj taken ▸ follow_stepped state _ answer _ trivial ?_ ?_ nofun ?_ ?_ <;>
          simp [storing, Point.level, Point.recordedFailed]
      · exact absurd taken nofun
  | getChromeVersion answer =>
      simp only [step] at taken
      split at taken
      · rename_i retval versioning
        refine Option.some.inj taken ▸ follow_stepped state _ answer _ trivial ?_ ?_ nofun ?_ ?_ <;>
          simp [versioning, Point.level, Point.recordedFailed]
      · exact absurd taken nofun
  | getLastEvent =>
      simp only [step] at taken
      split at taken
      · rename_i testing
        refine Option.some.inj taken ▸ .moved _ _ trivial ?_ ?_ ?_ <;> split <;>
          simp [testing, Point.level, Point.recordedFailed, Site.event, Status.rank]
      · rename_i handling
        refine Option.some.inj taken ▸ .moved _ _ trivial ?_ ?_ ?_ <;> split <;>
          simp [handling, Point.level, Point.recordedFailed, Site.event, Status.rank]
      · exact absurd taken nofun
  | releaseMachine =>
      simp only [step] at taken
      split at taken
      · rename_i recorded ending
        refine Option.some.inj taken ▸ .moved _ _ trivial ?_ ?_ nofun <;> simp [ending, Point.level, Point.recordedFailed]
      · exact absurd taken nofun
  | terminate =>
      simp only [step] at taken
      split at taken
      · rename_i idle
        exact Option.some.inj taken ▸ .terminates idle
      · exact absurd taken nofun
  | terminateGetLastEvent =>
      simp only [step] at taken
      split at taken
      · rename_i testing
        exact Option.some.inj taken ▸ .tested testing
      · exact absurd taken nofun
  | terminateCheck =>
      simp only [step] at taken
      split at taken
      · rename_i checking
        exact Option.some.inj taken ▸ .terminateChecked checking
      · exact absurd taken nofun
  | terminateAppend =>
      simp only [step] at taken
      split at taken
      · rename_i appending
        exact Option.some.inj taken ▸ .terminateAppended appending
      · exact absurd taken nofun

theorem last_failed (last : state.lastFailed = true) : .failed ∈ state.events :=
  List.mem_of_getLast? (by simpa [State.lastFailed] using last)

theorem append_level (site : Site) : site.event = .failed ∨ site.event.rank < (state.append site).point.level := by
  cases site <;> simp [State.append, Site.event, Status.rank, Point.level]

theorem append_recorded (site : Site) :
    (state.append site).point.recordedFailed = true ↔ site.event = .failed := by
  cases site <;> simp [State.append, Site.event, Point.recordedFailed]

theorem append_keeps_level (site : Site) : site.event.rank ≤ (state.append site).point.level := by
  cases site <;> simp [State.append, Site.event, Status.rank, Point.level]

-- The run comes to each of its other events once, so that only FAILED can be there twice.
theorem fresh_event (timely : Timely state) (site : Site) (atSite : state.point = .checking site)
    (other : site.event ≠ .failed) : site.event ∉ state.events := by
  intro member
  obtain isFailed | below := timely.ranks site.event member
  · exact other isFailed
  · rw [atSite] at below
    exact absurd below (Nat.lt_irrefl _)

theorem initial_timely (br : BenchmarkRun) : Timely (initial br) := by
  have clean : (initial br).point.recordedFailed = false ∧ 0 < (initial br).point.level := by
    simp only [initial]
    split <;> exact ⟨rfl, Nat.one_pos⟩
  constructor
  · rfl
  · rw [clean.1]
    simp [initial]
  · simp [initial]
  · intro event member
    obtain rfl : event = .pending := by simpa [initial] using member
    exact .inr clean.2
  · exact nofun
  · exact nofun

theorem moved_timely (timely : Timely state) (point : Point) (level : state.point.level ≤ point.level)
    (same : point.recordedFailed = state.point.recordedFailed) : Timely (state.moveTo point) where
  passed := timely.passed
  failed := by rw [State.moveTo, same]; exact timely.failed
  last := timely.last
  ranks event member := (timely.ranks event member).imp_right fun below => Nat.lt_of_lt_of_le below level
  returned ended := same.trans (timely.returned ended)
  raised := timely.raised

theorem checked_timely (timely : Timely state) (site : Site) (atSite : state.point = .checking site)
    (inTime : InTime state .check) : Timely (state.check site) := by
  have fresh : site.event ∉ state.events := by
    by_cases other : site.event = .failed
    · rw [other, timely.failed, atSite]
      simpa [Point.recordedFailed] using inTime site (by rw [atSite]; rfl) other
    · exact fresh_event state timely site atSite other
  rw [State.check, if_neg (by simpa using fresh)]
  exact moved_timely state timely _ (by rw [atSite]; exact Nat.le_refl _) (by rw [atSite]; rfl)

theorem appended_timely (timely : Timely state) (site : Site) (atSite : state.point = .appending site)
    (inTime : InTime state .append) : Timely (state.append site) := by
  have before : state.point.recordedFailed = false := by rw [atSite]; rfl
  constructor
  · exact timely.passed
  · rw [append_recorded]
    have failed := timely.failed
    simp only [before, Bool.false_eq_true, or_false] at failed
    simp only [State.append, List.mem_append, List.mem_singleton, failed]
    exact or_congr_right eq_comm
  · intro member
    by_cases isFailed : site.event = .failed
    · simp [State.append, isFailed]
    · have recorded : .failed ∈ state.events := by
        simpa [State.append, Ne.symm isFailed] using member
      have terminated := timely.failed.mp recorded
      rw [before] at terminated
      exact absurd (terminated.resolve_right Bool.false_ne_true) (inTime site (by rw [atSite]; rfl) isFailed)
  · intro event member
    obtain earlier | last : event ∈ state.events ∨ event = site.event := by simpa [State.append] using member
    · refine (timely.ranks event earlier).imp_right fun below => ?_
      rw [atSite] at below
      exact Nat.lt_of_lt_of_le below (append_keeps_level state site)
    · exact last ▸ append_level state site
  · intro returned
    rw [timely.returned returned] at before
    exact absurd before nofun
  · exact timely.raised

theorem terminate_checked_timely (timely : Timely state) (checking : state.terminator = .checking)
    (inTime : InTime state .terminateCheck) : Timely state.terminateCheck := by
  have fresh : .failed ∉ state.events := by
    rw [timely.failed, checking, inTime]
    simp
  rw [State.terminateCheck, if_neg (by simpa using fresh)]
  have failed := timely.failed
  simp only [checking] at failed
  exact ⟨timely.passed, by simpa using failed, timely.last, timely.ranks, nofun, nofun⟩

theorem timely_step (br : BenchmarkRun) (action : Action) (next : State) (timely : Timely state)
    (inTime : InTime state action) (taken : step br state action = some next) : Timely next := by
  cases step_cases state br action next taken with
  | moved action point _ level same _ => exact moved_timely state timely point level same
  | checked site atSite => exact checked_timely state timely site atSite inTime
  | appended site atSite => exact appended_timely state timely site atSite inTime
  | terminates idle =>
      have failed := timely.failed
      simp only [idle] at failed
      exact ⟨timely.passed, by simpa using failed, timely.last, timely.ranks, nofun, nofun⟩
  | tested testing =>
      have failed := timely.failed
      simp only [testing] at failed
      refine ⟨timely.passed, ?_, timely.last, timely.ranks, fun returned => ?_, ?_⟩
      · split <;> simpa using failed
      · have last : state.lastFailed = true := by
          by_contra other
          simp [other] at returned
        simpa using failed.mp (last_failed state last)
      · split <;> exact nofun
  | terminateChecked checking => exact terminate_checked_timely state timely checking inTime
  | terminateAppended appending =>
      exact ⟨timely.passed, by simp, by simp,
        fun event member => by simpa [or_comm, or_assoc] using (List.mem_append.mp member).imp_left (timely.ranks event),
        nofun, nofun⟩

-- A Record(FAILED) that finds FAILED raises, and any other Record puts its event behind it.
theorem late_step_spoils (br : BenchmarkRun) (action : Action) (next : State) (timely : Timely state)
    (late : ¬ InTime state action) (taken : step br state action = some next) : Spoiled next := by
  cases step_cases state br action next taken with
  | moved action point inTime _ _ _ => exact absurd inTime late
  | checked site atSite =>
      obtain ⟨isFailed, recorded⟩ : site.event = .failed ∧ state.terminator = .recorded := by
        simpa [InTime, atSite, Point.checked] using late
      have member : site.event ∈ state.events := isFailed ▸ timely.failed.mpr (.inl recorded)
      rw [State.check, if_pos (by simpa using member)]
      exact .inl rfl
  | appended site atSite =>
      obtain ⟨otherEvent, recorded⟩ : site.event ≠ .failed ∧ state.terminator = .recorded := by
        simpa [InTime, atSite, Point.appended] using late
      refine .inr ⟨List.mem_append_left _ (timely.failed.mpr (.inl recorded)), ?_, recorded, fun following appending => ?_⟩
      · simpa [State.append] using otherEvent
      · cases site <;> exact absurd appending nofun
  | terminates _ => exact absurd trivial late
  | tested _ => exact absurd trivial late
  | terminateChecked checking =>
      have recorded : state.point.recordedFailed = true := by simpa [InTime] using late
      have member := timely.failed.mpr (.inr recorded)
      rw [State.terminateCheck, if_pos (by simpa using member)]
      exact .inl rfl
  | terminateAppended _ => exact absurd trivial late

theorem checked_stays_asserted (site : Site) (asserted : state.asserted = true) : (state.check site).asserted = true := by
  rw [State.check]
  split
  · rfl
  · exact asserted

theorem terminate_checked_stays_asserted (asserted : state.asserted = true) : state.terminateCheck.asserted = true := by
  rw [State.terminateCheck]
  split
  · rfl
  · exact asserted

theorem spoiled_step (br : BenchmarkRun) (action : Action) (next : State) (spoiled : Spoiled state)
    (taken : step br state action = some next) : Spoiled next := by
  obtain asserted | ⟨member, last, recorded, notFailed⟩ := spoiled
  · left
    cases step_cases state br action next taken with
    | moved _ _ _ _ _ _ => exact asserted
    | checked site _ => exact checked_stays_asserted state site asserted
    | appended _ _ => exact asserted
    | terminates _ => exact asserted
    | tested _ => exact asserted
    | terminateChecked _ => exact terminate_checked_stays_asserted state asserted
    | terminateAppended _ => exact asserted
  · cases step_cases state br action next taken with
    | moved _ point _ _ _ outside =>
        exact .inr ⟨member, last, recorded, fun site appending => absurd appending (outside site)⟩
    | checked site atSite =>
        rw [State.check]
        split
        · exact .inl rfl
        · rename_i absent
          refine .inr ⟨member, last, recorded, fun other appending isFailed => absent ?_⟩
          obtain rfl : site = other := Point.appending.inj appending
          rw [isFailed]
          simpa using member
    | appended site atSite =>
        refine .inr ⟨List.mem_append_left _ member, ?_, recorded, fun following appending => ?_⟩
        · simpa [State.append] using notFailed site atSite
        · cases site <;> exact absurd appending nofun
    | terminates idle => exact absurd (recorded.symm.trans idle) nofun
    | tested testing => exact absurd (recorded.symm.trans testing) nofun
    | terminateChecked checking => exact absurd (recorded.symm.trans checking) nofun
    | terminateAppended appending => exact absurd (recorded.symm.trans appending) nofun

theorem timely_ends_failed (timely : Timely state) (complete : Complete state) : EndsFailed state := by
  refine ⟨timely.passed, timely.last (timely.failed.mpr ?_)⟩
  cases ended : state.terminator with
  | recorded => exact .inl rfl
  | returned => exact .inr (timely.returned ended)
  | raised => exact absurd ended timely.raised
  | idle | testing | checking | appending => exact absurd complete.2 (by simp [ended, Terminator.done])

theorem spoiled_not_ends_failed (spoiled : Spoiled state) : ¬ EndsFailed state := by
  intro ends
  obtain asserted | ⟨_, last, _⟩ := spoiled
  · exact absurd (asserted.symm.trans ends.1) nofun
  · exact last ends.2

end Moves

theorem ends_failed_iff (br : BenchmarkRun) (actions : List Action) (finish : State)
    (run : exec (step br) (initial br) actions = some finish) (complete : Complete finish) :
    EndsFailed finish ↔ Along (step br) InTime (initial br) actions :=
  finish_iff_along (step br) InTime Timely Spoiled EndsFailed
    (fun state action next timely inTime taken => timely_step state br action next timely inTime taken)
    (fun state action next timely late taken => late_step_spoils state br action next timely late taken)
    (fun state action next spoiled taken => spoiled_step state br action next spoiled taken)
    actions (initial br) finish (fun timely => timely_ends_failed finish timely complete)
    (spoiled_not_ends_failed finish) (initial_timely br) run

def uncached : BenchmarkRun := { cacheOnly := false, ownerThread := false, cacheRead := none }

def recorded : List Action := [.check, .append]

def untilImaging : List Action :=
  [.readCache (.returns none), .lookAtResult (.returns ())] ++ recorded ++
    [.testTerminated, .acquireMachine (.returns true)] ++ recorded

def terminated : List Action := [.terminate, .terminateGetLastEvent, .terminateCheck, .terminateAppend]

def fromRunning : List Action :=
  [.storeResult (.returns ()), .getChromeVersion (.returns ()), .testTerminated, .releaseMachine]

-- Terminate comes while the test suite runs, and while the machine is imaged.
def terminatedRunning : List Action :=
  untilImaging ++ [.imageMachine (.returns ())] ++ recorded ++ terminated ++ [.runSuite (.returns 1)] ++ fromRunning

def terminatedImaging : List Action :=
  untilImaging ++ terminated ++ [.imageMachine (.returns ())] ++ recorded ++ [.runSuite (.returns 1)] ++ fromRunning

theorem terminated_suite_ends_failed : ∃ finish, exec (step uncached) (initial uncached) terminatedRunning = some finish ∧
    Complete finish ∧ EndsFailed finish :=
  ⟨_, rfl, ⟨⟨false, rfl⟩, rfl⟩,
    (ends_failed_iff uncached terminatedRunning _ rfl ⟨⟨false, rfl⟩, rfl⟩).mpr (by decide)⟩

theorem terminated_imaging_goes_on : ∃ finish, exec (step uncached) (initial uncached) terminatedImaging = some finish ∧
    Complete finish ∧ finish.events = [.pending, .waiting, .imaging, .failed, .running] ∧ ¬ EndsFailed finish :=
  ⟨_, rfl, ⟨⟨false, rfl⟩, rfl⟩, rfl, fun ends => absurd ends.2 (by decide)⟩

end ToolchainUtils.Crosperf.RunTimeline
