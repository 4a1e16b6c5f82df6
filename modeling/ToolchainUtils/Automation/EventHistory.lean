import Mathlib.Algebra.Order.Ring.Int
import ToolchainUtils.PyString

set_option autoImplicit false

namespace ToolchainUtils.Automation

open PyString

-- A time difference in microseconds, the resolution of a timedelta.
structure Timedelta where
  micros : Int
deriving DecidableEq, Repr

namespace Timedelta

def second : Int := 1000000

def day : Int := 86400000000

def ofSeconds (seconds : Int) : Timedelta := ⟨seconds * second⟩

def days (delta : Timedelta) : Int := delta.micros / day

-- The seconds field, without the days.
def seconds (delta : Timedelta) : Int := delta.micros % day / second

def microseconds (delta : Timedelta) : Int := delta.micros % second

def wholeSeconds (delta : Timedelta) : Int := delta.micros / second

def isTrue (delta : Timedelta) : Bool := delta.micros ≠ 0

def padded (width n : Nat) : Text := List.replicate (width - (str n).length) '0' ++ str n

def clockText (seconds : Nat) : Text :=
  str (seconds / 3600) ++ [':'] ++ padded 2 (seconds / 60 % 60) ++ [':'] ++ padded 2 (seconds % 60)

def text (delta : Timedelta) : Text :=
  (if delta.days = 0 then []
    else strInt delta.days ++ (if delta.days.natAbs = 1 then " day, ".toList else " days, ".toList)) ++
    clockText delta.seconds.toNat ++
    (if delta.microseconds = 0 then [] else ['.'] ++ padded 6 delta.microseconds.toNat)

example : (Timedelta.mk 90061000005).text = "1 day, 1:01:01.000005".toList := by decide

end Timedelta

-- The clock of time.time() counts microseconds.
structure EventRecord (Event : Type) where
  event : Event
  timeStarted : Int
  recordedElapsed : Option Int
deriving DecidableEq, Repr

namespace EventRecord

variable {Event : Type}

def hasFinished (record : EventRecord Event) : Bool := record.recordedElapsed.isSome

def timeElapsed (now : Int) (record : EventRecord Event) : Timedelta :=
  ⟨record.recordedElapsed.getD (now - record.timeStarted)⟩

def setTimeElapsed (elapsed : Timedelta) (record : EventRecord Event) : EventRecord Event :=
  { record with recordedElapsed := some (elapsed.seconds * Timedelta.second) }

-- A start at 0 and an elapsed time of 0 count as not given.
def init (now : Int) (event : Event) (timeStarted : Option Int) (timeElapsed : Option Timedelta) : EventRecord Event :=
  let started : EventRecord Event := ⟨event, (timeStarted.filter (· ≠ 0)).getD now, none⟩
  (timeElapsed.filter Timedelta.isTrue).elim started started.setTimeElapsed

def getTimeElapsedRounded (now : Int) (record : EventRecord Event) : Timedelta :=
  Timedelta.ofSeconds (record.timeElapsed now).seconds

def finish (now : Int) (record : EventRecord Event) : EventRecord Event :=
  if record.hasFinished then record else { record with recordedElapsed := some (now - record.timeStarted) }

end EventRecord

abbrev EventHistory (Event : Type) := List (EventRecord Event)

-- The end point 'NOW' is none.
structure EventTransition (Event : Type) where
  from_ : Event
  to_ : Option Event
deriving DecidableEq, Repr

def EventTransition.text {Event : Type} (eventText : Event → Text) (transition : EventTransition Event) : Text :=
  eventText transition.from_ ++ " => ".toList ++ transition.to_.elim "NOW".toList eventText

-- What the time is used for. With the number of its record this tells the calls of time.time()
-- that one method makes apart.
inductive TimeUse where
  | started
  | elapsed
  | line
  | total
deriving DecidableEq, Repr

abbrev Clock := TimeUse → Nat → Int

namespace EventHistory

variable {Event : Type}

def finishEvent (now : Int) (num : Nat) (history : EventHistory Event) : EventHistory Event :=
  history.modify num fun record => record.finish now

-- The clock is read by last.Finish and by the new record.
def addEvent (finished started : Int) (event : Event) (history : EventHistory Event) : EventHistory Event :=
  finishEvent finished (history.length - 1) history ++ [EventRecord.init started event none none]

def sumFrom (read : Timedelta → Int) (clock : Nat → Int) : Nat → EventHistory Event → Int
  | _, [] => 0
  | num, record :: rest => read (record.timeElapsed (clock num)) + sumFrom read clock (num + 1) rest

def getTotalTime (clock : Clock) (history : EventHistory Event) : Option Timedelta :=
  if history = [] then none else some (Timedelta.ofSeconds (sumFrom Timedelta.seconds (clock .total) 0 history))

def transitionRecord (clock : Clock) (num : Nat) (record : EventRecord Event) (to_ : Option Event) :
    EventRecord (EventTransition Event) :=
  EventRecord.init (clock .started num) ⟨record.event, to_⟩ (some record.timeStarted)
    (some (record.timeElapsed (clock .elapsed num)))

-- The last event has a transition to 'NOW' while it has not finished.
def transitionsFrom (clock : Clock) : Nat → EventHistory Event → EventHistory (EventTransition Event)
  | _, [] => []
  | num, [last] => if last.hasFinished then [] else [transitionRecord clock num last none]
  | num, record :: following :: rest =>
      transitionRecord clock num record (some following.event) :: transitionsFrom clock (num + 1) (following :: rest)

def getTransitionEventHistory (clock : Clock) (history : EventHistory Event) : EventHistory (EventTransition Event) :=
  transitionsFrom clock 0 history

section Report

-- time.strftime of a start, and str of an event.
variable (formatted : Int → Text) (eventText : Event → Text)

def reportLine (clock : Clock) (num : Nat) (record : EventRecord Event) : Text :=
  str (num + 1) ++ ") ".toList ++ formatted record.timeStarted ++ ": ".toList ++ eventText record.event ++ ": ".toList ++
    (record.getTimeElapsedRounded (clock .line num)).text

-- A str has no append: none stands for the AttributeError of an event that has not finished.
def reportLines (clock : Clock) : Nat → EventHistory Event → Option (List Text)
  | _, [] => some []
  | num, record :: rest =>
      if record.hasFinished then
        (reportLines clock (num + 1) rest).map fun lines => reportLine formatted eventText clock num record :: lines
      else none

def totalLine (total : Option Timedelta) : Text := "Total Time: ".toList ++ total.elim "None".toList Timedelta.text

def getReport (clock : Clock) (reportName : Text) (history : EventHistory Event) : Option Text :=
  (reportLines formatted eventText clock 0 history).map fun lines =>
    ['\n'].intercalate (reportName :: lines ++ [totalLine (history.getTotalTime clock)])

def getEventReport (clock : Clock) (history : EventHistory Event) : Option Text :=
  getReport formatted eventText clock "Timeline of events:".toList history

def getTransitionEventReport (clock : Clock) (history : EventHistory Event) : Option Text :=
  getReport formatted (EventTransition.text eventText) clock "Timeline of transition events:".toList
    (history.getTransitionEventHistory clock)

end Report

-- The histories that calls of AddEvent and Finish build while time goes on, and the time of the
-- last call.
inductive Built : Int → EventHistory Event → Prop
  | start (now : Int) : Built now []
  | addEvent (now finished started : Int) (event : Event) (history : EventHistory Event) (built : Built now history)
      (before : now ≤ finished) (after : finished ≤ started) : Built started (history.addEvent finished started event)
  | finish (now later : Int) (num : Nat) (history : EventHistory Event) (built : Built now history) (before : now ≤ later) :
      Built later (history.finishEvent later num)

-- No record is in the future, and no elapsed time is negative.
def Timely (now : Int) (record : EventRecord Event) : Prop :=
  record.timeStarted ≤ now ∧ ∀ elapsed ∈ record.recordedElapsed, 0 ≤ elapsed

theorem timely_later (now later : Int) (record : EventRecord Event) (timely : Timely now record) (before : now ≤ later) :
    Timely later record := ⟨timely.1.trans before, timely.2⟩

theorem finish_timely (now : Int) (record : EventRecord Event) (timely : Timely now record) : Timely now (record.finish now) := by
  rw [EventRecord.finish]
  split
  · exact timely
  · refine ⟨timely.1, fun elapsed same => ?_⟩
    cases same
    exact sub_nonneg.mpr timely.1

theorem mem_finish_event (now : Int) (num : Nat) (history : EventHistory Event) (record : EventRecord Event)
    (member : record ∈ history.finishEvent now num) : record ∈ history ∨ ∃ old ∈ history, record = old.finish now := by
  obtain ⟨place, found⟩ := List.mem_iff_getElem?.mp member
  rw [finishEvent, List.getElem?_modify] at found
  obtain ⟨old, inside, same⟩ := Option.map_eq_some_iff.mp found
  have listed := List.mem_of_getElem? inside
  split at same
  · exact .inr ⟨old, listed, same.symm⟩
  · exact .inl (same ▸ listed)

theorem finish_event_timely (now later : Int) (num : Nat) (history : EventHistory Event) (before : now ≤ later)
    (timely : ∀ record ∈ history, Timely now record) : ∀ record ∈ history.finishEvent later num, Timely later record := by
  intro record member
  rcases mem_finish_event later num history record member with same | ⟨old, inside, rfl⟩
  · exact timely_later now later record (timely record same) before
  · exact finish_timely later old (timely_later now later old (timely old inside) before)

theorem built_timely (now : Int) (history : EventHistory Event) (built : Built now history) :
    ∀ record ∈ history, Timely now record := by
  induction built with
  | start now => exact List.forall_mem_nil _
  | addEvent now finished started event history built before after ih =>
      intro record member
      rcases List.mem_append.mp member with old | fresh
      · have timely := finish_event_timely now finished (history.length - 1) history before ih record old
        exact timely_later finished started record timely after
      · obtain rfl := List.mem_singleton.mp fresh
        exact ⟨le_refl started, by rintro elapsed ⟨⟩⟩
  | finish now later num history built before ih => exact finish_event_timely now later num history before ih

theorem finish_finished (now : Int) (record : EventRecord Event) : (record.finish now).hasFinished = true := by
  rw [EventRecord.finish]
  split
  · assumption
  · rfl

theorem finish_event_at (now : Int) (num place : Nat) (history : EventHistory Event) (record : EventRecord Event)
    (found : (history.finishEvent now num)[place]? = some record) :
    ∃ old, history[place]? = some old ∧ record = if num = place then old.finish now else old := by
  rw [finishEvent, List.getElem?_modify] at found
  obtain ⟨old, inside, same⟩ := Option.map_eq_some_iff.mp found
  exact ⟨old, inside, same.symm⟩

-- Only the last event may still be running.
theorem built_finished (now : Int) (history : EventHistory Event) (built : Built now history) (place : Nat)
    (record : EventRecord Event) (found : history[place]? = some record) (inner : place + 1 < history.length) :
    record.hasFinished = true := by
  induction built generalizing record with
  | start now => cases found
  | addEvent now finished started event history built before after ih =>
      rw [addEvent, List.length_append, finishEvent, List.length_modify, List.length_singleton] at inner
      rw [addEvent, List.getElem?_append_left (by rw [finishEvent, List.length_modify]; omega)] at found
      obtain ⟨old, inside, rfl⟩ := finish_event_at finished (history.length - 1) place history record found
      split
      · exact finish_finished finished old
      · exact ih old inside (by omega)
  | finish now later num history built before ih =>
      rw [finishEvent, List.length_modify] at inner
      obtain ⟨old, inside, rfl⟩ := finish_event_at later num place history record found
      split
      · exact finish_finished later old
      · exact ih old inside inner

end EventHistory

end ToolchainUtils.Automation
