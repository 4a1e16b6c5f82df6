import ToolchainUtils.Transition

set_option autoImplicit false

namespace ToolchainUtils.Crosperf.RunTimeline

open Transition

inductive Status where
  | pending
  | waiting
  | imaging
  | running
  | succeeded
  | failed
deriving DecidableEq, Repr

-- The calls of Record in run and RunTest: four of one event each, the one for a return
-- value that is not zero, and the one of the exception handler.
inductive Site where
  | waiting
  | imaging
  | running
  | succeeded
  | nonZero
  | handler
deriving DecidableEq, Repr

def Site.event : Site → Status
  | .waiting => .waiting
  | .imaging => .imaging
  | .running => .running
  | .succeeded => .succeeded
  | .nonZero | .handler => .failed

-- Where run is. Record is two steps for another thread: its loop with the assert, and
-- the append. The finally clause knows whether this thread has recorded FAILED.
inductive Point where
  | start
  | read (result : Option Int)
  | checking (site : Site)
  | appending (site : Site)
  | acquiring
  | requesting
  | imagingMachine
  | runningSuite
  | storing (retval : Int)
  | versioning (retval : Int)
  | testingFlag (retval : Int)
  | testingLast
  | handling
  | ending (recorded : Bool)
  | finished (recorded : Bool)
deriving DecidableEq, Repr

def Point.recordedFailed : Point → Bool
  | .ending recorded => recorded
  | .finished recorded => recorded
  | _ => false

def Point.checked : Point → Option Site
  | .checking site => some site
  | _ => none

def Point.appended : Point → Option Site
  | .appending site => some site
  | _ => none

inductive Terminator where
  | idle
  | testing
  | checking
  | appending
  | recorded
  | returned
  | raised
deriving DecidableEq, Repr

def Terminator.done : Terminator → Bool
  | .recorded | .returned | .raised => true
  | _ => false

structure BenchmarkRun where
  cacheOnly : Bool
  ownerThread : Bool
  cacheRead : Option (Option Int)

structure State where
  events : List Status
  terminated : Bool
  point : Point
  terminator : Terminator
  asserted : Bool
deriving DecidableEq, Repr

-- LogFatal raises SystemExit, which the handler of run does not catch.
inductive Outcome (α : Type) where
  | returns (value : α)
  | raises
  | exits

inductive Action where
  | readCache (answer : Outcome (Option Int))
  | lookAtResult (answer : Outcome Unit)
  | check
  | append
  | testTerminated
  | acquireMachine (answer : Outcome Bool)
  | imageMachine (answer : Outcome Unit)
  | runSuite (answer : Outcome Int)
  | storeResult (answer : Outcome Unit)
  | getChromeVersion (answer : Outcome Unit)
  | getLastEvent
  | releaseMachine
  | terminate
  | terminateGetLastEvent
  | terminateCheck
  | terminateAppend

-- PENDING is recorded by __init__; in schedv2 mode a cache reader may have read the cache.
def initial (br : BenchmarkRun) : State where
  events := [.pending]
  terminated := false
  point := match br.cacheRead with
    | some result => .read result
    | none => .start
  terminator := .idle
  asserted := false

namespace State

variable (state : State)

def moveTo (point : Point) : State := { state with point := point }

def follow {α : Type} (answer : Outcome α) (next : α → Point) : State :=
  match answer with
  | .returns value => state.moveTo (next value)
  | .raises => state.moveTo .handling
  | .exits => state.moveTo (.ending false)

def lastFailed : Bool := state.events.getLast? == some .failed

-- A failed assert of Record goes to the handler, and out of it.
def check (site : Site) : State :=
  if state.events.contains site.event then
    { state with asserted := true, point := if site = .handler then .ending false else .handling }
  else state.moveTo (.appending site)

def append (site : Site) : State :=
  { state with
    events := state.events ++ [site.event]
    point := match site with
      | .waiting => .acquiring
      | .imaging => .imagingMachine
      | .running => .runningSuite
      | .succeeded => .ending false
      | .nonZero | .handler => .ending true }

def terminateCheck : State :=
  if state.events.contains .failed then { state with asserted := true, terminator := .raised }
  else { state with terminator := .appending }

end State

def step (br : BenchmarkRun) (state : State) : Action → Option State
  | .readCache answer =>
      match state.point with
      | .start => some (state.follow answer .read)
      | _ => none
  | .lookAtResult answer =>
      match state.point with
      | .read (some retval) => some (state.follow answer fun _ => .versioning retval)
      | .read none =>
          if br.cacheOnly then some (state.follow answer fun _ => .versioning 1)
          else some (state.moveTo (.checking .waiting))
      | _ => none
  | .check =>
      match state.point with
      | .checking site => some (state.check site)
      | _ => none
  | .append =>
      match state.point with
      | .appending site => some (state.append site)
      | _ => none
  | .testTerminated =>
      match state.point with
      | .acquiring =>
          if br.ownerThread then some (state.moveTo (.checking .imaging))
          else if state.terminated then some (state.moveTo .handling)
          else some (state.moveTo .requesting)
      | .testingFlag retval =>
          if state.terminated then some (state.moveTo (.ending false))
          else if retval = 0 then some (state.moveTo (.checking .succeeded))
          else some (state.moveTo .testingLast)
      | _ => none
  | .acquireMachine answer =>
      match state.point with
      | .requesting => some (state.follow answer fun found => if found then .checking .imaging else .acquiring)
      | _ => none
  | .imageMachine answer =>
      match state.point with
      | .imagingMachine =>
          if br.ownerThread then some (state.moveTo (.checking .running))
          else some (state.follow answer fun _ => .checking .running)
      | _ => none
  | .runSuite answer =>
      match state.point with
      | .runningSuite => some (state.follow answer .storing)
      | _ => none
  | .storeResult answer =>
      match state.point with
      | .storing retval => some (state.follow answer fun _ => .versioning retval)
      | _ => none
  | .getChromeVersion answer =>
      match state.point with
      | .versioning retval => some (state.follow answer fun _ => .testingFlag retval)
      | _ => none
  | .getLastEvent =>
      match state.point with
      | .testingLast => some (state.moveTo (if state.lastFailed then .ending false else .checking .nonZero))
      | .handling => some (state.moveTo (if state.lastFailed then .ending false else .checking .handler))
      | _ => none
  | .releaseMachine =>
      match state.point with
      | .ending recorded => some (state.moveTo (.finished recorded))
      | _ => none
  | .terminate =>
      match state.terminator with
      | .idle => some { state with terminated := true, terminator := .testing }
      | _ => none
  | .terminateGetLastEvent =>
      match state.terminator with
      | .testing => some { state with terminator := if state.lastFailed then .returned else .checking }
      | _ => none
  | .terminateCheck =>
      match state.terminator with
      | .checking => some state.terminateCheck
      | _ => none
  | .terminateAppend =>
      match state.terminator with
      | .appending => some { state with events := state.events ++ [.failed], terminator := .recorded }
      | _ => none

end ToolchainUtils.Crosperf.RunTimeline
