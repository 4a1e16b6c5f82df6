import Mathlib.Data.List.Forall2
import ToolchainUtils.Automation.EventHistory

set_option autoImplicit false

namespace ToolchainUtils.Automation.EventHistory

open PyString

variable {Event : Type}

-- A transition against the event that it starts from.
structure Carried (transition : EventRecord (EventTransition Event)) (record : EventRecord Event) : Prop where
  source : transition.event.from_ = record.event
  elapsed : ∀ now, transition.timeElapsed now = record.timeElapsed now
  finished : transition.hasFinished = record.hasFinished

-- A history without events has no total.
structure TrueReports (formatted : Int → Text) (eventText : Event → Text) (clock : Clock) (history : EventHistory Event) : Prop where
  eventReport : (history.getEventReport formatted eventText clock).isSome = true
  transitionReport : (history.getTransitionEventReport formatted eventText clock).isSome = true
  transitions : List.Forall₂ Carried (history.getTransitionEventHistory clock)
    (history.take (history.getTransitionEventHistory clock).length)
  eventTotal : ∀ total ∈ history.getTotalTime clock,
    total = Timedelta.ofSeconds (history.sumFrom Timedelta.wholeSeconds (clock .total) 0)
  transitionTotal : ∀ total ∈ (history.getTransitionEventHistory clock).getTotalTime clock,
    total = Timedelta.ofSeconds (EventHistory.sumFrom Timedelta.wholeSeconds (clock .total) 0
      (history.take (history.getTransitionEventHistory clock).length))

def Short (record : EventRecord Event) : Prop := ∀ elapsed ∈ record.recordedElapsed, elapsed < Timedelta.day

def WholeSeconds (record : EventRecord Event) : Prop :=
  ∀ elapsed ∈ record.recordedElapsed, elapsed ≠ 0 ∧ Timedelta.second ∣ elapsed

structure Reportable (history : EventHistory Event) : Prop where
  finished : ∀ last ∈ history.getLast?, last.hasFinished = true
  short : ∀ record ∈ history, Short record
  whole : ∀ record ∈ history.dropLast, WholeSeconds record

theorem seconds_whole_iff (elapsed : Int) (nonneg : 0 ≤ elapsed) :
    (Timedelta.mk elapsed).seconds = (Timedelta.mk elapsed).wholeSeconds ↔ elapsed < Timedelta.day := by
  simp only [Timedelta.seconds, Timedelta.wholeSeconds, Timedelta.day, Timedelta.second]
  omega

theorem seconds_at_most_whole (elapsed : Int) (nonneg : 0 ≤ elapsed) :
    (Timedelta.mk elapsed).seconds ≤ (Timedelta.mk elapsed).wholeSeconds := by
  simp only [Timedelta.seconds, Timedelta.wholeSeconds, Timedelta.day, Timedelta.second]
  omega

theorem seconds_exact_iff (elapsed : Int) (nonneg : 0 ≤ elapsed) :
    (Timedelta.mk elapsed).seconds * Timedelta.second = elapsed ↔ Timedelta.second ∣ elapsed ∧ elapsed < Timedelta.day := by
  simp only [Timedelta.seconds, Timedelta.day, Timedelta.second]
  omega

theorem elapsed_finished (record : EventRecord Event) (elapsed now : Int) (found : record.recordedElapsed = some elapsed) :
    record.timeElapsed now = ⟨elapsed⟩ := by
  rw [EventRecord.timeElapsed, found, Option.getD_some]

-- An elapsed time of zero is lost, and the others lose what is no whole second of a day.
theorem carried_iff (clock : Clock) (num : Nat) (record : EventRecord Event) (to_ : Option Event) (elapsed : Int)
    (found : record.recordedElapsed = some elapsed) (nonneg : 0 ≤ elapsed) :
    Carried (transitionRecord clock num record to_) record ↔ WholeSeconds record ∧ Short record := by
  have whole : WholeSeconds record ∧ Short record ↔ elapsed ≠ 0 ∧ Timedelta.second ∣ elapsed ∧ elapsed < Timedelta.day := by
    simp only [WholeSeconds, Short, found, Option.mem_some_iff, forall_eq', and_assoc]
  rw [whole, ← seconds_exact_iff elapsed nonneg, transitionRecord, EventRecord.init, elapsed_finished record elapsed _ found]
  by_cases zero : elapsed = 0
  · have unset : (some (Timedelta.mk elapsed)).filter Timedelta.isTrue = none := by
      simp [Timedelta.isTrue, zero]
    rw [unset, Option.elim_none]
    refine iff_of_false (fun carried => ?_) (fun both => both.1 zero)
    have same := carried.finished
    rw [EventRecord.hasFinished, EventRecord.hasFinished, found] at same
    cases same
  · have set : (some (Timedelta.mk elapsed)).filter Timedelta.isTrue = some ⟨elapsed⟩ := by
      simp [Timedelta.isTrue, zero]
    rw [set, Option.elim_some, and_iff_right zero]
    constructor
    · intro carried
      have same := carried.elapsed 0
      rw [elapsed_finished record elapsed 0 found] at same
      exact Timedelta.mk.inj same
    · intro exactly
      refine ⟨rfl, fun now => ?_, ?_⟩
      · rw [elapsed_finished record elapsed now found]
        exact congrArg Timedelta.mk exactly
      · rw [EventRecord.hasFinished, EventRecord.hasFinished, found]
        rfl

theorem report_lines_iff (formatted : Int → Text) (eventText : Event → Text) (clock : Clock) (num : Nat)
    (history : EventHistory Event) :
    (reportLines formatted eventText clock num history).isSome = true ↔ ∀ record ∈ history, record.hasFinished = true := by
  induction history generalizing num with
  | nil => exact iff_of_true rfl (List.forall_mem_nil _)
  | cons record rest ih =>
      rw [reportLines, List.forall_mem_cons, ← ih (num + 1)]
      by_cases finished : record.hasFinished = true
      · rw [if_pos finished, Option.isSome_map, and_iff_right finished]
      · rw [if_neg finished]
        exact iff_of_false Bool.false_ne_true fun both => finished both.1

theorem report_iff (formatted : Int → Text) (eventText : Event → Text) (clock : Clock) (name : Text) (history : EventHistory Event) :
    (getReport formatted eventText clock name history).isSome = true ↔ ∀ record ∈ history, record.hasFinished = true := by
  rw [getReport, Option.isSome_map, report_lines_iff]

def Settled (record : EventRecord Event) : Prop := ∃ elapsed, record.recordedElapsed = some elapsed ∧ 0 ≤ elapsed

theorem short_iff (record : EventRecord Event) (elapsed : Int) (found : record.recordedElapsed = some elapsed) :
    Short record ↔ elapsed < Timedelta.day := by
  simp only [Short, found, Option.mem_some_iff, forall_eq']

theorem sum_at_most_whole (clock : Nat → Int) (num : Nat) (history : EventHistory Event)
    (settled : ∀ record ∈ history, Settled record) :
    history.sumFrom Timedelta.seconds clock num ≤ history.sumFrom Timedelta.wholeSeconds clock num := by
  induction history generalizing num with
  | nil => exact le_refl 0
  | cons record rest ih =>
      obtain ⟨⟨elapsed, found, nonneg⟩, others⟩ := List.forall_mem_cons.mp settled
      rw [sumFrom, sumFrom, elapsed_finished record elapsed _ found]
      exact add_le_add (seconds_at_most_whole elapsed nonneg) (ih (num + 1) others)

-- No day may be dropped.
theorem sum_whole_iff (clock : Nat → Int) (num : Nat) (history : EventHistory Event) (settled : ∀ record ∈ history, Settled record) :
    history.sumFrom Timedelta.seconds clock num = history.sumFrom Timedelta.wholeSeconds clock num ↔
      ∀ record ∈ history, Short record := by
  induction history generalizing num with
  | nil => exact iff_of_true rfl (List.forall_mem_nil _)
  | cons record rest ih =>
      obtain ⟨⟨elapsed, found, nonneg⟩, others⟩ := List.forall_mem_cons.mp settled
      have here := seconds_at_most_whole elapsed nonneg
      have later := sum_at_most_whole clock (num + 1) rest others
      rw [List.forall_mem_cons, short_iff record elapsed found, ← seconds_whole_iff elapsed nonneg, ← ih (num + 1) others,
        sumFrom, sumFrom, elapsed_finished record elapsed _ found]
      omega

theorem total_iff (clock : Clock) (history : EventHistory Event) (settled : ∀ record ∈ history, Settled record) :
    (∀ total ∈ history.getTotalTime clock,
      total = Timedelta.ofSeconds (history.sumFrom Timedelta.wholeSeconds (clock .total) 0)) ↔ ∀ record ∈ history, Short record := by
  rw [getTotalTime]
  by_cases empty : history = []
  · rw [if_pos empty, empty]
    exact iff_of_true (by simp) (List.forall_mem_nil _)
  · rw [if_neg empty, ← sum_whole_iff (clock .total) 0 history settled]
    simp only [Option.mem_some_iff, forall_eq', Timedelta.ofSeconds, Timedelta.mk.injEq, Timedelta.second]
    omega

-- A transition for each event but the last.
theorem transitions_length (clock : Clock) (num : Nat) (history : EventHistory Event)
    (finished : ∀ record ∈ history, record.hasFinished = true) : (transitionsFrom clock num history).length = history.length - 1 := by
  induction history generalizing num with
  | nil => rfl
  | cons record rest ih =>
      obtain ⟨here, others⟩ := List.forall_mem_cons.mp finished
      cases rest with
      | nil => rw [transitionsFrom, if_pos here, List.length_nil, List.length_singleton]
      | cons following rest =>
          rw [transitionsFrom, List.length_cons, ih (num + 1) others, List.length_cons, List.length_cons, Nat.add_sub_cancel,
            Nat.add_sub_cancel, List.length_cons]

theorem transitions_carried_iff (clock : Clock) (num : Nat) (history : EventHistory Event)
    (settled : ∀ record ∈ history, Settled record) :
    List.Forall₂ Carried (transitionsFrom clock num history) history.dropLast ↔
      ∀ record ∈ history.dropLast, WholeSeconds record ∧ Short record := by
  induction history generalizing num with
  | nil => exact iff_of_true .nil (List.forall_mem_nil _)
  | cons record rest ih =>
      obtain ⟨⟨elapsed, found, nonneg⟩, others⟩ := List.forall_mem_cons.mp settled
      cases rest with
      | nil =>
          rw [transitionsFrom, if_pos (by rw [EventRecord.hasFinished, found, Option.isSome_some])]
          exact iff_of_true .nil (List.forall_mem_nil _)
      | cons following rest =>
          rw [transitionsFrom, List.dropLast_cons_cons, List.forall₂_cons, List.forall_mem_cons,
            carried_iff clock num record _ elapsed found nonneg, ih (num + 1) others]

-- What the transitions add up to is what their events add up to.
theorem sum_carried (read : Timedelta → Int) (clock : Nat → Int) (num : Nat) (transitions : EventHistory (EventTransition Event))
    (records : EventHistory Event) (carried : List.Forall₂ Carried transitions records) :
    transitions.sumFrom read clock num = records.sumFrom read clock num := by
  induction carried generalizing num with
  | nil => rfl
  | cons same _ ih => rw [sumFrom, sumFrom, same.elapsed, ih]

theorem carried_finished (transitions : EventHistory (EventTransition Event)) (records : EventHistory Event)
    (carried : List.Forall₂ Carried transitions records) (finished : ∀ record ∈ records, record.hasFinished = true) :
    ∀ transition ∈ transitions, transition.hasFinished = true := by
  induction carried with
  | nil => exact List.forall_mem_nil _
  | cons same _ ih =>
      obtain ⟨here, others⟩ := List.forall_mem_cons.mp finished
      exact List.forall_mem_cons.mpr ⟨same.finished.trans here, ih others⟩

theorem carried_total (clock : Clock) (transitions : EventHistory (EventTransition Event)) (records : EventHistory Event)
    (carried : List.Forall₂ Carried transitions records) (settled : ∀ record ∈ records, Settled record)
    (short : ∀ record ∈ records, Short record) (total : Timedelta) (given : total ∈ transitions.getTotalTime clock) :
    total = Timedelta.ofSeconds (records.sumFrom Timedelta.wholeSeconds (clock .total) 0) := by
  rw [getTotalTime] at given
  obtain ⟨-, same⟩ := Option.ite_none_left_eq_some.mp given
  rw [← Option.some.inj same, sum_carried _ _ _ transitions records carried, (sum_whole_iff _ 0 records settled).mpr short]

theorem all_finished (now : Int) (history : EventHistory Event) (built : Built now history)
    (last : ∀ last ∈ history.getLast?, last.hasFinished = true) : ∀ record ∈ history, record.hasFinished = true := by
  intro record member
  obtain ⟨place, found⟩ := List.mem_iff_getElem?.mp member
  by_cases inner : place + 1 < history.length
  · exact built_finished now history built place record found inner
  · apply last record
    have inside := (List.getElem?_eq_some_iff.mp found).1
    rw [Option.mem_def, List.getLast?_eq_getElem?, ← found]
    congr 1
    omega

theorem settled_of (now : Int) (history : EventHistory Event) (built : Built now history)
    (finished : ∀ record ∈ history, record.hasFinished = true) : ∀ record ∈ history, Settled record := by
  intro record member
  obtain ⟨elapsed, found⟩ := Option.isSome_iff_exists.mp (finished record member)
  exact ⟨elapsed, found, (built_timely now history built record member).2 elapsed found⟩

theorem reports_true_iff (formatted : Int → Text) (eventText : Event → Text) (now : Int) (history : EventHistory Event)
    (built : Built now history) (clock : Clock) : TrueReports formatted eventText clock history ↔ Reportable history := by
  have shorter : (∀ record ∈ history, record.hasFinished = true) →
      history.take (history.getTransitionEventHistory clock).length = history.dropLast := by
    intro finished
    rw [List.dropLast_eq_take, getTransitionEventHistory, transitions_length clock 0 history finished]
  constructor
  · intro reports
    have finished := (report_iff formatted eventText clock _ history).mp reports.eventReport
    have settled := settled_of now history built finished
    have transitions := reports.transitions
    rw [shorter finished] at transitions
    have carried := (transitions_carried_iff clock 0 history settled).mp transitions
    exact ⟨fun last given => finished last (List.mem_of_getLast? given), (total_iff clock history settled).mp reports.eventTotal,
      fun record member => (carried record member).1⟩
  · intro reportable
    have finished := all_finished now history built reportable.finished
    have settled := settled_of now history built finished
    have inner : ∀ record ∈ history.dropLast, record ∈ history := fun _ member => (List.dropLast_sublist history).subset member
    have carried : List.Forall₂ Carried (history.getTransitionEventHistory clock) history.dropLast :=
      (transitions_carried_iff clock 0 history settled).mpr fun record member =>
        ⟨reportable.whole record member, reportable.short record (inner record member)⟩
    have further := carried_finished _ _ carried fun record member => finished record (inner record member)
    refine ⟨(report_iff formatted eventText clock _ history).mpr finished, (report_iff formatted _ clock _ _).mpr further, ?_,
      (total_iff clock history settled).mpr reportable.short, ?_⟩
    · rw [shorter finished]
      exact carried
    · rw [shorter finished]
      exact carried_total clock _ _ carried (fun record member => settled record (inner record member))
        fun record member => reportable.short record (inner record member)

-- A second event that took one second and a half.
def twoEvents : EventHistory Text :=
  [⟨"a".toList, 1000000, some 2000000⟩, ⟨"b".toList, 3000000, some 1500000⟩]

theorem two_events_built : Built 4500000 twoEvents :=
  .finish 3000000 4500000 1 _ (.addEvent 1000000 3000000 3000000 "b".toList _
    (.addEvent 0 1000000 1000000 "a".toList [] (.start 0) (by decide) (by decide)) (by decide) (by decide)) (by decide)

theorem two_events_reported : TrueReports (fun _ => []) id (fun _ _ => 5000000) twoEvents :=
  (reports_true_iff (fun _ => []) id 4500000 twoEvents two_events_built fun _ _ => 5000000).mpr
    ⟨by simp [twoEvents, EventRecord.hasFinished], by simp [twoEvents, Short, Timedelta.day],
      by simp [twoEvents, WholeSeconds, Timedelta.second]⟩

def runningEvent : EventHistory Text := [⟨"a".toList, 1000000, none⟩]

theorem running_event_raises :
    Built 1000000 runningEvent ∧ ¬ TrueReports (fun _ => []) id (fun _ _ => 2000000) runningEvent := by
  refine ⟨.addEvent 0 1000000 1000000 "a".toList [] (.start 0) (by decide) (by decide), fun reports => ?_⟩
  have finished := (report_iff _ _ _ _ _).mp reports.eventReport
  exact Bool.false_ne_true (finished _ List.mem_cons_self)

end ToolchainUtils.Automation.EventHistory
