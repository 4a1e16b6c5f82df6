import ToolchainUtils.Bestflags.TaskWork

set_option autoImplicit false

namespace ToolchainUtils.Bestflags.TaskWork

open PyString

-- A try that counts as failed without leaving the loop.
def quiet : Outcome → Bool
  | .printed out _ => out == [] || strip out == errorString
  | .raised => false

def firstSpoken (outcomes : List Outcome) : Option Outcome := outcomes.find? fun outcome => !quiet outcome

section Tries

variable {Got : Type} (read : Text → Except Raised (Got × Text))

theorem quiet_iff (out err : Text) : quiet (.printed out err) = false ↔ out ≠ [] ∧ strip out ≠ errorString := by
  rw [quiet, Bool.or_eq_false_iff, beq_eq_false_iff_ne, beq_eq_false_iff_ne]

theorem first_spoken_cons (outcome : Outcome) (rest : List Outcome) :
    firstSpoken (outcome :: rest) = if quiet outcome then firstSpoken rest else some outcome := by
  rw [firstSpoken, List.find?_cons]
  cases quiet outcome <;> rfl

theorem tries_raised (outcomes : List Outcome) (locals : Locals Got) (spoken : firstSpoken outcomes = some .raised) :
    runTries read outcomes locals = .error .ofCommand := by
  induction outcomes generalizing locals with
  | nil => exact absurd spoken nofun
  | cons outcome rest ih =>
      cases outcome with
      | raised => rfl
      | printed out err =>
          rw [first_spoken_cons] at spoken
          split at spoken
          · rename_i silent
            rw [runTries, if_neg fun loud => absurd ((quiet_iff out err).mpr loud) (by rw [silent]; decide), ih _ spoken]
          · exact absurd spoken nofun

theorem tries_printed (outcomes : List Outcome) (locals : Locals Got) (out err : Text)
    (spoken : firstSpoken outcomes = some (.printed out err)) :
    runTries read outcomes locals = (read (strip out)).map fun printed => ⟨some printed.1, some printed.2, some err⟩ := by
  induction outcomes generalizing locals with
  | nil => exact absurd spoken nofun
  | cons outcome rest ih =>
      rw [first_spoken_cons] at spoken
      split at spoken
      · rename_i silent
        cases outcome with
        | raised => exact absurd silent nofun
        | printed here log =>
            rw [runTries, if_neg fun loud => absurd ((quiet_iff here log).mpr loud) (by rw [silent]; decide), ih _ spoken]
      · rename_i loud
        rw [Option.some.inj spoken] at loud ⊢
        rw [runTries, if_pos ((quiet_iff out err).mp (Bool.eq_false_iff.mpr loud))]

theorem tries_quiet (outcomes : List Outcome) (locals : Locals Got) (nonempty : outcomes ≠ [])
    (silent : firstSpoken outcomes = none) :
    ∃ err, runTries read outcomes locals = .ok { locals with cost := some errorString, err := some err } := by
  induction outcomes generalizing locals with
  | nil => exact absurd rfl nonempty
  | cons outcome rest ih =>
      rw [first_spoken_cons] at silent
      split at silent
      · rename_i still
        cases outcome with
        | raised => exact absurd still nofun
        | printed out log =>
            rw [runTries, if_neg fun loud => absurd ((quiet_iff out log).mpr loud) (by rw [still]; decide)]
            by_cases final : rest = []
            · rw [final]
              exact ⟨log, rfl⟩
            · exact ih _ final silent
      · exact absurd silent nofun

end Tries

-- The cost that a try printed, none for a try that failed.
def printedCost : Stage → Outcome → Option FloatText
  | .build, .printed out _ =>
      match split (strip out) with
      | [_, cost, _, _, _] => parseFloat cost
      | _ => none
  | .test, .printed out _ => parseFloat (strip out)
  | _, .raised => none

def expectedCost (stage : Stage) (outcomes : List Outcome) : Cost :=
  match outcomes.findSome? (printedCost stage) with
  | some cost => .number cost
  | none => .maxint

def Task.cost (task : Task) : Stage → Option Cost
  | .build => task.buildCost
  | .test => task.exeCost

structure Completes (stage : Stage) (outcomes : List Outcome) (worked : Worked) : Prop where
  raisesNothing : worked.raised = none
  done : worked.task.done stage = true
  cost : worked.task.cost stage = some (expectedCost stage outcomes)
  marked : stage = .build → (∀ outcome ∈ outcomes, printedCost stage outcome = none) → worked.task.image = some errorString

theorem quiet_prints_none (stage : Stage) (outcome : Outcome) (silent : quiet outcome = true) :
    printedCost stage outcome = none := by
  cases outcome with
  | raised => exact absurd silent nofun
  | printed out err =>
      rw [quiet, Bool.or_eq_true, beq_iff_eq, beq_iff_eq] at silent
      cases stage with
      | build =>
          cases silent with
          | inl empty => rw [empty]; rfl
          | inr error => rw [printedCost, error]; rfl
      | test =>
          cases silent with
          | inl empty => rw [empty]; rfl
          | inr error => rw [printedCost, error]; decide

theorem first_cost (stage : Stage) (outcomes : List Outcome) (outcome : Outcome) (cost : FloatText)
    (spoken : firstSpoken outcomes = some outcome) (printed : printedCost stage outcome = some cost) :
    expectedCost stage outcomes = .number cost := by
  have found : outcomes.findSome? (printedCost stage) = some cost := by
    induction outcomes with
    | nil => exact absurd spoken nofun
    | cons first rest ih =>
        rw [first_spoken_cons] at spoken
        split at spoken
        · rename_i silent
          rw [List.findSome?_cons, quiet_prints_none stage first silent]
          exact ih spoken
        · rw [Option.some.inj spoken, List.findSome?_cons, printed]
  rw [expectedCost, found]

theorem no_cost (stage : Stage) (outcomes : List Outcome) (silent : firstSpoken outcomes = none) :
    expectedCost stage outcomes = .maxint := by
  have nothing : outcomes.findSome? (printedCost stage) = none := by
    rw [List.findSome?_eq_none_iff]
    intro outcome member
    have still := List.find?_eq_none.mp silent outcome member
    exact quiet_prints_none stage outcome (by simpa using still)
  rw [expectedCost, nothing]

theorem expected_maxint_iff (stage : Stage) (outcomes : List Outcome) :
    expectedCost stage outcomes = .maxint ↔ ∀ outcome ∈ outcomes, printedCost stage outcome = none := by
  rw [← List.findSome?_eq_none_iff, expectedCost]
  cases outcomes.findSome? (printedCost stage) with
  | none => exact ⟨fun _ => rfl, fun _ => rfl⟩
  | some cost => exact ⟨nofun, nofun⟩

def Stage.tries : Stage → Nat
  | .build => buildTries
  | .test => testTries

-- The outcomes of the tries of a stage, as far as the stage makes them.
def triesOf (outcomes : Nat → Outcome) (stage : Stage) : List Outcome := (List.range stage.tries).map outcomes

-- Both error fields stand where a failed build would leave them.
def PrintsMarker (out : Text) : Prop :=
  ∃ checksum fileLength textLength, split (strip out) = [checksum, errorString, errorString, fileLength, textLength]

def BuildFinishes (outcomes : List Outcome) : Prop :=
  ∃ out err, firstSpoken outcomes = some (.printed out err) ∧
    ((printedCost .build (.printed out err)).isSome = true ∨
      PrintsMarker out ∧ ∀ outcome ∈ outcomes, printedCost .build outcome = none)

def TestFinishes (task : Task) (outcomes : List Outcome) : Prop :=
  (∃ image, task.image = some image ∧ image ≠ errorString) ∧
    ∀ outcome, firstSpoken outcomes = some outcome → (printedCost .test outcome).isSome = true

def Finishes (task : Task) (outcomes : Nat → Outcome) : Stage → Prop
  | .build => BuildFinishes (triesOf outcomes .build)
  | .test => TestFinishes task (triesOf outcomes .test)

theorem raised_incomplete (stage : Stage) (outcomes : List Outcome) (worked : Worked) (raised : Raised)
    (left : worked.raised = some raised) : ¬ Completes stage outcomes worked := by
  intro completes
  rw [completes.raisesNothing] at left
  exact absurd left nofun

theorem error_is_no_number : parseFloat errorString = none := by decide

theorem cost_of_number (text : Text) (cost : FloatText) (parsed : parseFloat text = some cost) :
    costOf text = some (.number cost) := by
  have other : text ≠ errorString := by
    intro same
    rw [same, error_is_no_number] at parsed
    exact absurd parsed nofun
  rw [costOf, if_neg other, parsed]
  rfl

theorem cost_of_none (text : Text) (other : text ≠ errorString) (unparsed : parseFloat text = none) : costOf text = none := by
  rw [costOf, if_neg other, unparsed]
  rfl

-- A build whose first spoken try printed five fields.
theorem five_fields_complete_iff (task : Task) (outcomes : List Outcome) (out err checksum cost image fileLength textLength : Text)
    (spoken : firstSpoken outcomes = some (.printed out err))
    (fields : split (strip out) = [checksum, cost, image, fileLength, textLength]) :
    Completes .build outcomes (task.setBuilt ⟨some ⟨checksum, image, fileLength, textLength⟩, some cost, some err⟩) ↔
      (parseFloat cost).isSome = true ∨ PrintsMarker out ∧ ∀ outcome ∈ outcomes, printedCost .build outcome = none := by
  have printed : printedCost .build (.printed out err) = parseFloat cost := by rw [printedCost, fields]
  have marker : PrintsMarker out ↔ cost = errorString ∧ image = errorString := by
    rw [PrintsMarker, fields]
    constructor
    · intro marked
      obtain ⟨_, _, _, same⟩ := marked
      obtain ⟨-, sameCost, sameImage, -⟩ := (by simpa using same :
        checksum = _ ∧ cost = errorString ∧ image = errorString ∧ _)
      exact ⟨sameCost, sameImage⟩
    · intro same
      rw [same.1, same.2]
      exact ⟨checksum, fileLength, textLength, rfl⟩
  rw [marker, ← expected_maxint_iff]
  cases parsed : parseFloat cost with
  | some number =>
      rw [parsed] at printed
      have expected := first_cost .build outcomes _ number spoken printed
      refine iff_of_true ?_ (.inl rfl)
      rw [set_built_printed task _ cost err (.number number) (cost_of_number cost number parsed)]
      refine ⟨rfl, rfl, ?_, fun _ unprinted => ?_⟩
      · rw [expected]
        rfl
      · rw [unprinted _ (List.mem_of_find?_eq_some spoken)] at printed
        exact absurd printed nofun
  | none =>
      rw [or_iff_right (by decide : ¬ (none : Option FloatText).isSome = true)]
      by_cases error : cost = errorString
      · rw [error, set_built_printed task _ errorString err .maxint rfl]
        constructor
        · intro completes
          have expected : expectedCost .build outcomes = .maxint := (Option.some.inj completes.cost).symm
          exact ⟨⟨rfl, Option.some.inj (completes.marked rfl ((expected_maxint_iff .build outcomes).mp expected))⟩, expected⟩
        · intro marked
          obtain ⟨⟨-, image⟩, expected⟩ := marked
          exact ⟨rfl, rfl, congrArg some expected.symm, fun _ _ => congrArg some image⟩
      · refine iff_of_false ?_ fun marked => error marked.1.1
        rw [set_built_unparsed task _ cost rfl (cost_of_none cost error parsed)]
        exact raised_incomplete .build outcomes _ .valueError rfl

theorem some_try (outcomes : Nat → Outcome) (stage : Stage) : triesOf outcomes stage ≠ [] := by
  cases stage <;> exact List.cons_ne_nil _ _

section Compile

variable (commands : Commands) (task : Task) (outcomes : Nat → Outcome)

theorem compile_quiet (silent : firstSpoken (triesOf outcomes .build) = none) :
    task.compile commands (fun _ => outcomes) = ⟨{ task with buildCost := some .maxint }, [], some .unboundLocalError⟩ := by
  obtain ⟨err, ran⟩ := tries_quiet readBuild _ unbound (some_try outcomes .build) silent
  change runTries readBuild (tries (fun _ => outcomes) (buildCommand commands task) buildTries) unbound = _ at ran
  rw [Task.compile, ran]
  exact set_built_unassigned task errorString (some err) .maxint rfl

theorem compile_raised (spoken : firstSpoken (triesOf outcomes .build) = some .raised) :
    task.compile commands (fun _ => outcomes) = ⟨task, [], some .ofCommand⟩ := by
  have ran := tries_raised readBuild _ unbound spoken
  change runTries readBuild (tries (fun _ => outcomes) (buildCommand commands task) buildTries) unbound = _ at ran
  rw [Task.compile, ran]

theorem compile_printed (out err : Text) (spoken : firstSpoken (triesOf outcomes .build) = some (.printed out err)) :
    task.compile commands (fun _ => outcomes) =
      match readBuild (strip out) with
      | .error raised => ⟨task, [], some raised⟩
      | .ok printed => task.setBuilt ⟨some printed.1, some printed.2, some err⟩ := by
  have ran := tries_printed readBuild _ unbound out err spoken
  change runTries readBuild (tries (fun _ => outcomes) (buildCommand commands task) buildTries) unbound = _ at ran
  rw [Task.compile, ran]
  cases readBuild (strip out) <;> rfl

theorem read_build_refuses (out : Text)
    (wrong : ∀ checksum cost image fileLength textLength, split out ≠ [checksum, cost, image, fileLength, textLength]) :
    readBuild out = .error .valueError := by
  unfold readBuild
  split
  next same => exact absurd same (wrong _ _ _ _ _)
  next => rfl

theorem no_printed_cost (out err : Text)
    (wrong : ∀ checksum cost image fileLength textLength, split (strip out) ≠ [checksum, cost, image, fileLength, textLength]) :
    printedCost .build (.printed out err) = none := by
  rw [printedCost]
  split
  next same => exact absurd same (wrong _ _ _ _ _)
  next => rfl

theorem read_build_cases (out : Text) :
    (∃ checksum cost image fileLength textLength, split (strip out) = [checksum, cost, image, fileLength, textLength]) ∨
      (∀ err, printedCost .build (.printed out err) = none) ∧ ¬ PrintsMarker out ∧ readBuild (strip out) = .error .valueError := by
  by_cases five : ∃ checksum cost image fileLength textLength, split (strip out) = [checksum, cost, image, fileLength, textLength]
  · exact .inl five
  · have wrong : ∀ checksum cost image fileLength textLength, split (strip out) ≠ [checksum, cost, image, fileLength, textLength] :=
      fun checksum cost image fileLength textLength same => five ⟨checksum, cost, image, fileLength, textLength, same⟩
    refine .inr ⟨fun err => no_printed_cost out err wrong, ?_, read_build_refuses (strip out) wrong⟩
    intro marked
    obtain ⟨checksum, fileLength, textLength, same⟩ := marked
    exact wrong _ _ _ _ _ same

theorem build_finishes_iff (given : List Outcome) (out err : Text) (spoken : firstSpoken given = some (.printed out err)) :
    BuildFinishes given ↔
      (printedCost .build (.printed out err)).isSome = true ∨
        PrintsMarker out ∧ ∀ outcome ∈ given, printedCost .build outcome = none := by
  constructor
  · intro finishes
    obtain ⟨first, log, printed, rest⟩ := finishes
    rw [spoken] at printed
    obtain ⟨rfl, rfl⟩ := Outcome.printed.inj (Option.some.inj printed)
    exact rest
  · exact fun rest => ⟨out, err, spoken, rest⟩

theorem build_completes_iff :
    Completes .build (triesOf outcomes .build) (task.compile commands fun _ => outcomes) ↔
      BuildFinishes (triesOf outcomes .build) := by
  cases spoken : firstSpoken (triesOf outcomes .build) with
  | none =>
      rw [compile_quiet commands task outcomes spoken]
      refine iff_of_false (raised_incomplete .build _ _ .unboundLocalError rfl) fun finishes => ?_
      obtain ⟨out, err, printed, -⟩ := finishes
      rw [spoken] at printed
      exact absurd printed nofun
  | some outcome =>
      cases outcome with
      | raised =>
          rw [compile_raised commands task outcomes spoken]
          refine iff_of_false (raised_incomplete .build _ _ .ofCommand rfl) fun finishes => ?_
          obtain ⟨out, err, printed, -⟩ := finishes
          rw [spoken] at printed
          exact absurd printed nofun
      | printed out err =>
          rw [compile_printed commands task outcomes out err spoken, build_finishes_iff _ out err spoken]
          cases read_build_cases out with
          | inl five =>
              obtain ⟨checksum, cost, image, fileLength, textLength, fields⟩ := five
              have printed : printedCost .build (.printed out err) = parseFloat cost := by rw [printedCost, fields]
              rw [printed, readBuild, fields]
              exact five_fields_complete_iff task _ out err checksum cost image fileLength textLength spoken fields
          | inr malformed =>
              obtain ⟨unprinted, unmarked, wrong⟩ := malformed
              rw [wrong, unprinted err]
              refine iff_of_false (raised_incomplete .build _ _ .valueError rfl) fun finishes => ?_
              cases finishes with
              | inl printed => exact absurd printed (by decide)
              | inr marked => exact unmarked marked.1

end Compile

section Test

variable (commands : Commands) (task : Task) (outcomes : Nat → Outcome) (image : Text)

theorem test_uncompiled (uncompiled : task.image = none) :
    task.test commands (fun _ => outcomes) = ⟨task, [], some .assertionError⟩ := by
  rw [Task.test, uncompiled]

theorem test_skipped (failed : task.image = some errorString) :
    task.test commands (fun _ => outcomes) = ⟨{ task with exeCost := some .errorString }, [], none⟩ := by
  rw [Task.test, failed]
  rfl

theorem test_runs (compiled : task.image = some image) (other : image ≠ errorString) :
    task.test commands (fun _ => outcomes) =
      match runTries readTest (triesOf outcomes .test) unbound with
      | .error raised => ⟨task, [], some raised⟩
      | .ok locals => task.setTested locals := by
  rw [Task.test, compiled]
  exact if_neg other

theorem test_printed (out err : Text) (spoken : firstSpoken (triesOf outcomes .test) = some (.printed out err))
    (compiled : task.image = some image) (other : image ≠ errorString) :
    task.test commands (fun _ => outcomes) = task.setTested ⟨some (), some (strip out), some err⟩ := by
  rw [test_runs commands task outcomes image compiled other, tries_printed readTest _ unbound out err spoken]
  rfl

theorem spoken_test_complete_iff (given : List Outcome) (out err : Text) (spoken : firstSpoken given = some (.printed out err)) :
    Completes .test given (task.setTested ⟨some (), some (strip out), some err⟩) ↔ (parseFloat (strip out)).isSome = true := by
  have loud := List.find?_some spoken
  have other : strip out ≠ errorString := ((quiet_iff out err).mp (by simpa using loud)).2
  cases parsed : parseFloat (strip out) with
  | none =>
      rw [set_tested_unparsed task _ (strip out) rfl (cost_of_none (strip out) other parsed)]
      exact iff_of_false (raised_incomplete .test _ _ .valueError rfl) (by decide)
  | some cost =>
      rw [set_tested_known task _ (strip out) err (.number cost) (cost_of_number (strip out) cost parsed)]
      exact iff_of_true ⟨rfl, rfl, congrArg some (first_cost .test _ _ cost spoken parsed).symm, nofun⟩ rfl

theorem test_completes_iff :
    Completes .test (triesOf outcomes .test) (task.test commands fun _ => outcomes) ↔
      TestFinishes task (triesOf outcomes .test) := by
  rw [TestFinishes]
  cases compiled : task.image with
  | none =>
      rw [test_uncompiled commands task outcomes compiled]
      refine iff_of_false (raised_incomplete .test _ _ .assertionError rfl) fun finishes => ?_
      obtain ⟨⟨image, same, -⟩, -⟩ := finishes
      exact absurd same nofun
  | some image =>
      by_cases marker : image = errorString
      · rw [marker] at compiled ⊢
        rw [test_skipped commands task outcomes compiled]
        constructor
        · intro completes
          have cost := Option.some.inj completes.cost
          rw [expectedCost] at cost
          split at cost <;> exact absurd cost nofun
        · intro finishes
          obtain ⟨⟨own, same, other⟩, -⟩ := finishes
          exact absurd (Option.some.inj same).symm other
      · rw [and_iff_right ⟨image, rfl, marker⟩]
        cases spoken : firstSpoken (triesOf outcomes .test) with
        | none =>
            obtain ⟨err, ran⟩ := tries_quiet readTest _ unbound (some_try outcomes .test) spoken
            rw [test_runs commands task outcomes image compiled marker, ran]
            change Completes .test _ (task.setTested ⟨none, some errorString, some err⟩) ↔ _
            rw [set_tested_known task none errorString err .maxint rfl]
            exact iff_of_true ⟨rfl, rfl, congrArg some (no_cost .test _ spoken).symm, nofun⟩ nofun
        | some outcome =>
            simp only [Option.some.injEq, forall_eq']
            cases outcome with
            | raised =>
                rw [test_runs commands task outcomes image compiled marker, tries_raised readTest _ unbound spoken]
                exact iff_of_false (raised_incomplete .test _ _ .ofCommand rfl) (by decide)
            | printed out err =>
                rw [test_printed commands task outcomes image out err spoken compiled marker]
                exact spoken_test_complete_iff task _ out err spoken

end Test

theorem work_completes_iff (commands : Commands) (task : Task) (outcomes : Nat → Outcome) (stage : Stage) :
    Completes stage (triesOf outcomes stage) (task.work commands (fun _ => outcomes) stage) ↔ Finishes task outcomes stage := by
  cases stage with
  | build => exact build_completes_iff commands task outcomes
  | test => exact test_completes_iff commands task outcomes

section Sample

def sampleTask : Task := ⟨.empty, "task".toList, none, none, none, none, none, none⟩

def sampleCommands : Commands := ⟨"build".toList, "test".toList⟩

-- Every build prints the error string: the cost is set and the checksum is unbound.
theorem failed_build_raises :
    ¬ Completes .build (triesOf (fun _ => .printed "error".toList []) .build)
      (sampleTask.work sampleCommands (fun _ _ => .printed "error".toList []) .build) := by
  intro completes
  have raised : (sampleTask.work sampleCommands (fun _ _ => .printed "error".toList []) .build).raised = some .unboundLocalError := by
    decide
  rw [completes.raisesNothing] at raised
  exact absurd raised nofun

end Sample

end ToolchainUtils.Bestflags.TaskWork
