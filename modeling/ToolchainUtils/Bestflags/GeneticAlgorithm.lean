import Mathlib.Order.WithBot
import ToolchainUtils.Bestflags.Algorithm

set_option autoImplicit false

namespace ToolchainUtils.Bestflags

open PyString Randomised

-- CrossoverWith, of two flags with one spec.
def crossoverWith (firstFlag secondFlag : Int) : Drawn Int := do
  let heads ← randint 0 1
  pure (if heads ≠ 0 then firstFlag else secondFlag)

-- What one spec adds to the mutated flags. The rate only enters as int(1 / rate),
-- which is `none` for the rate 0.
def mutateSpec (flagSet : FlagSet) (mutationOdds : Option Int) (spec : Text) : Drawn (List (Text × Int)) :=
  match mutationOdds with
  | none => throw .zeroDivisionError
  | some odds => do
      let skipped ← randint 0 odds
      if skipped ≠ 0 then
        pure []
      else
        match flagSet.get? spec, search spec with
        | none, _ => do
            let value ← flag spec (-1)
            pure [(spec, value)]
        | some _, none => pure []
        | some value, some (start, last) => do
            let nearby := [value] ++ (if value + 1 < last then [value + 1] else []) ++ [value - 1]
            let chosen ← choice .valueError nearby
            if chosen ≠ start - 1 then do
              let kept ← flag spec chosen
              pure [(spec, kept)]
            else
              pure []

def randomMutate (specs : List Text) (flagSet : FlagSet) (mutationOdds : Option Int) : Drawn FlagSet := do
  let resultsFlags ← each (mutateSpec flagSet mutationOdds) specs
  pure (.ofItems resultsFlags.flatten)

def keepSome (items : List (Text × Int)) : Drawn (List (Text × Int)) := do
  let kept ← each (fun item => do
    let heads ← randint 0 1
    pure (if heads ≠ 0 then [item] else [])) items
  pure kept.flatten

def reproduceWith (fatherFlags motherFlags : FlagSet) (specs : List Text) (mutationOdds : Option Int) :
    Drawn FlagSet := do
  let selfFlags := fatherFlags.entries.filter fun item => (motherFlags.get? item.1).isNone
  let otherFlags := motherFlags.entries.filter fun item => (fatherFlags.get? item.1).isNone
  let commonFlags := fatherFlags.entries.filterMap fun item =>
    (motherFlags.get? item.1).map fun value => (item.1, item.2, value)
  let own ← keepSome selfFlags
  let others ← keepSome otherFlags
  let crossed ← each (fun common => do
    let value ← crossoverWith common.2.1 common.2.2
    pure (common.1, value)) commonFlags
  let outputFlags : FlagSet := .ofItems (own ++ others ++ crossed)
  if mutationOdds.isSome then randomMutate specs outputFlags mutationOdds else pure outputFlags

-- The class attributes that InitMetaData sets.
structure MetaData where
  stopThreshold : Int
  numChromosomes : Nat
  numTrials : Nat
  specs : List Text
  mutationOdds : Option Int

structure GAGeneration (ρ : Type) where
  -- The candidate pool.
  parents : List (Task FlagSet ρ)
  totalStucks : Int

namespace GAGeneration

variable {ρ : Type} [LinearOrder ρ]

-- The sort key GetTestResult; None comes before every number.
def testResult (task : Task FlagSet ρ) : WithBot ρ :=
  match task.result with
  | none => ⊥
  | some cost => cost

def sortedByResult (tasks : List (Task FlagSet ρ)) : List (Task FlagSet ρ) :=
  tasks.mergeSort fun left right => testResult left ≤ testResult right

def isImproved (metaData : MetaData) (generation : Generation FlagSet ρ (GAGeneration ρ)) :
    Except Raised (Bool × GAGeneration ρ) :=
  if generation.own.parents = [] then
    pure (true, generation.own)
  else
    match (sortedByResult generation.own.parents).head?, (sortedByResult generation.exeSet.tasks).head? with
    | some bestParent, some bestCurrent => do
        if ← bestCurrent.isImproved bestParent then
          pure (true, { generation.own with totalStucks := 0 })
        else if metaData.stopThreshold ≤ generation.own.totalStucks then
          pure (false, generation.own)
        else
          pure (true, { generation.own with totalStucks := generation.own.totalStucks + 1 })
    | _, _ => throw .indexError

-- The trials to produce a child with one father.
def tryChild (metaData : MetaData) (retainedTasks : List (Task FlagSet ρ)) (cache : Finset FlagSet)
    (father : Task FlagSet ρ) : Nat → List FlagSet → Drawn (List FlagSet)
  | 0, childPool => pure childPool
  | trials + 1, childPool => do
      let mother ← choice .indexError retainedTasks
      let child ← reproduceWith mother.flags father.flags metaData.specs metaData.mutationOdds
      if child ∉ childPool ∧ child ∉ cache then
        pure (child :: childPool)
      else
        tryChild metaData retainedTasks cache father trials childPool

def crossAll (metaData : MetaData) (retainedTasks : List (Task FlagSet ρ)) (cache : Finset FlagSet) :
    List (Task FlagSet ρ) → List FlagSet → Drawn (List FlagSet)
  | [], childPool => pure childPool
  | father :: rest, childPool => do
      let grown ← tryChild metaData retainedTasks cache father metaData.numTrials childPool
      crossAll metaData retainedTasks cache rest grown

-- The `for` loop over the tasks that are kept, with its `break`.
def mutatePass (metaData : MetaData) (cache : Finset FlagSet) :
    List (Task FlagSet ρ) → List FlagSet → Nat → Drawn (List FlagSet × Nat)
  | [], childPool, numTrials => pure (childPool, numTrials)
  | keepTask :: rest, childPool, numTrials => do
      let child ← randomMutate metaData.specs keepTask.flags metaData.mutationOdds
      if child ∉ childPool ∧ child ∉ cache then
        if metaData.numChromosomes ≤ (child :: childPool).length then
          pure (child :: childPool, numTrials)
        else
          mutatePass metaData cache rest (child :: childPool) numTrials
      else
        mutatePass metaData cache rest childPool (numTrials + 1)

-- The `while` loop around it. Every pass over a task adds a child or a trial.
def mutateLoop (metaData : MetaData) (cache : Finset FlagSet) (retainedTasks : List (Task FlagSet ρ)) :
    Nat → List FlagSet → Nat → Drawn (List FlagSet × Nat)
  | fuel, childPool, numTrials =>
      if childPool.length < metaData.numChromosomes ∧ numTrials < metaData.numTrials then
        match fuel with
        | 0 => throw .endless
        | fuel + 1 => do
            let (grown, trials) ← mutatePass metaData cache retainedTasks childPool numTrials
            mutateLoop metaData cache retainedTasks fuel grown trials
      else
        pure (childPool, numTrials)

def next (metaData : MetaData) (generation : Generation FlagSet ρ (GAGeneration ρ)) (cache : Finset FlagSet) :
    Drawn (List (NewGeneration FlagSet ρ (GAGeneration ρ))) := do
  let targetLen := metaData.numChromosomes
  let genTasks := generation.exeSet.tasks ++ generation.own.parents
  let retainedTasks := (sortedByResult genTasks).take targetLen
  let crossed ← crossAll metaData retainedTasks cache retainedTasks []
  let (childPool, numTrials) ← mutateLoop metaData cache retainedTasks (targetLen + metaData.numTrials) crossed 0
  if metaData.numTrials ≤ numTrials then
    pure []
  else if childPool.length ≠ targetLen then
    throw .assertionError
  else do
    let tasks ← setOf (childPool.map fun flags => ⟨flags, none⟩)
    let parents ← setOf retainedTasks
    pure [⟨tasks, ⟨parents.tasks, generation.own.totalStucks⟩⟩]

def algorithm (metaData : MetaData) : Algorithm FlagSet ρ (GAGeneration ρ) :=
  ⟨isImproved metaData, next metaData⟩

def first (tasks : TaskSet FlagSet ρ) (parents : List (Task FlagSet ρ)) (totalStucks : Int) :
    NewGeneration FlagSet ρ (GAGeneration ρ) := ⟨tasks, ⟨parents, totalStucks⟩⟩

end GAGeneration

end ToolchainUtils.Bestflags
