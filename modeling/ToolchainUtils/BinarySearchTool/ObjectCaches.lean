import ToolchainUtils.Transition
import ToolchainUtils.BinarySearchTool.BisectDriver

set_option autoImplicit false

namespace ToolchainUtils.BinarySearchTool.BisectDriver

open FileSystem HardLinks Transition

variable {γ β : Type}

-- The branch of bisect_triage that a call takes.
inductive Route where
  | refused (error : DriverError)
  | compiles
  | safely (cache : Cache) (object : String)
  | restores (cache : Cache) (object : String)
deriving DecidableEq, Repr

def route (call : Call γ) (workspace : Workspace γ) : Route :=
  match getObjPath call.abspath call.execargs with
  | .error error => .refused error
  | .ok object =>
      if object = "" then .compiles
      else match workspace.objectList with
        | none => .refused .listMissing
        | some lines =>
            if lines.contains object then
              if call.wrapperSafeMode then .safely (call.whichCache object) object
              else .restores (call.whichCache object) object
            else if call.continueOnMissing then .compiles
            else .refused (.missingFromList object)

theorem driver_bind {δ : Type} (first : DriverM γ β) (next : β → DriverM γ δ) (workspace : Workspace γ) :
    (first >>= next) workspace = match first workspace with
      | .ok value after => next value after
      | .error error after => .error error after := by
  change EStateM.bind first next workspace = _
  unfold EStateM.bind
  cases first workspace <;> rfl

theorem bisect_triage_route (call : Call γ) (workspace : Workspace γ) :
    bisectTriage call workspace = match route call workspace with
      | .refused error => .error error workspace
      | .compiles => passThrough call workspace
      | .safely cache object => triageSafely call cache object workspace
      | .restores cache object => triageRestoring call cache object workspace := by
  unfold bisectTriage route
  rw [driver_bind]
  cases getObjPath call.abspath call.execargs with
  | error error => rfl
  | ok object =>
      by_cases named : object = ""
      · simp only [check, named, if_true]
      · simp only [check, named, if_false, driver_bind, inObjectList]
        cases workspace.objectList with
        | none => rfl
        | some lines =>
            simp only
            split
            · split <;> rfl
            · split <;> rfl

-- What a call that returned normally should have put on the disk.
structure Finished where
  cache : Cache
  object : String
  sideEffects : List String
  restoresObject : Bool
deriving DecidableEq, Repr

def sideEffectsOf (call : Call γ) : List String := (getSideEffects call.abspath call.execargs).toOption.getD []

def finishedCall (call : Call γ) (workspace : Workspace γ) : Option Finished :=
  match route call workspace with
  | .safely cache object => some ⟨cache, object, sideEffectsOf call, true⟩
  | .restores cache object => some ⟨cache, object, sideEffectsOf call, !workspace.disk.has (.build object)⟩
  | _ => none

-- `finished` is about the last call, none when it raised or only ran the compiler.
structure Triage (γ : Type) where
  workspace : Workspace γ
  finished : Option Finished

def Workspace.begin (workspace : Workspace γ) : Workspace γ := { workspace with moments := [] }

def triageStep (triage : Triage γ) (call : Call γ) : Option (Triage γ) :=
  match bisectTriage call triage.workspace.begin with
  | .ok _ after => some ⟨after, finishedCall call triage.workspace.begin⟩
  | .error _ after => some ⟨after, none⟩

def MatchesCache (disk : Disk File γ) (cache : Cache) (path : String) : Prop :=
  disk.read (.build path) = disk.read (.cached cache path)

-- Every file that the caches held has the content it had.
def Intact (stored disk : Disk File γ) : Prop :=
  ∀ cache path content, stored.read (.cached cache path) = some content → disk.read (.cached cache path) = some content

structure CachesRight (stored : Disk File γ) (triage : Triage γ) : Prop where
  intact : Intact stored triage.workspace.disk
  always : ∀ disk ∈ triage.workspace.moments, Intact stored disk
  object : ∀ call, triage.finished = some call → call.restoresObject = true →
    MatchesCache triage.workspace.disk call.cache call.object
  sideEffects : ∀ call, triage.finished = some call → ∀ path ∈ call.sideEffects, MatchesCache triage.workspace.disk call.cache path

-- No output of the compiler is a link to a cache file, unless it writes what is there.
def WritesKeep (stored disk : Disk File γ) (outputs : List (String × γ)) : Prop :=
  ∀ output ∈ outputs, ∀ cache path content, stored.read (.cached cache path) = some content →
    disk.Linked (.build output.1) (.cached cache path) → output.2 = content

def SafelyMatches (disk : Disk File γ) (call : Call γ) (cache : Cache) (object : String) : Prop :=
  if call.compiler.retval ≠ 0 then ∀ path ∈ object :: sideEffectsOf call, MatchesCache disk cache path
  else disk.has (.build object) = true → disk.has (.cached cache object) = true →
    ∀ path ∈ sideEffectsOf call, path ≠ object → MatchesCache disk cache path

def CallKeeps (stored : Disk File γ) (triage : Triage γ) (call : Call γ) : Prop :=
  match route call triage.workspace.begin with
  | .refused _ => True
  | .compiles => WritesKeep stored triage.workspace.disk call.compiler.outputs
  | .safely cache object => WritesKeep stored triage.workspace.disk call.compiler.outputs ∧
      SafelyMatches (writeOutputs call.compiler.outputs triage.workspace.begin).disk call cache object
  | .restores _ _ => True

theorem write_intact_iff (stored disk : Disk File γ) (path : String) (content : γ) (intact : Intact stored disk) :
    Intact stored (disk.write (.build path) content) ↔ ∀ cache other kept, stored.read (.cached cache other) = some kept →
      disk.Linked (.build path) (.cached cache other) → content = kept := by
  constructor
  · intro after cache other kept held linked
    have written := Disk.read_write_linked disk _ _ content linked
    exact Option.some.inj (written.symm.trans (after cache other kept held))
  · intro same cache other kept held
    by_cases linked : disk.Linked (.build path) (.cached cache other)
    · rw [Disk.read_write_linked disk _ _ content linked, same cache other kept held linked]
    · rw [Disk.read_write_apart disk _ _ content (by simp) linked]
      exact intact cache other kept held

theorem writes_keep_cons (stored disk : Disk File γ) (output : String × γ) (rest : List (String × γ)) :
    WritesKeep stored disk (output :: rest) ↔
      (∀ cache path content, stored.read (.cached cache path) = some content →
        disk.Linked (.build output.1) (.cached cache path) → output.2 = content) ∧
      WritesKeep stored (disk.write (.build output.1) output.2) rest := by
  have same : ∀ path cache other, (disk.write (.build output.1) output.2).Linked (.build path) (.cached cache other) ↔
      disk.Linked (.build path) (.cached cache other) := by
    intro path cache other
    constructor
    · exact Disk.linked_write disk _ _ _ output.2 (by simp)
    · rintro ⟨i, here, there⟩
      exact ⟨i, Disk.inode_write disk _ _ output.2 i here, Disk.inode_write disk _ _ output.2 i there⟩
  simp only [WritesKeep, List.forall_mem_cons, same]

theorem write_outputs_moments (outputs : List (String × γ)) (workspace : Workspace γ) (disk : Disk File γ)
    (member : disk ∈ workspace.moments) : disk ∈ (writeOutputs outputs workspace).moments := by
  induction outputs generalizing workspace with
  | nil => exact member
  | cons output rest ih => exact ih _ (List.mem_append_left _ member)

def AlwaysIntact (stored : Disk File γ) (workspace : Workspace γ) : Prop :=
  Intact stored workspace.disk ∧ ∀ disk ∈ workspace.moments, Intact stored disk

-- The induction is on what the compiler writes; the first write that changes a cache
-- file is seen in one of the moments.
theorem write_outputs_intact_iff (stored : Disk File γ) (outputs : List (String × γ)) (workspace : Workspace γ)
    (intact : AlwaysIntact stored workspace) :
    AlwaysIntact stored (writeOutputs outputs workspace) ↔ WritesKeep stored workspace.disk outputs := by
  induction outputs generalizing workspace with
  | nil => exact ⟨fun _ output member => absurd member List.not_mem_nil, fun _ => intact⟩
  | cons output rest ih =>
      rw [writes_keep_cons, ← write_intact_iff stored workspace.disk output.1 output.2 intact.1]
      have next : ∀ written : Intact stored (workspace.disk.write (.build output.1) output.2),
          AlwaysIntact stored (workspace.change (workspace.disk.write (.build output.1) output.2)) := by
        intro written
        refine ⟨written, fun disk member => ?_⟩
        rcases List.mem_append.mp member with old | new
        · exact intact.2 disk old
        · exact List.mem_singleton.mp new ▸ written
      constructor
      · intro after
        have written : Intact stored (workspace.disk.write (.build output.1) output.2) :=
          after.2 _ (write_outputs_moments rest _ _ (List.mem_append_right _ List.mem_cons_self))
        exact ⟨written, (ih _ (next written)).mp after⟩
      · rintro ⟨written, keep⟩
        exact (ih _ (next written)).mpr keep

-- What restoring does: only names of the build tree change.
structure Restored (before after : Workspace γ) : Prop where
  caches : ∀ cache path, after.disk.inode (.cached cache path) = before.disk.inode (.cached cache path)
  content : after.disk.content = before.disk.content
  earlier : ∀ disk ∈ before.moments, disk ∈ after.moments
  moments : ∀ disk ∈ after.moments, disk ∈ before.moments ∨
    ((∀ cache path, disk.inode (.cached cache path) = before.disk.inode (.cached cache path)) ∧ disk.content = before.disk.content)

theorem restored_refl (workspace : Workspace γ) : Restored workspace workspace :=
  ⟨fun _ _ => rfl, rfl, fun _ member => member, fun _ member => .inl member⟩

theorem restored_trans (first second third : Workspace γ) (before : Restored first second) (after : Restored second third) :
    Restored first third := by
  refine ⟨fun cache path => (after.caches cache path).trans (before.caches cache path), after.content.trans before.content,
    fun disk member => after.earlier disk (before.earlier disk member), fun disk member => ?_⟩
  rcases after.moments disk member with old | ⟨caches, content⟩
  · exact before.moments disk old
  · exact .inr ⟨fun cache path => (caches cache path).trans (before.caches cache path), content.trans before.content⟩

theorem restored_change (workspace : Workspace γ) (disk : Disk File γ)
    (caches : ∀ cache path, disk.inode (.cached cache path) = workspace.disk.inode (.cached cache path))
    (content : disk.content = workspace.disk.content) : Restored workspace (workspace.change disk) := by
  refine ⟨caches, content, fun other member => List.mem_append_left _ member, fun other member => ?_⟩
  rcases List.mem_append.mp member with old | new
  · exact .inl old
  · exact .inr (List.mem_singleton.mp new ▸ ⟨caches, content⟩)

theorem intact_same (stored first second : Disk File γ)
    (caches : ∀ cache path, second.inode (.cached cache path) = first.inode (.cached cache path))
    (content : second.content = first.content) : Intact stored second ↔ Intact stored first := by
  simp only [Intact, Disk.read, caches, content]

theorem restored_intact_iff (stored : Disk File γ) (before after : Workspace γ) (restored : Restored before after) :
    AlwaysIntact stored after ↔ AlwaysIntact stored before := by
  have same := intact_same stored before.disk after.disk restored.caches restored.content
  constructor
  · rintro ⟨now, always⟩
    exact ⟨same.mp now, fun disk member => always disk (restored.earlier disk member)⟩
  · rintro ⟨now, always⟩
    refine ⟨same.mpr now, fun disk member => ?_⟩
    rcases restored.moments disk member with old | ⟨caches, content⟩
    · exact always disk old
    · exact (intact_same stored before.disk disk caches content).mpr now

-- After the old name is gone the file of the cache gets it.
structure LinkedTo (cache : Cache) (path : String) (before after : Workspace γ) : Prop where
  restored : Restored before after
  here : after.disk.inode (.build path) = before.disk.inode (.cached cache path)
  others : ∀ other, other ≠ path → after.disk.inode (.build other) = before.disk.inode (.build other)

theorem link_missing_build (cache : Cache) (path : String) (workspace : Workspace γ)
    (held : workspace.disk.has (.cached cache path) = true) (absent : workspace.disk.has (.build path) = false) :
    ∃ after, (fileOperation fun disk => disk.link (.cached cache path) (.build path) : DriverM γ Unit) workspace = .ok () after ∧
      LinkedTo cache path workspace after := by
  obtain ⟨disk, linked, inode, content⟩ := Disk.link_ok workspace.disk (.cached cache path) (.build path) held absent
  refine ⟨workspace.change disk, by simp only [fileOperation, linked], restored_change workspace disk ?_ content, ?_, ?_⟩
  · intro other name
    simp [inode]
  · simp [Workspace.change, inode]
  · intro other different
    simp [Workspace.change, inode, different]

theorem restore_file_ok (cache : Cache) (path : String) (workspace : Workspace γ)
    (held : workspace.disk.has (.cached cache path) = true) :
    ∃ after, restoreFile cache path workspace = .ok () after ∧ LinkedTo cache path workspace after := by
  have body : restoreFile cache path workspace = (if workspace.disk.has (.build path) then
      (fileOperation fun disk => disk.remove (.build path)) >>= fun _ =>
        fileOperation fun disk => disk.link (.cached cache path) (.build path)
      else fileOperation fun disk => disk.link (.cached cache path) (.build path)) workspace := by
    simp only [restoreFile, driver_bind, getDisk, held, if_true]
  rw [body]
  cases present : workspace.disk.has (.build path) with
  | false => exact link_missing_build cache path workspace held present
  | true =>
      obtain ⟨disk, removed, inode, content⟩ := Disk.remove_ok workspace.disk (.build path) present
      have held' : (workspace.change disk).disk.has (.cached cache path) = true := by
        simpa [Workspace.change, Disk.has, inode] using held
      have gone : (workspace.change disk).disk.has (.build path) = false := by
        simp [Workspace.change, Disk.has, inode]
      obtain ⟨after, linked, result⟩ := link_missing_build cache path (workspace.change disk) held' gone
      have before := restored_change workspace disk (fun other name => by simp [inode]) content
      refine ⟨after, ?_, restored_trans _ _ _ before result.restored, ?_, ?_⟩
      · simp only [if_true, driver_bind, fileOperation, removed]
        exact linked
      · rw [result.here]
        simp [Workspace.change, inode]
      · intro other different
        rw [result.others other different]
        simp [Workspace.change, inode, different]

theorem restore_file_missing (cache : Cache) (path : String) (workspace : Workspace γ)
    (missing : workspace.disk.has (.cached cache path) = false) :
    restoreFile cache path workspace = .error (.missingFromCache cache path) workspace := by
  simp only [restoreFile, driver_bind, getDisk, missing, Bool.false_eq_true, if_false]
  rfl

theorem linked_to_matches (cache : Cache) (path : String) (before after : Workspace γ) (linked : LinkedTo cache path before after) :
    MatchesCache after.disk cache path := by
  rw [MatchesCache, Disk.read, Disk.read, linked.here, linked.restored.caches]

theorem linked_to_others (cache : Cache) (path other : String) (before after : Workspace γ) (linked : LinkedTo cache path before after)
    (different : other ≠ path) : MatchesCache after.disk cache other ↔ MatchesCache before.disk cache other := by
  simp only [MatchesCache, Disk.read, linked.others other different, linked.restored.caches, linked.restored.content]

-- A match survives every later restore, and what is restored matches.
theorem restore_files_spec (cache : Cache) (paths : List String) (workspace : Workspace γ) :
    (∃ after, restoreFiles cache paths workspace = .ok () after ∧ Restored workspace after ∧
      (∀ path, path ∈ paths ∨ MatchesCache workspace.disk cache path → MatchesCache after.disk cache path) ∧
      ∀ path, path ∉ paths → after.disk.inode (.build path) = workspace.disk.inode (.build path)) ∨
    ∃ error after, restoreFiles cache paths workspace = .error error after ∧ Restored workspace after := by
  induction paths generalizing workspace with
  | nil =>
      exact .inl ⟨workspace, rfl, restored_refl workspace, fun path known => known.resolve_left List.not_mem_nil, fun _ _ => rfl⟩
  | cons path rest ih =>
      simp only [restoreFiles, driver_bind]
      cases held : workspace.disk.has (.cached cache path) with
      | false =>
          rw [restore_file_missing cache path workspace held]
          exact .inr ⟨_, workspace, rfl, restored_refl workspace⟩
      | true =>
          obtain ⟨middle, linking, linked⟩ := restore_file_ok cache path workspace held
          rw [linking]
          rcases ih middle with ⟨after, ran, restored, matching, untouched⟩ | ⟨error, after, ran, restored⟩
          · refine .inl ⟨after, ran, restored_trans _ _ _ linked.restored restored, fun other known => matching other ?_, ?_⟩
            · by_cases same : other = path
              · exact .inr (same ▸ linked_to_matches cache path workspace middle linked)
              · rcases known with listed | before
                · exact .inl ((List.mem_cons.mp listed).resolve_left same)
                · exact .inr ((linked_to_others cache path other workspace middle linked same).mpr before)
            · intro other unlisted
              rw [untouched other fun member => unlisted (List.mem_cons_of_mem _ member)]
              exact linked.others other fun same => unlisted (same ▸ List.mem_cons_self)
          · exact .inr ⟨error, after, ran, restored_trans _ _ _ linked.restored restored⟩

theorem caches_right_unfinished (stored : Disk File γ) (workspace : Workspace γ) :
    CachesRight stored ⟨workspace, none⟩ ↔ AlwaysIntact stored workspace :=
  ⟨fun right => ⟨right.intact, right.always⟩, fun always => ⟨always.1, always.2, by simp, by simp⟩⟩

-- The result of a call, as the state after it.
def triageResult (call : Call γ) (workspace : Workspace γ) : EStateM.Result DriverError (Workspace γ) (Option Int) → Triage γ
  | .ok _ after => ⟨after, finishedCall call workspace⟩
  | .error _ after => ⟨after, none⟩

theorem triage_step_eq (triage : Triage γ) (call : Call γ) :
    triageStep triage call = some (triageResult call triage.workspace.begin (bisectTriage call triage.workspace.begin)) := by
  unfold triageStep
  cases bisectTriage call triage.workspace.begin <;> rfl

theorem right_error (stored : Disk File γ) (call : Call γ) (workspace after : Workspace γ) (error : DriverError) :
    CachesRight stored (triageResult call workspace (.error error after)) ↔ AlwaysIntact stored after :=
  caches_right_unfinished stored after

theorem right_ok (stored : Disk File γ) (call : Call γ) (workspace after : Workspace γ) (retval : Option Int) (finished : Finished)
    (selected : finishedCall call workspace = some finished) :
    CachesRight stored (triageResult call workspace (.ok retval after)) ↔ AlwaysIntact stored after ∧
      (finished.restoresObject = true → MatchesCache after.disk finished.cache finished.object) ∧
      ∀ path ∈ finished.sideEffects, MatchesCache after.disk finished.cache path := by
  rw [triageResult, selected]
  constructor
  · intro right
    exact ⟨⟨right.intact, right.always⟩, right.object finished rfl, right.sideEffects finished rfl⟩
  · rintro ⟨always, object, sideEffects⟩
    refine ⟨always.1, always.2, ?_, ?_⟩
    · intro other same
      exact Option.some.inj same ▸ object
    · intro other same
      exact Option.some.inj same ▸ sideEffects

theorem compiles_right_iff (stored : Disk File γ) (call : Call γ) (workspace : Workspace γ) (intact : AlwaysIntact stored workspace)
    (compiles : route call workspace = .compiles) :
    CachesRight stored (triageResult call workspace (passThrough call workspace)) ↔
      WritesKeep stored workspace.disk call.compiler.outputs := by
  have ran : passThrough call workspace = .ok (some call.compiler.retval) (writeOutputs call.compiler.outputs workspace) := rfl
  have finished : finishedCall call workspace = none := by simp only [finishedCall, compiles]
  rw [ran, triageResult, finished, caches_right_unfinished]
  exact write_outputs_intact_iff stored call.compiler.outputs workspace intact

theorem restores_right (stored : Disk File γ) (call : Call γ) (cache : Cache) (object : String) (workspace : Workspace γ)
    (intact : AlwaysIntact stored workspace) (restores : route call workspace = .restores cache object) :
    CachesRight stored (triageResult call workspace (triageRestoring call cache object workspace)) := by
  have finished : finishedCall call workspace =
      some ⟨cache, object, sideEffectsOf call, !workspace.disk.has (.build object)⟩ := by simp only [finishedCall, restores]
  simp only [triageRestoring, driver_bind, check]
  cases effects : getSideEffects call.abspath call.execargs with
  | error error => exact (right_error stored call workspace workspace error).mpr intact
  | ok paths =>
      have listed : sideEffectsOf call = paths := by simp [sideEffectsOf, effects, Except.toOption]
      simp only
      rcases restore_files_spec cache paths workspace with ⟨middle, ran, restored, matching, untouched⟩ | ⟨error, after, ran, restored⟩
      · have middleIntact := (restored_intact_iff stored workspace middle restored).mpr intact
        simp only [ran, getDisk]
        cases present : middle.disk.has (.build object) with
        | true =>
            refine (right_ok stored call workspace middle none _ finished).mpr ⟨middleIntact, fun absent => ?_, fun path member => ?_⟩
            · apply matching
              by_contra unknown
              have same := untouched object fun member => unknown (.inl member)
              have before : workspace.disk.has (.build object) = true := by
                rw [Disk.has, ← same]
                exact present
              simp [before] at absent
            · exact matching path (.inl (listed ▸ member))
        | false =>
            simp only [Bool.false_eq_true, not_false_eq_true, if_true, driver_bind]
            cases held : middle.disk.has (.cached cache object) with
            | false =>
                rw [restore_file_missing cache object middle held]
                exact (right_error stored call workspace middle _).mpr middleIntact
            | true =>
                obtain ⟨after, linking, linked⟩ := restore_file_ok cache object middle held
                rw [linking]
                have afterIntact := (restored_intact_iff stored middle after linked.restored).mpr middleIntact
                refine (right_ok stored call workspace after none _ finished).mpr ⟨afterIntact, fun _ => ?_, fun path member => ?_⟩
                · exact linked_to_matches cache object middle after linked
                · by_cases same : path = object
                  · exact same ▸ linked_to_matches cache object middle after linked
                  · exact (linked_to_others cache object path middle after linked same).mpr (matching path (.inl (listed ▸ member)))
      · rw [ran]
        exact (right_error stored call workspace after error).mpr ((restored_intact_iff stored workspace after restored).mpr intact)

-- os.remove of the object that the compiler made, then the object of the cache.
theorem replace_object_cases (call : Call γ) (cache : Cache) (object : String) (workspace : Workspace γ)
    (success : call.compiler.retval = 0) :
    (∃ error after, triageSafely call cache object workspace = .error error after ∧
      Restored (writeOutputs call.compiler.outputs workspace) after ∧
      ¬ ((writeOutputs call.compiler.outputs workspace).disk.has (.build object) = true ∧
        (writeOutputs call.compiler.outputs workspace).disk.has (.cached cache object) = true)) ∨
    ∃ after, triageSafely call cache object workspace = .ok none after ∧
      LinkedTo cache object (writeOutputs call.compiler.outputs workspace) after ∧
      (writeOutputs call.compiler.outputs workspace).disk.has (.build object) = true ∧
      (writeOutputs call.compiler.outputs workspace).disk.has (.cached cache object) = true := by
  obtain ⟨written, writing⟩ : ∃ written, written = writeOutputs call.compiler.outputs workspace := ⟨_, rfl⟩
  have body : triageSafely call cache object workspace =
      ((fileOperation fun disk => disk.remove (.build object)) >>= fun _ => restoreFile cache object >>= fun _ => pure none) written := by
    have ran : execAndReturn call.compiler workspace = .ok call.compiler.retval written := by rw [writing]; rfl
    simp only [triageSafely, driver_bind, ran, success, ne_eq, not_true_eq_false, if_false]
  rw [body, ← writing]
  cases present : written.disk.has (.build object) with
  | false =>
      refine .inl ⟨.os .noSuchFile, written, ?_, restored_refl written, by simp⟩
      simp only [driver_bind, fileOperation, Disk.remove_missing _ _ present]
  | true =>
      obtain ⟨disk, removed, inode, content⟩ := Disk.remove_ok written.disk (.build object) present
      have restored := restored_change written disk (fun other name => by simp [inode]) content
      have sameHas : (written.change disk).disk.has (.cached cache object) = written.disk.has (.cached cache object) := by
        simp [Workspace.change, Disk.has, inode]
      simp only [driver_bind, fileOperation, removed]
      cases held : written.disk.has (.cached cache object) with
      | false =>
          rw [restore_file_missing cache object _ (sameHas.trans held)]
          exact .inl ⟨_, _, rfl, restored, by simp⟩
      | true =>
          obtain ⟨after, linking, linked⟩ := restore_file_ok cache object (written.change disk) (sameHas.trans held)
          rw [linking]
          refine .inr ⟨after, rfl, ⟨restored_trans _ _ _ restored linked.restored, ?_, fun other different => ?_⟩, trivial, rfl⟩
          · rw [linked.here]
            simp [Workspace.change, inode]
          · rw [linked.others other different]
            simp [Workspace.change, inode, different]

theorem safely_right_iff (stored : Disk File γ) (call : Call γ) (cache : Cache) (object : String) (workspace : Workspace γ)
    (intact : AlwaysIntact stored workspace) (safely : route call workspace = .safely cache object) :
    CachesRight stored (triageResult call workspace (triageSafely call cache object workspace)) ↔
      WritesKeep stored workspace.disk call.compiler.outputs ∧
        SafelyMatches (writeOutputs call.compiler.outputs workspace).disk call cache object := by
  have finished : finishedCall call workspace = some ⟨cache, object, sideEffectsOf call, true⟩ := by
    simp only [finishedCall, safely]
  have kept := write_outputs_intact_iff stored call.compiler.outputs workspace intact
  by_cases success : call.compiler.retval = 0
  · rw [SafelyMatches, if_neg fun failed => failed success]
    rcases replace_object_cases call cache object workspace success with
      ⟨error, after, ran, restored, stopped⟩ | ⟨after, ran, linked, present, held⟩
    · rw [ran, right_error, restored_intact_iff stored _ after restored, kept]
      exact ⟨fun keep => ⟨keep, fun present held => absurd ⟨present, held⟩ stopped⟩, fun both => both.1⟩
    · rw [ran, right_ok stored call workspace after none _ finished, restored_intact_iff stored _ after linked.restored, kept]
      constructor
      · rintro ⟨keep, _, sideEffects⟩
        exact ⟨keep, fun _ _ path member different => (linked_to_others cache object path _ after linked different).mp
          (sideEffects path member)⟩
      · rintro ⟨keep, sideEffects⟩
        refine ⟨keep, fun _ => linked_to_matches cache object _ after linked, fun path member => ?_⟩
        by_cases same : path = object
        · exact same ▸ linked_to_matches cache object _ after linked
        · exact (linked_to_others cache object path _ after linked same).mpr (sideEffects present held path member same)
  · have ran : triageSafely call cache object workspace =
        .ok (some call.compiler.retval) (writeOutputs call.compiler.outputs workspace) := by
      have executed : execAndReturn call.compiler workspace =
        .ok call.compiler.retval (writeOutputs call.compiler.outputs workspace) := rfl
      simp only [triageSafely, driver_bind, executed, ne_eq, success, not_false_eq_true, if_true]
      rfl
    rw [SafelyMatches, if_pos success, ran, right_ok stored call workspace _ _ _ finished, kept]
    simp only [List.forall_mem_cons, true_implies]

theorem triage_step_right_iff (stored : Disk File γ) (triage next : Triage γ) (call : Call γ) (right : CachesRight stored triage)
    (taken : triageStep triage call = some next) : CachesRight stored next ↔ CallKeeps stored triage call := by
  have intact : AlwaysIntact stored triage.workspace.begin := ⟨right.intact, by simp [Workspace.begin]⟩
  rw [triage_step_eq, bisect_triage_route] at taken
  obtain rfl := Option.some.inj taken
  cases taking : route call triage.workspace.begin with
  | refused error =>
      simp only [CallKeeps, taking, iff_true]
      exact (right_error stored call _ _ error).mpr intact
  | compiles =>
      simp only [CallKeeps, taking]
      exact compiles_right_iff stored call triage.workspace.begin intact taking
  | safely cache object =>
      simp only [CallKeeps, taking]
      exact safely_right_iff stored call cache object triage.workspace.begin intact taking
  | restores cache object =>
      simp only [CallKeeps, taking, iff_true]
      exact restores_right stored call cache object triage.workspace.begin intact taking

def beginTriage (populated : Workspace γ) : Triage γ := ⟨populated.begin, none⟩

theorem object_caches_right_iff (populated : Workspace γ) (calls : List (Call γ)) :
    Throughout triageStep (CachesRight populated.disk) (beginTriage populated) calls ↔
      Along triageStep (CallKeeps populated.disk) (beginTriage populated) calls := by
  obtain ⟨final, ran⟩ := exec_total triageStep (fun triage call => ⟨_, triage_step_eq triage call⟩) (beginTriage populated) calls
  have initial : CachesRight populated.disk (beginTriage populated) :=
    (caches_right_unfinished populated.disk populated.begin).mpr ⟨fun _ _ _ held => held, by simp [Workspace.begin]⟩
  exact throughout_iff_along triageStep (CallKeeps populated.disk) (CachesRight populated.disk) (CachesRight populated.disk)
    (fun triage call next right keeps taken => (triage_step_right_iff populated.disk triage next call right taken).mpr keeps)
    (fun triage right => right)
    (fun triage call next right taken after => (triage_step_right_iff populated.disk triage next call right taken).mp after)
    calls (beginTriage populated) final initial ran

def compileObject (content : Nat) (cache : Cache) : Call Nat where
  execargs := ["cc", "-o", "/a.o"]
  abspath := id
  whichCache _ := cache
  continueOnMissing := false
  wrapperSafeMode := true
  compiler := ⟨[("/a.o", content)], 0⟩

def emptyWorkspace : Workspace Nat where
  disk := { inode := fun _ => none, content := fun _ => 0, next := 0, used := by simp }
  objectList := none
  moments := []

-- The good cache holds 1, the bad one 2, and the compiler of the triage writes 3.
theorem cached_object_overwritten : ∃ good populated final,
    bisectPopulate (compileObject 1 .good) .good emptyWorkspace = .ok none good ∧
    bisectPopulate (compileObject 2 .bad) .bad good = .ok none populated ∧
    exec triageStep (beginTriage populated) [compileObject 3 .good, compileObject 3 .good] = some final ∧
    populated.disk.read (.cached .good "/a.o") = some 1 ∧ final.workspace.disk.read (.cached .good "/a.o") = some 3 ∧
    ¬ CachesRight populated.disk final := by
  refine ⟨_, _, _, rfl, rfl, rfl, rfl, rfl, ?_⟩
  intro right
  have now := right.intact .good "/a.o" 1 rfl
  exact absurd now (by decide)

end ToolchainUtils.BinarySearchTool.BisectDriver
