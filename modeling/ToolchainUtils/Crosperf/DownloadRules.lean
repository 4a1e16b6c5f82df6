import ToolchainUtils.Crosperf.ImageDownloader

set_option autoImplicit false

namespace ToolchainUtils.Crosperf.ImageDownloader

open PyString Procedure

variable {Content : Type}

section Guards

-- What stays so while the directory is only looked at, whatever the children do.
structure Steady (holds : Directory Content → Prop) : Prop where
  late : ∀ directory (late : Late Content), late.task ∈ directory.outlived → holds directory → holds (late.change directory)
  clock : ∀ (directory : Directory Content) rest, holds directory → holds { directory with meanwhile := rest }

-- What only the commands of a list change.
structure ChangedBy (tasks : List Task) (about : Directory Content → Prop) : Prop where
  ran : ∀ directory task written goesOn, task ∉ tasks → about directory → about (directory.ran task written goesOn)
  late : ∀ directory (late : Late Content), late.task ∉ tasks → about directory → about (late.change directory)
  clock : ∀ (directory : Directory Content) rest, about directory → about { directory with meanwhile := rest }

-- No child of these commands goes on.
def Apart (tasks : List Task) (directory : Directory Content) : Prop := ∀ task ∈ tasks, task ∉ directory.outlived

def Guarded (tasks : List Task) (about : Directory Content → Prop) (directory : Directory Content) : Prop :=
  Apart tasks directory ∧ about directory

theorem write_outlived (task : Task) (file : Option Content) (directory : Directory Content) :
    (task.write file directory).outlived = directory.outlived := by
  cases task with
  | moveAutotest =>
      show directory.moveAutotest.outlived = directory.outlived
      unfold Directory.moveAutotest
      split <;> rfl
  | _ => rfl

theorem change_outlived (late : Late Content) (directory : Directory Content) :
    (late.change directory).outlived = directory.outlived := by
  cases late with
  | writes task file => exact write_outlived task file directory
  | writesMoved package part => rfl

theorem ran_outlived (directory : Directory Content) (task : Task) (written : Option (Option Content)) (goesOn : Bool) :
    (directory.ran task written goesOn).outlived = if goesOn then task :: directory.outlived else directory.outlived := by
  unfold Directory.ran
  cases written with
  | none => rfl
  | some file =>
      show (if goesOn then task :: (task.write file directory).outlived else (task.write file directory).outlived) = _
      rw [write_outlived]

theorem ran_keeps_outlived {directory : Directory Content} {task other : Task} (written : Option (Option Content)) (goesOn : Bool)
    (member : other ∈ directory.outlived) : other ∈ (directory.ran task written goesOn).outlived := by
  rw [ran_outlived]
  split
  · exact List.mem_cons_of_mem _ member
  · exact member

theorem apart_before {tasks : List Task} {directory : Directory Content} {task : Task} {written : Option (Option Content)}
    {goesOn : Bool} (apart : Apart tasks (directory.ran task written goesOn)) : Apart tasks directory :=
  fun other member outlived => apart other member (ran_keeps_outlived written goesOn outlived)

theorem apart_success {tasks : List Task} {directory : Directory Content} {task : Task} {written : Option (Option Content)}
    (apart : Apart tasks directory) : Apart tasks (directory.ran task written false) := by
  intro other member outlived
  rw [ran_outlived] at outlived
  exact apart other member outlived

theorem apart_other {tasks : List Task} {directory : Directory Content} {task : Task} {written : Option (Option Content)}
    {goesOn : Bool} (apart : Apart tasks directory) (outside : task ∉ tasks) : Apart tasks (directory.ran task written goesOn) := by
  intro other member outlived
  rw [ran_outlived] at outlived
  split at outlived
  · rcases List.mem_cons.mp outlived with same | earlier
    · exact outside (same ▸ member)
    · exact apart other member earlier
  · exact apart other member outlived

variable {tasks : List Task} {about : Directory Content → Prop}

theorem steady_guarded (changed : ChangedBy tasks about) : Steady (Guarded tasks about) where
  late directory late outlived holds := by
    refine ⟨fun task member => ?_, changed.late directory late (fun member => holds.1 _ member outlived) holds.2⟩
    rw [change_outlived]
    exact holds.1 task member
  clock directory rest holds := ⟨holds.1, changed.clock directory rest holds.2⟩

-- What holds as long as no child of the commands goes on.
theorem steady_unless (changed : ChangedBy tasks about) : Steady fun directory => Apart tasks directory → about directory where
  late directory late outlived holds apart := by
    have before : Apart tasks directory := fun task member outlived => apart task member (by rwa [change_outlived])
    exact changed.late directory late (fun member => before _ member outlived) (holds before)
  clock directory rest holds apart := changed.clock directory rest (holds apart)

theorem guarded_ran (changed : ChangedBy tasks about) {directory : Directory Content} (task : Task)
    (written : Option (Option Content)) (goesOn : Bool) (outside : task ∉ tasks) (holds : Guarded tasks about directory) :
    Guarded tasks about (directory.ran task written goesOn) :=
  ⟨apart_other holds.1 outside, changed.ran directory task written goesOn outside holds.2⟩

-- To be changed by some commands only, it is enough that the others write elsewhere.
theorem changed_by_writes (late : ∀ directory (late : Late Content), late.task ∉ tasks → about directory →
    about (late.change directory))
    (logs : ∀ (directory : Directory Content) asked outlived rest, about directory →
      about { directory with asked := asked, outlived := outlived, meanwhile := rest }) : ChangedBy tasks about where
  ran directory task written goesOn outside holds := by
    cases written with
    | none => exact logs directory _ _ _ holds
    | some file => exact logs _ _ _ _ (late directory (.writes task file) outside holds)
  late := late
  clock directory rest holds := logs directory _ _ rest holds

end Guards

section Fields

theorem move_autotest_rest (directory : Directory Content) : directory.moveAutotest.image = directory.image ∧
    directory.moveAutotest.tarball = directory.tarball ∧ directory.moveAutotest.package = directory.package := by
  unfold Directory.moveAutotest
  split <;> exact ⟨rfl, rfl, rfl⟩

theorem changes_image (about : Option Content → Prop) :
    ChangedBy [.extractImage, .cleanImage] fun directory => about directory.image := by
  refine changed_by_writes (fun directory late outside holds => ?_) fun _ _ _ _ holds => holds
  cases late with
  | writesMoved package part => exact holds
  | writes task file =>
      cases task with
      | extractImage => exact absurd List.mem_cons_self outside
      | cleanImage => exact absurd (List.mem_cons_of_mem _ List.mem_cons_self) outside
      | moveAutotest =>
          show about directory.moveAutotest.image
          rw [(move_autotest_rest directory).1]
          exact holds
      | _ => exact holds

def imageTasks : List Task := [.copyImage, .extractImage, .cleanImage, .removeTarball]

theorem changes_tarball (about : Option Content → Option Content → Prop) :
    ChangedBy imageTasks fun directory => about directory.image directory.tarball := by
  refine changed_by_writes (fun directory late outside holds => ?_) fun _ _ _ _ holds => holds
  cases late with
  | writesMoved package part => exact holds
  | writes task file =>
      cases task with
      | copyImage => exact absurd (show Task.copyImage ∈ imageTasks by decide) outside
      | extractImage => exact absurd (show Task.extractImage ∈ imageTasks by decide) outside
      | cleanImage => exact absurd (show Task.cleanImage ∈ imageTasks by decide) outside
      | removeTarball => exact absurd (show Task.removeTarball ∈ imageTasks by decide) outside
      | moveAutotest =>
          show about directory.moveAutotest.image directory.moveAutotest.tarball
          rw [(move_autotest_rest directory).1, (move_autotest_rest directory).2.1]
          exact holds
      | _ => exact holds

-- A child that has gone on stays one that has.
theorem changes_outlived (task : Task) : ChangedBy [] fun directory : Directory Content => task ∈ directory.outlived where
  ran _ _ written goesOn _ holds := ran_keeps_outlived written goesOn holds
  late directory late _ holds := by
    rw [change_outlived]
    exact holds
  clock _ _ holds := holds

end Fields

section Rules

variable {before : Directory Content → Prop} {raised : Failure → Directory Content → Prop}

theorem settled (steady : Steady before) (directory : Directory Content) (start : before directory) : before (settle directory) := by
  have goes : ∀ (batch : List (Late Content)) (directory : Directory Content), before directory →
    before (batch.foldl happen directory) := by
    intro batch
    induction batch with
    | nil => exact fun _ holds => holds
    | cons late rest ih =>
        intro directory holds
        refine ih _ ?_
        unfold happen
        split
        · exact steady.late directory late ‹_› holds
        · exact holds
  unfold settle
  split
  · exact start
  · exact goes _ _ (steady.clock directory _ start)

theorem meets_look (steady : Steady before) :
    Meets before look (fun seen directory => seen = directory ∧ before directory) raised :=
  meets_bind (meets_modify (Q := before) _ (settled steady)) fun _ => meets_get

-- A test of what has just been seen.
theorem meets_seen {finish : Directory Content → Prop} (test : Directory Content → Bool) (seen : Directory Content)
    {body : Download Content Unit} (taken : Meets (fun directory => test directory = true ∧ before directory) body
      (fun _ => finish) raised)
    (passed : ∀ directory, test directory = false → before directory → finish directory) :
    Meets (fun directory => seen = directory ∧ before directory) (whenever (test seen) body) (fun _ => finish) raised := by
  refine meets_whenever _ (fun holds => ?_) fun fails directory start => ?_
  · exact meets_weaken taken (fun directory start => ⟨start.1 ▸ holds, start.2⟩) (fun _ _ ends => ends) fun _ _ ends => ends
  · exact passed directory (start.1 ▸ fails) start.2

theorem meets_ending {finish : Int → Directory Content → Prop} (ended : Ended)
    (exits : ∀ code, ended = .exited code → ∀ directory, before directory → finish code directory)
    (escapes : ended = .raised → ∀ directory, before directory → raised Failure.escaped directory) :
    Meets before (ending ended) finish raised := by
  cases ended with
  | exited code => exact meets_done code (exits code rfl)
  | raised => exact meets_raise Failure.escaped (escapes rfl)

theorem meets_run_command {finish : Int → Directory Content → Prop} (steady : Steady before) (ended : Ended)
    (exits : ∀ code, ended = .exited code → ∀ directory, before directory → finish code directory)
    (escapes : ended = .raised → ∀ directory, before directory → raised Failure.escaped directory) :
    Meets before (runCommand ended) finish raised :=
  meets_bind (meets_modify (Q := before) _ (settled steady)) fun _ => meets_ending ended exits escapes

theorem meets_writing {finish : Int → Directory Content → Prop} (steady : Steady before) (answers : Answers Content) (task : Task)
    (whole : Directory Content → Option (Option Content))
    (succeeds : (answers.outcome task).ended = .exited 0 → ∀ directory file, whole directory = some file → before directory →
      finish 0 (directory.ran task (some file) false))
    (fails : ∀ code directory, code ≠ 0 → ((answers.outcome task).ended = .exited 0 → whole directory = none) →
      before directory → finish code (directory.ran task (answers.outcome task).left (answers.outcome task).goesOn))
    (escapes : ∀ directory, (answers.outcome task).ended ≠ .exited 0 → before directory →
      raised Failure.escaped (directory.ran task (answers.outcome task).left (answers.outcome task).goesOn)) :
    Meets before (writing answers task whole) finish raised := by
  refine meets_bind (meets_look steady) fun seen => ?_
  by_cases good : (answers.outcome task).ended = .exited 0
  · cases possible : whole seen with
    | some file =>
        simp only [good, if_pos]
        refine meets_bind (meets_modify (Q := finish 0) _ fun directory start => ?_) fun _ => meets_done 0 fun _ ends => ends
        exact succeeds good directory file (start.1 ▸ possible) start.2
    | none =>
        simp only [good, if_pos]
        refine meets_bind (meets_modify (Q := finish 2) _ fun directory start => ?_) fun _ => meets_done 2 fun _ ends => ends
        exact fails 2 directory (by decide) (fun _ => start.1 ▸ possible) start.2
  · simp only [good, if_false]
    refine meets_bind (meets_modify (Q := fun directory => ∃ earlier, before earlier ∧
      directory = earlier.ran task (answers.outcome task).left (answers.outcome task).goesOn) _ fun directory start =>
        ⟨directory, start.2, rfl⟩) fun _ => ?_
    refine meets_ending _ (fun code exited directory start => ?_) fun _ directory start => ?_
    · obtain ⟨earlier, start, rfl⟩ := start
      exact fails code earlier (fun zero => good (zero ▸ exited)) (fun other => absurd other good) start
    · obtain ⟨earlier, start, rfl⟩ := start
      exact escapes earlier good start

theorem meets_failed_or_missing {holds : Directory Content → Prop} {finish : Bool → Directory Content → Prop}
    (steady : Steady holds) (status : Int) (missing : Directory Content → Bool)
    (failed : status ≠ 0 → ∀ directory, before directory → finish true directory)
    (fine : status = 0 → ∀ directory, before directory → holds directory)
    (looks : ∀ directory, holds directory → finish (missing directory) directory) :
    Meets before (failedOrMissing status missing) finish raised := by
  unfold failedOrMissing
  by_cases zero : status = 0
  · subst zero
    refine meets_bind (meets_weaken (meets_look steady) (fine rfl) (fun _ _ ends => ends) fun _ _ ends => ends) fun seen => ?_
    refine meets_done _ fun directory start => ?_
    rw [start.1]
    exact looks directory start.2
  · rw [if_pos (bne_iff_ne.mpr zero)]
    exact meets_done true (failed zero)

variable {tasks : List Task} {about : Directory Content → Prop}

theorem keeps_writing (changed : ChangedBy tasks about) (answers : Answers Content) (task : Task)
    (whole : Directory Content → Option (Option Content)) (outside : task ∉ tasks) :
    Meets (Guarded tasks about) (writing answers task whole) (fun _ => Guarded tasks about) fun _ => Guarded tasks about :=
  meets_writing (steady_guarded changed) answers task whole (fun _ _ _ _ => guarded_ran changed _ _ _ outside)
    (fun _ _ _ _ => guarded_ran changed _ _ _ outside) fun _ _ => guarded_ran changed _ _ _ outside

theorem keeps_failed_or_missing (changed : ChangedBy tasks about) (status : Int) (missing : Directory Content → Bool) :
    Meets (Guarded tasks about) (failedOrMissing status missing) (fun _ => Guarded tasks about) fun _ => Guarded tasks about :=
  meets_failed_or_missing (steady_guarded changed) status missing (fun _ _ holds => holds) (fun _ _ holds => holds) fun _ holds =>
    holds

theorem keeps_command (changed : ChangedBy tasks about) (ended : Ended) :
    Meets (Guarded tasks about) (runCommand ended) (fun _ => Guarded tasks about) fun _ => Guarded tasks about :=
  meets_run_command (steady_guarded changed) ended (fun _ _ _ holds => holds) fun _ _ holds => holds

end Rules

section Kept

variable (chromeosRoot buildId : Text) (archive : Archive Content) (tar : Tar Content) (answers : Answers Content)

variable {tasks : List Task} {about : Directory Content → Prop}

theorem download_keeps (changed : ChangedBy tasks about) (copies : .copyImage ∉ tasks) :
    Meets (Guarded tasks about) (downloadImage chromeosRoot buildId archive answers) (fun _ => Guarded tasks about)
      fun _ => Guarded tasks about := by
  refine meets_bind (meets_look (steady_guarded changed)) fun seen => ?_
  refine meets_bind (Q := fun _ => Guarded tasks about) ?_ fun _ => meets_done _ fun _ kept => kept
  refine meets_seen (fun directory => directory.image.isNone) seen ?_ fun _ _ kept => kept
  refine meets_bind (meets_weaken (keeps_writing changed answers .copyImage _ copies) (fun _ kept => kept.2) (fun _ _ kept => kept)
    fun _ _ kept => kept) fun status => ?_
  refine meets_bind (keeps_failed_or_missing changed status _) fun missing => ?_
  exact meets_whenever _ (fun _ => meets_raise _ fun _ kept => kept) fun _ _ kept => kept

-- A package is only written where it is missing.
theorem single_keeps (changed : ChangedBy tasks about) (package : Package)
    (copies : .copyPackage package ∈ tasks → ∀ directory, about directory → directory.package package ≠ none) :
    Meets (Guarded tasks about) (downloadSingleAutotestFile chromeosRoot buildId archive answers package)
      (fun _ => Guarded tasks about) fun _ => Guarded tasks about := by
  refine meets_bind (keeps_command changed _) fun status => ?_
  refine meets_bind (meets_whenever _ (fun _ => meets_raise _ fun _ kept => kept) fun _ _ kept => kept) fun _ => ?_
  refine meets_bind (meets_look (steady_guarded changed)) fun seen => ?_
  refine meets_seen (fun directory => (directory.package package).isNone) seen ?_ fun _ _ kept => kept
  by_cases member : .copyPackage package ∈ tasks
  · refine meets_absurd _ fun directory start => ?_
    exact copies member directory start.2.2 (Option.isNone_iff_eq_none.mp start.1)
  · refine meets_bind (meets_weaken (keeps_writing changed answers (.copyPackage package) _ member) (fun _ kept => kept.2)
      (fun _ _ kept => kept) fun _ _ kept => kept) fun status => ?_
    refine meets_bind (keeps_failed_or_missing changed status _) fun missing => ?_
    exact meets_whenever _ (fun _ => meets_raise _ fun _ kept => kept) fun _ _ kept => kept

theorem uncompress_single_keeps (changed : ChangedBy tasks about) (package : Package) (extracts : .extractPackage package ∉ tasks)
    (removes : .removePackage package ∉ tasks) :
    Meets (Guarded tasks about) (uncompressSingleAutotestFile tar answers package) (fun _ => Guarded tasks about)
      fun _ => Guarded tasks about := by
  refine meets_bind (keeps_writing changed answers (.extractPackage package) _ extracts) fun retval => ?_
  refine meets_bind (meets_whenever _ (fun _ => meets_raise _ fun _ kept => kept) fun _ _ kept => kept) fun _ => ?_
  exact meets_bind (keeps_writing changed answers (.removePackage package) _ removes) fun _ => meets_done _ fun _ kept => kept

theorem clean_keeps (changed : ChangedBy tasks about) (cleans : .cleanImage ∉ tasks) :
    Meets (Guarded tasks about) (cleanImage answers) (fun _ => Guarded tasks about) fun _ => Guarded tasks about :=
  meets_bind (keeps_writing changed answers .cleanImage _ cleans) fun _ => meets_done _ fun _ kept => kept

theorem uncompress_keeps (changed : ChangedBy tasks about) (extracts : .extractImage ∉ tasks) (cleans : .cleanImage ∉ tasks)
    (removes : .removeTarball ∉ tasks) :
    Meets (Guarded tasks about) (uncompressImage buildId tar answers) (fun _ => Guarded tasks about) fun _ => Guarded tasks about := by
  refine meets_bind (meets_look (steady_guarded changed)) fun seen => ?_
  refine meets_seen (fun directory => directory.image.isNone) seen ?_ fun _ _ kept => kept
  refine meets_bind (Q := fun _ => Guarded tasks about) ?_ fun retval => ?_
  · refine meets_weaken (meets_on_raise (keeps_writing changed answers .extractImage _ extracts) fun _ =>
      clean_keeps answers changed cleans)
      (fun _ kept => kept.2) (fun _ _ kept => kept) fun _ _ kept => kept
  · refine meets_bind (Q := fun _ => Guarded tasks about) (meets_whenever _ (fun _ => ?_) fun _ _ kept => kept) fun _ => ?_
    · exact meets_bind (clean_keeps answers changed cleans) fun _ => meets_raise _ fun _ kept => kept
    · exact meets_bind (keeps_writing changed answers .removeTarball _ removes) fun _ => meets_done _ fun _ kept => kept

theorem chosen_keeps (changed : ChangedBy tasks about) (copies : ∀ package, .copyPackage package ∉ tasks)
    (extracts : ∀ package, .extractPackage package ∉ tasks) (removes : ∀ package, .removePackage package ∉ tasks)
    (moves : .moveAutotest ∉ tasks) (autotestPath : Text) :
    Meets (Guarded tasks about) (chosenAutotest chromeosRoot buildId archive tar answers autotestPath) (fun _ => Guarded tasks about)
      fun _ => Guarded tasks about := by
  unfold chosenAutotest
  split
  · refine meets_bind (meets_look (steady_guarded changed)) fun seen => ?_
    by_cases there : seen.autotestFiles.isSome = true
    · rw [if_pos there]
      exact meets_done _ fun _ kept => kept.2
    · rw [if_neg there]
      refine meets_bind (meets_weaken (keeps_command changed _) (fun _ kept => kept.2) (fun _ _ kept => kept) fun _ _ kept => kept)
        fun status => ?_
      by_cases absent : (status != 0) = true
      · rw [if_pos absent]
        exact meets_done _ fun _ kept => kept
      · rw [if_neg absent]
        refine meets_bind (meets_for_each _ _ fun package =>
          single_keeps chromeosRoot buildId archive answers changed package fun member => absurd member (copies package)) fun _ => ?_
        refine meets_bind (meets_for_each _ _ fun package =>
          uncompress_single_keeps tar answers changed package (extracts package) (removes package)) fun _ => ?_
        refine meets_bind (keeps_writing changed answers .moveAutotest _ moves) fun retval => ?_
        refine meets_bind (meets_whenever _ (fun _ => meets_raise _ fun _ kept => kept) fun _ _ kept => kept) fun _ => ?_
        exact meets_done _ fun _ kept => kept
  · exact meets_done _ fun _ kept => kept

theorem build_outlived (task : Task) (autotestPath : Text) :
    Meets (fun directory => task ∈ directory.outlived) (runBuild chromeosRoot buildId archive tar answers autotestPath)
      (fun _ directory => task ∈ directory.outlived) fun _ directory => task ∈ directory.outlived := by
  have changed : ChangedBy [] fun directory : Directory Content => task ∈ directory.outlived := changes_outlived task
  have free : ∀ other : Task, other ∉ ([] : List Task) := fun _ => List.not_mem_nil
  suffices keeps : Meets (Guarded [] fun directory => task ∈ directory.outlived)
      (runBuild chromeosRoot buildId archive tar answers autotestPath)
      (fun _ => Guarded [] fun directory => task ∈ directory.outlived) fun _ => Guarded [] fun directory =>
        task ∈ directory.outlived from
    meets_weaken keeps (fun _ holds => ⟨fun _ member => absurd member (free _), holds⟩) (fun _ _ kept => kept.2)
      fun _ _ kept => kept.2
  refine meets_bind (keeps_command changed _) fun status => ?_
  refine meets_bind (meets_whenever _ (fun _ => meets_raise _ fun _ kept => kept) fun _ _ kept => kept) fun _ => ?_
  refine meets_bind (download_keeps chromeosRoot buildId archive answers changed (free _)) fun image => ?_
  refine meets_bind (uncompress_keeps buildId tar answers changed (free _) (free _) (free _)) fun _ => ?_
  refine meets_bind (chosen_keeps chromeosRoot buildId archive tar answers changed (fun _ => free _) (fun _ => free _)
    (fun _ => free _) (free _) autotestPath) fun autotest => ?_
  exact meets_done _ fun _ kept => kept

end Kept

end ToolchainUtils.Crosperf.ImageDownloader
