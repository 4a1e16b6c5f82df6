import ToolchainUtils.Crosperf.DownloadRules

set_option autoImplicit false

namespace ToolchainUtils.Crosperf.ImageDownloader

open PyString Procedure

variable {Content : Type}

section Whole

variable (chromeosRoot buildId : Text) (archive : Archive Content) (tar : Tar Content) (answers : Answers Content)

theorem chosen_keeps_image (about : Option Content → Prop) (autotestPath : Text) :
    Meets (Guarded [.extractImage, .cleanImage] fun directory => about directory.image)
      (chosenAutotest chromeosRoot buildId archive tar answers autotestPath)
      (fun _ => Guarded [.extractImage, .cleanImage] fun directory => about directory.image)
      fun _ => Guarded [.extractImage, .cleanImage] fun directory => about directory.image :=
  chosen_keeps chromeosRoot buildId archive tar answers (changes_image about) (fun _ => by simp) (fun _ => by simp) (fun _ => by simp)
    (by decide) autotestPath

-- An image that is there is left alone.
theorem image_stays (autotestPath : Text) (content : Content) :
    Meets (Guarded [.extractImage, .cleanImage] fun directory => directory.image = some content)
      (runBuild chromeosRoot buildId archive tar answers autotestPath)
      (fun _ => Guarded [.extractImage, .cleanImage] fun directory => directory.image = some content)
      fun _ => Guarded [.extractImage, .cleanImage] fun directory => directory.image = some content := by
  have changed := changes_image fun image : Option Content => image = some content
  refine meets_bind (keeps_command changed _) fun status => ?_
  refine meets_bind (meets_whenever _ (fun _ => meets_raise _ fun _ kept => kept) fun _ _ kept => kept) fun _ => ?_
  refine meets_bind (download_keeps chromeosRoot buildId archive answers changed (by decide)) fun image => ?_
  refine meets_bind (Q := fun _ => Guarded [.extractImage, .cleanImage] fun directory => directory.image = some content) ?_ fun _ => ?_
  · refine meets_bind (meets_look (steady_guarded changed)) fun seen => ?_
    refine meets_seen (fun directory => directory.image.isNone) seen (meets_absurd _ fun directory start => ?_) fun _ _ kept => kept
    have there : directory.image = some content := start.2.2
    rw [Option.isNone_iff_eq_none.mp start.1] at there
    cases there
  · refine meets_bind (chosen_keeps_image chromeosRoot buildId archive tar answers (fun image => image = some content) autotestPath)
      fun autotest => ?_
    exact meets_done _ fun _ kept => kept

-- The image is not there, or as the tarball has it.
def WholeOrMissing (archive : Archive Content) (tar : Tar Content) (image : Option Content) : Prop :=
  image = none ∨ image = tar.unpack archive.image

def IsWhole (archive : Archive Content) (tar : Tar Content) (image : Option Content) : Prop :=
  ∃ whole, tar.unpack archive.image = some whole ∧ image = some whole

theorem whole_is_no_part {archive : Archive Content} {tar : Tar Content} {image : Option Content} (whole : IsWhole archive tar image) :
    WholeOrMissing archive tar image := by
  obtain ⟨content, unpacked, rfl⟩ := whole
  exact .inr unpacked.symm

-- When tar does not succeed, it leaves no part of an image or the clean-up removes it.
def CleansUp (archive : Archive Content) (tar : Tar Content) (answers : Answers Content) : Prop :=
  ((answers.outcome .extractImage).ended ≠ .exited 0 ∨ tar.unpack archive.image = none) →
    WholeOrMissing archive tar (answers.outcome .extractImage).left.join ∨ (answers.outcome .cleanImage).ended = .exited 0 ∨
      (answers.outcome .cleanImage).left.isSome

-- In front of tar the tarball is the one of the archive.
def Fetched (archive : Archive Content) (tar : Tar Content) (image tarball : Option Content) : Prop :=
  WholeOrMissing archive tar image ∧ (image = none → tarball = some archive.image)

theorem download_fetches : Meets (Guarded imageTasks fun directory => WholeOrMissing archive tar directory.image)
    (downloadImage chromeosRoot buildId archive answers)
    (fun image directory => image = imagePath chromeosRoot buildId ∧
      Guarded imageTasks (fun directory => Fetched archive tar directory.image directory.tarball) directory)
    fun _ directory => WholeOrMissing archive tar directory.image := by
  have images := changes_tarball fun image _ : Option Content => WholeOrMissing archive tar image
  have fetched := changes_tarball (Fetched archive tar)
  refine meets_bind (meets_look (steady_guarded images)) fun seen => ?_
  refine meets_bind (Q := fun _ => Guarded imageTasks fun directory => Fetched archive tar directory.image directory.tarball) ?_
    fun _ => meets_done _ fun _ holds => ⟨rfl, holds⟩
  refine meets_seen (fun directory => directory.image.isNone) seen ?_ fun directory there holds =>
    ⟨holds.1, holds.2, fun missing => ?_⟩
  · refine meets_bind (Q := fun status directory => WholeOrMissing archive tar directory.image ∧
      (status = 0 → Guarded imageTasks (fun directory => Fetched archive tar directory.image directory.tarball) directory)) ?_
        fun status => ?_
    · refine meets_weaken (meets_writing (steady_guarded images) answers .copyImage _
        (fun _ directory file copied holds => ?_) (fun code directory failed _ holds => ?_) fun directory _ holds => ?_)
        (fun _ holds => holds.2) (fun _ _ ends => ends) fun _ _ ends => ends
      · cases copied
        exact ⟨holds.2, fun _ => ⟨apart_success holds.1, holds.2, fun _ => rfl⟩⟩
      · refine ⟨?_, fun zero => absurd zero failed⟩
        cases (answers.outcome .copyImage).left with
        | none => exact holds.2
        | some file => exact holds.2
      · cases (answers.outcome .copyImage).left with
        | none => exact holds.2
        | some file => exact holds.2
    · refine meets_bind (Q := fun missing directory => WholeOrMissing archive tar directory.image ∧ (missing = false →
        Guarded imageTasks (fun directory => Fetched archive tar directory.image directory.tarball) directory)) ?_ fun missing => ?_
      · exact meets_failed_or_missing (steady_guarded fetched) status _ (fun _ _ holds => ⟨holds.1, fun absent => nomatch absent⟩)
          (fun zero _ holds => holds.2 zero) fun _ holds => ⟨holds.2.1, fun _ => holds⟩
      · exact meets_whenever _ (fun _ => meets_raise _ fun _ holds => holds.1) fun fine _ holds => holds.2 fine
  · rw [missing] at there
    cases there

-- What tar leaves when it does not succeed, in front of the clean-up.
def LeftByTar (answers : Answers Content) (directory : Directory Content) : Prop :=
  Apart imageTasks directory → directory.image = (answers.outcome .extractImage).left.join

theorem clean_image_whole (cleans : WholeOrMissing archive tar (answers.outcome .extractImage).left.join ∨
    (answers.outcome .cleanImage).ended = .exited 0 ∨ (answers.outcome .cleanImage).left.isSome) :
    Meets (LeftByTar answers) (cleanImage answers)
      (fun _ directory => Apart imageTasks directory → WholeOrMissing archive tar directory.image)
      fun _ directory => Apart imageTasks directory → WholeOrMissing archive tar directory.image := by
  have changed := changes_tarball fun image _ : Option Content => image = (answers.outcome .extractImage).left.join
  have left : (answers.outcome .cleanImage).ended ≠ .exited 0 → ∀ directory goesOn, LeftByTar answers directory →
      Apart imageTasks (directory.ran .cleanImage (answers.outcome .cleanImage).left goesOn) →
      WholeOrMissing archive tar (directory.ran .cleanImage (answers.outcome .cleanImage).left goesOn).image := by
    intro unsuccessful directory goesOn same apart
    cases written : (answers.outcome .cleanImage).left with
    | some file => exact .inl rfl
    | none =>
        show WholeOrMissing archive tar directory.image
        rw [same (apart_before apart)]
        rcases cleans with harmless | cleaned | gone
        · exact harmless
        · exact absurd cleaned unsuccessful
        · rw [written] at gone
          cases gone
  refine meets_bind (Q := fun _ directory => Apart imageTasks directory → WholeOrMissing archive tar directory.image) ?_ fun _ =>
    meets_done _ fun _ holds => holds
  refine meets_writing (steady_unless changed) answers .cleanImage _ (fun _ directory file _ _ _ => .inl rfl)
    (fun code directory _ stopped same => left ?_ directory _ same) fun directory unsuccessful same =>
      left unsuccessful directory _ same
  intro exited
  cases stopped exited

theorem clean_image_ends (unsuccessful : (answers.outcome .extractImage).ended ≠ .exited 0 ∨ tar.unpack archive.image = none) :
    Meets (LeftByTar answers) (cleanImage answers)
      (fun _ directory => CleansUp archive tar answers → Apart imageTasks directory → WholeOrMissing archive tar directory.image)
      fun _ directory => CleansUp archive tar answers → Apart imageTasks directory → WholeOrMissing archive tar directory.image := by
  by_cases cleans : CleansUp archive tar answers
  · exact meets_weaken (clean_image_whole archive tar answers (cleans unsuccessful)) (fun _ holds => holds)
      (fun _ _ holds _ => holds) fun _ _ holds _ => holds
  · exact meets_weaken (meets_nothing _) (fun _ holds => holds) (fun _ _ _ other => absurd other cleans)
      fun _ _ _ other => absurd other cleans

-- tar on the tarball of the archive.
theorem tar_makes_whole :
    Meets (Guarded imageTasks fun directory => directory.image = none ∧ directory.tarball = some archive.image)
      (writing answers .extractImage fun directory => (directory.tarball.bind tar.unpack).map some)
      (fun retval directory => (retval = 0 → Guarded imageTasks (fun directory => IsWhole archive tar directory.image) directory) ∧
        (retval ≠ 0 → ((answers.outcome .extractImage).ended ≠ .exited 0 ∨ tar.unpack archive.image = none) ∧
          LeftByTar answers directory))
      fun _ directory => ((answers.outcome .extractImage).ended ≠ .exited 0 ∨ tar.unpack archive.image = none) ∧
        LeftByTar answers directory := by
  have fetched := changes_tarball fun image tarball : Option Content => image = none ∧ tarball = some archive.image
  have left : ∀ (directory : Directory Content) goesOn, directory.image = none →
      LeftByTar answers (directory.ran .extractImage (answers.outcome .extractImage).left goesOn) := by
    intro directory goesOn missing _
    cases (answers.outcome .extractImage).left with
    | none => exact missing
    | some file => rfl
  refine meets_writing (steady_guarded fetched) answers .extractImage _ (fun _ directory file extracted holds => ?_)
    (fun code directory failed stopped holds => ?_) fun directory unsuccessful holds =>
      ⟨.inl unsuccessful, left directory _ holds.2.1⟩
  · refine ⟨fun _ => ⟨apart_success holds.1, ?_⟩, fun failed => absurd rfl failed⟩
    rw [holds.2.2, Option.bind_some] at extracted
    obtain ⟨whole, unpacked, rfl⟩ := Option.map_eq_some_iff.mp extracted
    exact ⟨whole, unpacked, rfl⟩
  · refine ⟨fun zero => absurd zero failed, fun _ => ⟨?_, left directory _ holds.2.1⟩⟩
    by_cases exited : (answers.outcome .extractImage).ended = .exited 0
    · refine .inr ?_
      have stuck := stopped exited
      rwa [holds.2.2, Option.bind_some, Option.map_eq_none_iff] at stuck
    · exact .inl exited

-- When the image is returned, it needs no clean-up of this run.
theorem uncompress_makes_whole :
    Meets (Guarded imageTasks fun directory => Fetched archive tar directory.image directory.tarball)
      (uncompressImage buildId tar answers)
      (fun _ => Guarded [.extractImage, .cleanImage] fun directory => IsWhole archive tar directory.image)
      fun _ directory => CleansUp archive tar answers → Apart imageTasks directory → WholeOrMissing archive tar directory.image := by
  have fewer : ∀ directory : Directory Content, Apart imageTasks directory → Apart [.extractImage, .cleanImage] directory :=
    fun directory apart task member => apart task ((show [Task.extractImage, .cleanImage] ⊆ imageTasks by decide) member)
  refine meets_bind (meets_look (steady_guarded (changes_tarball (Fetched archive tar)))) fun seen => ?_
  refine meets_seen (fun directory => directory.image.isNone) seen ?_ fun directory there holds => ?_
  · refine meets_bind (Q := fun retval directory =>
      (retval = 0 → Guarded imageTasks (fun directory => IsWhole archive tar directory.image) directory) ∧
        (retval ≠ 0 → ((answers.outcome .extractImage).ended ≠ .exited 0 ∨ tar.unpack archive.image = none) ∧
          LeftByTar answers directory)) ?_ fun retval => ?_
    · refine meets_weaken (meets_on_raise (tar_makes_whole archive tar answers) fun exception => ?_)
        (fun directory holds => ⟨holds.2.1, Option.isNone_iff_eq_none.mp holds.1,
          holds.2.2.2 (Option.isNone_iff_eq_none.mp holds.1)⟩) (fun _ _ ends => ends) fun _ _ ends => ends
      by_cases unsuccessful : (answers.outcome .extractImage).ended ≠ .exited 0 ∨ tar.unpack archive.image = none
      · exact meets_weaken (clean_image_ends archive tar answers unsuccessful) (fun _ holds => holds.2)
          (fun _ _ holds => holds) fun _ _ holds => holds
      · exact meets_absurd _ fun _ holds => unsuccessful holds.1
    · refine meets_bind (Q := fun _ => Guarded imageTasks fun directory => IsWhole archive tar directory.image) ?_ fun _ => ?_
      · refine meets_whenever _ (fun failed => ?_) fun fine _ holds => holds.1 (by simpa using fine)
        rw [bne_iff_ne] at failed
        by_cases unsuccessful : (answers.outcome .extractImage).ended ≠ .exited 0 ∨ tar.unpack archive.image = none
        · refine meets_bind (meets_weaken (clean_image_ends archive tar answers unsuccessful)
            (fun _ holds => (holds.2 failed).2) (fun _ _ holds => holds) fun _ _ holds => holds) fun _ => ?_
          exact meets_raise _ fun _ holds => holds
        · exact meets_absurd _ fun _ holds => unsuccessful (holds.2 failed).1
      · refine meets_weaken (meets_bind (keeps_writing (changes_image (IsWhole archive tar)) answers .removeTarball _
          (by decide)) fun _ =>
          meets_done () fun _ holds => holds) (fun directory holds => ⟨fewer directory holds.1, holds.2⟩) (fun _ _ holds => holds)
          fun _ _ holds _ _ => whole_is_no_part holds.2
  · refine ⟨fewer directory holds.1, ?_⟩
    have present : directory.image ≠ none := fun missing => by
      rw [missing] at there
      cases there
    obtain ⟨content, image⟩ := Option.ne_none_iff_exists'.mp present
    rcases holds.2.1 with gone | whole
    · exact absurd gone present
    · exact ⟨content, whole ▸ image, image⟩

theorem build_makes_whole (autotestPath : Text) :
    Meets (Guarded imageTasks fun directory => WholeOrMissing archive tar directory.image)
      (runBuild chromeosRoot buildId archive tar answers autotestPath)
      (fun paths directory => paths.1 = imagePath chromeosRoot buildId ∧
        Guarded [.extractImage, .cleanImage] (fun directory => IsWhole archive tar directory.image) directory)
      fun _ directory => CleansUp archive tar answers → Apart imageTasks directory → WholeOrMissing archive tar directory.image := by
  have images := changes_tarball fun image _ : Option Content => WholeOrMissing archive tar image
  refine meets_bind (meets_weaken (keeps_command images _) (fun _ holds => holds) (fun _ _ holds => holds)
    fun _ _ holds _ _ => holds.2) fun status => ?_
  refine meets_bind (meets_whenever _ (fun _ => meets_raise _ fun _ holds _ _ => holds.2) fun _ _ holds => holds) fun _ => ?_
  refine meets_bind (meets_weaken (download_fetches chromeosRoot buildId archive tar answers) (fun _ holds => holds)
    (fun _ _ holds => holds) fun _ _ holds _ _ => holds) fun image => ?_
  by_cases named : image = imagePath chromeosRoot buildId
  · refine meets_bind (meets_weaken (uncompress_makes_whole buildId archive tar answers) (fun _ holds => holds.2)
      (fun _ _ holds => holds) fun _ _ holds => holds) fun _ => ?_
    refine meets_bind (meets_weaken (chosen_keeps_image chromeosRoot buildId archive tar answers (IsWhole archive tar) autotestPath)
      (fun _ holds => holds) (fun _ _ holds => holds) fun _ _ holds _ _ => whole_is_no_part holds.2) fun autotest => ?_
    exact meets_done _ fun _ holds => ⟨named, holds⟩
  · exact meets_absurd _ fun _ holds => named holds.1

end Whole

section Examples

def exampleArchive : Archive Nat := ⟨7, fun _ => 8⟩

-- 3 stands for a file that was cut off.
def exampleTar : Tar Nat := ⟨fun content => if content = 3 then none else some content, fun _ part => part⟩

def goodAnswers : Answers Nat where
  translated := .build "R60".toList
  listed := .exited 0
  packagesListed := .exited 0
  packageListed := fun _ => .exited 0
  outcome := fun _ => ⟨.exited 0, none, false⟩

def goodRequest : Request Nat := ⟨"remote/link/latest".toList, [], goodAnswers, []⟩

-- Ctrl-C while tar is at work, which dies with it or goes on.
def stoppedRequest (goesOn : Bool) : Request Nat :=
  { goodRequest with answers := { goodAnswers with
    outcome := Function.update goodAnswers.outcome .extractImage ⟨.raised, some (some 3), goesOn⟩ } }

-- gsutil fails in the middle of the first package.
def brokenRequest : Request Nat :=
  { goodRequest with answers := { goodAnswers with
    outcome := Function.update goodAnswers.outcome (.copyPackage .autotestPackages) ⟨.exited 1, some (some 3), false⟩ } }

-- The packages are no longer listed on the server.
def unlistedRequest : Request Nat := { goodRequest with answers := { goodAnswers with packagesListed := .exited 1 } }

def noDownloads : Downloads Nat := fun _ => Directory.empty

theorem stopped_cleans_up (goesOn : Bool) (other : Request Nat) (member : other ∈ [stoppedRequest goesOn]) :
    CleansUp exampleArchive exampleTar other.answers := by
  rw [List.mem_singleton.mp member]
  exact fun _ => .inr (.inl rfl)

end Examples

section Runs

variable (chromeosRoot : Text) (archives : Text → Archive Content) (tar : Tar Content)

-- A run works on the directory of its build and on no other.
theorem run_build (request : Request Content) (downloads : Downloads Content) (id : Text)
    (build : request.answers.translated = .build id) :
    (run chromeosRoot archives tar request downloads).1 =
        (runBuild chromeosRoot id (archives id) tar request.answers request.autotestPath
          { downloads id with meanwhile := request.meanwhile }).1 ∧
      (run chromeosRoot archives tar request downloads).2 id =
        (runBuild chromeosRoot id (archives id) tar request.answers request.autotestPath
          { downloads id with meanwhile := request.meanwhile }).2 := by
  unfold run
  rw [build]
  exact ⟨rfl, Function.update_self ..⟩

theorem run_other (request : Request Content) (downloads : Downloads Content) (id : Text)
    (other : request.answers.translated ≠ .build id) :
    (run chromeosRoot archives tar request downloads).2 id = downloads id := by
  unfold run
  cases translated : request.answers.translated with
  | nothing => rfl
  | unreadable => rfl
  | build build =>
      refine Function.update_of_ne (fun same => other ?_) _ _
      rw [translated, same]

-- What every run keeps in the directory of a build, all runs keep.
theorem runs_keep (holds : Directory Content → Prop) (id : Text) (requests : List (Request Content)) (downloads : Downloads Content)
    (clock : ∀ (directory : Directory Content) rest, holds directory → holds { directory with meanwhile := rest })
    (keeps : ∀ request ∈ requests, request.answers.translated = .build id → ∀ directory, holds directory →
      holds (runBuild chromeosRoot id (archives id) tar request.answers request.autotestPath directory).2)
    (start : holds (downloads id)) : holds (runs chromeosRoot archives tar requests downloads id) := by
  induction requests generalizing downloads with
  | nil => exact start
  | cons request rest ih =>
      refine ih _ (fun other member => keeps other (List.mem_cons_of_mem _ member)) ?_
      by_cases build : request.answers.translated = .build id
      · rw [(run_build chromeosRoot archives tar request downloads id build).2]
        exact keeps request List.mem_cons_self build _ (clock _ _ start)
      · rw [run_other chromeosRoot archives tar request downloads id build]
        exact start

theorem runs_append (first second : List (Request Content)) (downloads : Downloads Content) :
    runs chromeosRoot archives tar (first ++ second) downloads =
      runs chromeosRoot archives tar second (runs chromeosRoot archives tar first downloads) := by
  induction first generalizing downloads with
  | nil => rfl
  | cons request rest ih => exact ih _

theorem kept_by_ends {Value : Type} {before : Directory Content → Prop} {body : Download Content Value}
    {after : Value → Directory Content → Prop} {raised : Failure → Directory Content → Prop} (holds : Directory Content → Prop)
    (meets : Meets before body after raised) (directory : Directory Content) (start : before directory)
    (returns : ∀ value state, after value state → holds state)
    (raises : ∀ exception state, raised exception state → holds state) :
    holds (body directory).2 := by
  have ends := meets directory start
  cases ended : (body directory).1 with
  | ok value => exact returns value _ (ends.returns value ended)
  | error exception => exact raises exception _ (ends.raises exception ended)

-- As long as no child of an image command goes on, no part of an image is left.
theorem images_whole_or_missing (requests : List (Request Content)) (downloads : Downloads Content) (id : Text)
    (start : WholeOrMissing (archives id) tar (downloads id).image)
    (cleans : ∀ request ∈ requests, request.answers.translated = .build id → CleansUp (archives id) tar request.answers)
    (apart : Apart imageTasks (runs chromeosRoot archives tar requests downloads id)) :
    WholeOrMissing (archives id) tar (runs chromeosRoot archives tar requests downloads id).image := by
  refine runs_keep chromeosRoot archives tar
    (fun directory => Apart imageTasks directory → WholeOrMissing (archives id) tar directory.image) id requests downloads
    (fun _ _ holds => holds) (fun request member build directory holds => ?_) (fun _ => start) apart
  by_cases before : Apart imageTasks directory
  · exact kept_by_ends (fun directory => Apart imageTasks directory → WholeOrMissing (archives id) tar directory.image)
      (build_makes_whole chromeosRoot id (archives id) tar request.answers request.autotestPath) directory
      ⟨before, holds before⟩ (fun _ _ ends _ => whole_is_no_part ends.2.2) fun _ _ ends => ends (cleans request member build)
  · intro after
    refine absurd (fun task member outlived => after task member ?_) before
    exact kept_by_ends _ (build_outlived chromeosRoot id (archives id) tar request.answers task request.autotestPath) directory
      outlived (fun _ _ ends => ends) fun _ _ ends => ends

-- The image whose path is returned is whole, and the later runs leave it alone.
theorem returned_image_stays_whole (earlier later : List (Request Content)) (request : Request Content) (downloads : Downloads Content)
    (start : ∀ id, WholeOrMissing (archives id) tar (downloads id).image)
    (cleans : ∀ other ∈ earlier, ∀ id, other.answers.translated = .build id → CleansUp (archives id) tar other.answers)
    (apart : ∀ id, request.answers.translated = .build id →
      Apart imageTasks (runs chromeosRoot archives tar earlier downloads id))
    (paths : Text × Text)
    (returned : (run chromeosRoot archives tar request (runs chromeosRoot archives tar earlier downloads)).1 = .ok paths) :
    ∃ id whole, request.answers.translated = .build id ∧ paths.1 = imagePath chromeosRoot id ∧
      tar.unpack (archives id).image = some whole ∧
      (runs chromeosRoot archives tar (earlier ++ request :: later) downloads id).image = some whole := by
  cases translated : request.answers.translated with
  | nothing =>
      unfold run at returned
      rw [translated] at returned
      cases returned
  | unreadable =>
      unfold run at returned
      rw [translated] at returned
      cases returned
  | build id =>
      obtain ⟨value, directory⟩ := run_build chromeosRoot archives tar request
        (runs chromeosRoot archives tar earlier downloads) id translated
      have whole := images_whole_or_missing chromeosRoot archives tar earlier downloads id (start id)
        (fun other member => cleans other member id) (apart id translated)
      obtain ⟨path, guarded, content, unpacked, image⟩ :=
        (build_makes_whole chromeosRoot id (archives id) tar request.answers request.autotestPath
          { runs chromeosRoot archives tar earlier downloads id with meanwhile := request.meanwhile }
          ⟨apart id translated, whole⟩).returns paths (value ▸ returned)
      refine ⟨id, content, rfl, path, unpacked, ?_⟩
      rw [runs_append, runs]
      refine (runs_keep chromeosRoot archives tar
        (Guarded [.extractImage, .cleanImage] fun directory => directory.image = some content) id later _ (fun _ _ holds => holds)
        (fun other _ _ state holds => ?_) (directory.symm ▸ ⟨guarded, image⟩)).2
      exact kept_by_ends _ (image_stays chromeosRoot id (archives id) tar other.answers other.autotestPath content) state holds
        (fun _ _ ends => ends) fun _ _ ends => ends

theorem image_after_ctrl_c :
    ∃ build whole, goodRequest.answers.translated = .build build ∧
      imagePath "/root".toList "R60".toList = imagePath "/root".toList build ∧ exampleTar.unpack 7 = some whole ∧
      (runs "/root".toList (fun _ => exampleArchive) exampleTar
        ([stoppedRequest false] ++ goodRequest :: [stoppedRequest false]) noDownloads build).image = some whole :=
  returned_image_stays_whole "/root".toList (fun _ => exampleArchive) exampleTar [stoppedRequest false] [stoppedRequest false]
    goodRequest noDownloads (fun _ => .inl rfl) (fun other member _ _ => stopped_cleans_up false other member)
    (fun id build task _ outlived => by
      cases build
      exact absurd outlived List.not_mem_nil)
    (imagePath "/root".toList "R60".toList, autotestRelPath "R60".toList) rfl

-- A tar that goes on puts a part of the image where the clean-up has removed one, and the
-- next run returns its path.
example : (runs "/root".toList (fun _ => exampleArchive) exampleTar
    [stoppedRequest true, { goodRequest with meanwhile := [[.writes .extractImage (some 3)]] }] noDownloads "R60".toList).image =
      some 3 := by decide

end Runs

end ToolchainUtils.Crosperf.ImageDownloader
