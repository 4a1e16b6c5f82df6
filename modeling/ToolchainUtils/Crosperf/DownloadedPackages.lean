import ToolchainUtils.Crosperf.DownloadedImages

set_option autoImplicit false

namespace ToolchainUtils.Crosperf.ImageDownloader

open PyString Procedure

variable {Content : Type}

section Broken

variable (chromeosRoot buildId : Text) (archive : Archive Content) (tar : Tar Content) (answers : Answers Content)
variable (package : Package) (content : Content) (times : Nat)

def packageTasks (package : Package) : List Task := [.copyPackage package, .removePackage package, .moveAutotest]

-- A package waits for tar, there is no autotest_files yet, and gsutil cp has been asked
-- for the package so many times.
def Waits (package : Package) (content : Content) (times : Nat) (directory : Directory Content) : Prop :=
  directory.package package = some content ∧ directory.autotestFiles = none ∧ directory.asked.count (.copyPackage package) = times

theorem write_asked (task : Task) (file : Option Content) (directory : Directory Content) :
    (task.write file directory).asked = directory.asked := by
  cases task with
  | moveAutotest =>
      show directory.moveAutotest.asked = directory.asked
      unfold Directory.moveAutotest
      split <;> rfl
  | _ => rfl

theorem waits_write (task : Task) (file : Option Content) (directory : Directory Content) (outside : task ∉ packageTasks package)
    (waits : Waits package content times directory) : Waits package content times (task.write file directory) := by
  have other : ∀ different, package ≠ different → ∀ file,
      Function.update directory.package different file package = some content :=
    fun different apart file => (Function.update_of_ne apart _ _).trans waits.1
  refine ⟨?_, ?_, (congrArg (List.count _) (write_asked task file directory)).trans waits.2.2⟩
  · cases task with
    | copyPackage copied => exact other copied (fun same => outside (same ▸ List.mem_cons_self)) file
    | removePackage removed => exact other removed (fun same => outside (same ▸ List.mem_cons_of_mem _ List.mem_cons_self)) none
    | moveAutotest => exact (congrFun (move_autotest_rest directory).2.2 package).trans waits.1
    | _ => exact waits.1
  · cases task with
    | moveAutotest => exact absurd (List.mem_cons_of_mem _ (List.mem_cons_of_mem _ List.mem_cons_self)) outside
    | _ => exact waits.2.1

theorem changes_waits : ChangedBy (packageTasks package) (Waits package content times) where
  ran directory task written goesOn outside waits := by
    have different : task ≠ .copyPackage package := fun same => outside (same ▸ List.mem_cons_self)
    have logged : ∀ directory : Directory Content, Waits package content times directory → ∀ outlived,
        Waits package content times { directory with asked := task :: directory.asked, outlived := outlived } :=
      fun directory waits outlived => ⟨waits.1, waits.2.1, (List.count_cons_of_ne different).trans waits.2.2⟩
    cases written with
    | none => exact logged directory waits _
    | some file => exact logged _ (waits_write package content times task file directory outside waits) _
  late directory late outside waits := by
    cases late with
    | writes task file => exact waits_write package content times task file directory outside waits
    | writesMoved package part =>
        refine ⟨waits.1, ?_, waits.2.2⟩
        show Option.map _ directory.autotestFiles = none
        rw [waits.2.1, Option.map_none]
  clock _ _ waits := waits

theorem waits_uncompress_stops (broken : tar.unpack content = none) :
    Meets (Guarded (packageTasks package) (Waits package content times)) (uncompressSingleAutotestFile tar answers package)
      (fun _ _ => False) fun _ => Guarded (packageTasks package) (Waits package content times) := by
  have changed := changes_waits package content times
  have outside : Task.extractPackage package ∉ packageTasks package := by simp [packageTasks]
  refine meets_bind (Q := fun retval directory => retval ≠ 0 ∧
    Guarded (packageTasks package) (Waits package content times) directory) ?_ fun retval => ?_
  · refine meets_writing (steady_guarded changed) answers (.extractPackage package) _ (fun _ directory file extracted waits => ?_)
      (fun _ _ failed _ waits => ⟨failed, guarded_ran changed _ _ _ outside waits⟩) fun _ _ waits =>
        guarded_ran changed _ _ _ outside waits
    rw [waits.2.1, Option.bind_some, broken] at extracted
    cases extracted
  · refine meets_bind (meets_whenever (Q := fun _ => False) _ (fun _ => meets_raise _ fun _ waits => waits.2) fun fine _ waits => ?_)
      fun _ => meets_absurd _ fun _ impossible => impossible
    exact waits.1 (by simpa using fine)

theorem waits_chosen (broken : tar.unpack content = none) (autotestPath : Text) :
    Meets (Guarded (packageTasks package) (Waits package content times))
      (chosenAutotest chromeosRoot buildId archive tar answers autotestPath)
      (fun path directory => (path = defaultAutotestDir ∨ autotestPath ≠ [] ∧ path = autotestPath) ∧
        Guarded (packageTasks package) (Waits package content times) directory)
      fun _ => Guarded (packageTasks package) (Waits package content times) := by
  have changed := changes_waits package content times
  have stops := waits_uncompress_stops tar answers package content times broken
  unfold chosenAutotest
  by_cases asked : autotestPath = []
  · rw [if_pos asked]
    refine meets_bind (meets_look (steady_guarded changed)) fun seen => ?_
    by_cases there : seen.autotestFiles.isSome = true
    · refine meets_absurd _ fun directory waits => ?_
      rw [waits.1, waits.2.2.2.1] at there
      cases there
    · rw [if_neg there]
      refine meets_bind (meets_weaken (keeps_command changed _) (fun _ waits => waits.2) (fun _ _ waits => waits) fun _ _ waits =>
        waits)
        fun status => ?_
      by_cases absent : (status != 0) = true
      · rw [if_pos absent]
        exact meets_done _ fun _ waits => ⟨.inl rfl, waits⟩
      · rw [if_neg absent]
        refine meets_bind (meets_for_each _ _ fun other =>
          single_keeps chromeosRoot buildId archive answers changed other fun member directory waits => ?_) fun _ => ?_
        · have same : other = package := by simpa [packageTasks] using member
          rw [same, waits.1]
          exact Option.some_ne_none _
        refine meets_bind (meets_for_each_stopped _ _ (fun other => ?_) package (by cases package <;> decide) stops) fun _ =>
          meets_absurd _ fun _ impossible => impossible
        by_cases same : package = other
        · exact same ▸ meets_weaken stops (fun _ waits => waits) (fun _ _ impossible => impossible.elim) fun _ _ waits => waits
        · refine uncompress_single_keeps tar answers changed other (by simp [packageTasks]) ?_
          simpa [packageTasks] using fun equal => same (Eq.symm equal)
  · rw [if_neg asked]
    exact meets_done _ fun _ waits => ⟨.inr ⟨asked, rfl⟩, waits⟩

theorem waits_build (broken : tar.unpack content = none) (autotestPath : Text) :
    Meets (Guarded (packageTasks package) (Waits package content times))
      (runBuild chromeosRoot buildId archive tar answers autotestPath)
      (fun paths directory => (paths.2 = defaultAutotestDir ∨ autotestPath ≠ [] ∧ paths.2 = autotestPath) ∧
        Guarded (packageTasks package) (Waits package content times) directory)
      fun _ => Guarded (packageTasks package) (Waits package content times) := by
  have changed := changes_waits package content times
  refine meets_bind (keeps_command changed _) fun status => ?_
  refine meets_bind (meets_whenever _ (fun _ => meets_raise _ fun _ waits => waits) fun _ _ waits => waits) fun _ => ?_
  refine meets_bind (download_keeps chromeosRoot buildId archive answers changed (by simp [packageTasks])) fun image => ?_
  refine meets_bind (uncompress_keeps buildId tar answers changed (by simp [packageTasks]) (by simp [packageTasks])
    (by simp [packageTasks])) fun _ => ?_
  refine meets_bind (waits_chosen chromeosRoot buildId archive tar answers package content times broken autotestPath) fun autotest =>
    ?_
  exact meets_done _ fun _ waits => waits

variable (archives : Text → Archive Content)

theorem broken_package_stays (broken : tar.unpack content = none) (id : Text) (requests : List (Request Content))
    (downloads : Downloads Content) (waits : Guarded (packageTasks package) (Waits package content times) (downloads id)) :
    Guarded (packageTasks package) (Waits package content times) (runs chromeosRoot archives tar requests downloads id) :=
  runs_keep chromeosRoot archives tar _ id requests downloads (fun _ _ holds => holds) (fun request _ _ directory holds =>
    kept_by_ends _ (waits_build chromeosRoot id (archives id) tar request.answers package content times broken request.autotestPath)
      directory holds (fun _ _ ends => ends.2) fun _ _ ends => ends) waits

-- A package that tar cannot extract, such as what a killed gsutil cp leaves, stays and is
-- never downloaded again, so that the tree of the packages is never returned.
theorem broken_package_blocks (broken : tar.unpack content = none) (id : Text) (requests : List (Request Content))
    (downloads : Downloads Content)
    (lies : (downloads id).package package = some content) (unmade : (downloads id).autotestFiles = none)
    (apart : Apart (packageTasks package) (downloads id)) :
    (runs chromeosRoot archives tar requests downloads id).package package = some content ∧
      (runs chromeosRoot archives tar requests downloads id).autotestFiles = none ∧
      (runs chromeosRoot archives tar requests downloads id).asked.count (.copyPackage package) =
        (downloads id).asked.count (.copyPackage package) ∧
      ∀ request paths, request.answers.translated = .build id →
        (run chromeosRoot archives tar request (runs chromeosRoot archives tar requests downloads)).1 = .ok paths →
        paths.2 = defaultAutotestDir ∨ request.autotestPath ≠ [] ∧ paths.2 = request.autotestPath := by
  have still := broken_package_stays chromeosRoot tar package content _ archives broken id requests downloads
    ⟨apart, lies, unmade, rfl⟩
  refine ⟨still.2.1, still.2.2.1, still.2.2.2, fun request paths build returned => ?_⟩
  rw [(run_build chromeosRoot archives tar request _ id build).1] at returned
  exact ((waits_build chromeosRoot id (archives id) tar request.answers package content _ broken request.autotestPath
    { runs chromeosRoot archives tar requests downloads id with meanwhile := request.meanwhile } still).returns paths returned).1

theorem broken_package_example :
    exampleTar.unpack 3 = none ∧
      (runs "/root".toList (fun _ => exampleArchive) exampleTar [goodRequest, unlistedRequest]
        (runs "/root".toList (fun _ => exampleArchive) exampleTar [brokenRequest] noDownloads) "R60".toList).package
          .autotestPackages = some 3 :=
  ⟨rfl, (broken_package_blocks "/root".toList exampleTar .autotestPackages 3 (fun _ => exampleArchive) rfl "R60".toList
    [goodRequest, unlistedRequest] (runs "/root".toList (fun _ => exampleArchive) exampleTar [brokenRequest] noDownloads) rfl rfl
    fun _ _ outlived => absurd outlived List.not_mem_nil).1⟩

end Broken

section Recovery

variable (chromeosRoot buildId : Text) (archive : Archive Content) (tar : Tar Content) (answers : Answers Content)

-- What the packages hold when all of them are downloaded.
def held (archive : Archive Content) (start : Directory Content) (package : Package) : Content :=
  (start.package package).getD (archive.package package)

-- Every command of a run succeeds, tar on what lies there or else on what the archive has.
structure Succeeds (archive : Archive Content) (tar : Tar Content) (start : Directory Content) (answers : Answers Content) : Prop where
  listed : answers.listed = .exited 0
  packagesListed : answers.packagesListed = .exited 0
  packageListed : ∀ package, answers.packageListed package = .exited 0
  outcome : ∀ task, (answers.outcome task).ended = .exited 0
  image : start.image = none → tar.unpack archive.image ≠ none
  package : ∀ package, tar.unpack (held archive start package) ≠ none

-- No child of any earlier command goes on.
def Quiet (about : Directory Content → Prop) (directory : Directory Content) : Prop := directory.outlived = [] ∧ about directory

section Rules

variable {P Q : Directory Content → Prop}

theorem steady_quiet (clock : ∀ (directory : Directory Content) rest, P directory → P { directory with meanwhile := rest }) :
    Steady (Quiet P) where
  late directory late outlived holds := by
    rw [holds.1] at outlived
    cases outlived
  clock directory rest holds := ⟨holds.1, clock directory rest holds.2⟩

theorem writing_succeeds (clock : ∀ (directory : Directory Content) rest, P directory → P { directory with meanwhile := rest })
    (task : Task) (whole : Directory Content → Option (Option Content)) (good : (answers.outcome task).ended = .exited 0)
    (possible : ∀ directory, P directory → ∃ file, whole directory = some file ∧ Q (directory.ran task (some file) false)) :
    Meets (Quiet P) (writing answers task whole) (fun code directory => code = 0 ∧ Quiet Q directory) fun _ _ => False := by
  refine meets_writing (steady_quiet clock) answers task whole (fun _ directory file written holds => ⟨rfl, ?_, ?_⟩)
    (fun _ directory _ stopped holds => ?_) fun _ failed _ => failed good
  · rw [ran_outlived]
    exact holds.1
  · obtain ⟨other, same, ends⟩ := possible directory holds.2
    rw [written] at same
    cases same
    exact ends
  · obtain ⟨file, same, -⟩ := possible directory holds.2
    rw [stopped good] at same
    cases same

theorem command_succeeds (clock : ∀ (directory : Directory Content) rest, P directory → P { directory with meanwhile := rest })
    (ended : Ended) (good : ended = .exited 0) :
    Meets (Quiet P) (runCommand ended) (fun code directory => code = 0 ∧ Quiet P directory) fun _ _ => False := by
  refine meets_run_command (steady_quiet clock) ended (fun code exited _ holds => ⟨?_, holds⟩) fun escaped _ _ => ?_
  · rw [good] at exited
    cases exited
    rfl
  · rw [good] at escaped
    cases escaped

-- A check of an exit code that is known to be 0.
theorem check_passes {before finish : Directory Content → Prop} (code : Int) (body : Download Content Unit)
    (zero : ∀ directory, before directory → code = 0) (holds : ∀ directory, before directory → finish directory) :
    Meets before (whenever (code != 0) body) (fun _ => finish) fun _ _ => False := by
  refine meets_whenever _ (fun failed => meets_absurd _ fun directory start => ?_) fun _ => holds
  exact (bne_iff_ne.mp failed) (zero directory start)

-- A copy that has succeeded is there.
theorem copy_is_there (clock : ∀ (directory : Directory Content) rest, P directory → P { directory with meanwhile := rest })
    (status : Int) (missing : Directory Content → Bool) (failure : Failure)
      (there : ∀ directory, P directory → missing directory = false) :
    Meets (fun directory => status = 0 ∧ Quiet P directory)
      (do let missing ← failedOrMissing status missing
          whenever missing (raise failure)) (fun _ => Quiet P) fun _ _ => False := by
  refine meets_bind (Q := fun missing directory => missing = false ∧ Quiet P directory) ?_ fun missing => ?_
  · exact meets_failed_or_missing (steady_quiet clock) status missing (fun failed _ holds => absurd holds.1 failed)
      (fun _ _ holds => holds.2) fun directory holds => ⟨there directory holds.2, holds⟩
  · refine meets_whenever _ (fun absent => meets_absurd _ fun _ holds => ?_) fun _ _ holds => holds.2
    rw [holds.1] at absent
    cases absent

end Rules

variable (start : Directory Content)

-- The parts that the steps for the image leave alone.
def SameRest (start directory : Directory Content) : Prop :=
  directory.package = start.package ∧ directory.autotest = start.autotest ∧ directory.autotestFiles = start.autotestFiles

-- Behind DownloadImage.
def Ready (archive : Archive Content) (start directory : Directory Content) : Prop :=
  directory.image = start.image ∧ (start.image = none → directory.tarball = some archive.image) ∧ SameRest start directory

theorem download_succeeds (good : Succeeds archive tar start answers) :
    Meets (Quiet fun directory => directory.image = start.image ∧ SameRest start directory)
      (downloadImage chromeosRoot buildId archive answers)
      (fun image directory => image = imagePath chromeosRoot buildId ∧ Quiet (Ready archive start) directory) fun _ _ => False := by
  refine meets_bind (meets_look (steady_quiet fun _ _ holds => holds)) fun seen => ?_
  refine meets_bind (Q := fun _ => Quiet (Ready archive start)) ?_ fun _ => meets_done _ fun _ holds => ⟨rfl, holds⟩
  refine meets_seen (fun directory => directory.image.isNone) seen ?_ fun directory present holds => ?_
  · by_cases missing : start.image = none
    · refine meets_bind (meets_weaken (writing_succeeds
        (Q := fun directory => directory.tarball = some archive.image ∧ Ready archive start directory) answers (fun _ _ holds => holds)
        .copyImage _ (good.outcome _) fun directory holds => ⟨_, rfl, rfl, holds.1, fun _ => rfl, holds.2⟩)
        (fun _ holds => holds.2) (fun _ _ ends => ends) fun _ _ ends => ends) fun status => ?_
      refine meets_weaken (copy_is_there (P := fun directory => directory.tarball = some archive.image ∧ Ready archive start directory)
        (fun _ _ holds => holds) status _ _ fun directory holds => ?_) (fun _ holds => holds) (fun _ _ holds => ⟨holds.1, holds.2.2⟩)
        fun _ _ ends => ends
      rw [holds.1]
      rfl
    · refine meets_absurd _ fun directory holds => missing ?_
      rw [← holds.2.2.1, Option.isNone_iff_eq_none.mp holds.1]
  · refine ⟨holds.1, holds.2.1, fun missing => ?_, holds.2.2⟩
    rw [holds.2.1, missing] at present
    cases present

theorem uncompress_succeeds (good : Succeeds archive tar start answers) (whole : WholeOrMissing archive tar start.image) :
    Meets (Quiet (Ready archive start)) (uncompressImage buildId tar answers)
      (fun _ => Quiet fun directory => IsWhole archive tar directory.image ∧ SameRest start directory) fun _ _ => False := by
  refine meets_bind (meets_look (steady_quiet fun _ _ holds => holds)) fun seen => ?_
  refine meets_seen (fun directory => directory.image.isNone) seen ?_ fun directory present holds => ⟨holds.1, ?_, holds.2.2.2⟩
  · by_cases missing : start.image = none
    · refine meets_bind (Q := fun retval directory => retval = 0 ∧
        Quiet (fun directory => IsWhole archive tar directory.image ∧ SameRest start directory) directory) ?_ fun retval => ?_
      · refine meets_on_raise (Q := fun _ _ => False) (meets_weaken (writing_succeeds (P := Ready archive start) answers
          (fun _ _ holds => holds) .extractImage _ (good.outcome _) fun directory holds => ?_)
          (fun _ holds => holds.2) (fun _ _ ends => ends) fun _ _ ends => ends) fun _ => meets_absurd _ fun _ impossible => impossible
        obtain ⟨content, unpacked⟩ := Option.ne_none_iff_exists'.mp (good.image missing)
        refine ⟨some content, ?_, ⟨content, unpacked, rfl⟩, holds.2.2⟩
        rw [holds.2.1 missing, Option.bind_some, unpacked, Option.map_some]
      · refine meets_bind (check_passes retval _ (fun _ holds => holds.1) fun _ holds => holds.2) fun _ => ?_
        exact meets_bind (writing_succeeds answers (fun _ _ holds => holds) .removeTarball _ (good.outcome _) fun directory holds =>
          ⟨_, rfl, holds⟩) fun _ => meets_done _ fun _ holds => holds.2
    · refine meets_absurd _ fun directory holds => missing ?_
      rw [← holds.2.2.1, Option.isNone_iff_eq_none.mp holds.1]
  · rcases whole with missing | same
    · rw [holds.2.1, missing] at present
      cases present
    · obtain ⟨content, image⟩ : ∃ content, directory.image = some content :=
        Option.ne_none_iff_exists'.mp fun missing => by
          rw [missing] at present
          cases present
      exact ⟨content, by rw [← same, ← holds.2.1, image], image⟩

-- While some packages are left to be downloaded.
def Downloaded (archive : Archive Content) (start : Directory Content) (left : List Package) (directory : Directory Content) : Prop :=
  left.Nodup ∧ (∀ package ∈ left, directory.package package = start.package package) ∧
    (∀ package ∉ left, directory.package package = some (held archive start package)) ∧
    directory.autotest = start.autotest ∧ directory.autotestFiles = none

theorem downloaded_next (package : Package) (left : List Package) (directory : Directory Content) (file : Option Content)
    (before : Downloaded archive start (package :: left) directory) (right : file = some (held archive start package)) :
    Downloaded archive start left { directory with package := Function.update directory.package package file } := by
  obtain ⟨unique, todo, gone, rest⟩ := before
  obtain ⟨outside, unique⟩ := List.nodup_cons.mp unique
  refine ⟨unique, fun other member => ?_, fun other finished => ?_, rest⟩
  · have different : other ≠ package := fun same => outside (same ▸ member)
    exact (Function.update_of_ne different _ _).trans (todo other (List.mem_cons_of_mem _ member))
  · by_cases same : other = package
    · subst same
      exact (Function.update_self ..).trans right
    · refine (Function.update_of_ne same _ _).trans (gone other fun member => ?_)
      exact (List.mem_cons.mp member).elim same finished

theorem downloaded_already (package : Package) (left : List Package) (directory : Directory Content)
    (before : Downloaded archive start (package :: left) directory) (there : directory.package package ≠ none) :
    Downloaded archive start left directory := by
  have file := before.2.1 package List.mem_cons_self
  have kept : directory.package package = some (held archive start package) := by
    rw [held, ← file]
    obtain ⟨content, present⟩ := Option.ne_none_iff_exists'.mp there
    rw [present, Option.getD_some]
  have next := downloaded_next archive start package left directory (directory.package package) before kept
  rwa [Function.update_eq_self] at next

theorem single_succeeds (good : Succeeds archive tar start answers) (package : Package) (left : List Package) :
    Meets (Quiet (Downloaded archive start (package :: left)))
      (downloadSingleAutotestFile chromeosRoot buildId archive answers package)
      (fun _ => Quiet (Downloaded archive start left)) fun _ _ => False := by
  have clock : ∀ left (directory : Directory Content) rest, Downloaded archive start left directory →
      Downloaded archive start left { directory with meanwhile := rest } := fun _ _ _ holds => holds
  refine meets_bind (command_succeeds (clock _) _ (good.packageListed package)) fun status => ?_
  refine meets_bind (check_passes status _ (fun _ holds => holds.1) fun _ holds => holds.2) fun _ => ?_
  refine meets_bind (meets_look (steady_quiet (clock _))) fun seen => ?_
  refine meets_seen (fun directory => (directory.package package).isNone) seen ?_ fun directory present holds => ⟨holds.1, ?_⟩
  · by_cases missing : start.package package = none
    · refine meets_bind (meets_weaken (writing_succeeds
        (Q := fun directory => directory.package package ≠ none ∧ Downloaded archive start left directory) answers
        (clock (package :: left)) (.copyPackage package) _ (good.outcome _) fun directory holds => ⟨_, rfl, ?_, ?_⟩)
        (fun _ holds => holds.2) (fun _ _ ends => ends) fun _ _ ends => ends) fun status => ?_
      · show Function.update directory.package package _ package ≠ none
        rw [Function.update_self]
        exact Option.some_ne_none _
      · exact downloaded_next archive start package left directory _ holds (by rw [held, missing, Option.getD_none])
      · refine meets_weaken (copy_is_there
          (P := fun directory => directory.package package ≠ none ∧ Downloaded archive start left directory) (fun _ _ holds => holds)
          status _ _ fun directory holds => ?_) (fun _ holds => holds) (fun _ _ holds => ⟨holds.1, holds.2.2⟩) fun _ _ ends => ends
        exact Option.isNone_eq_false_iff.mpr (Option.isSome_iff_ne_none.mpr holds.1)
    · refine meets_absurd _ fun directory holds => missing ?_
      rw [← holds.2.2.2.1 package List.mem_cons_self, Option.isNone_iff_eq_none.mp holds.1]
  · refine downloaded_already archive start package left directory holds.2 fun missing => ?_
    rw [missing] at present
    cases present

-- What a package puts into autotest where a part of it may lie.
def part (archive : Archive Content) (tar : Tar Content) (start : Directory Content) (package : Package) : Option Content :=
  (tar.unpack (held archive start package)).map (tar.onto (start.autotest package))

-- While some packages are left to be extracted.
def Extracted (archive : Archive Content) (tar : Tar Content) (start : Directory Content) (left : List Package)
    (directory : Directory Content) : Prop :=
  left.Nodup ∧ (∀ package ∈ left, directory.package package = some (held archive start package) ∧
      directory.autotest package = start.autotest package) ∧
    (∀ package ∉ left, directory.autotest package = part archive tar start package) ∧ directory.autotestFiles = none

theorem uncompress_single_succeeds (good : Succeeds archive tar start answers) (package : Package) (left : List Package) :
    Meets (Quiet (Extracted archive tar start (package :: left))) (uncompressSingleAutotestFile tar answers package)
      (fun _ => Quiet (Extracted archive tar start left)) fun _ _ => False := by
  refine meets_bind (writing_succeeds (Q := fun directory => package ∉ left ∧ Extracted archive tar start left directory) answers
    (fun _ _ holds => holds) (.extractPackage package) _ (good.outcome _) fun directory before => ?_) fun retval => ?_
  · obtain ⟨unique, todo, gone, unmade⟩ := before
    obtain ⟨outside, unique⟩ := List.nodup_cons.mp unique
    obtain ⟨file, lies⟩ := todo package List.mem_cons_self
    obtain ⟨content, unpacked⟩ := Option.ne_none_iff_exists'.mp (good.package package)
    refine ⟨some (tar.onto (start.autotest package) content), ?_, outside, unique, fun other member => ?_, fun other finished => ?_,
      unmade⟩
    · rw [file, Option.bind_some, unpacked, Option.map_some, lies]
    · have different : other ≠ package := fun same => outside (same ▸ member)
      have before := todo other (List.mem_cons_of_mem _ member)
      exact ⟨before.1, (Function.update_of_ne different _ _).trans before.2⟩
    · by_cases same : other = package
      · subst same
        refine (Function.update_self ..).trans ?_
        rw [part, unpacked, Option.map_some]
      · refine (Function.update_of_ne same _ _).trans (gone other fun member => ?_)
        exact (List.mem_cons.mp member).elim same finished
  · refine meets_bind (check_passes retval _ (fun _ holds => holds.1) fun _ holds => holds.2) fun _ => ?_
    refine meets_bind (writing_succeeds (Q := Extracted archive tar start left) answers (fun _ _ holds => holds)
      (.removePackage package) _ (good.outcome _) fun directory before => ⟨_, rfl, ?_⟩) fun _ => meets_done _ fun _ holds => holds.2
    obtain ⟨outside, unique, todo, gone⟩ := before
    refine ⟨unique, fun other member => ?_, gone⟩
    have different : other ≠ package := fun same => outside (same ▸ member)
    exact ⟨(Function.update_of_ne different _ _).trans (todo other member).1, (todo other member).2⟩

-- autotest_files as a run makes it whose commands all succeed.
theorem chosen_succeeds (good : Succeeds archive tar start answers) (unmade : start.autotestFiles = none) :
    Meets (Quiet (SameRest start)) (chosenAutotest chromeosRoot buildId archive tar answers [])
      (fun path directory => path = autotestRelPath buildId ∧ directory.autotestFiles = some (part archive tar start)) fun _ _ =>
        False := by
  rw [chosenAutotest, if_pos rfl]
  refine meets_bind (meets_look (steady_quiet fun _ _ holds => holds)) fun seen => ?_
  by_cases there : seen.autotestFiles.isSome = true
  · refine meets_absurd _ fun directory holds => ?_
    rw [holds.1, holds.2.2.2.2, unmade] at there
    cases there
  rw [if_neg there]
  refine meets_bind (meets_weaken (command_succeeds (P := SameRest start) (fun _ _ holds => holds) _ good.packagesListed)
    (fun _ holds => holds.2) (fun _ _ ends => ends) fun _ _ ends => ends) fun status => ?_
  by_cases listed : status = 0
  · subst listed
    refine meets_bind (meets_weaken (meets_for_each_left (fun left => Quiet (Downloaded archive start left)) _ packages
      (single_succeeds chromeosRoot buildId archive tar answers start good)) (fun directory holds => ⟨holds.2.1, ?_⟩)
      (fun _ _ holds => holds) fun _ _ impossible => impossible) fun _ => ?_
    · refine ⟨by decide, fun package _ => congrFun holds.2.2.1 package, fun package outside => absurd ?_ outside, holds.2.2.2.1,
        holds.2.2.2.2.trans unmade⟩
      cases package <;> decide
    · refine meets_bind (meets_weaken (meets_for_each_left (fun left => Quiet (Extracted archive tar start left)) _ packages
        (uncompress_single_succeeds archive tar answers start good)) (fun directory holds => ⟨holds.1, ?_⟩)
        (fun _ _ holds => holds) fun _ _ impossible => impossible) fun _ => ?_
      · refine ⟨by decide, fun package _ => ⟨holds.2.2.2.1 package List.not_mem_nil, congrFun holds.2.2.2.2.1 package⟩,
          fun package outside => absurd ?_ outside, holds.2.2.2.2.2⟩
        cases package <;> decide
      · refine meets_bind (writing_succeeds (Q := fun directory => directory.autotestFiles = some (part archive tar start)) answers
          (fun _ _ holds => holds) .moveAutotest _ (good.outcome _) fun directory before => ?_) fun retval => ?_
        · have parts : directory.autotest = part archive tar start := funext fun package => before.2.2.1 package List.not_mem_nil
          have there : directory.hasAutotest = true := by
            obtain ⟨content, unpacked⟩ := Option.ne_none_iff_exists'.mp (good.package .controlFiles)
            refine List.any_eq_true.mpr ⟨.controlFiles, by decide, ?_⟩
            rw [parts, part, unpacked, Option.map_some, Option.isSome_some]
          refine ⟨none, if_pos there, ?_⟩
          show directory.moveAutotest.autotestFiles = _
          rw [Directory.moveAutotest, if_pos there, before.2.2.2, Option.getD_none, parts]
        · refine meets_bind (check_passes retval _ (fun _ holds => holds.1) fun _ holds => holds.2.2) fun _ => ?_
          exact meets_done _ fun _ holds => ⟨rfl, holds⟩
  · exact meets_absurd _ fun _ holds => listed holds.1

theorem build_succeeds (good : Succeeds archive tar start answers) (whole : WholeOrMissing archive tar start.image)
    (unmade : start.autotestFiles = none) :
    Meets (Quiet fun directory => directory.image = start.image ∧ SameRest start directory)
      (runBuild chromeosRoot buildId archive tar answers [])
      (fun paths directory => paths = (imagePath chromeosRoot buildId, autotestRelPath buildId) ∧
        IsWhole archive tar directory.image ∧ directory.autotestFiles = some (part archive tar start)) fun _ _ => False := by
  refine meets_bind (command_succeeds (fun _ _ holds => holds) _ good.listed) fun status => ?_
  refine meets_bind (check_passes status _ (fun _ holds => holds.1) fun _ holds => holds.2) fun _ => ?_
  refine meets_bind (download_succeeds chromeosRoot buildId archive tar answers start good) fun image => ?_
  by_cases named : image = imagePath chromeosRoot buildId
  · subst named
    refine meets_bind (meets_weaken (uncompress_succeeds buildId archive tar answers start good whole) (fun _ holds => holds.2)
      (fun _ _ holds => holds) fun _ _ impossible => impossible) fun _ => ?_
    refine meets_bind (meets_weaken (meets_and (chosen_keeps_image chromeosRoot buildId archive tar answers (IsWhole archive tar) [])
      (chosen_succeeds chromeosRoot buildId archive tar answers start good unmade)) (fun directory holds => ⟨⟨?_, holds.2.1⟩,
        holds.1, holds.2.2⟩) (fun _ _ holds => holds) fun _ _ impossible => impossible.2) fun path => ?_
    · intro task _ outlived
      rw [holds.1] at outlived
      cases outlived
    · exact meets_done _ fun _ holds => ⟨by rw [holds.2.1], holds.1.2, holds.2.2⟩
  · exact meets_absurd _ fun _ holds => named holds.1

variable (archives : Text → Archive Content)

-- A run whose commands all succeed gets past everything that earlier runs have left behind
-- but packages, and parts of them, that do not give what the archive's packages give.
theorem succeeding_run_recovers (id : Text) (earlier : List (Request Content)) (request : Request Content)
    (downloads : Downloads Content)
    (whole : WholeOrMissing (archives id) tar (downloads id).image)
    (cleans : ∀ other ∈ earlier, other.answers.translated = .build id → CleansUp (archives id) tar other.answers)
    (quiet : (runs chromeosRoot archives tar earlier downloads id).outlived = [])
    (build : request.answers.translated = .build id)
    (good : Succeeds (archives id) tar (runs chromeosRoot archives tar earlier downloads id) request.answers)
    (asked : request.autotestPath = [])
    (unmade : (runs chromeosRoot archives tar earlier downloads id).autotestFiles = none) :
    ∃ after content tree, run chromeosRoot archives tar request (runs chromeosRoot archives tar earlier downloads) =
        (.ok (imagePath chromeosRoot id, autotestRelPath id), after) ∧
      tar.unpack (archives id).image = some content ∧ (after id).image = some content ∧ (after id).autotestFiles = some tree ∧
      ((∀ package, tree package = tar.unpack ((archives id).package package)) ↔
        ∀ package content,
          tar.unpack (held (archives id) (runs chromeosRoot archives tar earlier downloads id) package) = some content →
          tar.unpack ((archives id).package package) =
            some (tar.onto ((runs chromeosRoot archives tar earlier downloads id).autotest package) content)) := by
  have before := images_whole_or_missing chromeosRoot archives tar earlier downloads id whole cleans fun task _ outlived => by
    rw [quiet] at outlived
    cases outlived
  obtain ⟨value, directory⟩ := run_build chromeosRoot archives tar request
    (runs chromeosRoot archives tar earlier downloads) id build
  rw [asked] at value directory
  generalize runs chromeosRoot archives tar earlier downloads = found at *
  have ends := build_succeeds chromeosRoot id (archives id) tar request.answers (found id) good before unmade
    { found id with meanwhile := request.meanwhile } ⟨quiet, rfl, rfl, rfl, rfl⟩
  cases ended : (runBuild chromeosRoot id (archives id) tar request.answers []
    { found id with meanwhile := request.meanwhile }).1 with
  | error exception => exact (ends.raises exception ended).elim
  | ok paths =>
      obtain ⟨same, ⟨content, unpacked, image⟩, made⟩ := ends.returns paths ended
      refine ⟨_, content, part (archives id) tar (found id), Prod.ext (value.trans (ended.trans (congrArg _ same))) rfl, unpacked,
        (congrArg Directory.image directory).trans image, (congrArg Directory.autotestFiles directory).trans made, ?_⟩
      refine forall_congr' fun package => ?_
      obtain ⟨extracted, unpacks⟩ := Option.ne_none_iff_exists'.mp (good.package package)
      rw [part, unpacks, Option.map_some]
      exact ⟨fun right other same => by rw [← right, Option.some.inj same], fun right => (right extracted rfl).symm⟩

theorem good_answers_succeed (start : Directory Nat) (packages : ∀ package, start.package package ≠ some 3) :
    Succeeds exampleArchive exampleTar start goodAnswers where
  listed := rfl
  packagesListed := rfl
  packageListed _ := rfl
  outcome _ := rfl
  image _ := by decide
  package package := by
    unfold held
    cases there : start.package package with
    | none => exact Option.some_ne_none 8
    | some content =>
        have different : content ≠ 3 := fun same => packages package (there.trans (congrArg some same))
        simp [exampleTar, different]

theorem recovers_from_ctrl_c : ∃ after content tree,
    run "/root".toList (fun _ => exampleArchive) exampleTar goodRequest
      (runs "/root".toList (fun _ => exampleArchive) exampleTar [stoppedRequest false] noDownloads) =
        (.ok (imagePath "/root".toList "R60".toList, autotestRelPath "R60".toList), after) ∧
      exampleTar.unpack 7 = some content ∧ (after "R60".toList).image = some content ∧
      (after "R60".toList).autotestFiles = some tree ∧
      ((∀ package : Package, tree package = exampleTar.unpack 8) ↔ ∀ package content,
        exampleTar.unpack (held exampleArchive (runs "/root".toList (fun _ => exampleArchive) exampleTar [stoppedRequest false]
          noDownloads "R60".toList) package) = some content →
        exampleTar.unpack 8 = some (exampleTar.onto ((runs "/root".toList (fun _ => exampleArchive) exampleTar [stoppedRequest false]
          noDownloads "R60".toList).autotest package) content)) :=
  succeeding_run_recovers "/root".toList exampleTar (fun _ => exampleArchive) "R60".toList [stoppedRequest false] goodRequest
    noDownloads (.inl rfl) (fun other member _ => stopped_cleans_up false other member) rfl rfl
    (good_answers_succeed _ fun package => by cases package <;> decide) rfl rfl

end Recovery

end ToolchainUtils.Crosperf.ImageDownloader
