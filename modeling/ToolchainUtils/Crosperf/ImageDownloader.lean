import Mathlib.Logic.Function.Basic
import ToolchainUtils.PosixPath
import ToolchainUtils.Procedure

set_option autoImplicit false

namespace ToolchainUtils.Crosperf.ImageDownloader

open PyString Procedure

variable {Content : Type}

inductive Package where
  | autotestPackages
  | autotestServerPackage
  | controlFiles
deriving DecidableEq, Repr

def Package.fileName : Package → Text
  | .autotestPackages => "autotest_packages.tar".toList
  | .autotestServerPackage => "autotest_server_package.tar.bz2".toList
  | .controlFiles => "control_files.tar".toList

def packages : List Package := [.autotestPackages, .autotestServerPackage, .controlFiles]

-- The commands that change the directory of a build, each at most once in a Run: gsutil cp,
-- tar and rm -f of the image, the same of the packages, and the final mv.
inductive Task where
  | copyImage
  | extractImage
  | cleanImage
  | removeTarball
  | copyPackage (package : Package)
  | extractPackage (package : Package)
  | removePackage (package : Package)
  | moveAutotest
deriving DecidableEq, Repr

-- What a child does to the directory after RunCommand has given it up. A tar of a package
-- may also write into files that the mv has put below autotest_files.
inductive Late (Content : Type) where
  | writes (task : Task) (file : Option Content)
  | writesMoved (package : Package) (part : Option Content)

def Late.task : Late Content → Task
  | .writes task _ => task
  | .writesMoved package _ => .extractPackage package

-- The directory of a build under chroot/tmp. What the packages have put into autotest and
-- autotest_files is told apart by the package it comes from. Beside it stand the commands
-- asked for so far and those whose child has gone on by itself, both with the last one
-- first, and what such children are still to do, batch by batch.
structure Directory (Content : Type) where
  image : Option Content
  tarball : Option Content
  package : Package → Option Content
  autotest : Package → Option Content
  autotestFiles : Option (Package → Option Content)
  asked : List Task
  outlived : List Task
  meanwhile : List (List (Late Content))

def Directory.empty : Directory Content := ⟨none, none, fun _ => none, fun _ => none, none, [], [], []⟩

def Directory.hasAutotest (directory : Directory Content) : Bool :=
  packages.any fun package => (directory.autotest package).isSome

-- mv autotest autotest_files: it moves into an autotest_files that is there.
def Directory.moveAutotest (directory : Directory Content) : Directory Content :=
  if directory.hasAutotest then
    { directory with
      autotest := fun _ => none
      autotestFiles := some (directory.autotestFiles.getD directory.autotest) }
  else directory

def Task.write (file : Option Content) (directory : Directory Content) : Task → Directory Content
  | .copyImage => { directory with tarball := file }
  | .extractImage => { directory with image := file }
  | .cleanImage => { directory with image := none }
  | .removeTarball => { directory with tarball := none }
  | .copyPackage package => { directory with package := Function.update directory.package package file }
  | .extractPackage package => { directory with autotest := Function.update directory.autotest package file }
  | .removePackage package => { directory with package := Function.update directory.package package none }
  | .moveAutotest => directory.moveAutotest

def Late.change (directory : Directory Content) : Late Content → Directory Content
  | .writes task file => task.write file directory
  | .writesMoved package part =>
      { directory with autotestFiles := directory.autotestFiles.map fun tree => Function.update tree package part }

-- Only a child that has gone on can do something late.
def happen (directory : Directory Content) (late : Late Content) : Directory Content :=
  if late.task ∈ directory.outlived then late.change directory else directory

def settle (directory : Directory Content) : Directory Content :=
  match directory.meanwhile with
  | [] => directory
  | batch :: rest => batch.foldl happen { directory with meanwhile := rest }

-- What Cloud Storage has for a build.
structure Archive (Content : Type) where
  image : Content
  package : Package → Content

-- What tar makes of a file, if it can extract it at all, and what a package makes of the
-- part of autotest that lies there: tar overwrites files and removes none.
structure Tar (Content : Type) where
  unpack : Content → Option Content
  onto : Option Content → Content → Content

-- How RunCommand ends: with an exit code, or with an exception such as that of Ctrl-C.
inductive Ended where
  | exited (code : Int)
  | raised
deriving DecidableEq, Repr

-- A command that ends otherwise than with exit code 0 has written nothing or anything, and
-- its child, which os.setsid has put into a session of its own, may go on.
structure Outcome (Content : Type) where
  ended : Ended
  left : Option (Option Content)
  goesOn : Bool

inductive Failure where
  | missingImage (message : Text)
  | missingFile (message : Text)
  | escaped
deriving DecidableEq, Repr

abbrev Download (Content Value : Type) := Procedure (Directory Content) Failure Value

-- A look at the directory as it is by then.
def look : Download Content (Directory Content) := do
  modify settle
  Procedure.get

def ending (ended : Ended) : Download Content Int :=
  match ended with
  | .exited code => done code
  | .raised => raise .escaped

-- A command that changes nothing.
def runCommand (ended : Ended) : Download Content Int := do
  modify settle
  ending ended

def Directory.ran (directory : Directory Content) (task : Task) (written : Option (Option Content)) (goesOn : Bool) :
    Directory Content :=
  let changed := written.elim directory fun file => task.write file directory
  { changed with
    asked := task :: changed.asked
    outlived := if goesOn then task :: changed.outlived else changed.outlived }

-- What translate_xbuddy.py prints: nothing, something else than a literal tuple, or the
-- tuple of a build id.
inductive Translated where
  | nothing
  | unreadable
  | build (id : Text)
deriving DecidableEq, Repr

-- What the commands of one Run answer.
structure Answers (Content : Type) where
  translated : Translated
  listed : Ended
  packagesListed : Ended
  packageListed : Package → Ended
  outcome : Task → Outcome Content

-- A command that changes the directory. It can exit with 0 only where `whole` says what it
-- then writes: tar cannot on a file that does not extract, and mv not without an autotest.
def writing (answers : Answers Content) (task : Task) (whole : Directory Content → Option (Option Content)) :
    Download Content Int := do
  let directory ← look
  let outcome := answers.outcome task
  match if outcome.ended = .exited 0 then whole directory else none with
  | some file => do
      modify fun directory => directory.ran task (some file) false
      done 0
  | none => do
      modify fun directory => directory.ran task outcome.left outcome.goesOn
      ending (if outcome.ended = .exited 0 then .exited 2 else outcome.ended)

-- status != 0 or not os.path.exists(...)
def failedOrMissing (status : Int) (missing : Directory Content → Bool) : Download Content Bool :=
  if status != 0 then done true
  else do
    let directory ← look
    done (missing directory)

section Steps

variable (chromeosRoot buildId : Text) (archive : Archive Content) (tar : Tar Content) (answers : Answers Content)

def downloadPath : Text := PosixPath.join chromeosRoot ["chroot/tmp".toList, buildId]

def imageName : Text := "gs://chromeos-image-archive/".toList ++ buildId ++ "/chromiumos_test_image.tar.xz".toList

def imagePath : Text := PosixPath.join (downloadPath chromeosRoot buildId) ["chromiumos_test_image.bin".toList]

def downloadedImageName : Text := PosixPath.join (downloadPath chromeosRoot buildId) ["chromiumos_test_image.tar.xz".toList]

def cannotDownload : Failure := .missingImage ("Cannot download image: ".toList ++ downloadedImageName chromeosRoot buildId ++ ['.'])

-- gsutil cp is not asked again for a tarball when the image is there.
def downloadImage : Download Content Text := do
  let directory ← look
  whenever directory.image.isNone do
    let status ← writing answers .copyImage fun _ => some (some archive.image)
    let missing ← failedOrMissing status fun directory => directory.tarball.isNone
    whenever missing (raise (cannotDownload chromeosRoot buildId))
  done (imagePath chromeosRoot buildId)

def cleanImage : Download Content Unit := do
  let _ ← writing answers .cleanImage fun _ => some none
  done ()

def cannotUncompress : Failure := .missingImage ("Cannot uncompress image: ".toList ++ buildId ++ ['.'])

-- An exception of tar is raised again after the clean-up, which a failure of tar gets too.
def uncompressImage : Download Content Unit := do
  let directory ← look
  whenever directory.image.isNone do
    let retval ← onRaise
      (writing answers .extractImage fun directory => (directory.tarball.bind tar.unpack).map some)
      (cleanImage answers)
    whenever (retval != 0) do
      cleanImage answers
      raise (cannotUncompress buildId)
    let _ ← writing answers .removeTarball fun _ => some none
    done ()

def cannotFindPackage (package : Package) : Failure :=
  .missingFile ("Cannot find autotest package file: ".toList ++ package.fileName ++ ['.'])

def cannotDownloadPackage (package : Package) : Failure :=
  .missingFile ("Cannot download package: ".toList ++
    PosixPath.join (downloadPath chromeosRoot buildId) [package.fileName] ++ " .".toList)

-- A package that is there already is not downloaded again, whatever it holds.
def downloadSingleAutotestFile (package : Package) : Download Content Unit := do
  let status ← runCommand (answers.packageListed package)
  whenever (status != 0) (raise (cannotFindPackage package))
  let directory ← look
  whenever (directory.package package).isNone do
    let status ← writing answers (.copyPackage package) fun _ => some (some (archive.package package))
    let missing ← failedOrMissing status fun directory => (directory.package package).isNone
    whenever missing (raise (cannotDownloadPackage chromeosRoot buildId package))

def cannotUncompressPackage (package : Package) : Failure :=
  .missingFile ("Cannot uncompress file: ".toList ++ package.fileName ++ ['.'])

def uncompressSingleAutotestFile (package : Package) : Download Content Unit := do
  let retval ← writing answers (.extractPackage package) fun directory =>
    ((directory.package package).bind tar.unpack).map fun part => some (tar.onto (directory.autotest package) part)
  whenever (retval != 0) (raise (cannotUncompressPackage package))
  let _ ← writing answers (.removePackage package) fun _ => some none
  done ()

def defaultAutotestDir : Text := "~/trunk/src/third_party/autotest/files".toList

def autotestRelPath : Text := PosixPath.join "/tmp".toList [buildId, "autotest_files".toList]

-- Without the packages the default directory is used; with them autotest is filled from
-- all three and renamed.
def downloadAutotestFiles : Download Content Text := do
  let directory ← look
  if directory.autotestFiles.isSome then done (autotestRelPath buildId)
  else do
    let status ← runCommand answers.packagesListed
    if status != 0 then done defaultAutotestDir
    else do
      forEach (downloadSingleAutotestFile chromeosRoot buildId archive answers) packages
      forEach (uncompressSingleAutotestFile tar answers) packages
      let retval ← writing answers .moveAutotest fun directory => if directory.hasAutotest then some none else none
      whenever (retval != 0) (raise (.missingFile "Could not create directory autotest_files".toList))
      done (autotestRelPath buildId)

def cannotFindImage : Failure := .missingImage ("Cannot find official image: ".toList ++ imageName buildId ++ ['.'])

-- An autotest path of the label takes the place of the downloaded one.
def chosenAutotest (autotestPath : Text) : Download Content Text :=
  if autotestPath = [] then downloadAutotestFiles chromeosRoot buildId archive tar answers else done autotestPath

-- Run behind GetBuildID.
def runBuild (autotestPath : Text) : Download Content (Text × Text) := do
  let status ← runCommand answers.listed
  whenever (status != 0) (raise (cannotFindImage buildId))
  let image ← downloadImage chromeosRoot buildId archive answers
  uncompressImage buildId tar answers
  let autotest ← chosenAutotest chromeosRoot buildId archive tar answers autotestPath
  done (image, autotest)

end Steps

-- The downloads of one chromeos_root, by their build ids.
abbrev Downloads (Content : Type) := Text → Directory Content

structure Request (Content : Type) where
  xbuddyLabel : Text
  autotestPath : Text
  answers : Answers Content
  meanwhile : List (List (Late Content))

section Runs

variable (chromeosRoot : Text) (archives : Text → Archive Content) (tar : Tar Content)

-- ImageDownloader.Run. The children that earlier runs have left behind go on before it and beside it.
def run (request : Request Content) (downloads : Downloads Content) : Except Failure (Text × Text) × Downloads Content :=
  match request.answers.translated with
  | .nothing => (.error (.missingImage ("Unable to find image for '".toList ++ request.xbuddyLabel ++ ['\x27'])), downloads)
  | .unreadable => (.error .escaped, downloads)
  | .build id =>
      let ended := runBuild chromeosRoot id (archives id) tar request.answers request.autotestPath
        { downloads id with meanwhile := request.meanwhile }
      (ended.1, Function.update downloads id ended.2)

-- The requests of any number of experiments, one after another, whatever becomes of each.
def runs : List (Request Content) → Downloads Content → Downloads Content
  | [], downloads => downloads
  | request :: rest, downloads => runs rest (run chromeosRoot archives tar request downloads).2

end Runs

end ToolchainUtils.Crosperf.ImageDownloader
