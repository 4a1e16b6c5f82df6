import ToolchainUtils.PyString
import ToolchainUtils.BinarySearchTool.Switching

set_option autoImplicit false

-- The scripts under cros_pkg, which switch the packages of a work tree of ChromeOS.
namespace ToolchainUtils.BinarySearchTool

open PyString

-- The characters of portage's file names; the shell takes none of them for its own.
def isPackageChar (c : Char) : Bool := c.isAlphanum || c == '/' || c == '.' || c == '-' || c == '_' || c == '+'

-- A file name below packages/.
structure PackageName where
  text : Text
  filled : text ≠ []
  named : text.all isPackageChar = true
deriving DecidableEq

-- The files below packages/ of a build tree.
abbrev PackageFiles (Content : Type) := Text → Option Content

-- The trees of a package bisection: what find lists in the good one, and for which names the
-- work tree has the directory that holds the file.
structure PackageTrees (Content : Type) where
  good : PackageFiles Content
  bad : PackageFiles Content
  hasDirectory : Text → Bool
  found : List PackageName
  distinct : found.Nodup

variable {Content ω : Type}

-- An item of the bisection.
abbrev PackageTrees.Package (trees : PackageTrees Content) : Type := { name : PackageName // name ∈ trees.found }

def PackageTrees.packages (trees : PackageTrees Content) : List trees.Package := trees.found.attach

def PackageTrees.side (trees : PackageTrees Content) : Bool → PackageFiles Content
  | false => trees.good
  | true => trees.bad

-- get_initial_items.sh: what find prints.
def getInitialItems (trees : PackageTrees Content) : Text := trees.found.flatMap fun name => name.text ++ ['\n']

-- '\n'.join(item_list), which RunSwitchScript writes to the file it passes.
def listFile (names : List Text) : Text := ['\n'].intercalate names

def fieldSeparators : List Char := [' ', '\t', '\n']

-- read pkg: a line without the blanks at its ends.
def readField (line : Text) : Text :=
  (line.dropWhile fun c => fieldSeparators.contains c).rdropWhile fun c => fieldSeparators.contains c

-- while read pkg || [[ -n "$pkg" ]]: all lines, and what is left without a newline.
def readPackages (file : Text) : List Text := (readlines file).map readField

-- sudo cp ${BUILD}/packages/$pkg ${WORK_BUILD}/packages/$pkg
def copyPackage (source : PackageFiles Content) (hasDirectory : Text → Bool) (package : Text) (work : PackageFiles Content) :
    Int × PackageFiles Content :=
  match source package with
  | none => (1, work)
  | some content => if hasDirectory package then (0, Function.update work package (some content)) else (1, work)

-- The loop of switch_to_good.sh and switch_to_bad.sh, which goes on behind a copy that fails.
def copyPackages (source : PackageFiles Content) (hasDirectory : Text → Bool) (overallStatus : Int) (work : PackageFiles Content) :
    List Text → Int × PackageFiles Content
  | [] => (overallStatus, work)
  | package :: rest =>
      let copied := copyPackage source hasDirectory package work
      copyPackages source hasDirectory (if copied.1 ≠ 0 then 2 else overallStatus) copied.2 rest

def switchPackages (source : PackageFiles Content) (hasDirectory : Text → Bool) (file : Text) (work : PackageFiles Content) :
    Int × PackageFiles Content :=
  copyPackages source hasDirectory 0 work (readPackages file)

-- The packages of the work tree, and what else the test scripts read and change: the image
-- that is built from the tree, the device, and the user.
structure PackageWorld (Content ω : Type) where
  work : PackageFiles Content
  rest : ω

def PackageTrees.names (trees : PackageTrees Content) (items : List trees.Package) : List Text := items.map fun item => item.1.text

def switchPackageScript (trees : PackageTrees Content) (bad : Bool) (items : List trees.Package) (world : PackageWorld Content ω) :
    Int × PackageWorld Content ω :=
  let switched := switchPackages (trees.side bad) trees.hasDirectory (listFile (trees.names items)) world.work
  (switched.1, { world with work := switched.2 })

def testPackageScript (test : PackageFiles Content → ω → Int × ω) (world : PackageWorld Content ω) : Int × PackageWorld Content ω :=
  ((test world.work world.rest).1, { world with rest := (test world.work world.rest).2 })

-- BisectPackage.default_kwargs. The two test scripts build an image of the work tree and try it.
def packageScripts (trees : PackageTrees Content) (setup test : PackageFiles Content → ω → Int × ω) :
    Scripts trees.Package (PackageWorld Content ω) where
  switchToGood _ items world := switchPackageScript trees false items world
  switchToBad _ items world := switchPackageScript trees true items world
  testSetupScript := some fun _ world => testPackageScript setup world
  testScript _ world := testPackageScript test world

-- Whether cp can bring a file to the work tree.
def copyable (source : PackageFiles Content) (hasDirectory : Text → Bool) (name : Text) : Bool :=
  (source name).isSome && hasDirectory name

def PackageTrees.copies (trees : PackageTrees Content) (bad : Bool) (item : trees.Package) : Bool :=
  copyable (trees.side bad) trees.hasDirectory item.1.text

-- A work tree in which the items come from the good and the bad tree as env says, and that is
-- like `start` elsewhere.
def PackageTrees.image (trees : PackageTrees Content) (start : PackageFiles Content) (env : Environment trees.Package) :
    PackageFiles Content := fun name =>
  match trees.packages.find? fun item => item.1.text == name with
  | some item => trees.side (env item) name
  | none => start name

-- The same scripts with nothing but the sides of the items for a work tree.
def switchSides (trees : PackageTrees Content) (bad : Bool) (items : List trees.Package) (world : SwitchedWorld trees.Package ω) :
    Int × SwitchedWorld trees.Package ω :=
  if items.all (trees.copies bad) then (0, { world with env := setItems items bad world.env }) else (2, world)

def testSides (trees : PackageTrees Content) (start : PackageFiles Content) (test : PackageFiles Content → ω → Int × ω)
    (world : SwitchedWorld trees.Package ω) : Int × SwitchedWorld trees.Package ω :=
  ((test (trees.image start world.env) world.rest).1, { world with rest := (test (trees.image start world.env) world.rest).2 })

def sideScripts (trees : PackageTrees Content) (start : PackageFiles Content) (setup test : PackageFiles Content → ω → Int × ω) :
    Scripts trees.Package (SwitchedWorld trees.Package ω) where
  switchToGood _ items world := switchSides trees false items world
  switchToBad _ items world := switchSides trees true items world
  testSetupScript := some fun _ world => testSides trees start setup world
  testScript _ world := testSides trees start test world

theorem package_char_solid (c : Char) (named : isPackageChar c = true) : isSpace c = false ∧ c ∉ fieldSeparators := by
  constructor
  · cases space : isSpace c with
    | false => rfl
    | true =>
        have member : c ∈ spaces := by simpa [isSpace] using space
        simp only [spaces, List.mem_cons, List.not_mem_nil, or_false] at member
        rcases member with rfl | rfl | rfl | rfl | rfl | rfl <;> exact absurd named (by decide)
  · intro member
    simp only [fieldSeparators, List.mem_cons, List.not_mem_nil, or_false] at member
    rcases member with rfl | rfl | rfl <;> exact absurd named (by decide)

theorem package_name_char (name : PackageName) (c : Char) (member : c ∈ name.text) : isPackageChar c = true :=
  List.all_eq_true.mp name.named c member

-- PopulateItemsUsingCommand splits what find printed into the names of the packages.
theorem initial_items_split (trees : PackageTrees Content) :
    split (getInitialItems trees) = trees.packages.map fun item => item.1.text := by
  have named : (trees.packages.map fun item => item.1.text) = trees.found.map PackageName.text := by
    rw [PackageTrees.packages, List.attach_map_val]
  rw [getInitialItems, named]
  generalize trees.found = names
  induction names with
  | nil => rfl
  | cons name rest ih =>
      have solid : ∀ c ∈ name.text, isSpace c = false :=
        fun c member => (package_char_solid c (package_name_char name c member)).1
      rw [List.flatMap_cons, List.append_assoc, List.singleton_append, split_word name.text _ name.filled solid '\n' (by decide), ih]
      rfl

theorem package_name_oneline (name : PackageName) : '\n' ∉ name.text := fun member =>
  (package_char_solid '\n' (package_name_char name '\n' member)).2 (by decide)

theorem read_field_name (name : PackageName) (ending : Text) (ends : ending = [] ∨ ending = ['\n']) :
    readField (name.text ++ ending) = name.text := by
  have solid : ∀ c ∈ name.text, fieldSeparators.contains c = false := by
    intro c member
    simpa using (package_char_solid c (package_name_char name c member)).2
  have front : (name.text ++ ending).dropWhile (fun c => fieldSeparators.contains c) = name.text ++ ending := by
    cases text : name.text with
    | nil => exact absurd text name.filled
    | cons c rest =>
        have first : fieldSeparators.contains c = false := solid c (by rw [text]; exact List.mem_cons_self)
        rw [List.cons_append, List.dropWhile_cons_of_neg (by simpa using first)]
  have back : name.text.rdropWhile (fun c => fieldSeparators.contains c) = name.text := by
    rw [List.rdropWhile_eq_self_iff]
    intro filled
    simpa using solid _ (List.getLast_mem filled)
  rw [readField, front]
  rcases ends with rfl | rfl
  · rw [List.append_nil, back]
  · rw [List.rdropWhile_concat_pos _ _ _ (by decide), back]

-- Whatever the list, the loop of the scripts reads the names that RunSwitchScript wrote.
theorem read_packages_list (names : List PackageName) :
    readPackages (listFile (names.map PackageName.text)) = names.map PackageName.text := by
  induction names with
  | nil => rfl
  | cons name rest ih =>
      cases rest with
      | nil =>
          have alone : listFile ([name].map PackageName.text) = name.text := List.intercalate_singleton
          rw [alone, readPackages, readlines_last _ (package_name_oneline name), if_neg name.filled]
          have last := read_field_name name [] (.inl rfl)
          rw [List.append_nil] at last
          rw [List.map_singleton, last]
          rfl
      | cons second rest =>
          have more : listFile ((name :: second :: rest).map PackageName.text) =
              name.text ++ '\n' :: listFile ((second :: rest).map PackageName.text) := by
            rw [List.map_cons, List.map_cons, listFile, List.intercalate_cons_cons, List.append_assoc]
            rfl
          rw [more, readPackages, readlines_line _ _ (package_name_oneline name), List.map_cons,
            read_field_name name ['\n'] (.inr rfl)]
          exact congrArg _ ih

end ToolchainUtils.BinarySearchTool
