import Mathlib.Logic.Function.Basic

set_option autoImplicit false

namespace ToolchainUtils.FileSystem

variable {ν γ : Type} [DecidableEq ν]

-- One directory of regular files and symbolic links; γ is what a file can hold.
inductive Entry (ν γ : Type) where
  | file (content : γ)
  | link (target : ν)
deriving DecidableEq, Repr

abbrev Files (ν γ : Type) := ν → Option (Entry ν γ)

inductive OSError where
  | fileExists
  | noSuchFile
  | invalidArgument
  | tooManyLinks
deriving DecidableEq, Repr

def put (files : Files ν γ) (name : ν) (entry : Option (Entry ν γ)) : Files ν γ := Function.update files name entry

@[simp] theorem put_same (files : Files ν γ) (name : ν) (entry : Option (Entry ν γ)) : put files name entry name = entry := by
  rw [put, Function.update_self]

@[simp] theorem put_other (files : Files ν γ) (name other : ν) (entry : Option (Entry ν γ)) (different : other ≠ name) :
    put files name entry other = files other := by
  rw [put, Function.update_of_ne different]

-- open with O_CREAT and O_EXCL
def create (files : Files ν γ) (name : ν) (content : γ) : Except OSError (Files ν γ) :=
  match files name with
  | none => .ok (put files name (some (.file content)))
  | some _ => .error .fileExists

def symlink (files : Files ν γ) (target name : ν) : Except OSError (Files ν γ) :=
  match files name with
  | none => .ok (put files name (some (.link target)))
  | some _ => .error .fileExists

def rename (files : Files ν γ) (old new : ν) : Except OSError (Files ν γ) :=
  match files old with
  | none => .error .noSuchFile
  | some entry => .ok (put (put files old none) new (some entry))

def remove (files : Files ν γ) (name : ν) : Except OSError (Files ν γ) :=
  match files name with
  | none => .error .noSuchFile
  | some _ => .ok (put files name none)

def readlink (files : Files ν γ) (name : ν) : Except OSError ν :=
  match files name with
  | none => .error .noSuchFile
  | some (.file _) => .error .invalidArgument
  | some (.link target) => .ok target

def islink (files : Files ν γ) (name : ν) : Bool :=
  match files name with
  | some (.link _) => true
  | _ => false

-- The name behind at most `links` symbolic links.
def follow (files : Files ν γ) : Nat → ν → Except OSError ν
  | 0, name => if islink files name then .error .tooManyLinks else .ok name
  | links + 1, name => match files name with
      | some (.link target) => follow files links target
      | _ => .ok name

def maxLinks : Nat := 40

def write (files : Files ν γ) (name : ν) (content : γ) : Except OSError (Files ν γ) := do
  let final ← follow files maxLinks name
  return put files final (some (.file content))

def read (files : Files ν γ) (name : ν) : Except OSError γ := do
  let final ← follow files maxLinks name
  match files final with
  | some (.file content) => .ok content
  | _ => .error .noSuchFile

-- os.path.exists and os.path.isfile: there are no directories to tell apart.
def isfile (files : Files ν γ) (name : ν) : Bool := (read files name).isOk

omit [DecidableEq ν] in
theorem follow_plain (files : Files ν γ) (links : Nat) (name : ν) (plain : islink files name = false) :
    follow files links name = .ok name := by
  cases links with
  | zero => simp [follow, plain]
  | succ links =>
      cases entry : files name with
      | none => simp only [follow, entry]
      | some found => cases found with
          | file content => simp only [follow, entry]
          | link target => simp [islink, entry] at plain

omit [DecidableEq ν] in
theorem read_link (files : Files ν γ) (name target : ν) (content : γ) (entry : files name = some (.link target))
    (file : files target = some (.file content)) : read files name = .ok content := by
  have plain : islink files target = false := by simp [islink, file]
  have followed : follow files maxLinks name = .ok target := by
    rw [maxLinks, follow]
    simp only [entry]
    exact follow_plain files _ target plain
  simp [read, followed, file, bind, Except.bind]

omit [DecidableEq ν] in
theorem read_missing (files : Files ν γ) (name : ν) (absent : files name = none) : read files name = .error .noSuchFile := by
  have plain : islink files name = false := by simp [islink, absent]
  simp [read, follow_plain files maxLinks name plain, absent, bind, Except.bind]

theorem create_fresh (files : Files ν γ) (name : ν) (content : γ) (absent : files name = none) :
    create files name content = .ok (put files name (some (.file content))) := by
  simp only [create, absent]

theorem write_file (files : Files ν γ) (name : ν) (old content : γ) (entry : files name = some (.file old)) :
    write files name content = .ok (put files name (some (.file content))) := by
  have plain : islink files name = false := by simp [islink, entry]
  simp [write, follow_plain files maxLinks name plain, bind, Except.bind, pure, Except.pure]

theorem symlink_fresh (files : Files ν γ) (target name : ν) (absent : files name = none) :
    symlink files target name = .ok (put files name (some (.link target))) := by
  simp only [symlink, absent]

theorem symlink_taken (files : Files ν γ) (target name : ν) (present : files name ≠ none) :
    symlink files target name = .error .fileExists := by
  cases entry : files name with
  | none => exact absurd entry present
  | some found => simp only [symlink, entry]

theorem rename_entry (files : Files ν γ) (old new : ν) (entry : Entry ν γ) (present : files old = some entry) :
    rename files old new = .ok (put (put files old none) new (some entry)) := by
  simp only [rename, present]

theorem remove_entry (files : Files ν γ) (name : ν) (entry : Entry ν γ) (present : files name = some entry) :
    remove files name = .ok (put files name none) := by
  simp only [remove, present]

end ToolchainUtils.FileSystem
