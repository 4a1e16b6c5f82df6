import Mathlib.Logic.Function.Basic
import ToolchainUtils.FileSystem

set_option autoImplicit false

namespace ToolchainUtils.HardLinks

open FileSystem

variable {ν γ : Type} [DecidableEq ν]

-- Names share a file when they have the same inode; a write through one of them is
-- seen through all. Inodes from `next` on were never used.
structure Disk (ν γ : Type) where
  inode : ν → Option Nat
  content : Nat → γ
  next : Nat
  used : ∀ name i, inode name = some i → i < next

namespace Disk

def has (disk : Disk ν γ) (name : ν) : Bool := (disk.inode name).isSome

def read (disk : Disk ν γ) (name : ν) : Option γ := (disk.inode name).map disk.content

def Linked (disk : Disk ν γ) (first second : ν) : Prop := ∃ i, disk.inode first = some i ∧ disk.inode second = some i

theorem used_after_create (disk : Disk ν γ) (name other : ν) (i : Nat)
    (entry : Function.update disk.inode name (some disk.next) other = some i) : i < disk.next + 1 := by
  by_cases same : other = name
  · rw [same, Function.update_self] at entry
    have fresh := Option.some.inj entry
    omega
  · rw [Function.update_of_ne same] at entry
    have old := disk.used other i entry
    omega

-- open(name, 'w') and write: an existing file is truncated and rewritten in place.
def write (disk : Disk ν γ) (name : ν) (content : γ) : Disk ν γ :=
  match disk.inode name with
  | some i => { disk with content := Function.update disk.content i content }
  | none => {
      inode := Function.update disk.inode name (some disk.next)
      content := Function.update disk.content disk.next content
      next := disk.next + 1
      used := disk.used_after_create name }

def remove (disk : Disk ν γ) (name : ν) : Except OSError (Disk ν γ) :=
  if disk.has name then .ok { disk with
    inode := Function.update disk.inode name none
    used := by
      intro other i entry
      by_cases same : other = name
      · rw [same, Function.update_self] at entry
        cases entry
      · rw [Function.update_of_ne same] at entry
        exact disk.used other i entry }
  else .error .noSuchFile

-- os.link
def link (disk : Disk ν γ) (existing name : ν) : Except OSError (Disk ν γ) :=
  if ¬ disk.has existing then .error .noSuchFile
  else if disk.has name then .error .fileExists
  else .ok { disk with
    inode := Function.update disk.inode name (disk.inode existing)
    used := by
      intro other i entry
      by_cases same : other = name
      · rw [same, Function.update_self] at entry
        exact disk.used existing i entry
      · rw [Function.update_of_ne same] at entry
        exact disk.used other i entry }

theorem remove_ok (disk : Disk ν γ) (name : ν) (present : disk.has name = true) :
    ∃ after, disk.remove name = .ok after ∧ after.inode = Function.update disk.inode name none ∧ after.content = disk.content :=
  ⟨_, if_pos present, rfl, rfl⟩

theorem remove_missing (disk : Disk ν γ) (name : ν) (absent : disk.has name = false) : disk.remove name = .error .noSuchFile := by
  simp [remove, absent]

theorem link_ok (disk : Disk ν γ) (existing name : ν) (present : disk.has existing = true) (absent : disk.has name = false) :
    ∃ after, disk.link existing name = .ok after ∧
      after.inode = Function.update disk.inode name (disk.inode existing) ∧ after.content = disk.content := by
  have free : ¬ disk.has name = true := by simp [absent]
  exact ⟨_, (if_neg fun missing => missing present).trans (if_neg free), rfl, rfl⟩

-- What a write does to any name: it reaches the names linked to the written one.
theorem read_write_linked (disk : Disk ν γ) (name other : ν) (content : γ) (linked : disk.Linked name other) :
    (disk.write name content).read other = some content := by
  obtain ⟨i, here, there⟩ := linked
  simp [write, read, here, there]

theorem read_write_apart (disk : Disk ν γ) (name other : ν) (content : γ) (different : other ≠ name)
    (apart : ¬ disk.Linked name other) : (disk.write name content).read other = disk.read other := by
  cases entry : disk.inode name with
  | some i =>
      cases there : disk.inode other with
      | none => simp [write, read, entry, there]
      | some j =>
          have distinct : j ≠ i := fun same => apart ⟨i, entry, same ▸ there⟩
          simp [write, read, entry, there, Function.update_of_ne distinct]
  | none =>
      cases there : disk.inode other with
      | none => simp [write, read, entry, there, Function.update_of_ne different]
      | some j =>
          have distinct : j ≠ disk.next := by
            have used := disk.used other j there
            omega
          simp [write, read, entry, there, Function.update_of_ne different, Function.update_of_ne distinct]

theorem inode_write (disk : Disk ν γ) (name other : ν) (content : γ) (i : Nat) (there : disk.inode other = some i) :
    (disk.write name content).inode other = some i := by
  cases entry : disk.inode name with
  | some j => simpa only [write, entry] using there
  | none =>
      have different : other ≠ name := by
        rintro rfl
        simp [entry] at there
      simpa only [write, entry, Function.update_of_ne different] using there

-- A write makes no links between names.
theorem linked_write (disk : Disk ν γ) (name first second : ν) (content : γ) (different : first ≠ second)
    (linked : (disk.write name content).Linked first second) : disk.Linked first second := by
  obtain ⟨i, one, two⟩ := linked
  cases entry : disk.inode name with
  | some j => exact ⟨i, by simpa only [write, entry] using one, by simpa only [write, entry] using two⟩
  | none =>
      simp only [write, entry] at one two
      by_cases here : first = name
      · rw [here, Function.update_self] at one
        rw [Function.update_of_ne fun same => different (here.trans same.symm)] at two
        have used := disk.used second i two
        have fresh := Option.some.inj one
        omega
      · rw [Function.update_of_ne here] at one
        by_cases there : second = name
        · rw [there, Function.update_self] at two
          have used := disk.used first i one
          have fresh := Option.some.inj two
          omega
        · rw [Function.update_of_ne there] at two
          exact ⟨i, one, two⟩

end Disk

end ToolchainUtils.HardLinks
