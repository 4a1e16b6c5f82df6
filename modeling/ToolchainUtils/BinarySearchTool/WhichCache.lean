import ToolchainUtils.BasicRegex
import ToolchainUtils.PyString
import ToolchainUtils.BinarySearchTool.BisectDriver

set_option autoImplicit false

namespace ToolchainUtils.BinarySearchTool.BisectDriver

open PyString BasicRegex

-- What grep -x makes of a pattern and a line. Ranges and classes in a bracket expression,
-- groups, intervals and back-references are left to the installed grep.
structure Grep where
  selects : Text → Text → Bool
  documented : ∀ pattern regex line, parse pattern = some regex → selects pattern line = accepts regex line

-- The temporary file of one set: the items, one a line, and no newline after the last.
def setFile (items : List Text) : Text := ['\n'].intercalate items

def fileLines (content : Text) : List Text := (readlines content).map fun line => line.takeWhile (· != '\n')

-- grep -x -q leaves with 0 when a line is selected; no line, an invalid pattern and an
-- unreadable file all give another status.
def grepStatus (grep : Grep) (pattern content : Text) : Int := if (fileLines content).any (grep.selects pattern) then 0 else 1

def whichCache (grep : Grep) (badSet objFile : Text) : Cache := if grepStatus grep objFile badSet = 0 then .bad else .good

-- os.path.isabs.
def Absolute (path : Text) : Prop := path.head? = some '/'

instance (path : Text) : Decidable (Absolute path) := inferInstanceAs (Decidable (path.head? = some '/'))

theorem which_cache_bad_iff (grep : Grep) (badSet objFile : Text) :
    whichCache grep badSet objFile = .bad ↔ ∃ line ∈ fileLines badSet, grep.selects objFile line = true := by
  rw [whichCache, grepStatus, ← List.any_eq_true]
  cases found : (fileLines badSet).any (grep.selects objFile) with
  | true => exact ⟨fun _ => rfl, fun _ => rfl⟩
  | false => exact ⟨fun bad => absurd bad (by decide), fun found => absurd found Bool.false_ne_true⟩

section SetFile

theorem line_of_text (line : Text) (oneLine : '\n' ∉ line) : line.takeWhile (· != '\n') = line :=
  List.takeWhile_eq_self_iff.mpr fun c member => by simpa using ne_of_mem_of_not_mem member oneLine

theorem file_lines_last (line : Text) (nonempty : line ≠ []) (oneLine : '\n' ∉ line) : fileLines line = [line] := by
  rw [fileLines, readlines_last line oneLine, if_neg nonempty, List.map_singleton, line_of_text line oneLine]

theorem file_lines_newline (first rest : Text) : fileLines (first ++ '\n' :: rest) = fileLines (first ++ ['\n']) ++ fileLines rest := by
  rw [fileLines, readlines_newline, List.map_append]
  rfl

theorem file_lines_ended (line : Text) (oneLine : '\n' ∉ line) : fileLines (line ++ ['\n']) = [line] := by
  rw [fileLines, readlines_line line [] oneLine, List.map_cons,
    take_to_stop (· != '\n') line [] '\n' (fun c member => by simpa using ne_of_mem_of_not_mem member oneLine) rfl]
  rfl

theorem set_file_cons (item other : Text) (rest : List Text) :
    setFile (item :: other :: rest) = item ++ '\n' :: setFile (other :: rest) := by
  rw [setFile, List.intercalate_cons_cons, List.append_assoc]
  rfl

-- A path written to the set file is one of its lines, whatever the other items hold.
theorem listed_line (items : List Text) (path : Text) (nonempty : path ≠ []) (oneLine : '\n' ∉ path) (listed : path ∈ items) :
    path ∈ fileLines (setFile items) := by
  induction items with
  | nil => exact absurd listed List.not_mem_nil
  | cons item rest ih =>
      cases rest with
      | nil =>
          rw [← List.mem_singleton.mp listed, setFile, List.intercalate_singleton, file_lines_last path nonempty oneLine]
          exact List.mem_singleton_self path
      | cons other rest =>
          rw [set_file_cons, file_lines_newline, List.mem_append]
          cases List.mem_cons.mp listed with
          | inl same =>
              rw [← same, file_lines_ended path oneLine]
              exact .inl (List.mem_singleton_self path)
          | inr later => exact .inr (ih later)

end SetFile

section Followed

-- What a pattern means to grep, as far as its parts are documented.
def means (grep : Grep) (pattern line : Text) : Bool :=
  match parse pattern with
  | some regex => accepts regex line
  | none => grep.selects pattern line

-- Whether the lines of the set file tell an object file apart. A path whose only special
-- characters are dots selects itself; another path can also fail to.
def ToldApart (grep : Grep) (items : List Text) (objFile : Text) : Prop :=
  if Dotted objFile then objFile ∈ items ∨ ∀ line ∈ fileLines (setFile items), ¬ SameButDots objFile line
  else if objFile ∈ items then ∃ line ∈ fileLines (setFile items), means grep objFile line = true
  else ∀ line ∈ fileLines (setFile items), means grep objFile line = false

theorem grep_means (grep : Grep) (pattern line : Text) : grep.selects pattern line = means grep pattern line := by
  rw [means]
  cases parsed : parse pattern with
  | some regex => exact grep.documented pattern regex line parsed
  | none => rfl

theorem dotted_selects (grep : Grep) (pattern line : Text) (dotted : Dotted pattern) :
    grep.selects pattern line = true ↔ SameButDots pattern line := by
  rw [grep.documented pattern _ line (dotted_parse pattern dotted), dotted_accepts]

theorem dotted_one_line (path : Text) (dotted : Dotted path) : '\n' ∉ path := fun member => dotted '\n' member (by decide)

theorem dotted_told_apart (grep : Grep) (items : List Text) (path : Text) (nonempty : path ≠ []) (dotted : Dotted path) :
    ((∃ line ∈ fileLines (setFile items), grep.selects path line = true) ↔ path ∈ items) ↔
      (path ∈ items ∨ ∀ line ∈ fileLines (setFile items), ¬ SameButDots path line) := by
  constructor
  · intro follows
    by_cases listed : path ∈ items
    · exact .inl listed
    · refine .inr fun line member same => listed (follows.mp ⟨line, member, ?_⟩)
      exact (dotted_selects grep path line dotted).mpr same
  · intro apart
    constructor
    · intro found
      obtain ⟨line, member, selected⟩ := found
      cases apart with
      | inl listed => exact listed
      | inr none => exact absurd ((dotted_selects grep path line dotted).mp selected) (none line member)
    · intro listed
      refine ⟨path, listed_line items path nonempty (dotted_one_line path dotted) listed, ?_⟩
      exact (dotted_selects grep path path dotted).mpr (same_but_dots_refl path)

theorem which_cache_follows_iff (grep : Grep) (items : List Text) (objFile : Text) (absolute : Absolute objFile) :
    (whichCache grep (setFile items) objFile = .bad ↔ objFile ∈ items) ↔ ToldApart grep items objFile := by
  have nonempty : objFile ≠ [] := by
    intro empty
    rw [empty] at absolute
    exact absurd absolute nofun
  rw [which_cache_bad_iff, ToldApart]
  split
  · rename_i dotted
    exact dotted_told_apart grep items objFile nonempty dotted
  · simp only [grep_means]
    split
    · rename_i listed
      exact iff_true_right listed
    · rename_i unlisted
      rw [iff_false_right unlisted]
      push Not
      simp only [ne_eq, Bool.not_eq_true]

end Followed

section Sample

def sampleGrep : Grep where
  selects pattern line :=
    match parse pattern with
    | some regex => accepts regex line
    | none => false
  documented pattern regex line parsed := by rw [parsed]

def listedPath : Text := "/src/a_b.o".toList

def otherPath : Text := "/src/a.b.o".toList

theorem which_cache_follows_listed :
    Absolute listedPath ∧
      ((whichCache sampleGrep (setFile [listedPath]) listedPath = .bad ↔ listedPath ∈ [listedPath]) ↔ ToldApart sampleGrep [listedPath] listedPath) :=
  ⟨rfl, which_cache_follows_iff sampleGrep [listedPath] listedPath rfl⟩

-- The dots of an object that is not in the bad set also stand for another character of
-- one that is.
theorem which_cache_unlisted_bad :
    Absolute otherPath ∧ (∀ item ∈ [listedPath], Absolute item) ∧
      ¬ (whichCache sampleGrep (setFile [listedPath]) otherPath = .bad ↔ otherPath ∈ [listedPath]) := by
  refine ⟨rfl, by decide, fun follows => ?_⟩
  have listed : otherPath ∈ [listedPath] := follows.mp (by decide)
  exact absurd listed (by decide)

-- A repetition or a bracket expression in a listed path: the path does not select itself.
example : whichCache sampleGrep (setFile ["/src/a*b.o".toList]) "/src/a*b.o".toList = .good ∧
    whichCache sampleGrep (setFile ["/app/[id].o".toList]) "/app/[id].o".toList = .good := by decide +kernel

-- And it selects another one.
example : whichCache sampleGrep (setFile ["/app/d.o".toList]) "/app/[id].o".toList = .bad := by decide +kernel

end Sample

end ToolchainUtils.BinarySearchTool.BisectDriver
