import ToolchainUtils.BinarySearchTool.PackageSetup

set_option autoImplicit false

namespace ToolchainUtils.BinarySearchTool.PackageSetup

open PyString ShellLanguage

variable (board : BoardName)

-- How the commands of a script act one after the other.
def effects : List (List Text) → Machine → Machine × Nat
  | [], machine => (machine, 0)
  | [only], machine => effect only machine
  | first :: second :: rest, machine => effects (second :: rest) (effect first machine).1

theorem in_turn_effects (commands : List (List Text)) (machine : Machine) (shell : ShellState) :
    Program.inTurn (commands.map command) machine shell [] =
      ⟨(effects commands machine).1, shell, [], [], (effects commands machine).2⟩ := by
  induction commands generalizing machine with
  | nil => rfl
  | cons first rest ih =>
      cases rest with
      | nil => rfl
      | cons second rest =>
          change Program.followedBy (command first machine shell []) (Program.inTurn ((second :: rest).map command)) = _
          have later := ih (effect first machine).1
          change Program.inTurn _ (command first machine shell []).world (command first machine shell []).shell
            (command first machine shell []).rest = _ at later
          rw [Program.followedBy, later]
          rfl

-- The commands that a cleanup script has.
inductive CleanupCommand : List Text → Prop
  | removeLink : CleanupCommand (removeLink board)
  | restoreTree : CleanupCommand (restoreTree board)
  | restoreLink (target : Text) (filled : target ≠ []) (plain : isPlain target = true) : CleanupCommand (restoreLink board target)
  | removeCommon : CleanupCommand removeCommon

variable {board}

theorem plain_append (first second : Text) (left : isPlain first = true) (right : isPlain second = true) : isPlain
    (first ++ second) = true := by
  rw [isPlain, List.all_append, ← isPlain, ← isPlain, left, right]
  rfl

theorem board_path_plain : isPlain (boardPath board) = true := plain_append _ _ (by decide) board.plain

theorem saved_build_plain : isPlain (savedBuild board) = true := plain_append _ _ board_path_plain (by decide)

theorem cleanup_command_plain (words : List Text) (listed : CleanupCommand board words) : PlainCommand words := by
  have path : boardPath board ≠ [] ∧ isPlain (boardPath board) = true := ⟨List.cons_ne_nil _ _, board_path_plain⟩
  have saved : savedBuild board ≠ [] ∧ isPlain (savedBuild board) = true := ⟨List.cons_ne_nil _ _, saved_build_plain⟩
  have last : ∀ word ∈ ([] : List Text), word ≠ [] ∧ isPlain word = true := fun _ none => absurd none List.not_mem_nil
  cases listed with
  | removeLink =>
      refine plain_command _ _ _ ?_ (by decide)
      rw [List.forall_mem_cons, List.forall_mem_cons, List.forall_mem_cons]
      exact ⟨by decide, by decide, path, last⟩
  | restoreTree =>
      refine plain_command _ _ _ ?_ (by decide)
      rw [List.forall_mem_cons, List.forall_mem_cons, List.forall_mem_cons, List.forall_mem_cons]
      exact ⟨by decide, by decide, saved, path, last⟩
  | restoreLink target filled plain =>
      refine plain_command _ _ _ ?_ (by decide)
      rw [List.forall_mem_cons, List.forall_mem_cons, List.forall_mem_cons, List.forall_mem_cons, List.forall_mem_cons]
      exact ⟨by decide, by decide, by decide, ⟨filled, plain⟩, path, last⟩
  | removeCommon =>
      refine plain_command _ _ _ ?_ (by decide)
      rw [List.forall_mem_cons, List.forall_mem_cons]
      exact ⟨by decide, by decide, last⟩

theorem cleanup_command_builtin (expand : Machine → ShellState → Text → List Text) (words : List Text)
    (listed : CleanupCommand board words) :
    (bash expand).builtin words = command words := by
  cases listed with
  | removeLink => rfl
  | restoreTree => rfl
  | restoreLink target _ _ => rfl
  | removeCommon => rfl

-- The script that was written is read back as the commands that it was made of.
theorem cleanup_script_runs (expand : Machine → ShellState → Text → List Text) (shell : ShellState) (restore : List (List Text))
    (listed : ∀ words ∈ restore, CleanupCommand board words) (machine : Machine)
    (script : machine.cleanup = some (cleanupText board restore)) :
    runCleanup expand shell machine = effects ([removeLink board] ++ restore ++ [removeCommon]) machine := by
  have commands : ∀ words ∈ [removeLink board] ++ restore ++ [removeCommon], CleanupCommand board words := by
    intro words member
    rcases List.mem_append.mp member with front | last
    · rcases List.mem_append.mp front with first | middle
      · exact List.mem_singleton.mp first ▸ .removeLink
      · exact listed words middle
    · exact List.mem_singleton.mp last ▸ .removeCommon
  have plain := fun words member => cleanup_command_plain words (commands words member)
  have oneLine : ∀ words ∈ [removeLink board] ++ restore ++ [removeCommon], '\n' ∉ joined words :=
    fun words member => joined_char words (plain words member).plain '\n' (by decide) (by decide)
  have restored : ∀ words ∈ restore, words ∈ [removeLink board] ++ restore ++ [removeCommon] :=
    fun words member => List.mem_append_left _ (List.mem_append_right _ member)
  have first : removeLink board ∈ [removeLink board] ++ restore ++ [removeCommon] := List.mem_cons_self
  have last : removeCommon ∈ [removeLink board] ++ restore ++ [removeCommon] := List.mem_append_right _ List.mem_cons_self
  have lines : scriptLines (cleanupText board restore) = ([removeLink board] ++ restore ++ [removeCommon]).map joined := by
    have kept : (restore.map joined).filter isCommandLine = restore.map joined := by
      refine List.filter_eq_self.mpr fun line member => ?_
      obtain ⟨words, inside, rfl⟩ := List.mem_map.mp member
      exact command_line words (plain words (restored words inside))
    have shebang : isCommandLine "#!/bin/bash".toList = false := by decide
    have blank : isCommandLine [] = false := rfl
    rw [cleanupText, script_lines_written, cleanupLines, List.filter_append, List.filter_append, kept]
    · rw [List.filter_cons, shebang, List.filter_cons, blank, List.filter_cons, command_line _ (plain _ first), List.filter_cons,
      blank,
        List.filter_cons, command_line _ (plain _ last), List.map_append, List.map_append]
      rfl
    · intro line member
      rcases List.mem_append.mp member with front | back
      · rcases List.mem_append.mp front with head | middle
        · rcases List.mem_cons.mp head with rfl | head
          · decide
          · rcases List.mem_cons.mp head with rfl | head
            · exact List.not_mem_nil
            · rw [List.mem_singleton.mp head]
              exact oneLine _ first
        · obtain ⟨words, inside, rfl⟩ := List.mem_map.mp middle
          exact oneLine words (restored words inside)
      · rcases List.mem_cons.mp back with rfl | back
        · exact List.not_mem_nil
        · rw [List.mem_singleton.mp back]
          exact oneLine _ last
  have builtins : ([removeLink board] ++ restore ++ [removeCommon]).map (bash expand).builtin =
      ([removeLink board] ++ restore ++ [removeCommon]).map command :=
    List.map_congr_left fun words member => cleanup_command_builtin expand words (commands words member)
  rw [runCleanup, script]
  simp only [script_runs (bash expand) _ _ lines plain, builtins, in_turn_effects]

section Paths

variable (board)

theorem build_path_ne (first second : String) (other : first.toList ≠ second.toList) :
    buildPath board first ≠ buildPath board second :=
  fun same => other (List.append_cancel_left same)

theorem board_path_ne (ending : String) (filled : ending.toList ≠ []) : boardPath board ≠ buildPath board ending :=
  fun same => filled (List.append_right_eq_self.mp same.symm)

theorem board_path_work : boardPath board ≠ workBuild board := board_path_ne board ".work" (by decide)

theorem board_path_saved : boardPath board ≠ savedBuild board := board_path_ne board ".save" (by decide)

theorem saved_work : savedBuild board ≠ workBuild board := build_path_ne board ".save" ".work" (by decide)

end Paths

section Commands

variable {files : Files}

theorem directory_at_real (path : Text) (entries : List (Text × Entry)) (real : files path = some (.directory entries)) :
    directoryAt files path = some (path, entries) := by
  have here : follow files (maxLinks + 1) path = some path := by simp only [follow, real]
  rw [directoryAt, here, Option.bind_some]
  simp only [real]

theorem directory_at_missing (path : Text) (missing : files path = none) : directoryAt files path = none := by
  have nowhere : follow files (maxLinks + 1) path = none := by simp only [follow, missing]
  rw [directoryAt, nowhere, Option.bind_none]

theorem symlink_missing (target path : Text) (named : target.head? ≠ some '-') (missing : files path = none) :
    symlink target path files = (Function.update files path (some (.link target)), 0) := by
  rw [symlink, if_neg named, directory_at_missing path missing, missing]
  rfl

theorem rm_link (path target : Text) (linked : files path = some (.link target)) : rm path files =
    (Function.update files path none, 0) := by
  rw [rm, linked]

theorem mv_renames (source destination : Text) (entry : Entry) (present : files source = some entry)
    (free : files destination = none) :
    mv source destination files = (moveTo files source destination entry, 0) := by
  rw [mv, present, directory_at_missing destination free]
  simp only [free]

end Commands

-- The three trees that setup.sh asks for are real directories.
structure Trees (board : BoardName) (files : Files) : Prop where
  good : ∃ entries, files (goodBuild board) = some (.directory entries)
  bad : ∃ entries, files (badBuild board) = some (.directory entries)
  work : ∃ entries, files (workBuild board) = some (.directory entries)

-- What setup.sh can undo: nothing at /build/${BOARD}, a link to a directory whose text the shell
-- leaves alone, or a real tree with no ${BOARD}.save beside it.
def Restorable (board : BoardName) (files : Files) : Prop :=
  match files (boardPath board) with
  | none => True
  | some (.link target) =>
      isDirectory files (boardPath board) = true ∧ target ≠ [] ∧ isPlain target = true ∧ target.head? ≠ some '-'
  | some (.directory _) => files (savedBuild board) = none
  | some (.file _) => False

-- What the cleanup script will do about the tree, and what it finds when it does.
inductive Undoes (board : BoardName) (origin files : Files) : List (List Text) → Prop
  | missing (old : origin (boardPath board) = none) (saved : files (savedBuild board) = origin (savedBuild board)) :
    Undoes board origin files []
  | link (target : Text) (old : origin (boardPath board) = some (.link target)) (filled : target ≠ []) (plain : isPlain target = true)
      (named : target.head? ≠ some '-') (saved : files (savedBuild board) = origin (savedBuild board)) :
      Undoes board origin files [restoreLink board target]
  | renamed (entries : List (Text × Entry)) (old : origin (boardPath board) = some (.directory entries))
      (free : origin (savedBuild board) = none) (saved : files (savedBuild board) = some (.directory entries)) :
      Undoes board origin files [restoreTree board]

structure Prepared (board : BoardName) (origin files : Files) (restore : List (List Text)) : Prop where
  linked : files (boardPath board) = some (.link (workBuild board))
  others : ∀ path, path ≠ boardPath board → path ≠ workBuild board → path ≠ savedBuild board → files path = origin path
  undoes : Undoes board origin files restore

theorem undoes_commands (origin files : Files) (restore : List (List Text)) (undoes : Undoes board origin files restore) :
    ∀ words ∈ restore, CleanupCommand board words := by
  cases undoes with
  | missing => exact fun _ none => absurd none List.not_mem_nil
  | link target _ filled plain => exact fun words member => List.mem_singleton.mp member ▸ .restoreLink target filled plain
  | renamed => exact fun words member => List.mem_singleton.mp member ▸ .restoreTree

theorem effect_remove_link (machine : Machine) : effect (removeLink board) machine = onBuild (rm (boardPath board)) machine := by
  have other : boardPath board ≠ commonFile := by
    intro same
    have first : (boardPath board).head? = some '/' := rfl
    rw [same] at first
    exact absurd first (by decide)
  have removes : effect (removeLink board) machine = remove (boardPath board) machine := by
    unfold effect removeLink
    exact if_pos ⟨rfl, rfl⟩
  rw [removes, remove, if_neg other]

theorem effect_restore_tree (machine : Machine) :
    effect (restoreTree board) machine = onBuild (mv (savedBuild board) (boardPath board)) machine := by
  unfold effect restoreTree
  exact if_pos ⟨rfl, rfl⟩

theorem effect_restore_link (target : Text) (machine : Machine) :
    effect (restoreLink board target) machine = onBuild (symlink target (boardPath board)) machine := by
  unfold effect restoreLink
  exact if_pos ⟨rfl, rfl, rfl⟩

theorem effect_remove_common (machine : Machine) (present : machine.common.isSome = true) :
    effect removeCommon machine = ({ machine with common := none }, 0) := by
  have removes : effect removeCommon machine = remove commonFile machine := by
    unfold effect removeCommon
    exact if_pos rfl
  rw [removes, remove, if_pos rfl, present]
  rfl

-- The cleanup script brings back all that was there, up to the work tree.
theorem cleanup_restores (origin : Files) (machine : Machine) (restore : List (List Text))
    (prepared : Prepared board origin machine.build restore) (common : machine.common.isSome = true) :
    ∃ build, effects ([removeLink board] ++ restore ++ [removeCommon]) machine =
        ({ machine with build := build, common := none }, 0) ∧
      build (workBuild board) = machine.build (workBuild board) ∧ ∀ path, path ≠ workBuild board → build path = origin path := by
  have removed : effect (removeLink board) machine = ({ machine with build := Function.update machine.build (boardPath board) none },
    0) := by
    rw [effect_remove_link, onBuild, rm_link _ _ prepared.linked]
  have gone : Function.update machine.build (boardPath board) none (boardPath board) = none := Function.update_self _ _ _
  have work := (board_path_work board).symm
  cases prepared.undoes with
  | missing old saved =>
      refine ⟨Function.update machine.build (boardPath board) none, ?_, Function.update_of_ne work _ _, fun path other => ?_⟩
      · change effect removeCommon (effect (removeLink board) machine).1 = _
        rw [removed]
        exact effect_remove_common _ common
      · by_cases atBoard : path = boardPath board
        · rw [atBoard, gone, old]
        · rw [Function.update_of_ne atBoard]
          by_cases atSaved : path = savedBuild board
          · rw [atSaved, saved]
          · exact prepared.others path atBoard other atSaved
  | link target old filled plain named saved =>
      refine ⟨Function.update (Function.update machine.build (boardPath board) none) (boardPath board) (some (.link target)), ?_,
        by rw [Function.update_of_ne work, Function.update_of_ne work], fun path other => ?_⟩
      · change effect removeCommon (effect (restoreLink board target) (effect (removeLink board) machine).1).1 = _
        rw [removed, effect_restore_link, onBuild, symlink_missing target _ named gone]
        exact effect_remove_common _ common
      · by_cases atBoard : path = boardPath board
        · rw [atBoard, Function.update_self, old]
        · rw [Function.update_of_ne atBoard, Function.update_of_ne atBoard]
          by_cases atSaved : path = savedBuild board
          · rw [atSaved, saved]
          · exact prepared.others path atBoard other atSaved
  | renamed entries old free saved =>
      have aside : Function.update machine.build (boardPath board) none (savedBuild board) = some (.directory entries) := by
        rw [Function.update_of_ne (board_path_saved board).symm, saved]
      refine ⟨moveTo (Function.update machine.build (boardPath board) none) (savedBuild board) (boardPath board) (.directory entries),
        ?_, ?_,
        fun path other => ?_⟩
      · change effect removeCommon (effect (restoreTree board) (effect (removeLink board) machine).1).1 = _
        rw [removed, effect_restore_tree, onBuild, mv_renames _ _ _ aside gone]
        exact effect_remove_common _ common
      · rw [moveTo, Function.update_of_ne (saved_work board).symm, Function.update_of_ne work, Function.update_of_ne work]
      · rw [moveTo]
        by_cases atSaved : path = savedBuild board
        · rw [atSaved, Function.update_self, free]
        · rw [Function.update_of_ne atSaved]
          by_cases atBoard : path = boardPath board
          · rw [atBoard, Function.update_self, old]
          · rw [Function.update_of_ne atBoard, Function.update_of_ne atBoard]
            exact prepared.others path atBoard other atSaved

def OldTree.restore (board : BoardName) : OldTree → List (List Text)
  | .missing => []
  | .renamed => [restoreTree board]
  | .link target => [restoreLink board target]

theorem unquoted_link (target : Text) : unquoted ('\x27' :: target ++ ['\x27']) = target := by
  have front : (target ++ ['\x27']).getLast? = some '\x27' := List.getLast?_concat
  rw [unquoted, List.cons_append, List.head?_cons, if_pos rfl, List.drop_one, List.tail_cons]
  simp only [front, if_true, List.dropLast_concat]

-- The flags that setup.sh passes are never a usage error.
theorem cleanup_script_created (old : OldTree) :
    createCleanupScript board old.flags = some (cleanupText board (old.restore board)) := by
  cases old with
  | missing => rfl
  | renamed => rfl
  | link target =>
      have script : createCleanupScript board (OldTree.link target).flags =
          some (cleanupText board [restoreLink board (unquoted ('\x27' :: target ++ ['\x27']))]) := rfl
      rw [script, unquoted_link, OldTree.restore]

theorem is_directory_real (files : Files) (path : Text) (real : ∃ entries, files path = some (.directory entries)) :
    isDirectory files path = true := by
  obtain ⟨entries, entry⟩ := real
  rw [isDirectory, directory_at_real path entries entry]
  rfl

-- With the three trees in place setup.sh goes to its end, whatever the commands in between return.
theorem setup_eq (remote : Text) (machine : Machine) (trees : Trees board machine.build) (old : OldTree)
    (found : oldTree board machine.build = old) :
    setup board remote machine = ({
      build := (symlink (workBuild board) (boardPath board) (putAside board old machine.build)).1
      common := some (commonText board remote)
      cleanup := some (cleanupText board (old.restore board)) }, 0) := by
  rw [setup, is_directory_real _ _ trees.good, is_directory_real _ _ trees.bad, is_directory_real _ _ trees.work, found]
  simp only [not_true_eq_false, if_false, cleanup_script_created]
  rfl

theorem link_work (files : Files) (missing : files (boardPath board) = none) :
    (symlink (workBuild board) (boardPath board) files).1 = Function.update files (boardPath board)
      (some (.link (workBuild board))) := by
  have named : (workBuild board).head? ≠ some '-' := by
    have first : (workBuild board).head? = some '/' := rfl
    rw [first]
    decide
  rw [symlink_missing _ _ named missing]

theorem setup_prepares (remote : Text) (machine : Machine) (trees : Trees board machine.build)
    (restorable : Restorable board machine.build) :
    ∃ after restore, setup board remote machine = (after, 0) ∧ after.common.isSome = true ∧
      after.cleanup = some (cleanupText board restore) ∧ Prepared board machine.build after.build restore ∧
      ∀ path, path ≠ boardPath board → path ≠ savedBuild board → after.build path = machine.build path := by
  have saved := (board_path_saved board).symm
  unfold Restorable at restorable
  cases entry : machine.build (boardPath board) with
  | none =>
      have found : oldTree board machine.build = .missing := by
        rw [oldTree, isDirectory, directory_at_missing _ entry]
        rfl
      refine ⟨_, _, setup_eq remote machine trees .missing found, rfl, rfl, ⟨?_, ?_, .missing entry ?_⟩, ?_⟩
      all_goals
        dsimp only
        rw [putAside, link_work _ entry]
      · exact Function.update_self _ _ _
      · exact fun path atBoard _ _ => Function.update_of_ne atBoard _ _
      · exact Function.update_of_ne saved _ _
      · exact fun path atBoard _ => Function.update_of_ne atBoard _ _
  | some old =>
      rw [entry] at restorable
      cases old with
      | file content => exact restorable.elim
      | link target =>
          obtain ⟨directory, filled, plain, named⟩ := restorable
          have found : oldTree board machine.build = .link target := by
            rw [oldTree, if_pos directory, entry]
          have gone : (rm (boardPath board) machine.build).1 = Function.update machine.build (boardPath board) none := by
            rw [rm_link _ target entry]
          refine ⟨_, _, setup_eq remote machine trees (.link target) found, rfl, rfl,
            ⟨?_, ?_, .link target entry filled plain named ?_⟩, ?_⟩
          all_goals
            dsimp only
            rw [putAside, gone, link_work _ (Function.update_self _ _ _)]
          · exact Function.update_self _ _ _
          · exact fun path atBoard _ _ => by rw [Function.update_of_ne atBoard, Function.update_of_ne atBoard]
          · rw [Function.update_of_ne saved, Function.update_of_ne saved]
          · exact fun path atBoard _ => by rw [Function.update_of_ne atBoard, Function.update_of_ne atBoard]
      | directory entries =>
          have found : oldTree board machine.build = .renamed := by
            rw [oldTree, if_pos (is_directory_real _ _ ⟨entries, entry⟩), entry]
          have aside : (mv (boardPath board) (savedBuild board) machine.build).1 =
              moveTo machine.build (boardPath board) (savedBuild board) (.directory entries) := by
            rw [mv_renames _ _ _ entry restorable]
          have moved : moveTo machine.build (boardPath board) (savedBuild board) (.directory entries) (boardPath board) = none :=
            Function.update_self _ _ _
          refine ⟨_, _, setup_eq remote machine trees .renamed found, rfl, rfl, ⟨?_, ?_, .renamed entries entry restorable ?_⟩, ?_⟩
          all_goals
            dsimp only
            rw [putAside, aside, link_work _ moved]
          · exact Function.update_self _ _ _
          · intro path atBoard _ atSaved
            rw [Function.update_of_ne atBoard, moveTo, Function.update_of_ne atBoard, Function.update_of_ne atSaved]
          · rw [Function.update_of_ne saved, moveTo, Function.update_of_ne saved, Function.update_self]
          · intro path atBoard atSaved
            rw [Function.update_of_ne atBoard, moveTo, Function.update_of_ne atBoard, Function.update_of_ne atSaved]

-- A search changes nothing but what is below the work tree.
structure OnlyWork (board : BoardName) (search : Machine → SearchEnd × Machine) : Prop where
  others : ∀ machine path, path ≠ workBuild board → (search machine).2.build path = machine.build path
  work : ∀ machine, (∃ entries, machine.build (workBuild board) = some (.directory entries)) →
    ∃ entries, (search machine).2.build (workBuild board) = some (.directory entries)
  files : ∀ machine, (search machine).2.common = machine.common ∧ (search machine).2.cleanup = machine.cleanup

theorem good_saved : goodBuild board ≠ savedBuild board := build_path_ne board ".good" ".save" (by decide)

theorem bad_saved : badBuild board ≠ savedBuild board := build_path_ne board ".bad" ".save" (by decide)

theorem trees_elsewhere (before after : Files) (trees : Trees board before)
    (others : ∀ path, path ≠ boardPath board → path ≠ savedBuild board → path ≠ workBuild board → after path = before path)
    (work : ∃ entries, after (workBuild board) = some (.directory entries)) : Trees board after := by
  have good := others (goodBuild board) (board_path_ne board ".good" (by decide)).symm good_saved
    (build_path_ne board ".good" ".work" (by decide))
  have bad := others (badBuild board) (board_path_ne board ".bad" (by decide)).symm bad_saved
    (build_path_ne board ".bad" ".work" (by decide))
  exact ⟨by rw [good]; exact trees.good, by rw [bad]; exact trees.bad, work⟩

theorem prepared_searched (origin before after : Files) (restore : List (List Text)) (prepared : Prepared board origin before restore)
    (others : ∀ path, path ≠ workBuild board → after path = before path) : Prepared board origin after restore := by
  have saved := others (savedBuild board) (saved_work board)
  refine ⟨by rw [others _ (board_path_work board)]; exact prepared.linked, fun path atBoard atWork atSaved => ?_, ?_⟩
  · rw [others path atWork]
    exact prepared.others path atBoard atWork atSaved
  · cases prepared.undoes with
    | missing old same => exact .missing old (saved.trans same)
    | link target old filled plain named same => exact .link target old filled plain named (saved.trans same)
    | renamed entries old free same => exact .renamed entries old free (saved.trans same)

-- One run: all is as before up to the work tree, or the search failed and the link that setup.sh
-- made is left behind.
theorem bisector_ends (expand : Machine → ShellState → Text → List Text) (shell : ShellState) (run : BisectRun)
    (only : OnlyWork board run.search) (machine : Machine) (trees : Trees board machine.build)
    (restorable : Restorable board machine.build) :
    Trees board (runBisector board expand shell run machine).2.build ∧
    (((runBisector board expand shell run machine).1 = .returned 0 ∧
        ∀ path, path ≠ workBuild board → (runBisector board expand shell run machine).2.build path = machine.build path) ∨
      ((runBisector board expand shell run machine).1 ≠ .returned 0 ∧
        (∃ prepared, (run.search prepared).1 = (runBisector board expand shell run machine).1) ∧
        (runBisector board expand shell run machine).2.build (boardPath board) = some (.link (workBuild board)))) := by
  obtain ⟨after, restore, prepares, common, script, prepared, kept⟩ := setup_prepares run.remote machine trees restorable
  have workKept : after.build (workBuild board) = machine.build (workBuild board) :=
    kept _ (board_path_work board).symm (saved_work board).symm
  have searchedPrepared := prepared_searched machine.build after.build (run.search after).2.build restore prepared (only.others after)
  have searchedWork := only.work after (by rw [workKept]; exact trees.work)
  have searchedTrees : Trees board (run.search after).2.build :=
    trees_elsewhere machine.build _ trees
      (fun path atBoard atSaved atWork => (only.others after path atWork).trans (kept path atBoard atSaved)) searchedWork
  by_cases success : (run.search after).1 = .returned 0
  · obtain ⟨build, ran, work, restored⟩ := cleanup_restores machine.build (run.search after).2 restore searchedPrepared
      (by rw [(only.files after).1]; exact common)
    have cleaned : runCleanup expand shell (run.search after).2 = _ :=
      cleanup_script_runs expand shell restore (undoes_commands _ _ restore prepared.undoes) _
        (by rw [(only.files after).2]; exact script)
    have ended : runBisector board expand shell run machine =
        (.returned 0, { (run.search after).2 with build := build, common := none }) := by
      rw [runBisector, prepares]
      simp only [success, cleaned, ran]
      rfl
    rw [ended]
    refine ⟨trees_elsewhere machine.build build trees (fun path _ _ atWork => restored path atWork) ?_, .inl ⟨rfl, restored⟩⟩
    rw [work]
    exact searchedWork
  · have ended : runBisector board expand shell run machine = run.search after := by
      rw [runBisector, prepares]
      exact if_pos success
    rw [ended]
    exact ⟨searchedTrees, .inr ⟨success, ⟨after, rfl⟩, searchedPrepared.linked⟩⟩

-- What the search does below the work tree does not change where links lead.
theorem follow_unchanged (before after : Files) (others : ∀ path, path ≠ workBuild board → after path = before path)
    (was : ∃ entries, before (workBuild board) = some (.directory entries))
    (stays : ∃ entries, after (workBuild board) = some (.directory entries)) (links : Nat) (path : Text) :
    follow after links path = follow before links path := by
  induction links generalizing path with
  | zero => rfl
  | succ links ih =>
      by_cases atWork : path = workBuild board
      · obtain ⟨old, wasDirectory⟩ := was
        obtain ⟨new, isDirectory⟩ := stays
        rw [follow, follow, atWork, wasDirectory, isDirectory]
      · rw [follow, follow, others path atWork]
        split
        · rfl
        · exact ih _
        · rfl

theorem is_directory_unchanged (before after : Files) (others : ∀ path, path ≠ workBuild board → after path = before path)
    (was : ∃ entries, before (workBuild board) = some (.directory entries))
    (stays : ∃ entries, after (workBuild board) = some (.directory entries)) (path : Text) :
    isDirectory after path = isDirectory before path := by
  rw [isDirectory, isDirectory, directoryAt, directoryAt, follow_unchanged before after others was stays]
  cases follow before (maxLinks + 1) path with
  | none => rfl
  | some place =>
      rw [Option.bind_some, Option.bind_some]
      by_cases atWork : place = workBuild board
      · obtain ⟨old, wasDirectory⟩ := was
        obtain ⟨new, isDirectory⟩ := stays
        rw [atWork, wasDirectory, isDirectory]
        rfl
      · rw [others place atWork]

theorem restorable_unchanged (before after : Files) (others : ∀ path, path ≠ workBuild board → after path = before path)
    (was : ∃ entries, before (workBuild board) = some (.directory entries))
    (stays : ∃ entries, after (workBuild board) = some (.directory entries)) (restorable : Restorable board before) :
    Restorable board after := by
  unfold Restorable at restorable ⊢
  rw [others _ (board_path_work board), others _ (saved_work board), is_directory_unchanged before after others was stays]
  exact restorable

-- The link to the work tree is itself something that setup.sh can undo.
theorem stranded_restorable (files : Files) (trees : Trees board files)
    (linked : files (boardPath board) = some (.link (workBuild board))) :
    Restorable board files := by
  obtain ⟨entries, work⟩ := trees.work
  have leads : targetPath (boardPath board) (workBuild board) = workBuild board := if_pos rfl
  have followed : follow files (maxLinks + 1) (boardPath board) = some (workBuild board) := by
    simp only [follow, maxLinks, linked, leads, work]
  have directory : isDirectory files (boardPath board) = true := by
    rw [isDirectory, directoryAt, followed, Option.bind_some]
    simp only [work]
    rfl
  have first : (workBuild board).head? = some '/' := rfl
  unfold Restorable
  rw [linked]
  exact ⟨directory, List.cons_ne_nil _ _, plain_append _ _ board_path_plain (by decide), by rw [first]; decide⟩

theorem stranded_runs (expand : Machine → ShellState → Text → List Text) (shell : ShellState) (runs : List BisectRun)
    (only : ∀ run ∈ runs, OnlyWork board run.search) (machine : Machine) (trees : Trees board machine.build)
    (linked : machine.build (boardPath board) = some (.link (workBuild board))) :
    (runBisectors board expand shell runs machine).2.build (boardPath board) = some (.link (workBuild board)) := by
  induction runs generalizing machine with
  | nil => exact linked
  | cons run rest ih =>
      obtain ⟨treesAfter, ended⟩ := bisector_ends expand shell run (only run List.mem_cons_self) machine trees
        (stranded_restorable machine.build trees linked)
      refine ih (fun other member => only other (List.mem_cons_of_mem _ member)) _ treesAfter ?_
      rcases ended with ⟨_, unchanged⟩ | ⟨_, _, left⟩
      · rw [unchanged _ (board_path_work board), linked]
      · exact left

-- However often bisect.py is run: while every run returns 0, /build is as it was up to the work
-- tree; from the first one on that does not, the board leads to the work tree for good.
theorem bisect_restores_build_tree (expand : Machine → ShellState → Text → List Text) (shell : ShellState) (runs : List BisectRun)
    (only : ∀ run ∈ runs, OnlyWork board run.search) (machine : Machine) (trees : Trees board machine.build)
    (restorable : Restorable board machine.build) :
    ((∀ ended ∈ (runBisectors board expand shell runs machine).1, ended = .returned 0) →
      ∀ path, path ≠ workBuild board → (runBisectors board expand shell runs machine).2.build path = machine.build path) ∧
    ((∃ ended ∈ (runBisectors board expand shell runs machine).1, ended ≠ .returned 0) →
      (runBisectors board expand shell runs machine).2.build (boardPath board) = some (.link (workBuild board))) := by
  induction runs generalizing machine with
  | nil => exact ⟨fun _ _ _ => rfl, fun ⟨_, member, _⟩ => absurd member List.not_mem_nil⟩
  | cons run rest ih =>
      obtain ⟨treesAfter, ended⟩ := bisector_ends expand shell run (only run List.mem_cons_self) machine trees restorable
      have onlyLater : ∀ other ∈ rest, OnlyWork board other.search := fun other member => only other (List.mem_cons_of_mem _ member)
      rcases ended with ⟨success, unchanged⟩ | ⟨failed, _, left⟩
      · obtain ⟨restored, stranded⟩ := ih onlyLater _ treesAfter
          (restorable_unchanged machine.build _ unchanged trees.work treesAfter.work restorable)
        constructor
        · intro all path other
          rw [← unchanged path other]
          exact restored (fun later member => all later (List.mem_cons_of_mem _ member)) path other
        · rintro ⟨later, member, failed⟩
          refine stranded ⟨later, (List.mem_cons.mp member).resolve_left fun same => failed (same.trans success), failed⟩
      · constructor
        · exact fun all => absurd (all _ List.mem_cons_self) failed
        · exact fun _ => stranded_runs expand shell rest onlyLater _ treesAfter left

def daisy : BoardName := ⟨"daisy".toList, by decide, by decide⟩

-- The board leads to a release tree that lies beside the three trees.
def daisyMachine : Machine where
  build path :=
    if path = boardPath daisy then some (.link "daisy.release".toList)
    else if path ∈ [buildPath daisy ".release", goodBuild daisy, badBuild daisy, workBuild daisy] then some (.directory [])
    else none
  common := none
  cleanup := none

def idleShell : ShellState := ⟨[], [], fun _ => none, 0⟩

def searchWith (ended : SearchEnd) : BisectRun := ⟨"172.17.211.184".toList, fun machine => (ended, machine)⟩

theorem search_with_only_work (ended : SearchEnd) : OnlyWork daisy (searchWith ended).search :=
  ⟨fun _ _ _ => rfl, fun _ real => real, fun _ => ⟨rfl, rfl⟩⟩

theorem daisy_trees : Trees daisy daisyMachine.build := by
  refine ⟨⟨[], ?_⟩, ⟨[], ?_⟩, ⟨[], ?_⟩⟩ <;> rfl

theorem daisy_restorable : Restorable daisy daisyMachine.build :=
  ⟨by decide, by decide, by decide, by decide⟩

theorem daisy_restored_and_stranded :
    (∀ path, path ≠ workBuild daisy →
      (runBisectors daisy (fun _ _ _ => []) idleShell
        [searchWith (.returned 0)] daisyMachine).2.build path = daisyMachine.build path) ∧
    (runBisectors daisy (fun _ _ _ => []) idleShell [searchWith .raised, searchWith (.returned 0)] daisyMachine).2.build
      (boardPath daisy) =
      some (.link (workBuild daisy)) := by
  have only : ∀ runs : List BisectRun, (∀ run ∈ runs, ∃ ended, run = searchWith ended) → ∀ run ∈ runs, OnlyWork daisy run.search := by
    intro runs each run member
    obtain ⟨ended, rfl⟩ := each run member
    exact search_with_only_work ended
  constructor
  · refine (bisect_restores_build_tree (fun _ _ _ => []) idleShell [searchWith (.returned 0)] (only _ ?_) daisyMachine daisy_trees
      daisy_restorable).1 ?_
    · exact fun run member => ⟨_, List.mem_singleton.mp member⟩
    · intro ended member
      obtain ⟨_, ⟨success, _⟩ | ⟨failed, ⟨prepared, same⟩, _⟩⟩ := bisector_ends (fun _ _ _ => []) idleShell (searchWith (.returned 0))
        (search_with_only_work _) daisyMachine daisy_trees daisy_restorable
      · exact (List.mem_singleton.mp member).trans success
      · exact absurd same.symm failed
  · refine (bisect_restores_build_tree (fun _ _ _ => []) idleShell [searchWith .raised, searchWith (.returned 0)]
      (only _ ?_) daisyMachine
      daisy_trees daisy_restorable).2 ⟨.raised, by decide, by decide⟩
    intro run member
    rcases List.mem_cons.mp member with rfl | member
    · exact ⟨_, rfl⟩
    · exact ⟨_, List.mem_singleton.mp member⟩

end ToolchainUtils.BinarySearchTool.PackageSetup
