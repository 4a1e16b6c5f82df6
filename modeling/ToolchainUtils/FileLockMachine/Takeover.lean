import ToolchainUtils.FileLockMachine.Exclusion

set_option autoImplicit false

namespace ToolchainUtils.FileLockMachine

open Transition

-- No other process has the liveness file locked.
def LiveFree (file : LockFile) (process : Nat) : Prop :=
  ∀ inode ∈ file.liveness, file.mayLock process inode = true

instance (file : LockFile) (process : Nat) : Decidable (LiveFree file process) :=
  inferInstanceAs (Decidable (∀ inode ∈ file.liveness, file.mayLock process inode = true))

def ExpectedAt (file : LockFile) (process : Nat) : Point → Prop
  | .body desc => LiveFree file process ∧ desc.exclusive = false
  | .closing _ => False
  | .removing _ => False
  | .exiting answer _ => answer = some true
  | .writing answer _ => answer = some true
  | _ => LiveFree file process

structure Expected (file : LockFile) (caller : Caller) : Prop where
  operation : caller.request.operation = .nonBlockingLock
  exclusive : caller.request.exclusive = true
  inactive : activeOf file.alive file.holders = []
  point : ExpectedAt file caller.process caller.point

structure TakeoverInvariant (user : Nat → String) (file : LockFile) : Prop where
  base : LockInvariant user file
  answered : ∀ result ∈ file.results, result.expecting = true → result.answer = some true
  expected : ∀ caller, file.caller = some caller → caller.expecting = true → Expected file caller

-- How many file operations are left at most.
def Point.remaining : Point → Nat
  | .reading => 10
  | .checking _ => 9
  | .probing _ _ => 8
  | .resetting _ => 7
  | .body _ => 6
  | .opening _ => 5
  | .locking _ _ => 4
  | .closing _ => 4
  | .removing _ => 3
  | .exiting _ _ => 2
  | .writing _ _ => 1

section Going

variable {user : Nat → String} {file : LockFile} {caller : Caller} {desc : LockDescription}

theorem body_remaining (desc : LockDescription) : (callBody user caller desc).remaining < 6 := by
  unfold callBody nonBlockingLock unlock
  split
  · split_ifs <;> simp [Point.remaining]
  · split_ifs <;> simp [Point.remaining]

inductive Went (file : LockFile) (caller : Caller) (after : LockFile) : Prop where
  | moved (point : Point) (closer : point.remaining < caller.point.remaining)
      (inside : after.caller = some { caller with point := point }) (same : after.results = file.results)
  | returned (answer : Option Bool) (desc : LockDescription) (wrote : caller.point = .writing answer desc)
      (done : after.caller = none)
      (result : after.results = file.results ++ [⟨caller.process, caller.request, caller.expecting, answer⟩])

theorem open_live_results (file : LockFile) : file.openLive.results = file.results := by rw [open_live_eq]

theorem go_cases (now : Nat) : Went file caller (go user now file caller) := by
  cases here : caller.point with
  | reading =>
      simp only [go, here]
      split
      · exact .moved _ (by simp [here, Point.remaining]) rfl rfl
      · exact .moved _ (by simp [here, Point.remaining]) rfl rfl
  | checking desc =>
      simp only [go, here]
      exact .moved _ (by simp [here, Point.remaining]) rfl (open_live_results file)
  | probing desc fp =>
      simp only [go, here]
      split
      · exact .moved _ (by simp [here, Point.remaining]) rfl rfl
      · exact .moved _ (by simp [here, Point.remaining]) rfl rfl
  | resetting fp =>
      simp only [go, here]
      exact .moved _ (by simp [here, Point.remaining]) rfl rfl
  | body desc =>
      simp only [go, here]
      exact .moved _ (by rw [here]; exact body_remaining desc) rfl rfl
  | opening desc =>
      simp only [go, here]
      exact .moved _ (by simp [here, Point.remaining]) rfl (open_live_results file)
  | locking desc fd =>
      simp only [go, here]
      split
      · exact .moved _ (by simp [here, Point.remaining]) rfl rfl
      · exact .moved _ (by simp [here, Point.remaining]) rfl rfl
  | closing desc =>
      simp only [go, here]
      exact .moved _ (by simp [here, Point.remaining]) rfl rfl
  | removing desc =>
      simp only [go, here]
      split
      · exact .moved _ (by simp [here, Point.remaining]) rfl rfl
      · exact .moved _ (by simp [here, Point.remaining]) rfl rfl
  | exiting answer desc =>
      simp only [go, here]
      exact .moved _ (by simp [here, Point.remaining]) rfl rfl
  | writing answer desc =>
      simp only [go, here]
      exact .returned answer desc here rfl rfl

-- A call that is left alone returns.
theorem call_returns (now : Nat) (bound : Nat) (inside : file.caller = some caller)
    (left : caller.point.remaining ≤ bound) :
    ∃ count answer after, exec (lockStep user) file (List.replicate count (.go now)) = some after ∧
      after.results = file.results ++ [⟨caller.process, caller.request, caller.expecting, answer⟩] := by
  induction bound generalizing file caller with
  | zero =>
      have positive : 0 < caller.point.remaining := by cases caller.point <;> simp [Point.remaining]
      omega
  | succ bound ih =>
      have step : lockStep user file (.go now) = some (go user now file caller) := by simp [lockStep, inside]
      obtain ⟨point, closer, moved, same⟩ | ⟨answer, _, _, _, result⟩ := @go_cases user file caller now
      · obtain ⟨count, answer, after, run, result⟩ := ih moved (by simp only; omega)
        refine ⟨count + 1, answer, after, ?_, by rw [result, same]⟩
        exact (exec_cons _ _ _ _ _).mpr ⟨_, step, run⟩
      · refine ⟨1, answer, _, ?_, result⟩
        exact (exec_cons _ _ _ _ _).mpr ⟨_, step, rfl⟩

theorem open_live_free (process : Nat) (free : LiveFree file process) : LiveFree file.openLive process := by
  intro inode live
  unfold LockFile.openLive at live ⊢
  cases opened : file.liveness with
  | some found =>
      rw [opened] at live
      exact free inode (opened ▸ live)
  | none =>
      rw [opened] at live
      obtain rfl : file.inodes = inode := Option.some.inj live
      simp [LockFile.mayLock]

theorem locked_free (process fp : Nat) (live : file.liveness = some fp) : LiveFree (file.lockInode process fp) process := by
  intro inode same
  obtain rfl : fp = inode := Option.some.inj (live.symm.trans same)
  simp [LockFile.mayLock, LockFile.lockInode]

theorem unlocked_free (process fp : Nat) (live : file.liveness = some fp) : LiveFree (file.unlockInode fp) process := by
  intro inode same
  obtain rfl : fp = inode := Option.some.inj (live.symm.trans same)
  simp [LockFile.mayLock, LockFile.unlockInode]

-- A description that is still exclusive is that of a dead auto holder.
theorem orphan_suspected (inv : LockInvariant user file) (inside : file.caller = some caller)
    (quiet : caller.point.Quiet) (inactive : activeOf file.alive file.holders = [])
    (exclusive : (file.content.getD {}).exclusive = true) :
    (file.content.getD {}).auto = true ∧ file.fileOps caller.process = [] := by
  have agrees := inv.content fun other same => Option.some.inj (inside.symm.trans same) ▸ quiet.reading
  obtain ⟨holder, only, isExclusive, auto, _⟩ := agrees.exclusive exclusive
  have member : holder ∈ file.holders := by simp [only]
  obtain ⟨_, isAuto, dead⟩ := stale_is_exclusive file.alive holder ((active_nil_iff _ _).mp inactive holder member)
  refine ⟨auto.trans isAuto, ?_⟩
  by_contra opened
  have different : caller.process ≠ holder.process := fun same => by
    rw [← same, inv.living caller inside] at dead
    exact Bool.false_ne_true dead.symm
  exact not_granting inside quiet.taking _ (inv.others holder member isExclusive caller.process different opened)

theorem reading_expected (inv : LockInvariant user file) (inside : file.caller = some caller)
    (expected : Expected file caller) (here : caller.point = .reading) (now : Nat) (next : Caller)
    (after : (go user now file caller).caller = some next) : Expected (go user now file caller) next := by
  have free : LiveFree file caller.process := by simpa [ExpectedAt, here] using expected.point
  simp only [go, here] at after ⊢
  split
  · rename_i suspected
    rw [if_pos suspected] at after
    obtain rfl := Option.some.inj after
    exact ⟨expected.operation, expected.exclusive, expected.inactive, free⟩
  · rename_i trusted
    rw [if_neg trusted] at after
    obtain rfl := Option.some.inj after
    refine ⟨expected.operation, expected.exclusive, expected.inactive, free, ?_⟩
    by_contra exclusive
    have exclusive : (file.content.getD {}).exclusive = true := by simpa using exclusive
    obtain ⟨auto, notMine⟩ := orphan_suspected inv inside (here ▸ ⟨rfl, rfl, rfl⟩) expected.inactive exclusive
    exact trusted (by simp [exclusive, auto, notMine])

theorem body_expected (inv : LockInvariant user file) (inside : file.caller = some caller)
    (expected : Expected file caller) (here : caller.point = .body desc) :
    callBody user caller desc = .opening desc ∧ LiveFree file caller.process := by
  have right := inv.point caller inside
  have due := expected.point
  rw [here] at right due
  have counted := (right.shared due.2).2
  rw [expected.inactive] at counted
  refine ⟨?_, due.1⟩
  simp [callBody, expected.operation, nonBlockingLock, due.2, expected.exclusive, counted]

theorem go_expected (inv : LockInvariant user file) (inside : file.caller = some caller)
    (expected : Expected file caller) (now : Nat) (next : Caller)
    (after : (go user now file caller).caller = some next) : Expected (go user now file caller) next := by
  have due := expected.point
  have right := inv.point caller inside
  cases here : caller.point with
  | reading => exact reading_expected inv inside expected here now next after
  | checking desc =>
      rw [here] at due
      simp only [go, here] at after ⊢
      obtain rfl := Option.some.inj after
      rw [open_live_eq]
      exact ⟨expected.operation, expected.exclusive, expected.inactive, open_live_eq file ▸ open_live_free _ due⟩
  | probing desc fp =>
      rw [here] at due right
      have taken : file.mayLock caller.process fp = true := due fp right.2
      simp only [go, here, taken, if_true] at after ⊢
      obtain rfl := Option.some.inj after
      exact ⟨expected.operation, expected.exclusive, expected.inactive, locked_free _ fp right.2⟩
  | resetting fp =>
      rw [here] at right
      simp only [go, here] at after ⊢
      obtain rfl := Option.some.inj after
      exact ⟨expected.operation, expected.exclusive, expected.inactive, unlocked_free _ fp right.1, rfl⟩
  | body desc =>
      obtain ⟨opens, free⟩ := body_expected inv inside expected here
      simp only [go, here, opens] at after ⊢
      obtain rfl := Option.some.inj after
      exact ⟨expected.operation, expected.exclusive, expected.inactive, free⟩
  | opening desc =>
      rw [here] at due
      simp only [go, here] at after ⊢
      obtain rfl := Option.some.inj after
      rw [open_live_eq]
      exact ⟨expected.operation, expected.exclusive, expected.inactive, open_live_eq file ▸ open_live_free _ due⟩
  | locking desc fd =>
      rw [here] at due right
      have taken : file.mayLock caller.process fd = true := due fd right.2
      simp only [go, here, taken, if_true] at after ⊢
      obtain rfl := Option.some.inj after
      exact ⟨expected.operation, expected.exclusive, expected.inactive, rfl⟩
  | closing desc =>
      rw [here] at due
      exact due.elim
  | removing desc =>
      rw [here] at due
      exact due.elim
  | exiting answer desc =>
      rw [here] at due
      simp only [go, here] at after ⊢
      obtain rfl := Option.some.inj after
      refine ⟨expected.operation, expected.exclusive, ?_, due⟩
      simpa [LockFile.moveTo, truncated, expected.operation] using expected.inactive
  | writing answer desc =>
      simp only [go, here] at after
      exact absurd after.symm (Option.some_ne_none _)

theorem go_answered (inside : file.caller = some caller) (inv : TakeoverInvariant user file) (now : Nat) :
    ∀ result ∈ (go user now file caller).results, result.expecting = true → result.answer = some true := by
  intro result member expecting
  obtain ⟨_, _, _, same⟩ | ⟨answer, desc, wrote, _, returned⟩ := @go_cases user file caller now
  · exact inv.answered result (same ▸ member) expecting
  · rw [returned, List.mem_append, List.mem_singleton] at member
    rcases member with old | rfl
    · exact inv.answered result old expecting
    · have due := (inv.expected caller inside expecting).point
      rwa [wrote] at due

theorem free_after_crash (crashed process : Nat) (free : LiveFree file process) : LiveFree (file.crash crashed) process := by
  intro inode live
  have before := free inode live
  by_cases released : file.lockf inode = some crashed
  · simp [LockFile.mayLock, LockFile.crash, released]
  · simpa [LockFile.mayLock, LockFile.crash, released] using before

theorem due_after_crash (crashed process : Nat) (point : Point) (due : ExpectedAt file process point) :
    ExpectedAt (file.crash crashed) process point := by
  cases point with
  | body desc => exact ⟨free_after_crash crashed process due.1, due.2⟩
  | exiting answer desc => exact due
  | writing answer desc => exact due
  | closing desc => exact due
  | removing desc => exact due
  | _ => exact free_after_crash crashed process due

theorem expected_after_crash (process : Nat) (expected : Expected file caller) : Expected (file.crash process) caller where
  operation := expected.operation
  exclusive := expected.exclusive
  inactive := active_nil_after_crash _ process _ expected.inactive
  point := due_after_crash process _ _ expected.point

theorem expects_expected (process : Nat) (request : Request) (expects : file.expects request = true)
    (free : LiveFree file process) : Expected file ⟨process, request, true, .reading⟩ := by
  simp only [LockFile.expects, Bool.and_eq_true, beq_iff_eq, List.isEmpty_iff] at expects
  exact ⟨expects.1.1.1, expects.1.1.2, expects.2, free⟩

end Going

-- A process that unlocked a lock that is not auto keeps the liveness file locked,
-- and must not be about when the lock of a dead process is due to another one.
def Unhindered (file : LockFile) : LockAction → Prop
  | .call process request => file.expects request = true → LiveFree file process
  | _ => True

instance (file : LockFile) : (action : LockAction) → Decidable (Unhindered file action)
  | .call process request => inferInstanceAs (Decidable (file.expects request = true → LiveFree file process))
  | .go _ => isTrue trivial
  | .crash _ => isTrue trivial

theorem takeover_step (user : Nat → String) (file : LockFile) (action : LockAction) (next : LockFile)
    (inv : TakeoverInvariant user file) (safe : CrashSafe file action ∧ Unhindered file action)
    (taken : lockStep user file action = some next) : TakeoverInvariant user next := by
  have base := lock_step_right user file action next inv.base safe.1 taken
  cases action with
  | call process request =>
      simp only [lockStep] at taken
      split at taken
      · obtain rfl := Option.some.inj taken
        refine ⟨base, inv.answered, fun caller same expecting => ?_⟩
        obtain rfl := Option.some.inj same
        obtain ⟨operation, exclusive, inactive, point⟩ := expects_expected process request expecting (safe.2 expecting)
        exact ⟨operation, exclusive, inactive, point⟩
      · cases taken
  | go now =>
      obtain ⟨caller, inside, rfl⟩ := Option.map_eq_some_iff.mp taken
      refine ⟨base, go_answered inside inv now, fun next after expecting => ?_⟩
      have same : next.expecting = caller.expecting := by
        obtain ⟨_, _, moved, _⟩ | ⟨_, _, _, done, _⟩ := @go_cases user file caller now
        · rw [← Option.some.inj (moved.symm.trans after)]
        · exact absurd (done.symm.trans after).symm (Option.some_ne_none _)
      exact go_expected inv.base inside (inv.expected caller inside (same ▸ expecting)) now next after
  | crash process =>
      simp only [lockStep] at taken
      split at taken
      · obtain rfl := Option.some.inj taken
        refine ⟨base, inv.answered, fun caller after expecting => ?_⟩
        obtain ⟨inside, _⟩ := caller_after_crash process after
        exact expected_after_crash process (inv.expected caller inside expecting)
      · cases taken

structure LockRight (user : Nat → String) (file : LockFile) : Prop where
  excludes : LocksExclude file
  answered : ∀ result ∈ file.results, result.expecting = true → result.answer = some true
  returns : ∀ caller, file.caller = some caller → caller.expecting = true → ∀ now, ∃ count after,
    exec (lockStep user) file (List.replicate count (.go now)) = some after ∧
      after.results = file.results ++ [⟨caller.process, caller.request, true, some true⟩]

theorem takeover_right (user : Nat → String) (file : LockFile) (inv : TakeoverInvariant user file) :
    LockRight user file where
  excludes := invariant_excludes user file inv.base
  answered := inv.answered
  returns := fun caller inside expecting now => by
    obtain ⟨count, answer, after, run, results⟩ := @call_returns user file caller now _ inside (Nat.le_refl _)
    have allowed : Along (lockStep user) (fun file action => CrashSafe file action ∧ Unhindered file action) file
        (List.replicate count (.go now)) :=
      along_of_forall _ _ _ _ fun action member state => by
        rw [List.eq_of_mem_replicate member]
        exact ⟨trivial, trivial⟩
    have kept := along_invariant _ _ _ (takeover_step user) _ _ _ inv allowed run
    have granted := kept.answered ⟨caller.process, caller.request, caller.expecting, answer⟩ (by simp [results]) expecting
    exact ⟨count, after, run, by rw [results, expecting, ← granted]⟩

theorem file_lock_right (user : Nat → String) (run : List LockAction) :
    (Along (lockStep user) CrashSafe unlockedFile run → Throughout (lockStep user) LocksExclude unlockedFile run) ∧
    (Along (lockStep user) (fun file action => CrashSafe file action ∧ Unhindered file action) unlockedFile run →
      Throughout (lockStep user) (LockRight user) unlockedFile run) := by
  constructor
  · intro safe
    exact throughout_mono _ _ _ (invariant_excludes user) _ _
      (throughout_of_along _ _ _ (lock_step_right user) run _ (unlocked_right user) safe)
  · intro safe
    have start : TakeoverInvariant user unlockedFile :=
      ⟨unlocked_right user, fun _ member => absurd member List.not_mem_nil,
        fun _ same => absurd same.symm (Option.some_ne_none _)⟩
    exact throughout_mono _ _ _ (takeover_right user) _ _
      (throughout_of_along _ _ _ (takeover_step user) run _ start safe)


def goes (count : Nat) : List LockAction := List.replicate count (.go 0)

-- Process 0 dies with an auto exclusive lock, which process 1 takes over.
def takeoverRun : List LockAction :=
  .call 0 ⟨.nonBlockingLock, true, true, ""⟩ :: goes 6 ++
    [.crash 0, .call 1 ⟨.nonBlockingLock, true, true, ""⟩] ++ goes 9

theorem takeover_of_dead_holder :
    Throughout (lockStep fun _ => "") LocksExclude unlockedFile takeoverRun ∧
      Throughout (lockStep fun _ => "") (LockRight fun _ => "") unlockedFile takeoverRun ∧
      ∃ file, exec (lockStep fun _ => "") unlockedFile takeoverRun = some file ∧ file.activeHolders = [⟨1, true, true⟩] ∧
        ⟨1, ⟨.nonBlockingLock, true, true, ""⟩, true, some true⟩ ∈ file.results :=
  ⟨(file_lock_right (fun _ => "") takeoverRun).1 (by decide), (file_lock_right (fun _ => "") takeoverRun).2 (by decide),
    _, rfl, by decide, by decide⟩

-- Process 0 holds the lock when process 1, which was refused, dies before it has
-- written the description back, and process 2 finds an empty file.
def lostRun : List LockAction :=
  .call 0 ⟨.nonBlockingLock, true, true, ""⟩ :: goes 6 ++ .call 1 ⟨.nonBlockingLock, false, true, ""⟩ :: goes 5 ++
    [.crash 1, .call 2 ⟨.nonBlockingLock, false, true, ""⟩] ++ goes 4

-- Process 1 takes the lock of the dead process 0 over, and gives it up without
-- closing the liveness file.
def hinderedRun : List LockAction :=
  .call 0 ⟨.nonBlockingLock, true, true, ""⟩ :: goes 6 ++
    [.crash 0, .call 1 ⟨.nonBlockingLock, true, false, ""⟩] ++ goes 9 ++ .call 1 ⟨.unlock, true, false, ""⟩ :: goes 4 ++
    .call 2 ⟨.nonBlockingLock, true, true, ""⟩ :: goes 6

theorem lost_description_admits_two :
    (∃ file, exec (lockStep fun _ => "") unlockedFile lostRun = some file ∧
      file.activeHolders = [⟨0, true, true⟩, ⟨2, false, true⟩] ∧ ¬ LocksExclude file) ∧
    ∃ file, exec (lockStep fun _ => "") unlockedFile hinderedRun = some file ∧ file.activeHolders = [] ∧
      ⟨2, ⟨.nonBlockingLock, true, true, ""⟩, true, none⟩ ∈ file.results ∧ ¬ LockRight (fun _ => "") file :=
  ⟨⟨_, rfl, by decide, by unfold LocksExclude; decide⟩, _, rfl, by decide, by decide, fun right =>
    absurd (right.answered ⟨2, ⟨.nonBlockingLock, true, true, ""⟩, true, none⟩ (by decide) rfl) nofun⟩

end ToolchainUtils.FileLockMachine
