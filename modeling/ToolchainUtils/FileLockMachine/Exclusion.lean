import ToolchainUtils.FileLockMachine.LockFile

set_option autoImplicit false

namespace ToolchainUtils.FileLockMachine

open Transition

def Point.rewriting : Point → Bool
  | .writing _ _ => true
  | _ => false

-- The unlock has closed the liveness file, or will return True without it.
def Point.releasing : Point → Bool
  | .removing _ => true
  | .exiting (some true) _ => true
  | _ => false

def Point.granting : Point → Bool
  | .exiting (some true) _ => true
  | .writing (some true) _ => true
  | _ => false

-- No lock changes hands at the point.
structure Point.Quiet (point : Point) : Prop where
  keeping : point.releasing = false
  taking : point.granting = false
  reading : point.rewriting = false

-- What the lock file should say about the holders.
structure Agrees (user : Nat → String) (alive : Nat → Bool) (holders : List Holder) (desc : LockDescription) : Prop where
  exclusive : desc.exclusive = true → ∃ holder, holders = [holder] ∧ holder.exclusive = true ∧
    desc.auto = holder.auto ∧ desc.owner = user holder.process ∧ desc.counter = 0
  shared : desc.exclusive = false → (∀ holder ∈ activeOf alive holders, holder.exclusive = false) ∧
    desc.counter = (activeOf alive holders).length

def Releasing (file : LockFile) (process : Nat) : Prop :=
  ∃ caller, file.caller = some caller ∧ caller.process = process ∧ caller.request.operation = .unlock ∧
    caller.point.releasing = true

def Granting (file : LockFile) (process : Nat) : Prop :=
  ∃ caller, file.caller = some caller ∧ caller.process = process ∧ caller.request.operation = .nonBlockingLock ∧
    caller.point.granting = true

structure Suspects (content : Option LockDescription) (opened : List Nat) (desc : LockDescription) : Prop where
  read : desc = content.getD {}
  exclusive : desc.exclusive = true
  auto : desc.auto = true
  notMine : opened = []

structure MayTake (user : Nat → String) (alive : Nat → Bool) (holders : List Holder) (request : Request)
    (desc : LockDescription) : Prop where
  operation : request.operation = .nonBlockingLock
  exclusive : request.exclusive = true
  unlocked : desc.exclusive = false ∧ desc.counter = 0
  agrees : Agrees user alive holders desc

-- What is written agrees with the holders there will be.
structure Concludes (user : Nat → String) (alive : Nat → Bool) (opened : List Nat) (holders : List Holder)
    (process : Nat) (request : Request) (answer : Option Bool) (desc : LockDescription) : Prop where
  agrees : Agrees user alive (written alive holders process request answer) desc
  shared : request.operation = .nonBlockingLock → answer = some true →
    ∀ holder ∈ activeOf alive holders, holder.exclusive = false
  alone : request.operation = .nonBlockingLock → answer = some true → request.exclusive = true →
    activeOf alive holders = [] ∧ opened ≠ []

def PointRight (user : Nat → String) (file : LockFile) (process : Nat) (request : Request) : Point → Prop
  | .reading => True
  | .checking desc => Suspects file.content (file.fileOps process) desc
  | .probing desc fp => Suspects file.content (file.fileOps process) desc ∧ file.liveness = some fp
  | .resetting fp => file.liveness = some fp ∧ file.lockf fp = some process ∧ file.fileOps process = [] ∧
      activeOf file.alive file.holders = []
  | .body desc => Agrees user file.alive file.holders desc
  | .opening desc => MayTake user file.alive file.holders request desc
  | .locking desc fd => MayTake user file.alive file.holders request desc ∧ file.liveness = some fd
  | .closing desc => request.operation = .unlock ∧ file.fileOps process ≠ [] ∧
      Agrees user file.alive (truncated file.holders process request (some true)) desc
  | .removing desc => request.operation = .unlock ∧ (∀ other, file.fileOps other = []) ∧
      file.liveness.isSome = true ∧ Agrees user file.alive (truncated file.holders process request (some true)) desc
  | .exiting answer desc => Concludes user file.alive (file.fileOps process)
      (truncated file.holders process request answer) process request answer desc
  | .writing answer desc => Concludes user file.alive (file.fileOps process) file.holders process request answer desc ∧
      file.content = none

structure LockInvariant (user : Nat → String) (file : LockFile) : Prop where
  alone : ∀ holder ∈ file.holders, holder.exclusive = true → file.holders = [holder]
  locked : ∀ process, file.fileOps process ≠ [] →
    ∃ inode, file.liveness = some inode ∧ file.lockf inode = some process
  held : ∀ holder ∈ file.holders, holder.exclusive = true → file.alive holder.process = true →
    file.fileOps holder.process ≠ [] ∨ Releasing file holder.process
  others : ∀ holder ∈ file.holders, holder.exclusive = true → ∀ process, process ≠ holder.process →
    file.fileOps process ≠ [] → Granting file process
  content : (∀ caller, file.caller = some caller → caller.point.rewriting = false) →
    Agrees user file.alive file.holders (file.content.getD {})
  living : ∀ caller, file.caller = some caller → file.alive caller.process = true
  mine : ∀ caller, file.caller = some caller → caller.request.operation = .unlock → caller.point.rewriting = false →
    ∃ holder ∈ file.holders, holder.process = caller.process ∧ holder.exclusive = caller.request.exclusive
  point : ∀ caller, file.caller = some caller → PointRight user file caller.process caller.request caller.point

theorem alive_is_active (alive : Nat → Bool) (holders : List Holder) (holder : Holder) (member : holder ∈ holders)
    (living : alive holder.process = true) : holder ∈ activeOf alive holders := by
  simp [activeOf, isStale, member, living]

theorem active_nil_iff (alive : Nat → Bool) (holders : List Holder) :
    activeOf alive holders = [] ↔ ∀ holder ∈ holders, isStale alive holder = true := by
  simp [activeOf, List.filter_eq_nil_iff]

theorem stale_is_exclusive (alive : Nat → Bool) (holder : Holder) (stale : isStale alive holder = true) :
    holder.exclusive = true ∧ holder.auto = true ∧ alive holder.process = false := by
  simpa [isStale, and_assoc] using stale

theorem stale_after_crash (alive : Nat → Bool) (process : Nat) (holder : Holder) (stale : isStale alive holder = true) :
    isStale (Function.update alive process false) holder = true := by
  obtain ⟨exclusive, auto, dead⟩ := stale_is_exclusive alive holder stale
  by_cases same : holder.process = process
  · simp [isStale, exclusive, auto, same]
  · simp [isStale, exclusive, auto, same, dead]

theorem active_nil_after_crash (alive : Nat → Bool) (process : Nat) (holders : List Holder)
    (none : activeOf alive holders = []) : activeOf (Function.update alive process false) holders = [] := by
  rw [active_nil_iff] at none ⊢
  exact fun holder member => stale_after_crash alive process holder (none holder member)

-- Shared locks outlive their processes.
theorem active_after_crash (alive : Nat → Bool) (process : Nat) (holders : List Holder)
    (shared : ∀ holder ∈ activeOf alive holders, holder.exclusive = false) :
    activeOf (Function.update alive process false) holders = activeOf alive holders := by
  refine List.filter_congr fun holder member => ?_
  cases stale : isStale alive holder with
  | true => rw [stale_after_crash alive process holder stale]
  | false =>
      have active : holder ∈ activeOf alive holders := by simp [activeOf, member, stale]
      simp [isStale, shared holder active]

theorem agrees_after_crash (user : Nat → String) (alive : Nat → Bool) (process : Nat) (holders : List Holder)
    (desc : LockDescription) (agrees : Agrees user alive holders desc) :
    Agrees user (Function.update alive process false) holders desc := by
  refine ⟨agrees.exclusive, fun free => ?_⟩
  obtain ⟨shared, counted⟩ := agrees.shared free
  rw [active_after_crash alive process holders shared]
  exact ⟨shared, counted⟩

theorem agrees_of_inactive (user : Nat → String) (alive : Nat → Bool) (holders : List Holder)
    (none : activeOf alive holders = []) : Agrees user alive holders {} := by
  refine ⟨fun exclusive => by simp at exclusive, fun _ => ?_⟩
  simp [none]

theorem unlocked_is_inactive (user : Nat → String) (alive : Nat → Bool) (holders : List Holder) (desc : LockDescription)
    (agrees : Agrees user alive holders desc) (unlocked : desc.exclusive = false ∧ desc.counter = 0) :
    activeOf alive holders = [] := by
  have counted := (agrees.shared unlocked.1).2
  exact List.eq_nil_of_length_eq_zero (by omega)

theorem active_length_after_erase (alive : Nat → Bool) (matching : Holder → Bool) (holders : List Holder)
    (active : ∀ holder, matching holder = true → isStale alive holder = false)
    (found : ∃ holder ∈ holders, matching holder = true) :
    (activeOf alive (holders.eraseP matching)).length + 1 = (activeOf alive holders).length := by
  obtain ⟨holder, member, matched⟩ := found
  obtain ⟨first, before, later, _, same, split, erased⟩ := List.exists_of_eraseP member matched
  rw [erased, split]
  simp only [activeOf, List.filter_append, List.filter_cons, active first same, Bool.not_false, if_true, List.length_append,
    List.length_cons]
  omega

section Moves

variable {user : Nat → String} {file : LockFile} {caller : Caller} {desc : LockDescription} {fp : Nat}

theorem not_releasing (inside : file.caller = some caller) (before : caller.point.releasing = false) (process : Nat) :
    ¬ Releasing file process := by
  rintro ⟨other, same, _, _, releasing⟩
  rw [Option.some.inj (same.symm.trans inside), before] at releasing
  exact Bool.false_ne_true releasing

theorem not_granting (inside : file.caller = some caller) (before : caller.point.granting = false) (process : Nat) :
    ¬ Granting file process := by
  rintro ⟨other, same, _, _, granting⟩
  rw [Option.some.inj (same.symm.trans inside), before] at granting
  exact Bool.false_ne_true granting

theorem point_right_moved {process : Nat} {request : Request} {point next : Point} :
    PointRight user (file.moveTo caller next) process request point ↔ PointRight user file process request point := by
  cases point <;> exact Iff.rfl

-- A step before the locks change hands, that may touch the liveness file.
theorem moved_right (inv : LockInvariant user file) (inside : file.caller = some caller)
    (quiet : caller.point.Quiet) (point : Point)
    (liveness : Option Nat) (inodes : Nat) (lockf : Nat → Option Nat)
    (locked : ∀ process, file.fileOps process ≠ [] → ∃ inode, liveness = some inode ∧ lockf inode = some process)
    (right : PointRight user { file with liveness := liveness, inodes := inodes, lockf := lockf } caller.process
      caller.request point) :
    LockInvariant user (LockFile.moveTo { file with liveness := liveness, inodes := inodes, lockf := lockf } caller point) where
  alone := inv.alone
  locked := locked
  held := fun holder member exclusive living =>
    (inv.held holder member exclusive living).imp id fun releasing => absurd releasing (not_releasing inside quiet.keeping _)
  others := fun holder member exclusive process other opened =>
    absurd (inv.others holder member exclusive process other opened) (not_granting inside quiet.taking _)
  content := fun _ => inv.content fun _ same => Option.some.inj (inside.symm.trans same) ▸ quiet.reading
  living := fun _ same => Option.some.inj same ▸ inv.living caller inside
  mine := fun _ same => Option.some.inj same ▸ fun unlocking _ => inv.mine caller inside unlocking quiet.reading
  point := fun _ same => Option.some.inj same ▸ point_right_moved.mpr right

theorem open_live_eq (file : LockFile) : file.openLive =
    { file with liveness := some file.liveInode, inodes := file.openLive.inodes, lockf := file.openLive.lockf } := by
  obtain ⟨content, liveness, inodes, lockf, alive, fileOps, caller, holders, orphaned, results⟩ := file
  cases liveness <;> rfl

theorem open_live_locked (inv : LockInvariant user file) (process : Nat) (opened : file.fileOps process ≠ []) :
    ∃ inode, some file.liveInode = some inode ∧ file.openLive.lockf inode = some process := by
  obtain ⟨inode, live, locked⟩ := inv.locked process opened
  exact ⟨inode, by simp [LockFile.liveInode, live], by simpa [LockFile.openLive, live] using locked⟩

theorem inactive_of_taken (inv : LockInvariant user file) (inside : file.caller = some caller)
    (quiet : caller.point.Quiet) (suspects : Suspects file.content (file.fileOps caller.process) desc) (live : file.liveness = some fp)
    (taken : file.mayLock caller.process fp = true) :
    activeOf file.alive file.holders = [] := by
  have agrees := inv.content fun other same => Option.some.inj (inside.symm.trans same) ▸ quiet.reading
  rw [← suspects.read] at agrees
  obtain ⟨holder, only, exclusive, auto, _, _⟩ := agrees.exclusive suspects.exclusive
  have dead : file.alive holder.process = false := by
    by_contra living
    have opened := (inv.held holder (by simp [only]) exclusive (by simpa using living)).resolve_right
      (not_releasing inside quiet.keeping _)
    obtain ⟨inode, same, locked⟩ := inv.locked holder.process opened
    have inodes : inode = fp := Option.some.inj (same.symm.trans live)
    have mine : holder.process = caller.process := by simpa [LockFile.mayLock, ← inodes, locked] using taken
    exact opened (mine ▸ suspects.notMine)
  simp [activeOf, only, isStale, exclusive, ← auto, suspects.auto, dead]

theorem only_opener (inv : LockInvariant user file) (live : file.liveness = some fp)
    (locked : file.lockf fp = some caller.process) (process : Nat) (opened : file.fileOps process ≠ []) :
    process = caller.process := by
  obtain ⟨inode, same, holds⟩ := inv.locked process opened
  rw [Option.some.inj (same.symm.trans live), locked] at holds
  exact (Option.some.inj holds).symm

theorem locked_after_lock (inv : LockInvariant user file) (live : file.liveness = some fp)
    (taken : file.mayLock caller.process fp = true) (process : Nat) (opened : file.fileOps process ≠ []) :
    process = caller.process := by
  obtain ⟨inode, same, holds⟩ := inv.locked process opened
  rw [Option.some.inj (same.symm.trans live)] at holds
  simpa [LockFile.mayLock, holds] using taken

theorem reading_right (inv : LockInvariant user file) (inside : file.caller = some caller)
    (here : caller.point = .reading) (now : Nat) : LockInvariant user (go user now file caller) := by
  simp only [go, here]
  split
  · rename_i suspected
    simp only [Bool.and_eq_true, List.isEmpty_iff] at suspected
    exact moved_right inv inside (here ▸ ⟨rfl, rfl, rfl⟩) _ _ _ _ inv.locked ⟨rfl, suspected.1.1, suspected.1.2, suspected.2⟩
  · exact moved_right inv inside (here ▸ ⟨rfl, rfl, rfl⟩) _ _ _ _ inv.locked
      (inv.content fun other same => by rw [← Option.some.inj (inside.symm.trans same), here]; rfl)

theorem checking_right (inv : LockInvariant user file) (inside : file.caller = some caller)
    (here : caller.point = .checking desc) (now : Nat) : LockInvariant user (go user now file caller) := by
  have suspects : Suspects file.content (file.fileOps caller.process) desc := by simpa [PointRight, here] using inv.point caller inside
  simp only [go, here]
  rw [open_live_eq]
  exact moved_right inv inside (here ▸ ⟨rfl, rfl, rfl⟩) _ _ _ _ (open_live_locked inv)
    ⟨⟨suspects.read, suspects.exclusive, suspects.auto, suspects.notMine⟩, rfl⟩

theorem probing_right (inv : LockInvariant user file) (inside : file.caller = some caller)
    (here : caller.point = .probing desc fp) (now : Nat) : LockInvariant user (go user now file caller) := by
  have right : Suspects file.content (file.fileOps caller.process) desc ∧ file.liveness = some fp := by
    simpa [PointRight, here] using inv.point caller inside
  obtain ⟨suspects, live⟩ := right
  have quiet : caller.point.Quiet := here ▸ ⟨rfl, rfl, rfl⟩
  simp only [go, here]
  split
  · rename_i taken
    have nobody : ∀ process, file.fileOps process = [] := fun process => by
      by_contra opened
      exact opened (locked_after_lock inv live taken process opened ▸ suspects.notMine)
    have inactive := inactive_of_taken inv inside quiet suspects live taken
    exact moved_right inv inside quiet _ _ _ _ (fun process opened => absurd (nobody process) opened)
      ⟨live, by simp, suspects.notMine, inactive⟩
  · refine moved_right inv inside quiet _ _ _ _ inv.locked ?_
    have agrees := inv.content fun other same => Option.some.inj (inside.symm.trans same) ▸ quiet.reading
    exact suspects.read ▸ agrees

theorem resetting_right (inv : LockInvariant user file) (inside : file.caller = some caller)
    (here : caller.point = .resetting fp) (now : Nat) : LockInvariant user (go user now file caller) := by
  have right : file.liveness = some fp ∧ file.lockf fp = some caller.process ∧
      file.fileOps caller.process = [] ∧ activeOf file.alive file.holders = [] := by
    simpa [PointRight, here] using inv.point caller inside
  obtain ⟨live, locked, notMine, inactive⟩ := right
  simp only [go, here]
  exact moved_right inv inside (here ▸ ⟨rfl, rfl, rfl⟩) _ _ _ _
    (fun process opened => absurd (only_opener inv live locked process opened ▸ notMine) opened)
    (agrees_of_inactive user file.alive file.holders inactive)

theorem refused_concludes (agrees : Agrees user file.alive file.holders desc) (answer : Option Bool)
    (refused : answer ≠ some true) :
    Concludes user file.alive (file.fileOps caller.process) (truncated file.holders caller.process caller.request answer)
      caller.process caller.request answer desc := by
  refine ⟨?_, fun _ granted => absurd granted refused, fun _ granted => absurd granted refused⟩
  simpa [written, truncated, refused] using agrees

theorem released_concludes (unlocking : caller.request.operation = .unlock)
    (agrees : Agrees user file.alive (truncated file.holders caller.process caller.request (some true)) desc) :
    Concludes user file.alive (file.fileOps caller.process) (truncated file.holders caller.process caller.request (some true))
      caller.process caller.request (some true) desc := by
  refine ⟨?_, fun locking => ?_, fun locking => ?_⟩
  · simpa [written, unlocking] using agrees
  · simp [unlocking] at locking
  · simp [unlocking] at locking

theorem shared_concludes (agrees : Agrees user file.alive file.holders desc) (free : desc.exclusive = false)
    (locking : caller.request.operation = .nonBlockingLock) (shared : caller.request.exclusive = false) :
    Concludes user file.alive (file.fileOps caller.process) (truncated file.holders caller.process caller.request (some true))
      caller.process caller.request (some true)
      { desc with counter := desc.counter + 1 } := by
  obtain ⟨others, counted⟩ := agrees.shared free
  have kept : truncated file.holders caller.process caller.request (some true) = file.holders := by simp [truncated, locking]
  have mine : isStale file.alive (caller.request.holder caller.process) = false := by simp [isStale, Request.holder, shared]
  have again : activeOf file.alive (activeOf file.alive file.holders) = activeOf file.alive file.holders := by
    simp [activeOf]
  have active : activeOf file.alive (written file.alive file.holders caller.process caller.request (some true)) =
      activeOf file.alive file.holders ++ [caller.request.holder caller.process] := by
    simp only [written, locking, and_self, if_true]
    rw [activeOf, List.filter_append]
    exact congr (congrArg _ again) (by simp [mine])
  rw [kept]
  refine ⟨⟨fun exclusive => ?_, fun _ => ?_⟩, fun _ _ => others, fun _ _ exclusive => ?_⟩
  · simp [free] at exclusive
  · rw [active]
    refine ⟨fun holder member => ?_, by simp [counted]⟩
    rcases List.mem_append.mp member with old | new
    · exact others holder old
    · rw [List.mem_singleton.mp new]
      exact shared
  · simp [shared] at exclusive

theorem lock_point_right (agrees : Agrees user file.alive file.holders desc)
    (locking : caller.request.operation = .nonBlockingLock) :
    PointRight user file caller.process caller.request (nonBlockingLock caller.request desc) := by
  unfold nonBlockingLock
  split
  · exact refused_concludes agrees (some false) (by simp)
  · rename_i free
    have free : desc.exclusive = false := by simpa using free
    split
    · rename_i exclusive
      split
      · exact refused_concludes agrees (some false) (by simp)
      · rename_i zero
        exact ⟨locking, exclusive, ⟨free, by simpa using zero⟩, agrees.exclusive, agrees.shared⟩
    · rename_i shared
      exact shared_concludes agrees free locking (by simpa using shared)

theorem exclusive_released (unlocking : caller.request.operation = .unlock) (holder : Holder)
    (only : file.holders = [holder]) (mine : holder.process = caller.process)
    (same : holder.exclusive = caller.request.exclusive) (counted : desc.counter = 0) (free : desc.exclusive = false) :
    Agrees user file.alive (truncated file.holders caller.process caller.request (some true)) desc := by
  have nobody : truncated file.holders caller.process caller.request (some true) = [] := by simp [truncated, unlocking, only, mine, same]
  rw [nobody]
  exact ⟨fun exclusive => by simp [free] at exclusive, fun _ => by simp [activeOf, counted]⟩

theorem shared_released (agrees : Agrees user file.alive file.holders desc) (free : desc.exclusive = false)
    (unlocking : caller.request.operation = .unlock) (shared : caller.request.exclusive = false)
    (mine : ∃ holder ∈ file.holders, holder.process = caller.process ∧ holder.exclusive = caller.request.exclusive) :
    Agrees user file.alive (truncated file.holders caller.process caller.request (some true)) { desc with counter := desc.counter - 1 } := by
  obtain ⟨others, counted⟩ := agrees.shared free
  obtain ⟨holder, member, process, same⟩ := mine
  have length := active_length_after_erase file.alive
    (fun holder => holder.process == caller.process && holder.exclusive == caller.request.exclusive) file.holders
    (fun holder matched => by
      have notExclusive : holder.exclusive = false := by simpa [shared] using (Bool.and_eq_true_iff.mp matched).2
      simp [isStale, notExclusive])
    ⟨holder, member, by simp [process, same]⟩
  simp only [truncated, unlocking, and_self, if_true]
  refine ⟨fun exclusive => by simp [free] at exclusive, fun _ => ?_⟩
  refine ⟨fun holder left => others holder ?_, by simp only [counted]; omega⟩
  exact (List.Sublist.filter _ List.eraseP_sublist).subset left

theorem unlock_point_right (inv : LockInvariant user file) (inside : file.caller = some caller)
    (quiet : caller.point.Quiet) (agrees : Agrees user file.alive file.holders desc)
    (unlocking : caller.request.operation = .unlock) :
    PointRight user file caller.process caller.request (unlock (user caller.process) caller.request desc) := by
  obtain ⟨holder, member, mine, same⟩ := inv.mine caller inside unlocking quiet.reading
  have living : file.alive holder.process = true := mine ▸ inv.living caller inside
  have active := alive_is_active file.alive file.holders holder member living
  have agreed : desc.exclusive = caller.request.exclusive := by
    cases exclusive : desc.exclusive with
    | true =>
        obtain ⟨only, alone, isExclusive, _⟩ := agrees.exclusive exclusive
        rw [alone, List.mem_singleton] at member
        rw [← same, member, isExclusive]
    | false => rw [← same, (agrees.shared exclusive).1 holder active]
  have isLocked : desc.isLocked = true := by
    cases exclusive : desc.exclusive with
    | true => simp [LockDescription.isLocked, exclusive]
    | false =>
        have positive := List.length_pos_of_mem active
        have counted := (agrees.shared exclusive).2
        have nonzero : desc.counter ≠ 0 := by omega
        simp [LockDescription.isLocked, nonzero]
  simp only [unlock, isLocked, agreed, Bool.not_true, Bool.false_eq_true, if_false, bne_self_eq_false]
  split
  · rename_i exclusive
    obtain ⟨only, alone, isExclusive, _, owner, counted⟩ := agrees.exclusive (agreed.trans exclusive)
    rw [alone, List.mem_singleton] at member
    subst member
    rw [mine] at owner
    simp only [owner, ne_eq, not_true_eq_false, if_false]
    split
    · exact refused_concludes agrees (some false) (by simp)
    · split
      · have opened := (inv.held holder (by simp [alone]) isExclusive living).resolve_right
          (not_releasing inside quiet.keeping _)
        exact ⟨unlocking, mine ▸ opened, exclusive_released unlocking holder alone mine same counted rfl⟩
      · exact released_concludes unlocking (exclusive_released unlocking holder alone mine same counted rfl)
  · rename_i shared
    have shared : caller.request.exclusive = false := by simpa using shared
    have released := shared_released agrees (agreed.trans shared) unlocking shared
      (inv.mine caller inside unlocking quiet.reading)
    exact released_concludes unlocking (agreed ▸ released)

theorem body_right (inv : LockInvariant user file) (inside : file.caller = some caller)
    (here : caller.point = .body desc) (now : Nat) : LockInvariant user (go user now file caller) := by
  have agrees : Agrees user file.alive file.holders desc := by simpa [PointRight, here] using inv.point caller inside
  have quiet : caller.point.Quiet := here ▸ ⟨rfl, rfl, rfl⟩
  simp only [go, here]
  refine moved_right inv inside quiet _ _ _ _ inv.locked ?_
  cases operation : caller.request.operation with
  | nonBlockingLock =>
      have right := lock_point_right agrees operation
      simpa only [callBody, operation] using right
  | unlock =>
      have right := unlock_point_right inv inside quiet agrees operation
      simpa only [callBody, operation] using right

theorem opening_right (inv : LockInvariant user file) (inside : file.caller = some caller)
    (here : caller.point = .opening desc) (now : Nat) : LockInvariant user (go user now file caller) := by
  have may : MayTake user file.alive file.holders caller.request desc := by
    simpa [PointRight, here] using inv.point caller inside
  simp only [go, here]
  rw [open_live_eq]
  exact moved_right inv inside (here ▸ ⟨rfl, rfl, rfl⟩) _ _ _ _ (open_live_locked inv) ⟨may, rfl⟩

theorem taken_concludes (may : MayTake user file.alive file.holders caller.request desc) (opened : List Nat)
    (some_open : opened ≠ []) (now : Nat) :
    Concludes user file.alive opened (truncated file.holders caller.process caller.request (some true)) caller.process
      caller.request (some true) (desc.take (user caller.process) now caller.request) := by
  have inactive := unlocked_is_inactive user file.alive file.holders desc may.agrees may.unlocked
  have kept : truncated file.holders caller.process caller.request (some true) = file.holders := by
    simp [truncated, may.operation]
  have only : written file.alive file.holders caller.process caller.request (some true) =
      [caller.request.holder caller.process] := by
    simp [written, may.operation, inactive]
  rw [kept]
  refine ⟨⟨fun _ => ?_, fun free => ?_⟩, fun _ _ holder member => ?_, fun _ _ _ => ⟨inactive, some_open⟩⟩
  · exact ⟨_, only, may.exclusive, rfl, rfl, may.unlocked.2⟩
  · simp [LockDescription.take] at free
  · simp [inactive] at member

theorem locking_right (inv : LockInvariant user file) (inside : file.caller = some caller)
    (here : caller.point = .locking desc fp) (now : Nat) : LockInvariant user (go user now file caller) := by
  have right : MayTake user file.alive file.holders caller.request desc ∧ file.liveness = some fp := by
    simpa [PointRight, here] using inv.point caller inside
  obtain ⟨may, live⟩ := right
  have quiet : caller.point.Quiet := here ▸ ⟨rfl, rfl, rfl⟩
  simp only [go, here]
  split
  · rename_i taken
    have only := locked_after_lock inv live taken
    have held := fun holder member exclusive living => (inv.held holder member exclusive living).resolve_right
      (not_releasing inside quiet.keeping _)
    refine ⟨inv.alone, fun process opened => ?_, fun holder member exclusive living => Or.inl ?_,
      fun holder member exclusive process other opened => ?_, fun _ => ?_, fun next same => ?_, fun next same => ?_,
      fun next same => ?_⟩
    · refine ⟨fp, live, ?_⟩
      by_cases mine : process = caller.process
      · simp [LockFile.moveTo, LockFile.appendFileOp, LockFile.lockInode, mine]
      · have before : file.fileOps process ≠ [] := by
          simpa [LockFile.moveTo, LockFile.appendFileOp, LockFile.lockInode, mine] using opened
        exact absurd (only process before) mine
    · have before := held holder member exclusive living
      rw [only holder.process before]
      simp [LockFile.moveTo, LockFile.appendFileOp, LockFile.lockInode]
    · by_cases mine : process = caller.process
      · exact ⟨_, rfl, mine.symm, may.operation, rfl⟩
      · have before : file.fileOps process ≠ [] := by
          simpa [LockFile.moveTo, LockFile.appendFileOp, LockFile.lockInode, mine] using opened
        exact absurd (only process before) mine
    · exact inv.content fun other same => Option.some.inj (inside.symm.trans same) ▸ quiet.reading
    · exact Option.some.inj same ▸ inv.living caller inside
    · exact Option.some.inj same ▸ fun unlocking _ => inv.mine caller inside unlocking quiet.reading
    · refine Option.some.inj same ▸ taken_concludes may _ ?_ now
      simp [LockFile.moveTo, LockFile.appendFileOp, LockFile.lockInode]
  · exact moved_right inv inside quiet _ _ _ _ inv.locked (refused_concludes may.agrees none (by simp))

theorem closing_right (inv : LockInvariant user file) (inside : file.caller = some caller)
    (here : caller.point = .closing desc) (now : Nat) : LockInvariant user (go user now file caller) := by
  have right : caller.request.operation = .unlock ∧ file.fileOps caller.process ≠ [] ∧
      Agrees user file.alive (truncated file.holders caller.process caller.request (some true)) desc := by
    simpa [PointRight, here] using inv.point caller inside
  obtain ⟨unlocking, opened, released⟩ := right
  have quiet : caller.point.Quiet := here ▸ ⟨rfl, rfl, rfl⟩
  obtain ⟨inode, live, locked⟩ := inv.locked caller.process opened
  have nobody : ∀ process, Function.update file.fileOps caller.process [] process = [] := fun process => by
    by_cases mine : process = caller.process
    · simp [mine]
    · rw [Function.update_of_ne mine]
      by_contra other
      exact mine (only_opener inv live locked process other)
  simp only [go, here]
  refine ⟨inv.alone, fun process other => absurd (nobody process) other, fun holder member exclusive living => ?_,
    fun holder _ _ process _ other => absurd (nobody process) other, fun _ => ?_, fun next same => ?_, fun next same => ?_,
    fun next same => ?_⟩
  · have before := (inv.held holder member exclusive living).resolve_right (not_releasing inside quiet.keeping _)
    exact Or.inr ⟨_, rfl, (only_opener inv live locked holder.process before).symm, unlocking, rfl⟩
  · exact inv.content fun other same => Option.some.inj (inside.symm.trans same) ▸ quiet.reading
  · exact Option.some.inj same ▸ inv.living caller inside
  · exact Option.some.inj same ▸ fun unlocking _ => inv.mine caller inside unlocking quiet.reading
  · exact Option.some.inj same ▸ ⟨unlocking, nobody, by simp [LockFile.moveTo, LockFile.closeFileOps, live], released⟩

theorem removing_right (inv : LockInvariant user file) (inside : file.caller = some caller)
    (here : caller.point = .removing desc) (now : Nat) : LockInvariant user (go user now file caller) := by
  have right : caller.request.operation = .unlock ∧ (∀ process, file.fileOps process = []) ∧
      file.liveness.isSome = true ∧
      Agrees user file.alive (truncated file.holders caller.process caller.request (some true)) desc := by
    simpa [PointRight, here] using inv.point caller inside
  obtain ⟨unlocking, nobody, live, released⟩ := right
  simp only [go, here, live, if_true]
  refine ⟨inv.alone, fun process other => absurd (nobody process) other, fun holder member exclusive living => ?_,
    fun holder _ _ process _ other => absurd (nobody process) other, fun _ => ?_, fun next same => ?_, fun next same => ?_,
    fun next same => ?_⟩
  · obtain ⟨other, same, mine, _, _⟩ := (inv.held holder member exclusive living).resolve_left (not_not.mpr (nobody _))
    rw [← Option.some.inj (inside.symm.trans same)] at mine
    exact Or.inr ⟨_, rfl, mine, unlocking, rfl⟩
  · exact inv.content fun other same => by rw [← Option.some.inj (inside.symm.trans same), here]; rfl
  · exact Option.some.inj same ▸ inv.living caller inside
  · exact Option.some.inj same ▸ fun unlocking _ => inv.mine caller inside unlocking (by rw [here]; rfl)
  · exact Option.some.inj same ▸ released_concludes unlocking released

theorem truncated_subset (holders : List Holder) (process : Nat) (request : Request) (answer : Option Bool)
    (holder : Holder) (left : holder ∈ truncated holders process request answer) : holder ∈ holders := by
  unfold truncated at left
  split at left
  · exact List.mem_of_mem_eraseP left
  · exact left

theorem truncated_alone (holders : List Holder) (process : Nat) (request : Request) (answer : Option Bool)
    (holder : Holder) (only : holders = [holder]) (left : holder ∈ truncated holders process request answer) :
    truncated holders process request answer = [holder] := by
  unfold truncated at left ⊢
  split at left
  · rename_i unlocking
    rw [only] at left ⊢
    rw [if_pos unlocking]
    by_cases matched : holder.process = process ∧ holder.exclusive = request.exclusive
    · simp [matched] at left
    · simp [matched]
  · rename_i kept
    rw [if_neg kept, only]

theorem exiting_right (inv : LockInvariant user file) (inside : file.caller = some caller) (answer : Option Bool)
    (here : caller.point = .exiting answer desc) (now : Nat) : LockInvariant user (go user now file caller) := by
  have concludes := inv.point caller inside
  rw [here] at concludes
  have before : caller.point.rewriting = false := by rw [here]; rfl
  simp only [go, here]
  refine ⟨fun holder left exclusive => ?_, inv.locked, fun holder left exclusive living => ?_,
    fun holder left exclusive process other opened => ?_, fun quiet => ?_, fun next same => ?_, fun next same => ?_,
    fun next same => ?_⟩
  · exact truncated_alone _ _ _ _ holder (inv.alone holder (truncated_subset _ _ _ _ holder left) exclusive) left
  · have member := truncated_subset _ _ _ _ holder left
    refine Or.inl ((inv.held holder member exclusive living).resolve_right ?_)
    rintro ⟨other, same, mine, unlocking, releasing⟩
    obtain rfl := Option.some.inj (same.symm.trans inside)
    -- The one exclusive holder is the caller, whose lock has just been given up.
    have answered : answer = some true := by
      rw [here] at releasing
      match answer, releasing with
      | some true, _ => rfl
    have only := inv.alone holder member exclusive
    obtain ⟨found, foundMember, _, agreed⟩ := inv.mine other inside unlocking before
    rw [only, List.mem_singleton] at foundMember
    have gone : truncated file.holders other.process other.request answer = [] := by
      simp [truncated, unlocking, answered, only, mine, ← foundMember, agreed]
    rw [show (LockFile.moveTo _ other _).holders = truncated file.holders other.process other.request answer from rfl,
      gone] at left
    exact absurd left List.not_mem_nil
  · obtain ⟨granted, same, mine, locking, granting⟩ :=
      inv.others holder (truncated_subset _ _ _ _ holder left) exclusive process other opened
    obtain rfl := Option.some.inj (same.symm.trans inside)
    rw [here] at granting
    match answer, granting with
    | some true, _ => exact ⟨_, rfl, mine, locking, rfl⟩
  · exact absurd (quiet _ rfl) (by simp [Point.rewriting])
  · exact Option.some.inj same ▸ inv.living caller inside
  · exact Option.some.inj same ▸ fun _ quiet => absurd quiet (by simp [Point.rewriting])
  · exact Option.some.inj same ▸ ⟨concludes, rfl⟩

-- The file is closed, and nobody is between two operations.
theorem closed_right (inv : LockInvariant user file) (holders : List Holder) (desc : LockDescription)
    (results : List CallResult) (agrees : Agrees user file.alive holders desc)
    (alone : ∀ holder ∈ holders, holder.exclusive = true → holders = [holder])
    (held : ∀ holder ∈ holders, holder.exclusive = true → file.alive holder.process = true →
      file.fileOps holder.process ≠ [])
    (others : ∀ holder ∈ holders, holder.exclusive = true → ∀ process, process ≠ holder.process →
      file.fileOps process = []) :
    LockInvariant user
      { file with content := some desc, caller := none, holders := holders, results := results } where
  alone := alone
  locked := inv.locked
  held := fun holder member exclusive living => Or.inl (held holder member exclusive living)
  others := fun holder member exclusive process other opened =>
    absurd (others holder member exclusive process other) opened
  content := fun _ => agrees
  living := fun _ same => absurd same.symm (Option.some_ne_none _)
  mine := fun _ same => absurd same.symm (Option.some_ne_none _)
  point := fun _ same => absurd same.symm (Option.some_ne_none _)

theorem writing_right (inv : LockInvariant user file) (inside : file.caller = some caller) (answer : Option Bool)
    (here : caller.point = .writing answer desc) (now : Nat) : LockInvariant user (go user now file caller) := by
  have right := inv.point caller inside
  rw [here] at right
  obtain ⟨concludes, _⟩ := right
  have kept : ∀ holder ∈ file.holders, holder.exclusive = true → file.alive holder.process = true →
      file.fileOps holder.process ≠ [] := fun holder member exclusive living =>
    (inv.held holder member exclusive living).resolve_right (not_releasing inside (by rw [here]; rfl) _)
  simp only [go, here]
  by_cases granted : caller.request.operation = .nonBlockingLock ∧ answer = some true
  · obtain ⟨locking, answered⟩ := granted
    have taken : written file.alive file.holders caller.process caller.request answer =
        activeOf file.alive file.holders ++ [caller.request.holder caller.process] := by
      simp [written, locking, answered]
    cases exclusive : caller.request.exclusive with
    | true =>
        obtain ⟨inactive, opened⟩ := concludes.alone locking answered exclusive
        obtain ⟨inode, live, locked⟩ := inv.locked caller.process opened
        have only : ∀ holder ∈ written file.alive file.holders caller.process caller.request answer,
            holder = caller.request.holder caller.process := fun holder member => by
          rw [taken, inactive] at member
          exact List.mem_singleton.mp member
        refine closed_right inv _ _ _ concludes.agrees (fun holder member _ => ?_) (fun holder member _ _ => ?_)
          fun holder member _ process other => ?_
        · rw [taken, inactive, only holder member]
          rfl
        · rw [only holder member]
          exact opened
        · rw [only holder member] at other
          by_contra some_open
          exact other (only_opener inv live locked process some_open)
    | false =>
        have shared : ∀ holder ∈ written file.alive file.holders caller.process caller.request answer,
            ¬ holder.exclusive = true := fun holder member => by
          rw [taken, List.mem_append, List.mem_singleton] at member
          rcases member with old | rfl
          · simp [concludes.shared locking answered holder old]
          · simp [Request.holder, exclusive]
        exact closed_right inv _ _ _ concludes.agrees
          (fun holder member isExclusive => absurd isExclusive (shared holder member))
          (fun holder member isExclusive => absurd isExclusive (shared holder member))
          fun holder member isExclusive => absurd isExclusive (shared holder member)
  · have same : written file.alive file.holders caller.process caller.request answer = file.holders := by
      simp only [written, granted, if_false]
    have agrees := concludes.agrees
    rw [same] at agrees ⊢
    refine closed_right inv _ _ _ agrees inv.alone kept fun holder member exclusive process other => ?_
    by_contra opened
    obtain ⟨granting, sameCaller, _, locking, isGranting⟩ := inv.others holder member exclusive process other opened
    obtain rfl := Option.some.inj (sameCaller.symm.trans inside)
    rw [here] at isGranting
    match answer, isGranting with
    | some true, _ => exact granted ⟨locking, rfl⟩

theorem go_right (inv : LockInvariant user file) (inside : file.caller = some caller) (now : Nat) :
    LockInvariant user (go user now file caller) := by
  cases here : caller.point with
  | reading => exact reading_right inv inside here now
  | checking desc => exact checking_right inv inside here now
  | probing desc fp => exact probing_right inv inside here now
  | resetting fp => exact resetting_right inv inside here now
  | body desc => exact body_right inv inside here now
  | opening desc => exact opening_right inv inside here now
  | locking desc fd => exact locking_right inv inside here now
  | closing desc => exact closing_right inv inside here now
  | removing desc => exact removing_right inv inside here now
  | exiting answer desc => exact exiting_right inv inside answer here now
  | writing answer desc => exact writing_right inv inside answer here now

theorem call_right (inv : LockInvariant user file) (free : file.caller = none) (process : Nat) (request : Request)
    (expecting : Bool) (living : file.alive process = true) (permitted : file.permits process request = true) :
    LockInvariant user { file with caller := some ⟨process, request, expecting, .reading⟩ } := by
  refine ⟨inv.alone, inv.locked, fun holder member exclusive alive => ?_,
    fun holder member exclusive other different opened => ?_, fun _ => ?_, fun next same => ?_, fun next same => ?_,
    fun next same => ?_⟩
  · refine (inv.held holder member exclusive alive).imp id ?_
    rintro ⟨_, inside, _⟩
    exact absurd (free.symm.trans inside) nofun
  · obtain ⟨_, inside, _⟩ := inv.others holder member exclusive other different opened
    exact absurd (free.symm.trans inside) nofun
  · exact inv.content fun _ inside => absurd (free.symm.trans inside) nofun
  · exact Option.some.inj same ▸ living
  · refine Option.some.inj same ▸ fun unlocking _ => ?_
    simpa [LockFile.permits, show request.operation = .unlock from unlocking] using permitted
  · exact Option.some.inj same ▸ trivial

theorem concludes_after_crash (process : Nat) (holders : List Holder) (answer : Option Bool)
    (different : caller.process ≠ process)
    (concludes : Concludes user file.alive (file.fileOps caller.process) holders caller.process caller.request answer desc) :
    Concludes user (file.crash process).alive ((file.crash process).fileOps caller.process) holders caller.process
      caller.request answer desc := by
  have opened : (file.crash process).fileOps caller.process = file.fileOps caller.process := by
    simp [LockFile.crash, different]
  rw [opened]
  obtain ⟨agrees, shared, alone⟩ := concludes
  by_cases granted : caller.request.operation = .nonBlockingLock ∧ answer = some true
  · have same := active_after_crash file.alive process holders (shared granted.1 granted.2)
    refine ⟨?_, ?_, ?_⟩
    · rw [written, LockFile.crash, same]
      exact agrees_after_crash user file.alive process _ desc agrees
    · rw [LockFile.crash, same]
      exact shared
    · rw [LockFile.crash, same]
      exact alone
  · refine ⟨?_, fun locking answered => absurd ⟨locking, answered⟩ granted,
      fun locking answered => absurd ⟨locking, answered⟩ granted⟩
    simp only [written, granted, if_false] at agrees ⊢
    exact agrees_after_crash user file.alive process holders desc agrees

theorem point_after_crash (process : Nat) (different : caller.process ≠ process)
    (right : PointRight user file caller.process caller.request caller.point) :
    PointRight user (file.crash process) caller.process caller.request caller.point := by
  have opened : (file.crash process).fileOps caller.process = file.fileOps caller.process := by
    simp [LockFile.crash, different]
  have closed : ∀ other, file.fileOps other = [] → (file.crash process).fileOps other = [] := fun other none => by
    by_cases mine : other = process
    · simp [LockFile.crash, mine]
    · simpa [LockFile.crash, mine] using none
  cases here : caller.point with
  | reading => trivial
  | checking desc =>
      rw [here] at right
      exact ⟨right.read, right.exclusive, right.auto, opened.trans right.notMine⟩
  | probing desc fp =>
      rw [here] at right
      exact ⟨⟨right.1.read, right.1.exclusive, right.1.auto, opened.trans right.1.notMine⟩, right.2⟩
  | resetting fp =>
      rw [here] at right
      obtain ⟨live, locked, notMine, inactive⟩ := right
      exact ⟨live, by simp [LockFile.crash, locked, different], opened.trans notMine,
        active_nil_after_crash file.alive process file.holders inactive⟩
  | body desc =>
      rw [here] at right
      exact agrees_after_crash user file.alive process file.holders desc right
  | opening desc =>
      rw [here] at right
      exact ⟨right.operation, right.exclusive, right.unlocked,
        agrees_after_crash user file.alive process file.holders desc right.agrees⟩
  | locking desc fd =>
      rw [here] at right
      exact ⟨⟨right.1.operation, right.1.exclusive, right.1.unlocked,
        agrees_after_crash user file.alive process file.holders desc right.1.agrees⟩, right.2⟩
  | closing desc =>
      rw [here] at right
      obtain ⟨unlocking, some_open, released⟩ := right
      exact ⟨unlocking, by rwa [opened], agrees_after_crash user file.alive process _ desc released⟩
  | removing desc =>
      rw [here] at right
      obtain ⟨unlocking, nobody, live, released⟩ := right
      exact ⟨unlocking, fun other => closed other (nobody other), live,
        agrees_after_crash user file.alive process _ desc released⟩
  | exiting answer desc =>
      rw [here] at right
      exact concludes_after_crash process _ answer different right
  | writing answer desc =>
      rw [here] at right
      exact ⟨concludes_after_crash process _ answer different right.1, right.2⟩

theorem caller_after_crash (process : Nat) (after : (file.crash process).caller = some caller) :
    file.caller = some caller ∧ caller.process ≠ process := by
  simpa [LockFile.crash, Option.filter_eq_some_iff] using after

theorem caller_outlives (process : Nat) (inside : file.caller = some caller) (different : caller.process ≠ process) :
    (file.crash process).caller = some caller := by
  simp [LockFile.crash, inside, different]

theorem crash_right (inv : LockInvariant user file) (process : Nat)
    (safe : ∀ caller, file.caller = some caller → caller.process = process → caller.point.rewriting = true →
      file.activeHolders = []) : LockInvariant user (file.crash process) := by
  have opened : ∀ other, (file.crash process).fileOps other ≠ [] → other ≠ process ∧ file.fileOps other ≠ [] :=
    fun other some_open => by
      by_cases mine : other = process
      · simp [LockFile.crash, mine] at some_open
      · exact ⟨mine, by simpa [LockFile.crash, mine] using some_open⟩
  refine ⟨inv.alone, fun other some_open => ?_, fun holder member exclusive living => ?_,
    fun holder member exclusive other different some_open => ?_, fun quiet => ?_, fun caller after => ?_,
    fun caller after => ?_, fun caller after => ?_⟩
  · obtain ⟨different, before⟩ := opened other some_open
    obtain ⟨inode, live, locked⟩ := inv.locked other before
    exact ⟨inode, live, by simp [LockFile.crash, locked, different]⟩
  · have different : holder.process ≠ process := fun mine => by simp [LockFile.crash, mine] at living
    have before : file.alive holder.process = true := by simpa [LockFile.crash, different] using living
    refine (inv.held holder member exclusive before).imp (fun some_open => ?_) ?_
    · simpa [LockFile.crash, different] using some_open
    · rintro ⟨caller, inside, mine, facts⟩
      exact ⟨caller, caller_outlives process inside (mine ▸ different), mine, facts⟩
  · obtain ⟨notDead, before⟩ := opened other some_open
    obtain ⟨caller, inside, mine, facts⟩ := inv.others holder member exclusive other different before
    exact ⟨caller, caller_outlives process inside (mine ▸ notDead), mine, facts⟩
  · by_cases rewriting : ∃ caller, file.caller = some caller ∧ caller.point.rewriting = true
    · obtain ⟨caller, inside, isRewriting⟩ := rewriting
      by_cases mine : caller.process = process
      · -- The description is lost, which is right when there is no lock to describe.
        have right := inv.point caller inside
        have empty : file.content = none := by
          revert right isRewriting
          cases caller.point with
          | writing answer desc => exact fun _ right => right.2
          | _ => exact fun isRewriting => absurd isRewriting Bool.false_ne_true
        have inactive := active_nil_after_crash file.alive process file.holders (safe caller inside mine isRewriting)
        rw [show (file.crash process).content = none from empty]
        exact agrees_of_inactive user _ _ inactive
      · have still := quiet caller (caller_outlives process inside mine)
        exact absurd (still.symm.trans isRewriting) Bool.false_ne_true
    · refine agrees_after_crash user file.alive process file.holders _ (inv.content fun caller inside => ?_)
      by_contra isRewriting
      exact rewriting ⟨caller, inside, by simpa using isRewriting⟩
  · obtain ⟨inside, different⟩ := caller_after_crash process after
    simpa [LockFile.crash, different] using inv.living caller inside
  · obtain ⟨inside, _⟩ := caller_after_crash process after
    exact inv.mine caller inside
  · obtain ⟨inside, different⟩ := caller_after_crash process after
    exact point_after_crash process different (inv.point caller inside)

end Moves

-- A process that dies between truncate and write loses the description, so no
-- lock may be held then.
def CrashSafe (file : LockFile) : LockAction → Prop
  | .crash process => ∀ caller ∈ file.caller, caller.process = process → caller.point.rewriting = true →
      file.activeHolders = []
  | _ => True

instance (file : LockFile) : (action : LockAction) → Decidable (CrashSafe file action)
  | .call _ _ => isTrue trivial
  | .go _ => isTrue trivial
  | .crash process => inferInstanceAs (Decidable (∀ caller ∈ file.caller, caller.process = process →
      caller.point.rewriting = true → file.activeHolders = []))

-- An exclusive holder whose lock is in force is the only holder.
def LocksExclude (file : LockFile) : Prop :=
  ∀ holder ∈ file.activeHolders, holder.exclusive = true → file.activeHolders = [holder]

theorem lock_step_right (user : Nat → String) (file : LockFile) (action : LockAction) (next : LockFile)
    (inv : LockInvariant user file) (safe : CrashSafe file action) (taken : lockStep user file action = some next) : LockInvariant user next := by
  cases action with
  | call process request =>
      simp only [lockStep] at taken
      split at taken
      · rename_i ready
        simp only [Bool.and_eq_true, Option.isNone_iff_eq_none] at ready
        obtain rfl := Option.some.inj taken
        exact call_right inv ready.1.2 process request _ ready.1.1 ready.2
      · cases taken
  | go now =>
      obtain ⟨caller, inside, rfl⟩ := Option.map_eq_some_iff.mp taken
      exact go_right inv inside now
  | crash process =>
      simp only [lockStep] at taken
      split at taken
      · obtain rfl := Option.some.inj taken
        exact crash_right inv process safe
      · cases taken

theorem unlocked_right (user : Nat → String) : LockInvariant user unlockedFile where
  alone := fun _ member => absurd member List.not_mem_nil
  locked := fun _ opened => absurd rfl opened
  held := fun _ member => absurd member List.not_mem_nil
  others := fun _ member => absurd member List.not_mem_nil
  content := fun _ => agrees_of_inactive user _ _ rfl
  living := fun _ same => absurd same.symm (Option.some_ne_none _)
  mine := fun _ same => absurd same.symm (Option.some_ne_none _)
  point := fun _ same => absurd same.symm (Option.some_ne_none _)

theorem invariant_excludes (user : Nat → String) (file : LockFile) (inv : LockInvariant user file) : LocksExclude file := by
  intro holder member exclusive
  have only := inv.alone holder (List.mem_of_mem_filter member) exclusive
  unfold LockFile.activeHolders activeOf at member ⊢
  rw [only] at member ⊢
  rw [List.filter_singleton, (List.mem_filter.mp member).2]
  rfl

end ToolchainUtils.FileLockMachine
