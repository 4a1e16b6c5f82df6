import ToolchainUtils.Crosperf.MachineManager

set_option autoImplicit false

namespace ToolchainUtils.Crosperf.LocalMachines

open Transition

section Invariants

variable {ρ ι : Type} {imageOf : String → ι}

-- A machine is locked while a run has it, and one run at most has it.
structure Exclusive (manager : MachineManager ρ ι) : Prop where
  locked : ∀ run m, (manager.point run).machine = some m → (manager.machine m).locked = true
  unique : ∀ run other m, (manager.point run).machine = some m → (manager.point other).machine = some m → run = other

-- Checksums tell what is on the machines, and the tests run on the images of their labels.
structure RightImages (label : ρ → ImageLabel ι imageOf) (manager : MachineManager ρ ι) : Prop where
  checksums : ∀ m, ChecksumOf imageOf (manager.machine m).checksum (manager.content m)
  tests : ∀ run m, manager.point run = .imaged m → manager.content m = (label run).image

structure ImagedMachines (label : ρ → ImageLabel ι imageOf) (manager : MachineManager ρ ι) : Prop where
  exclusive : Exclusive manager
  right : RightImages label manager

-- A new manager whose runs have not started; the disks are as they are.
structure Fresh (manager : MachineManager ρ ι) : Prop where
  checksums : ∀ m, (manager.machine m).checksum = none
  idle : ∀ run, manager.point run = .idle

-- A checksum file that is read tells what is on the machine, and a machine that
-- ImageMachine fails to image is left with what its checksum says.
def TrueChecksums (locksDir : Bool) (label : ρ → ImageLabel ι imageOf) (manager : MachineManager ρ ι) : Call ρ ι → Prop
  | .tryToLockMachine run lock cat =>
      ∀ m ∈ (manager.point run).trying, manager.mayLock locksDir m lock → ChecksumOf imageOf cat (manager.content m)
  | .imageMachine run first second _ =>
      ∀ m ∈ (manager.point run).machine, manager.hasImage (label run).toLabel m = false →
        ∀ left ∈ leftUnimaged first second, ChecksumOf imageOf (manager.machine m).checksum left
  | _ => True

instance decidableTrueChecksums [DecidableEq ι] (locksDir : Bool) (label : ρ → ImageLabel ι imageOf)
    (manager : MachineManager ρ ι) : ∀ call, Decidable (TrueChecksums locksDir label manager call)
  | .tryToLockMachine run lock cat => inferInstanceAs (Decidable (∀ m ∈ (manager.point run).trying,
      manager.mayLock locksDir m lock → ChecksumOf imageOf cat (manager.content m)))
  | .imageMachine run first second _ => inferInstanceAs (Decidable (∀ m ∈ (manager.point run).machine,
      manager.hasImage (label run).toLabel m = false →
        ∀ left ∈ leftUnimaged first second, ChecksumOf imageOf (manager.machine m).checksum left))
  | .acquireMachine _ | .endRound _ _ | .removeMachine _ | .releaseMachine _ _ => isTrue trivial

theorem checksum_none (content : ι) : ChecksumOf imageOf none content := nofun

theorem fresh_imaged (label : ρ → ImageLabel ι imageOf) (manager : MachineManager ρ ι) (fresh : Fresh manager) :
    ImagedMachines label manager := by
  have nobody : ∀ run, (manager.point run).machine = none := fun run => by rw [fresh.idle run]; rfl
  refine ⟨⟨fun run m held => ?_, fun run other m held _ => ?_⟩, ⟨fun m => ?_, fun run m imaged => ?_⟩⟩
  · exact absurd held (by simp [nobody])
  · exact absurd held (by simp [nobody])
  · rw [fresh.checksums m]
    exact checksum_none _
  · exact absurd imaged (by simp [fresh.idle])

theorem try_to_lock_checksums (manager : MachineManager ρ ι) (locksDir : Bool) (m : String) (lock : Bool)
    (cat : Option String) (known : ∀ name, ChecksumOf imageOf (manager.machine name).checksum (manager.content name))
    (read : manager.mayLock locksDir m lock → ChecksumOf imageOf cat (manager.content m)) (name : String) :
    ChecksumOf imageOf ((manager.tryToLockMachine locksDir m lock cat).machine name).checksum (manager.content name) := by
  rw [MachineManager.tryToLockMachine]
  split
  · rename_i may
    by_cases same : name = m
    · subst same
      simp only [Function.update_self]
      cases cat with
      | none => exact known name
      | some out => exact read may
    · simp only [Function.update_of_ne same]
      exact known name
  · exact known name

theorem has_image_right (manager : MachineManager ρ ι) (label : ImageLabel ι imageOf) (m : String)
    (known : ChecksumOf imageOf (manager.machine m).checksum (manager.content m))
    (has : manager.hasImage label.toLabel m = true) : manager.content m = label.image := by
  obtain ⟨named, same⟩ : truthy label.checksum = true ∧ (manager.machine m).checksum = label.checksum := by
    simpa [MachineManager.hasImage] using has
  obtain ⟨c, isSome, nonempty⟩ : ∃ c, label.checksum = some c ∧ c ≠ "" := by
    simpa [truthy, Option.any_eq_true] using named
  rw [known c (same.trans isSome) nonempty, label.checksumOf c isSome nonempty]

variable [DecidableEq ρ]

-- The run that gives up its machine was the only one that had it.
theorem given_up (manager next : MachineManager ρ ι) (run : ρ) (point : Point) (m : String) (exclusive : Exclusive manager)
    (points : next.point = Function.update manager.point run point) (held : (manager.point run).machine = some m)
    (gone : point.machine = none) (other : ρ) (name : String) (has : (next.point other).machine = some name) :
    (manager.point other).machine = some name ∧ name ≠ m := by
  rw [points] at has
  by_cases own : other = run
  · rw [own, Function.update_self, gone] at has
    exact absurd has nofun
  · rw [Function.update_of_ne own] at has
    exact ⟨has, fun same => own (exclusive.unique other run m (same ▸ has) held)⟩

theorem exclusive_step (label : ρ → ImageLabel ι imageOf) (locksDir : Bool) (manager : MachineManager ρ ι)
    (call : Call ρ ι) (next : MachineManager ρ ι) (exclusive : Exclusive manager)
    (taken : step label locksDir manager call = some next) : Exclusive next := by
  obtain ⟨run, point, points, move⟩ := step_moves label locksDir manager call next taken
  have mine : next.point run = point := by rw [points, Function.update_self]
  have elsewhere : ∀ other, other ≠ run → next.point other = manager.point other := fun other apart => by
    rw [points, Function.update_of_ne apart]
  cases move with
  | kept same locks =>
      have before : ∀ other m, (next.point other).machine = some m → (manager.point other).machine = some m := by
        intro other m held
        by_cases own : other = run
        · subst own
          exact same.symm.trans (mine ▸ held)
        · exact elsewhere other own ▸ held
      exact ⟨fun other m held => (locks m).trans (exclusive.locked other m (before other m held)),
        fun first second m held has => exclusive.unique first second m (before first m held) (before second m has)⟩
  | taken m holds empty free locks =>
      have nobody : ∀ other, (manager.point other).machine ≠ some m := fun other has =>
        absurd (exclusive.locked other m has) (by simp [free])
      have before : ∀ other name, (next.point other).machine = some name →
          other = run ∧ name = m ∨ other ≠ run ∧ name ≠ m ∧ (manager.point other).machine = some name := by
        intro other name held
        by_cases own : other = run
        · subst own
          exact .inl ⟨rfl, Option.some.inj ((mine ▸ held).symm.trans holds)⟩
        · have had := elsewhere other own ▸ held
          exact .inr ⟨own, fun same => nobody other (same ▸ had), had⟩
      constructor
      · intro other name held
        obtain ⟨_, rfl⟩ | ⟨_, apart, had⟩ := before other name held
        · rw [locks, if_pos rfl]
        · rw [locks, if_neg apart]
          exact exclusive.locked other name had
      · intro first second name held has
        obtain ⟨own, same⟩ | ⟨_, apart, had⟩ := before first name held
        · obtain ⟨also, _⟩ | ⟨_, apart, _⟩ := before second name has
          · exact own.trans also.symm
          · exact absurd same apart
        · obtain ⟨_, same⟩ | ⟨_, _, having⟩ := before second name has
          · exact absurd same apart
          · exact exclusive.unique first second name had having
  | released m now called held gone listed locks =>
      have before := given_up manager next run point m exclusive points held gone
      constructor
      · intro other name has
        obtain ⟨had, apart⟩ := before other name has
        rw [locks, if_neg apart]
        exact exclusive.locked other name had
      · exact fun first second name has having =>
          exclusive.unique first second name (before first name has).1 (before second name having).1
  | left m now called held gone missed locks =>
      have before := given_up manager next run point m exclusive points held gone
      exact ⟨fun other name has => (locks name).trans (exclusive.locked other name (before other name has).1),
        fun first second name has having =>
          exclusive.unique first second name (before first name has).1 (before second name having).1⟩

theorem right_images_moved (label : ρ → ImageLabel ι imageOf) (manager next : MachineManager ρ ι) (run : ρ) (point : Point)
    (right : RightImages label manager) (points : next.point = Function.update manager.point run point)
    (checksums : ∀ m, ChecksumOf imageOf (next.machine m).checksum (next.content m))
    (own : ∀ m, point = .imaged m → next.content m = (label run).image)
    (others : ∀ other m, other ≠ run → manager.point other = .imaged m → next.content m = manager.content m) :
    RightImages label next := by
  refine ⟨checksums, fun other m imaged => ?_⟩
  rw [points] at imaged
  by_cases same : other = run
  · rw [same, Function.update_self] at imaged
    rw [same]
    exact own m imaged
  · rw [Function.update_of_ne same] at imaged
    rw [others other m same imaged]
    exact right.tests other m imaged

-- A step that leaves the disks and the checksums alone, and starts no test.
theorem right_images_kept (label : ρ → ImageLabel ι imageOf) (manager next : MachineManager ρ ι) (run : ρ) (point : Point)
    (right : RightImages label manager) (points : next.point = Function.update manager.point run point)
    (checksums : ∀ m, (next.machine m).checksum = (manager.machine m).checksum)
    (content : next.content = manager.content) (notImaged : ∀ m, point ≠ .imaged m) : RightImages label next := by
  refine right_images_moved label manager next run point right points (fun m => ?_) (fun m imaged => ?_) (fun _ m _ _ => ?_)
  · rw [checksums m, content]
    exact right.checksums m
  · exact absurd imaged (notImaged m)
  · rw [content]

theorem acquire_machine_right (label : ρ → ImageLabel ι imageOf) (manager : MachineManager ρ ι) (run : ρ)
    (right : RightImages label manager) : RightImages label (manager.acquireMachine (label run).toLabel run) := by
  rw [MachineManager.acquireMachine]
  split
  · exact right_images_kept label manager _ run _ right rfl (fun _ => rfl) rfl fun _ imaged => by cases imaged
  · exact right

theorem end_round_right (label : ρ → ImageLabel ι imageOf) (manager : MachineManager ρ ι) (run : ρ)
    (now : String → Int × Int) (right : RightImages label manager) :
    RightImages label (manager.endRound (label run).toLabel run now) := by
  have times := choose_machine_only_times manager (label run).toLabel now
  rw [MachineManager.endRound]
  split
  · dsimp only
    split
    · exact right_images_kept label manager _ run _ right rfl (fun _ => rfl) rfl fun _ imaged => by cases imaged
    · exact right_images_kept label manager _ run _ right rfl (fun _ => rfl) rfl fun _ imaged => by cases imaged
  · dsimp only
    split
    · exact right_images_kept label manager _ run _ right rfl (fun m => (times m).1) rfl fun _ imaged => by cases imaged
    · rename_i taken chosen
      refine right_images_kept label manager _ run _ right rfl (fun m => ?_) rfl fun _ imaged => by cases imaged
      by_cases same : m = taken
      · subst same
        simp only [Function.update_self]
        exact (times m).1
      · simp only [Function.update_of_ne same]
        exact (times m).1

theorem image_machine_right (label : ρ → ImageLabel ι imageOf) (manager : MachineManager ρ ι) (run : ρ) (m : String)
    (first second : DoImage ι) (version : Option String) (kept : ImagedMachines label manager)
    (held : (manager.point run).machine = some m)
    (left : manager.hasImage (label run).toLabel m = false →
      ∀ content ∈ leftUnimaged first second, ChecksumOf imageOf (manager.machine m).checksum content) :
    let image := manager.imageMachine (label run) m first second version
    RightImages label (image.1.moveTo run (if image.2 then .imaged m else .acquired m)) := by
  have others : ∀ other name, other ≠ run → manager.point other = .imaged name → name ≠ m := fun other name apart imaged same =>
    apart (kept.exclusive.unique other run m (by rw [imaged, same]; rfl) held)
  obtain ⟨has, done⟩ | ⟨content, lacks, tried, done⟩ | ⟨versions, returned, done⟩ :=
    image_machine_cases manager (label run) m first second version
  · simp only [done, if_true]
    refine right_images_moved label manager _ run _ kept.right rfl kept.right.checksums (fun name same => ?_) fun _ _ _ _ => rfl
    obtain rfl : m = name := by simpa using same
    exact has_image_right manager (label run) m (kept.right.checksums m) has
  · simp only [done, Bool.false_eq_true, if_false]
    refine right_images_moved label manager _ run _ kept.right rfl (fun name => ?_) (fun _ imaged => by cases imaged)
      (fun other name apart imaged => ?_)
    · by_cases same : name = m
      · subst same
        simpa only [MachineManager.moveTo, Function.update_self] using left lacks content tried
      · simpa only [MachineManager.moveTo, Function.update_of_ne same] using kept.right.checksums name
    · exact Function.update_of_ne (others other name apart imaged) _ _
  · simp only [done]
    refine right_images_moved label manager _ run _ kept.right rfl (fun name => ?_) (fun name same => ?_)
      (fun other name apart imaged => Function.update_of_ne (others other name apart imaged) _ _)
    · by_cases same : name = m
      · subst same
        simpa only [MachineManager.moveTo, Function.update_self] using (label run).checksumOf
      · simpa only [MachineManager.moveTo, Function.update_of_ne same] using kept.right.checksums name
    · cases returned with
      | true =>
          obtain rfl : m = name := Point.imaged.inj same
          exact Function.update_self _ _ _
      | false => cases same

theorem remove_machine_right (label : ρ → ImageLabel ι imageOf) (manager : MachineManager ρ ι) (run : ρ) (m : String)
    (right : RightImages label manager) : RightImages label (manager.removeMachine run m) :=
  right_images_kept label manager _ run _ right rfl (fun _ => rfl) rfl nofun

theorem release_machine_right (label : ρ → ImageLabel ι imageOf) (manager : MachineManager ρ ι) (run : ρ) (m : String)
    (now : Int) (right : RightImages label manager) : RightImages label (manager.releaseMachine run m now) := by
  rw [MachineManager.releaseMachine]
  split
  · refine right_images_kept label manager _ run .idle right rfl (fun name => ?_) rfl fun _ imaged => by cases imaged
    by_cases same : name = m
    · subst same
      simp only [MachineManager.setMachine, Function.update_self]
    · simp only [MachineManager.setMachine, MachineManager.moveTo, Function.update_of_ne same]
  · exact right_images_kept label manager _ run .idle right rfl (fun _ => rfl) rfl fun _ imaged => by cases imaged

theorem imaged_machines_step (label : ρ → ImageLabel ι imageOf) (locksDir : Bool) (manager : MachineManager ρ ι)
    (call : Call ρ ι) (next : MachineManager ρ ι) (kept : ImagedMachines label manager)
    (allowed : TrueChecksums locksDir label manager call) (taken : step label locksDir manager call = some next) :
    ImagedMachines label next := by
  refine ⟨exclusive_step label locksDir manager call next kept.exclusive taken, ?_⟩
  cases call with
  | acquireMachine run =>
      simp only [step] at taken
      split at taken
      · exact Option.some.inj taken ▸ acquire_machine_right label manager run kept.right
      · cases taken
  | tryToLockMachine run lock cat =>
      obtain ⟨m, rest, waiting, rfl⟩ := try_step_cases label locksDir manager next run lock cat taken
      obtain ⟨points, content⟩ := try_to_lock_point manager locksDir m lock cat
      have moved : ((manager.tryToLockMachine locksDir m lock cat).moveTo run (.locking rest)).point =
          Function.update manager.point run (.locking rest) := by rw [← points]; rfl
      have read := allowed m (by rw [waiting]; rfl)
      refine right_images_moved label manager _ run _ kept.right moved (fun name => ?_) (fun _ imaged => by cases imaged)
        (fun _ name _ _ => congrFun content name)
      have known := try_to_lock_checksums manager locksDir m lock cat kept.right.checksums read name
      rwa [← congrFun content name] at known
  | endRound run now =>
      simp only [step] at taken
      split at taken
      · exact Option.some.inj taken ▸ end_round_right label manager run now kept.right
      · cases taken
  | imageMachine run first second version =>
      obtain ⟨m, held, rfl⟩ := image_step_cases label locksDir manager next run first second version taken
      exact image_machine_right label manager run m first second version kept held (allowed m held)
  | removeMachine run =>
      simp only [step] at taken
      split at taken
      · rename_i m acquired
        split at taken
        · exact Option.some.inj taken ▸ remove_machine_right label manager run m kept.right
        · cases taken
      · rename_i m imaged
        split at taken
        · exact Option.some.inj taken ▸ remove_machine_right label manager run m kept.right
        · cases taken
      · cases taken
  | releaseMachine run now =>
      simp only [step] at taken
      split at taken
      · rename_i m held
        split at taken
        · exact Option.some.inj taken ▸ release_machine_right label manager run m now kept.right
        · cases taken
      · cases taken

-- Any other call leaves a checksum that is not that of the content.
theorem wrong_checksum_shows (label : ρ → ImageLabel ι imageOf) (locksDir : Bool) (manager : MachineManager ρ ι)
    (call : Call ρ ι) (next : MachineManager ρ ι) (taken : step label locksDir manager call = some next)
    (right : RightImages label next) : TrueChecksums locksDir label manager call := by
  cases call with
  | tryToLockMachine run lock cat =>
      obtain ⟨m, rest, waiting, rfl⟩ := try_step_cases label locksDir manager next run lock cat taken
      intro name trying may
      obtain rfl : m = name := by simpa [waiting, Point.trying] using trying
      cases cat with
      | none => exact checksum_none _
      | some out => simpa [MachineManager.tryToLockMachine, MachineManager.moveTo, may] using right.checksums m
  | imageMachine run first second version =>
      obtain ⟨m, held, rfl⟩ := image_step_cases label locksDir manager next run first second version taken
      intro name has lacks left tried
      obtain rfl : m = name := Option.some.inj (held.symm.trans has)
      have left_ : leftUnimaged first second = some left := tried
      simpa [MachineManager.imageMachine, MachineManager.moveTo, lacks, left_] using right.checksums m
  | acquireMachine _ => trivial
  | endRound _ _ => trivial
  | removeMachine _ => trivial
  | releaseMachine _ _ => trivial

theorem right_images_iff (label : ρ → ImageLabel ι imageOf) (locksDir : Bool) (start finish : MachineManager ρ ι)
    (calls : List (Call ρ ι)) (fresh : Fresh start) (run : exec (step label locksDir) start calls = some finish) :
    Throughout (step label locksDir) (RightImages label) start calls ↔
      Along (step label locksDir) (TrueChecksums locksDir label) start calls :=
  throughout_iff_along (step label locksDir) (TrueChecksums locksDir label) (ImagedMachines label) (RightImages label)
    (imaged_machines_step label locksDir) (fun _ kept => kept.right)
    (fun manager call next _ taken right => wrong_checksum_shows label locksDir manager call next taken right)
    calls start finish (fresh_imaged label start fresh) run

end Invariants

theorem own_checksum (name : String) : ChecksumOf id (some name) name := fun _ same _ => Option.some.inj same

-- Images that are their own checksums; the second of the three runs has another label.
def ownLabel (name : String) : ImageLabel String id where
  name := name
  remote := ["lumpy"]
  checksum := some name
  image := name
  checksumOf := own_checksum name

def twoLabels (run : Nat) : ImageLabel String id := if run = 1 then ownLabel "new" else ownLabel "old"

def oneMachine : MachineManager Nat String where
  allMachines := ["lumpy"]
  machines := []
  machine _ := { checksum := none, locked := false, releasedTime := 0, testRun := none }
  acquireTimeout := 0
  numReimages := 0
  chromeVersion _ := "45.0"
  lockOwner := none
  content _ := "factory"
  point _ := .idle

def acquireCalls (run : Nat) (now : Int) : List (Call Nat String) :=
  [.acquireMachine run, .tryToLockMachine run true none, .endRound run fun _ => (now, now)]

-- Both tries of the second run fail, and the third run gets the machine.
def passedOn (left : String) : List (Call Nat String) :=
  acquireCalls 0 0 ++ [.imageMachine 0 .succeeds .succeeds none, .releaseMachine 0 0] ++
    acquireCalls 1 (seconds 10) ++ [.imageMachine 1 (.fails left) (.fails left) none, .releaseMachine 1 (seconds 10)] ++
    acquireCalls 2 (seconds 20) ++ [.imageMachine 2 .succeeds .succeeds none]

theorem one_machine_fresh : Fresh oneMachine := ⟨fun _ => rfl, fun _ => rfl⟩

theorem untouched_machine_is_right :
    Throughout (step twoLabels true) (RightImages twoLabels) oneMachine (passedOn "old") ∧
      ∃ manager, exec (step twoLabels true) oneMachine (passedOn "old") = some manager ∧
        manager.point 2 = .imaged "lumpy" ∧ manager.content "lumpy" = "old" :=
  ⟨(right_images_iff twoLabels true oneMachine _ (passedOn "old") one_machine_fresh rfl).mpr (by decide),
    _, rfl, by decide, by decide⟩

theorem test_runs_on_half_image :
    Fresh oneMachine ∧ ∃ manager, exec (step twoLabels true) oneMachine (passedOn "half") = some manager ∧
      manager.point 2 = .imaged "lumpy" ∧ manager.content "lumpy" = "half" ∧
      (manager.machine "lumpy").checksum = some "old" ∧ (twoLabels 2).image = "old" ∧ ¬ RightImages twoLabels manager :=
  ⟨one_machine_fresh, _, rfl, by decide, by decide, by decide, rfl, fun right =>
    absurd (right.tests 2 "lumpy" (by decide)) (by decide)⟩

end ToolchainUtils.Crosperf.LocalMachines
