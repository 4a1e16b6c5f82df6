import ToolchainUtils.Crosperf.InitialAllocation

set_option autoImplicit false

namespace ToolchainUtils.Crosperf

variable {labels duts : Nat}

-- allocate without a scheduler.
def MachineImageManager.allocateAlone (manager : MachineImageManager labels duts) (j : Fin duts) :
    MachineImageManager labels duts × Option (Fin labels) :=
  manager.allocate j fun _ => none

-- The calls are listed with their answers, the last one first.
structure Handout (labels duts : Nat) where
  manager : MachineImageManager labels duts
  answers : List (Fin duts × Option (Fin labels))

def Handout.call (handout : Handout labels duts) (j : Fin duts) : Handout labels duts where
  manager := (handout.manager.allocateAlone j).1
  answers := (j, (handout.manager.allocateAlone j).2) :: handout.answers

def MachineImageManager.handOut (manager : MachineImageManager labels duts) (calls : List (Fin duts)) : Handout labels duts :=
  calls.foldl Handout.call { manager := manager, answers := [] }

-- The pairs that were returned, in the order of the calls.
def Handout.returned (handout : Handout labels duts) : List (Fin labels × Fin duts) :=
  (handout.answers.reverse).filterMap fun answer => answer.2.map fun i => (i, answer.1)

theorem call_returned (handout : Handout labels duts) (j : Fin duts) :
    (handout.call j).returned = handout.returned ++ ((handout.manager.allocateAlone j).2.map fun i => (i, j)).toList := by
  rw [Handout.returned, Handout.call, List.reverse_cons, List.filterMap_append, ← Handout.returned]
  cases answered : (handout.manager.allocateAlone j).2 <;> simp

theorem consider_alone (manager : MachineImageManager labels duts) (j : Fin duts) (candidate : Option (Candidate labels))
    (i : Fin labels) :
    (manager.matrix i j = .allotted ∧ manager.considerLabel j none candidate i = .take) ∨
      (manager.matrix i j = .blank ∧ ∃ offer : Candidate labels, (offer.label = i ∨ candidate = some offer) ∧
        manager.considerLabel j none candidate i = .goOn (some offer)) ∨
        (manager.matrix i j ≠ .allotted ∧ manager.matrix i j ≠ .blank ∧
          manager.considerLabel j none candidate i = .goOn candidate) := by
  unfold MachineImageManager.considerLabel
  cases cell : manager.matrix i j with
  | allotted => exact .inl ⟨rfl, rfl⟩
  | blank =>
      refine .inr (.inl ⟨rfl, ?_⟩)
      cases candidate with
      | none => exact ⟨_, .inl rfl, rfl⟩
      | some best =>
          rw [if_neg nofun]
          dsimp only
          split
          · exact ⟨_, .inl rfl, rfl⟩
          · exact ⟨best, .inr rfl, rfl⟩
  | incompatible => exact .inr (.inr ⟨nofun, nofun, rfl⟩)
  | taken => exact .inr (.inr ⟨nofun, nofun, rfl⟩)

-- The scan of a column: a 'Y' ends it, else the best of the blank cells is kept.
theorem allocate_from_alone (manager : MachineImageManager labels duts) (j : Fin duts) (candidate : Option (Candidate labels))
    (rows : List (Fin labels)) (kept : ∀ best, candidate = some best → manager.matrix best.label j = .blank) :
    (∃ i, manager.allocateFrom j (fun _ => none) candidate rows = (manager.recordAllocate i j, some i) ∧
      (manager.matrix i j = .allotted ∨ manager.matrix i j = .blank ∧ ∀ row ∈ rows, manager.matrix row j ≠ .allotted)) ∨
      (manager.allocateFrom j (fun _ => none) candidate rows = (manager, none) ∧ candidate = none ∧
        ∀ row ∈ rows, manager.matrix row j ≠ .allotted ∧ manager.matrix row j ≠ .blank) := by
  induction rows generalizing candidate with
  | nil =>
      cases candidate with
      | none => exact .inr ⟨rfl, rfl, nofun⟩
      | some best => exact .inl ⟨best.label, rfl, .inr ⟨kept best rfl, nofun⟩⟩
  | cons i rest ih =>
      rcases consider_alone manager j candidate i with ⟨marked, take⟩ | ⟨blank, offer, origin, next⟩ | ⟨unmarked, unblank, next⟩
      · exact .inl ⟨i, by rw [MachineImageManager.allocateFrom, take], .inl marked⟩
      · have blank_offer : ∀ best, some offer = some best → manager.matrix best.label j = .blank := by
          intro best same
          obtain rfl := Option.some.inj same
          rcases origin with same | same
          · rw [same, blank]
          · exact kept offer same
        rw [MachineImageManager.allocateFrom, next]
        rcases ih (some offer) blank_offer with ⟨chosen, given, cell⟩ | ⟨_, absent, _⟩
        · refine .inl ⟨chosen, given, cell.imp_right fun ⟨clear, later⟩ => ⟨clear, ?_⟩⟩
          exact List.forall_mem_cons.mpr ⟨by simp [blank], later⟩
        · cases absent
      · rw [MachineImageManager.allocateFrom, next]
        rcases ih candidate kept with ⟨chosen, given, cell⟩ | ⟨given, empty, none_left⟩
        · refine .inl ⟨chosen, given, cell.imp_right fun ⟨clear, later⟩ => ⟨clear, ?_⟩⟩
          exact List.forall_mem_cons.mpr ⟨unmarked, later⟩
        · exact .inr ⟨given, empty, List.forall_mem_cons.mpr ⟨⟨unmarked, unblank⟩, none_left⟩⟩

theorem allocate_alone (manager : MachineImageManager labels duts) (j : Fin duts) :
    (∃ i, manager.allocateAlone j = (manager.recordAllocate i j, some i) ∧
      (manager.matrix i j = .allotted ∨ manager.matrix i j = .blank ∧ ∀ row, manager.matrix row j ≠ .allotted)) ∨
      (manager.allocateAlone j = (manager, none) ∧ ∀ row, manager.matrix row j ≠ .allotted ∧ manager.matrix row j ≠ .blank) := by
  rcases allocate_from_alone manager j none (List.finRange labels) nofun with ⟨i, given, cell⟩ | ⟨given, _, none_left⟩
  · refine .inl ⟨i, given, cell.imp_right fun ⟨clear, rows⟩ => ⟨clear, fun row => rows row (List.mem_finRange row)⟩⟩
  · exact .inr ⟨given, fun row => none_left row (List.mem_finRange row)⟩

-- The matrix, the log and the lists of the labels tell the same of what was returned.
structure HandedOut (before : Fin labels → Fin duts → Cell) (handout : Handout labels duts) : Prop where
  crossed : ∀ i j, handout.manager.matrix i j = .incompatible ↔ before i j = .incompatible
  marked : ∀ i j, handout.manager.matrix i j = .taken ↔ (i, j) ∈ handout.returned
  logged : handout.manager.allocateLog = handout.returned
  listed : ∀ i, handout.manager.labelDuts i = (handout.returned.filter fun pair => pair.1 = i).map Prod.snd
  once : handout.returned.Nodup
  exhausted : ∀ j, (j, none) ∈ handout.answers → ∀ i, handout.manager.matrix i j = .taken ∨ handout.manager.matrix i j = .incompatible

theorem record_allocate_same (manager : MachineImageManager labels duts) (i : Fin labels) (j : Fin duts) :
    (manager.recordAllocate i j).matrix i j = .taken :=
  set_cell_same manager.matrix i j .taken

theorem record_allocate_other (manager : MachineImageManager labels duts) (i row : Fin labels) (j column : Fin duts)
    (apart : ¬ (row = i ∧ column = j)) : (manager.recordAllocate i j).matrix row column = manager.matrix row column :=
  set_cell_other manager.matrix i row j column .taken (not_and_or.mp apart)

theorem given_handed_out (before : Fin labels → Fin duts → Cell) (handout : Handout labels duts) (i : Fin labels)
    (j : Fin duts) (inv : HandedOut before handout) (given : handout.manager.allocateAlone j = (handout.manager.recordAllocate i j, some i))
    (untaken : handout.manager.matrix i j ≠ .taken) (uncrossed : handout.manager.matrix i j ≠ .incompatible) :
    HandedOut before (handout.call j) := by
  have returned := call_returned handout j
  have manager : (handout.call j).manager = handout.manager.recordAllocate i j := by rw [Handout.call, given]
  have answers : (handout.call j).answers = (j, some i) :: handout.answers := by rw [Handout.call, given]
  have new_pair : (i, j) ∉ handout.returned := fun member => untaken ((inv.marked i j).mpr member)
  have same := record_allocate_same handout.manager i j
  have other := record_allocate_other handout.manager i
  simp only [given, Option.map_some, Option.toList_some] at returned
  refine ⟨fun row column => ?_, fun row column => ?_, ?_, fun row => ?_, ?_, fun column refused row => ?_⟩
  · rw [manager]
    by_cases here : row = i ∧ column = j
    · obtain ⟨rfl, rfl⟩ := here
      rw [same, ← inv.crossed]
      exact iff_of_false nofun uncrossed
    · rw [other row j column here]
      exact inv.crossed row column
  · rw [manager, returned]
    by_cases here : row = i ∧ column = j
    · obtain ⟨rfl, rfl⟩ := here
      simp [same]
    · rw [other row j column here, inv.marked row column]
      simp [here]
  · rw [manager, returned, ← inv.logged]
    rfl
  · rw [manager, returned]
    by_cases here : row = i
    · subst here
      simp [MachineImageManager.recordAllocate, inv.listed]
    · simp [MachineImageManager.recordAllocate, inv.listed, here, Ne.symm here]
  · rw [returned, ← List.concat_eq_append]
    exact inv.once.concat new_pair
  · have earlier : (column, none) ∈ handout.answers := by simpa [answers] using refused
    rw [manager]
    by_cases here : row = i ∧ column = j
    · obtain ⟨rfl, rfl⟩ := here
      exact .inl same
    · rw [other row j column here]
      exact inv.exhausted column earlier row

theorem refused_handed_out (before : Fin labels → Fin duts → Cell) (handout : Handout labels duts) (j : Fin duts)
    (inv : HandedOut before handout) (refused : handout.manager.allocateAlone j = (handout.manager, none))
    (none_left : ∀ row, handout.manager.matrix row j ≠ .allotted ∧ handout.manager.matrix row j ≠ .blank) :
    HandedOut before (handout.call j) := by
  have manager : (handout.call j).manager = handout.manager := by rw [Handout.call, refused]
  have answers : (handout.call j).answers = (j, none) :: handout.answers := by rw [Handout.call, refused]
  have same : (handout.call j).returned = handout.returned := by rw [call_returned, refused]; simp
  obtain ⟨crossed, marked, logged, listed, once, exhausted⟩ := inv
  rw [← manager, ← same] at marked logged listed
  rw [← manager] at crossed exhausted none_left
  rw [← same] at once
  refine ⟨crossed, marked, logged, listed, once, fun column absent row => ?_⟩
  rw [answers] at absent
  rcases List.mem_cons.mp absent with now | earlier
  · obtain ⟨rfl, _⟩ := Prod.mk.inj now
    have cell := none_left row
    cases here : (handout.call column).manager.matrix row column with
    | blank => exact absurd here cell.2
    | allotted => exact absurd here cell.1
    | taken => exact .inl rfl
    | incompatible => exact .inr rfl
  · exact exhausted column earlier row

theorem call_handed_out (before : Fin labels → Fin duts → Cell) (handout : Handout labels duts) (j : Fin duts)
    (inv : HandedOut before handout) : HandedOut before (handout.call j) := by
  rcases allocate_alone handout.manager j with ⟨i, given, cell⟩ | ⟨refused, none_left⟩
  · have untaken : handout.manager.matrix i j ≠ .taken := by
      rcases cell with allotted | ⟨blank, _⟩
      · simp [allotted]
      · simp [blank]
    have uncrossed : handout.manager.matrix i j ≠ .incompatible := by
      rcases cell with allotted | ⟨blank, _⟩
      · simp [allotted]
      · simp [blank]
    exact given_handed_out before handout i j inv given untaken uncrossed
  · exact refused_handed_out before handout j inv refused none_left

theorem calls_handed_out (before : Fin labels → Fin duts → Cell) (handout : Handout labels duts) (calls : List (Fin duts))
    (inv : HandedOut before handout) : HandedOut before (calls.foldl Handout.call handout) := by
  induction calls generalizing handout with
  | nil => exact inv
  | cons j rest ih => exact ih _ (call_handed_out before handout j inv)

theorem compute_initial_allocation_lists (manager : MachineImageManager labels duts) :
    manager.computeInitialAllocation.1.labelDuts = manager.labelDuts ∧
      manager.computeInitialAllocation.1.allocateLog = manager.allocateLog := by
  unfold MachineImageManager.computeInitialAllocation
  split
  · exact ⟨rfl, rfl⟩
  · exact ⟨rfl, rfl⟩

-- Whatever compute_initial_allocation answered, nothing is handed out after it.
theorem initial_handed_out (manager : MachineImageManager labels duts) (fresh : manager.Fresh) :
    HandedOut manager.matrix { manager := manager.computeInitialAllocation.1, answers := [] } := by
  have marks := compute_initial_allocation_marks manager
  obtain ⟨lists, log⟩ := compute_initial_allocation_lists manager
  refine ⟨fun i j => (marks i j).1, fun i j => ?_, ?_, fun i => ?_, List.nodup_nil, nofun⟩
  · refine iff_of_false (fun mark => ?_) List.not_mem_nil
    rcases fresh.unmarked i j with blank | crossed
    · rw [(marks i j).2 mark] at blank
      cases blank
    · rw [(marks i j).2 mark] at crossed
      cases crossed
  · rw [log, fresh.unlogged]
    rfl
  · rw [lists, fresh.unimaged]
    rfl

-- What a run of calls has handed out, and what the next call answers.
structure HandsOutAll (compatible : Fin labels → Fin duts → Prop) (handout : Handout labels duts) : Prop where
  no_pair_twice : handout.returned.Nodup
  fitting : ∀ i j, (i, j) ∈ handout.returned → compatible i j
  refuses : ∀ j, (handout.manager.allocateAlone j).2 = none ↔ ∀ i, compatible i j → (i, j) ∈ handout.returned
  marks_first : ∀ j i, (handout.manager.allocateAlone j).2 = some i →
    (∃ row, handout.manager.matrix row j = .allotted) → handout.manager.matrix i j = .allotted
  log : handout.manager.allocateLog.Nodup ∧
    ∀ i j, (i, j) ∈ handout.manager.allocateLog ↔ handout.manager.matrix i j = .taken
  lists : (∀ i, (handout.manager.labelDuts i).Nodup) ∧
    ∀ i j, j ∈ handout.manager.labelDuts i ↔ handout.manager.matrix i j = .taken
  all_taken : (∀ j, (j, none) ∈ handout.answers) → ∀ i j, compatible i j → handout.manager.matrix i j = .taken

theorem handed_out_lists (before : Fin labels → Fin duts → Cell) (handout : Handout labels duts)
    (inv : HandedOut before handout) (i : Fin labels) :
    (handout.manager.labelDuts i).Nodup ∧ ∀ j, j ∈ handout.manager.labelDuts i ↔ (i, j) ∈ handout.returned := by
  rw [inv.listed i]
  refine ⟨(inv.once.filter _).map_on ?_, fun j => by simp⟩
  rintro ⟨row, j⟩ member ⟨other, column⟩ listed same
  have first : row = i := by simpa using (List.mem_filter.mp member).2
  have second : other = i := by simpa using (List.mem_filter.mp listed).2
  exact Prod.ext (first.trans second.symm) same

theorem handed_out_hands_out_all (before : Fin labels → Fin duts → Cell) (handout : Handout labels duts)
    (inv : HandedOut before handout) : HandsOutAll (fun i j => before i j ≠ .incompatible) handout := by
  have lists := handed_out_lists before handout inv
  refine ⟨inv.once, fun i j member crossed => ?_, fun j => ?_, fun j i answered marked => ?_, ?_, ?_, fun refused i j fits => ?_⟩
  · have mark := (inv.marked i j).mpr member
    rw [(inv.crossed i j).mpr crossed] at mark
    cases mark
  · rcases allocate_alone handout.manager j with ⟨i, given, cell⟩ | ⟨refused, none_left⟩
    · rw [given]
      refine iff_of_false nofun fun all => ?_
      rcases cell with allotted | ⟨blank, _⟩
      · have mark := (inv.marked i j).mpr (all i fun crossed => by simp [(inv.crossed i j).mpr crossed] at allotted)
        simp [mark] at allotted
      · have mark := (inv.marked i j).mpr (all i fun crossed => by simp [(inv.crossed i j).mpr crossed] at blank)
        simp [mark] at blank
    · rw [refused]
      refine iff_of_true rfl fun i fits => (inv.marked i j).mp ?_
      have uncrossed := mt (inv.crossed i j).mp fits
      have cell := none_left i
      cases here : handout.manager.matrix i j with
      | blank => exact absurd here cell.2
      | allotted => exact absurd here cell.1
      | taken => rfl
      | incompatible => exact absurd here uncrossed
  · rcases allocate_alone handout.manager j with ⟨chosen, given, cell⟩ | ⟨refused, _⟩
    · rw [given] at answered
      obtain rfl := Option.some.inj answered
      obtain ⟨row, mark⟩ := marked
      exact cell.resolve_right fun clear => clear.2 row mark
    · rw [refused] at answered
      cases answered
  · rw [inv.logged]
    exact ⟨inv.once, fun i j => (inv.marked i j).symm⟩
  · exact ⟨fun i => (lists i).1, fun i j => ((lists i).2 j).trans (inv.marked i j).symm⟩
  · exact (inv.exhausted j (refused j) i).resolve_right (mt (inv.crossed i j).mp fits)

theorem every_pairing_is_handed_out_once (manager : MachineImageManager labels duts) (fresh : manager.Fresh)
    (calls : List (Fin duts)) :
    HandsOutAll (fun i j => manager.matrix i j ≠ .incompatible) (manager.computeInitialAllocation.1.handOut calls) :=
  handed_out_hands_out_all _ _ (calls_handed_out _ _ calls (initial_handed_out manager fresh))

theorem shared_dut_is_handed_out :
    HandsOutAll (fun i j => sharedDut.matrix i j ≠ .incompatible) (sharedDut.computeInitialAllocation.1.handOut [0, 1, 0, 0]) :=
  every_pairing_is_handed_out_once sharedDut ⟨by decide, by decide, rfl⟩ [0, 1, 0, 0]

end ToolchainUtils.Crosperf
