import AtomaInfer.Scheduler.Conservation

/-!
The metadata of a scheduled batch. Building it writes the access times of the blocks and nothing
else.
-/

namespace AtomaInfer

namespace BlockSpaceManager

/--
Only the access times of the blocks differ.
-/
def SameButAccess (manager manager' : BlockSpaceManager) : Prop :=
  ∃ blocks, manager' = { manager with blocks }
    ∧ ∀ block, (blocks block).refCount = (manager.blocks block).refCount

theorem SameButAccess.refl (manager : BlockSpaceManager) : manager.SameButAccess manager :=
  ⟨manager.blocks, rfl, fun _ => rfl⟩

theorem SameButAccess.trans {manager manager' manager'' : BlockSpaceManager}
    (h : manager.SameButAccess manager') (h' : manager'.SameButAccess manager'')
    : manager.SameButAccess manager'' := by
  rcases h with ⟨blocks, rfl, hblocks⟩
  rcases h' with ⟨blocks', rfl, hblocks'⟩
  refine ⟨blocks', rfl, fun block => ?_⟩
  rw [hblocks' block]
  exact hblocks block

theorem refCount_foldl_setLastAccessed (blockTable : BlockTable) (accessTime : Nat)
    (blocks : BlockHeap) (block : SyncPhysicalTokenBlock)
    : (blockTable.foldl
          (fun blocks block =>
            Function.update blocks block ((blocks block).setLastAccessed accessTime))
          blocks block).refCount = (blocks block).refCount := by
  induction blockTable generalizing blocks with
  | nil => rfl
  | cons b blockTable ih =>
    rw [List.foldl_cons, ih]
    by_cases hb : block = b
    . subst hb
      simp [PhysicalTokenBlock.setLastAccessed]
    . simp [hb]

theorem sameButAccess_accessAllBlocksInSequence (manager : BlockSpaceManager)
    (sequenceId accessTime : Nat)
    : manager.SameButAccess (manager.accessAllBlocksInSequence sequenceId accessTime) := by
  unfold accessAllBlocksInSequence
  split
  . exact .refl manager
  . exact ⟨_, rfl, refCount_foldl_setLastAccessed _ _ _⟩

end BlockSpaceManager

namespace Scheduler

def SameButAccess (scheduler scheduler' : Scheduler) : Prop :=
  ∃ blockManager, scheduler' = { scheduler with memory.blockManager := blockManager }
    ∧ scheduler.memory.blockManager.SameButAccess blockManager

variable {scheduler scheduler' scheduler'' : Scheduler}

theorem SameButAccess.refl (scheduler : Scheduler) : scheduler.SameButAccess scheduler :=
  ⟨scheduler.memory.blockManager, rfl, .refl _⟩

theorem SameButAccess.trans (h : scheduler.SameButAccess scheduler')
    (h' : scheduler'.SameButAccess scheduler'') : scheduler.SameButAccess scheduler'' := by
  rcases h with ⟨manager, rfl, hmanager⟩
  rcases h' with ⟨manager', rfl, hmanager'⟩
  exact ⟨manager', rfl, hmanager.trans hmanager'⟩

theorem SameButAccess.lookup (h : scheduler.SameButAccess scheduler') (sequenceId : Nat)
    : scheduler'.memory.blockManager.blockTables.lookup sequenceId
        = scheduler.memory.blockManager.blockTables.lookup sequenceId := by
  rcases h with ⟨manager, rfl, ⟨blocks, rfl, -⟩⟩
  rfl

theorem SameButAccess.sequences (h : scheduler.SameButAccess scheduler')
    : scheduler'.memory.sequences = scheduler.memory.sequences := by
  rcases h with ⟨manager, rfl, -⟩
  rfl

theorem collectSequences_sameButAccess (scheduler : Scheduler) (now : Nat) (group : SequenceGroup)
    : scheduler.SameButAccess (scheduler.collectSequences now group).2.2 := by
  unfold collectSequences
  apply List.foldlRecOn (motive := fun
    (acc : AList (fun _ : Nat => SequenceData) × AList (fun _ : Nat => List Nat) × Scheduler) =>
      scheduler.SameButAccess acc.2.2) _ _ (.refl scheduler)
  rintro ⟨sequenceData, blockTables, current⟩ hacc seq -
  dsimp only
  split
  . exact hacc
  . exact hacc.trans ⟨_, rfl, BlockSpaceManager.sameButAccess_accessAllBlocksInSequence _ _ _⟩

variable {now : Nat} {scheduled : ScheduledSequenceGroup} {metadata : SequenceGroupMetadata}

theorem groupMetadata_sameButAccess
    (h : scheduler.groupMetadata now scheduled = .ok (metadata, scheduler'))
    : scheduler.SameButAccess scheduler' := by
  simp only [groupMetadata, Except.bind_eq_ok] at h
  rcases h with ⟨doSample, -, hpure⟩
  have hcollect :=
    collectSequences_sameButAccess scheduler now scheduled.scheduledGroup
  cases hpure
  exact hcollect

/--
`metadata` is the metadata of `scheduled` in the state of `scheduler`, up to access times.
-/
def HasMetadata (scheduler : Scheduler) (now : Nat) (scheduled : ScheduledSequenceGroup)
    (metadata : SequenceGroupMetadata) : Prop :=
  ∃ current next, scheduler.SameButAccess current
    ∧ current.groupMetadata now scheduled = .ok (metadata, next)

theorem groupsMetadata_cons {rest : List ScheduledSequenceGroup}
    {allMetadata : List SequenceGroupMetadata} {acc : List SequenceGroupMetadata}
    (h : (scheduled :: rest).foldlM
        (fun (acc : List SequenceGroupMetadata × Scheduler) scheduled => do
          let (groupMetadata, scheduler) ← groupMetadata acc.2 now scheduled
          return (acc.1 ++ [groupMetadata], scheduler))
        (acc, scheduler) = .ok (allMetadata, scheduler''))
    : ∃ metadata scheduler',
        scheduler.groupMetadata now scheduled = .ok (metadata, scheduler')
          ∧ rest.foldlM
              (fun (acc : List SequenceGroupMetadata × Scheduler) scheduled => do
                let (groupMetadata, scheduler) ← groupMetadata acc.2 now scheduled
                return (acc.1 ++ [groupMetadata], scheduler))
              (acc ++ [metadata], scheduler') = .ok (allMetadata, scheduler'') := by
  rw [List.foldlM_cons] at h
  rcases Except.bind_eq_ok.mp h with ⟨acc', hstep, h⟩
  rcases Except.bind_eq_ok.mp hstep with ⟨⟨metadata, scheduler'⟩, hmetadata, hpure⟩
  cases hpure
  exact ⟨metadata, scheduler', hmetadata, h⟩

theorem groupsMetadata_eq_ok {scheduledGroups : List ScheduledSequenceGroup}
    {allMetadata : List SequenceGroupMetadata}
    (h : scheduler.groupsMetadata now scheduledGroups = .ok (allMetadata, scheduler'))
    : scheduler.SameButAccess scheduler'
        ∧ List.Forall₂ (scheduler.HasMetadata now) scheduledGroups allMetadata := by
  suffices ∀ (current : Scheduler) (acc : List SequenceGroupMetadata),
      scheduler.SameButAccess current →
      scheduledGroups.foldlM
        (fun (acc : List SequenceGroupMetadata × Scheduler) scheduled => do
          let (groupMetadata, scheduler) ← groupMetadata acc.2 now scheduled
          return (acc.1 ++ [groupMetadata], scheduler))
        (acc, current) = .ok (allMetadata, scheduler') →
      scheduler.SameButAccess scheduler'
        ∧ ∃ rest, allMetadata = acc ++ rest
            ∧ List.Forall₂ (scheduler.HasMetadata now) scheduledGroups rest by
    rcases this scheduler [] (.refl scheduler) h with ⟨hsame, rest, rfl, hrest⟩
    exact ⟨hsame, hrest⟩
  clear h
  induction scheduledGroups with
  | nil =>
    intro current acc hcurrent h
    cases h
    exact ⟨hcurrent, [], by simp, .nil⟩
  | cons scheduled rest ih =>
    intro current acc hcurrent h
    rcases groupsMetadata_cons h with ⟨metadata, next, hmetadata, h⟩
    have hnext := hcurrent.trans (groupMetadata_sameButAccess hmetadata)
    rcases ih next (acc ++ [metadata]) hnext h with ⟨hsame, rest', rfl, hrest⟩
    refine ⟨hsame, metadata :: rest', by simp, .cons ?_ hrest⟩
    exact ⟨current, next, hcurrent, hmetadata⟩

theorem schedule_eq_ok {instants : Instants} {allMetadata : List SequenceGroupMetadata}
    {outputs : SchedulerOutputs}
    (h : scheduler.schedule instants = .ok (allMetadata, outputs, scheduler'))
    : ∃ passed,
        scheduler.schedulePolicy instants = .ok (outputs, passed)
          ∧ passed.SameButAccess scheduler'
          ∧ List.Forall₂ (passed.HasMetadata instants.schedule) outputs.scheduledSequenceGroups
              allMetadata := by
  simp only [schedule, Except.bind_eq_ok] at h
  rcases h with ⟨⟨outputs', passed⟩, hpolicy, ⟨allMetadata', final⟩, hmetadata, hpure⟩
  cases hpure
  have hsame := groupsMetadata_eq_ok hmetadata
  exact ⟨passed, hpolicy, hsame.1, hsame.2⟩

/--
A pass adds no group to the queues.
-/
theorem groups_subperm_of_schedule {instants : Instants}
    {allMetadata : List SequenceGroupMetadata} {outputs : SchedulerOutputs}
    (h : scheduler.schedule instants = .ok (allMetadata, outputs, scheduler'))
    : scheduler'.groups.Subperm scheduler.groups := by
  rcases schedule_eq_ok h with ⟨passed, hpolicy, ⟨manager, rfl, -⟩, -⟩
  change passed.groups.Subperm scheduler.groups
  unfold schedulePolicy at hpolicy
  split at hpolicy
  . rcases scheduleChunkedPrefill_eq_ok hpolicy with ⟨vars, -, hpasses, -⟩
    have hperm := scheduleChunkedPrefill_groups_perm hpolicy hpasses
    rw [List.append_assoc] at hperm
    exact (List.sublist_append_left _ _).subperm.trans hperm.subperm
  . have hperm := scheduleDefault_groups_perm hpolicy
    exact (List.sublist_append_left _ _).subperm.trans hperm.subperm

/--
The groups of a batch were in the queues.
-/
theorem scheduled_subperm_of_schedule {instants : Instants}
    {allMetadata : List SequenceGroupMetadata} {outputs : SchedulerOutputs}
    (h : scheduler.schedule instants = .ok (allMetadata, outputs, scheduler'))
    : (groupsOf outputs.scheduledSequenceGroups).Subperm scheduler.groups := by
  rcases schedule_eq_ok h with ⟨passed, hpolicy, -, -⟩
  unfold schedulePolicy at hpolicy
  split at hpolicy
  . rcases scheduleChunkedPrefill_eq_ok hpolicy with ⟨vars, -, hpasses, -, -, -, rfl⟩
    refine List.Subperm.trans ?_ (chunkedPasses_groups_perm hpasses).subperm
    rw [List.subperm_iff_count]
    intro group
    simp only [PolicyVars.outputs, PolicyVars.groups, groupsOf_append, List.count_append]
    omega
  . rcases scheduleDefault_eq_ok hpolicy with ⟨vars, -, hpasses, -, -, -, -, -, rfl⟩
    refine List.Subperm.trans ?_ (defaultPasses_groups_perm hpasses).subperm
    rw [List.subperm_iff_count]
    intro group
    simp only [PolicyVars.outputs, PolicyVars.groups, groupsOf_append, List.count_append]
    omega

theorem groups_addSequenceGroup_perm (scheduler : Scheduler) (group : SequenceGroup)
    : (scheduler.addSequenceGroup group).groups.Perm (group :: scheduler.groups) := by
  rw [List.perm_iff_count]
  intro a
  simp [groups, addSequenceGroup, List.count_cons]
  omega

theorem groups_removeFinishedSequences (scheduler : Scheduler)
    : scheduler.removeFinishedSequences.groups.Sublist scheduler.groups := by
  unfold removeFinishedSequences groups
  dsimp only
  exact ((List.Sublist.refl _).append List.filter_sublist).append (List.Sublist.refl _)

end Scheduler

end AtomaInfer
