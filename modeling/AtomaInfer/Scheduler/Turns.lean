import AtomaInfer.Scheduler.Copies

/-!
Runs of the scheduler on groups with any number of sequences. Between the calls of `schedule` there
may be any operations of the block manager.
-/

namespace AtomaInfer

namespace Memory

open BlockSpaceManager EStateM

variable {groups : List SequenceGroup} {group : SequenceGroup} {memory memory' : Memory}

/--
An operation after which there are only tables that were there before.
-/
theorem Grouped.of_lookup (h : memory.Grouped groups) {initial : BlockSpaceManager}
    (hrun : RunInvariant initial { memory := memory', groups })
    (hlookup : ∀ sequenceId blockTable,
      memory'.blockManager.blockTables.lookup sequenceId = some blockTable →
        memory.blockManager.blockTables.lookup sequenceId = some blockTable)
    : memory'.Grouped groups := by
  refine ⟨hrun.rebase, ?_⟩
  rintro owner howner block ⟨id, hid, table, hsome, hblock⟩ sequenceId blockTable hsome' hblock'
  exact h.apart owner howner block ⟨id, hid, table, hlookup id table hsome, hblock⟩ sequenceId
    blockTable (hlookup sequenceId blockTable hsome') hblock'

theorem Grouped.arrive (h : memory.Grouped groups) {heap : SequenceHeap}
    (hfresh : ((group.sequences ++ groups.flatMap (·.sequences)).map (·.sequenceId)).Nodup)
    (hheap : ∀ seq, seq ∉ group.sequences → heap seq = memory.sequences seq)
    : Grouped (group :: groups) { memory with sequences := heap } := by
  refine ⟨(h.runInvariant.arrive hfresh hheap).rebase, ?_⟩
  rintro owner howner block ⟨id, hid, table, hsome, hblock⟩ sequenceId blockTable hsome' hblock'
  rcases List.mem_cons.mp howner with rfl | howner
  . -- the identifiers of the new group are not in use
    exfalso
    have hused := h.runInvariant.mem_sequences id table hsome
    rw [List.map_append, List.nodup_append] at hfresh
    exact hfresh.2.2 id hid id hused rfl
  . exact h.apart owner howner block ⟨id, hid, table, hsome, hblock⟩ sequenceId blockTable hsome'
      hblock'

/--
The child is in the group of its parent, so the blocks of its table are shared within the group.
-/
theorem Grouped.fork {before after : List SequenceGroup} {sequences : List SequenceRef}
    {parent child : SequenceRef} {memory' : Memory}
    (h : memory.Grouped (before ++ group :: after)) (hparent : parent ∈ group.sequences)
    (hfresh : child.sequenceId
      ∉ ((before ++ group :: after).flatMap (·.sequences)).map (·.sequenceId))
    (hsequences : sequences.Perm (child :: group.sequences))
    (hlookup : ∀ id, id ≠ child.sequenceId →
      memory'.blockManager.blockTables.lookup id = memory.blockManager.blockTables.lookup id)
    (hchild : ∀ blockTable,
      memory'.blockManager.blockTables.lookup child.sequenceId = some blockTable →
        memory.blockManager.blockTables.lookup parent.sequenceId = some blockTable)
    {initial : BlockSpaceManager}
    (hrun : RunInvariant initial {
      memory := memory', groups := before ++ { group with sequences } :: after })
    : Grouped (before ++ { group with sequences } :: after) memory' := by
  have hgroup : group ∈ before ++ group :: after := by simp
  have hparentId : parent.sequenceId ∈ group.sequenceIds := SequenceGroup.mem_sequenceIds hparent
  -- every table was there before, and that of the child under the identifier of its parent
  let former : Nat → Nat := fun id => if id = child.sequenceId then parent.sequenceId else id
  have hformer : ∀ id blockTable, memory'.blockManager.blockTables.lookup id = some blockTable →
      memory.blockManager.blockTables.lookup (former id) = some blockTable := by
    intro id blockTable hsome
    by_cases hid : id = child.sequenceId
    . rw [show former id = parent.sequenceId from if_pos hid]
      exact hchild blockTable (hid ▸ hsome)
    . rw [show former id = id from if_neg hid, ← hlookup id hid]
      exact hsome
  have hmem : ∀ id, id ∈ SequenceGroup.sequenceIds { group with sequences }
      ↔ former id ∈ group.sequenceIds := by
    intro id
    unfold SequenceGroup.sequenceIds
    rw [(hsequences.map _).mem_iff, List.map_cons, List.mem_cons]
    by_cases hid : id = child.sequenceId
    . rw [show former id = parent.sequenceId from if_pos hid]
      exact ⟨fun _ => hparentId, fun _ => .inl hid⟩
    . rw [show former id = id from if_neg hid, or_iff_right hid]
  refine ⟨hrun.rebase, ?_⟩
  rintro owner howner block ⟨id, hid, table, hsome, hblock⟩ sequenceId blockTable hsome' hblock'
  have hheld := hformer id table hsome
  have hheld' := hformer sequenceId blockTable hsome'
  have hcases : owner = { group with sequences } ∨ owner ∈ before ++ after := by
    simp only [List.mem_append, List.mem_cons] at howner ⊢
    tauto
  rcases hcases with rfl | hother
  . rw [hmem] at hid ⊢
    exact h.apart group hgroup block ⟨_, hid, table, hheld, hblock⟩ _ blockTable hheld' hblock'
  . have howner : owner ∈ before ++ group :: after := by
      simp only [List.mem_append, List.mem_cons] at hother ⊢
      tauto
    have hne : id ≠ child.sequenceId := by
      rintro rfl
      rw [List.map_flatMap] at hfresh
      exact hfresh (List.mem_flatMap.mpr ⟨owner, howner, hid⟩)
    rw [show former id = id from if_neg hne] at hheld
    have hid' := h.apart owner howner block ⟨id, hid, table, hheld, hblock⟩ _ blockTable hheld' hblock'
    by_cases hchildId : sequenceId = child.sequenceId
    . -- then the parent is in two groups
      exfalso
      rw [show former sequenceId = parent.sequenceId from if_pos hchildId] at hid'
      have hnodup : ((before ++ group :: after).flatMap (·.sequenceIds)).Nodup := by
        have := h.runInvariant.nodup
        unfold RunState.sequences at this
        rwa [List.map_flatMap] at this
      rw [(List.perm_middle.flatMap_right _).nodup_iff, List.flatMap_cons, List.nodup_append] at hnodup
      exact hnodup.2.2 _ hparentId _ (List.mem_flatMap.mpr ⟨owner, hother, hid'⟩) rfl
    . rwa [show former sequenceId = sequenceId from if_neg hchildId] at hid'

/--
Every operation of the block manager keeps the groups apart.
-/
theorem Grouped.step (h : memory.Grouped groups) {groups' : List SequenceGroup}
    (hstep : Step { memory, groups } { memory := memory', groups := groups' })
    : memory'.Grouped groups' := by
  have hrun := h.runInvariant.step hstep
  cases hstep with
  | arrive group heap hfresh _ hheap => exact h.arrive hfresh hheap
  | edit => exact h.of_lookup hrun fun _ _ hlookup => hlookup
  | finish => exact h.of_lookup hrun fun _ _ hlookup => hlookup
  | allocate group hgroup _ hcan => exact (h.allocated hgroup hcan).1
  | appendSlots group sequence hgroup hsequence hrunning hcan =>
    rcases h.runInvariant.writesTable_of_appendSlots hgroup hsequence hrunning hcan with
      hsame | ⟨blockTable, blockTable', hlookup, hwrites, haccounted, hblocks⟩
    . apply h.of_lookup hrun
      rw [hsame]
      exact fun _ _ hlookup => hlookup
    . exact (h.writesTable hgroup hsequence hrunning hlookup hwrites haccounted hblocks).1
  | fork before after group sequences parent child value hgroups hparent _ hfresh _ hsequences =>
    have ⟨_, _, hlookup, hchild⟩ := h.runInvariant.lookup_of_fork parent hfresh
    change groups = _ at hgroups
    subst hgroups
    exact h.fork hparent hfresh hsequences hlookup hchild hrun
  | swapOut group hgroup hcan =>
    rcases (Memory.swapOut_yields h.accounted (h.nodup hgroup)
        (fun _ hid _ hlookup => h.device_eq hgroup (.inl ⟨rfl, rfl⟩) hid hlookup) hcan).finalState
      with ⟨numbers, mapping, hswapped, hheap⟩
    exact (h.swapped hgroup hswapped hheap fun _ _ hdevice => hdevice).1
  | swapIn group hgroup hcan =>
    rcases (Memory.swapIn_yields h.accounted (h.nodup hgroup)
        (fun _ hid _ hlookup => h.device_eq hgroup (.inr ⟨rfl, rfl⟩) hid hlookup) hcan).finalState
      with ⟨numbers, mapping, hswapped, hheap⟩
    exact (h.swapped hgroup hswapped hheap fun _ _ hdevice => hdevice).1
  | free sequenceId =>
    rcases (free_yields h.accounted sequenceId).finalState with ⟨-, -, hlookup, -⟩
    apply h.of_lookup hrun
    intro id blockTable hsome
    change AList.lookup id ((BlockSpaceManager.free sequenceId).finalState
      memory.blockManager).blockTables = some blockTable at hsome
    rw [hlookup] at hsome
    split at hsome
    . cases hsome
    . exact hsome
  | reset =>
    rcases (reset_yields h.accounted).finalState with ⟨-, -, htables, -⟩
    apply h.of_lookup hrun
    intro id blockTable hsome
    change AList.lookup id (BlockSpaceManager.reset.finalState memory.blockManager).blockTables
      = some blockTable at hsome
    rw [htables] at hsome
    cases hsome

/--
The access times of the blocks do not matter.
-/
theorem Grouped.of_sameButAccess (h : memory.Grouped groups) {manager : BlockSpaceManager}
    (hsame : memory.blockManager.SameButAccess manager)
    : Grouped groups { memory with blockManager := manager } := by
  rcases hsame with ⟨blocks, rfl, hblocks⟩
  have hpool : ({ memory.blockManager with blocks } : BlockSpaceManager).pool
      = memory.blockManager.pool := by
    unfold pool
    rw [funext hblocks]
    rfl
  have haccounted : ({ memory.blockManager with blocks } : BlockSpaceManager).Accounted := by
    refine ⟨h.accounted.blockSlidingWindow_eq, ?_, h.accounted.nodup, h.accounted.device_eq⟩
    rw [hpool]
    exact h.accounted.balanced
  exact ⟨⟨SameConfig.refl _, haccounted, h.runInvariant.nodup, h.runInvariant.mem_sequences,
    h.runInvariant.placed⟩, h.apart⟩

end Memory

namespace Scheduler

open BlockSpaceManager

variable {groups : List SequenceGroup} {scheduler scheduler' : Scheduler} {instants : Instants}
variable {enableChunking : Bool} {vars vars' : PolicyVars} {outputs : SchedulerOutputs}

theorem PolicyVars.grouped_of_scheduleRunningAndSwapped
    (h : vars.scheduleRunningAndSwapped enableChunking instants = .ok vars')
    (hgrouped : vars.scheduler.memory.Grouped groups)
    (hrunning : ∀ group ∈ vars.remainingRunning, group ∈ groups)
    (hswapped : ∀ group ∈ vars.remainingSwapped, group ∈ groups)
    : vars'.scheduler.memory.Grouped groups := by
  simp only [PolicyVars.scheduleRunningAndSwapped, Except.bind_eq_ok] at h
  rcases h with ⟨running, hrun, hrest⟩
  have hrunningStart : ∀ group ∈ (RunningVars.start vars.scheduler vars.remainingRunning vars.budget
      instants.running).pending, group ∈ groups := by
    intro group hgroup
    exact hrunning group ((FcfsPolicy.sortByPriority_perm _ _).mem_iff.mp hgroup)
  have hafter := (RunningVars.grouped_of_reaches (RunningVars.reaches_of_run hrun) hgrouped
    hrunningStart).1
  split at hrest
  . rcases Except.bind_eq_ok.mp hrest with ⟨swapped, hswap, hpure⟩
    cases hpure
    refine (SwappedVars.grouped_of_reaches (SwappedVars.reaches_of_run hswap) hafter ?_).1
    intro group hgroup
    exact hswapped group ((FcfsPolicy.sortByPriority_perm _ _).mem_iff.mp hgroup)
  . cases hrest
    exact hafter

/--
A call of `schedule` keeps the groups apart.
-/
theorem grouped_of_schedulePolicy
    (h : scheduler.schedulePolicy instants = .ok (outputs, scheduler'))
    (hgrouped : scheduler.memory.Grouped groups) (hsubperm : scheduler.groups.Subperm groups)
    : scheduler'.memory.Grouped groups := by
  have hwaiting : ∀ group ∈ scheduler.waiting, group ∈ groups := fun group hgroup =>
    hsubperm.subset (List.mem_append_left _ (List.mem_append_left _ hgroup))
  have hrunning : ∀ group ∈ scheduler.running, group ∈ groups := fun group hgroup =>
    hsubperm.subset (List.mem_append_left _ (List.mem_append_right _ hgroup))
  have hswapped : ∀ group ∈ scheduler.swapped, group ∈ groups := fun group hgroup =>
    hsubperm.subset (List.mem_append_right _ hgroup)
  unfold schedulePolicy at h
  split at h
  . rcases scheduleChunkedPrefill_eq_ok h with ⟨vars, queue, hpasses, -, -, rfl, -⟩
    simp only [chunkedPasses, Except.bind_eq_ok] at hpasses
    rcases hpasses with ⟨passed, hrest, hprefills⟩
    have hpassed := PolicyVars.grouped_of_scheduleRunningAndSwapped hrest hgrouped hrunning hswapped
    apply PolicyVars.grouped_of_schedulePrefills hprefills hpassed
    rw [(PolicyVars.keeps_of_scheduleRunningAndSwapped hrest).2]
    exact hwaiting
  . rcases scheduleDefault_eq_ok h with ⟨vars, queue, hpasses, -, -, -, -, rfl, -⟩
    rcases defaultPasses_eq_ok hpasses with ⟨before, hprefills, hrest⟩
    have hbefore : before.scheduler.memory.Grouped groups
        ∧ before.remainingRunning = scheduler.running
        ∧ before.remainingSwapped = scheduler.swapped := by
      rcases hprefills with ⟨-, hprefills⟩ | ⟨-, rfl⟩
      . have hkeeps := PolicyVars.keeps_of_schedulePrefills hprefills
        exact ⟨PolicyVars.grouped_of_schedulePrefills hprefills hgrouped hwaiting, hkeeps.2.2⟩
      . exact ⟨hgrouped, rfl, rfl⟩
    rcases hrest with ⟨-, hrest⟩ | ⟨-, rfl⟩
    . apply PolicyVars.grouped_of_scheduleRunningAndSwapped hrest hbefore.1
      . rw [hbefore.2.1]
        exact hrunning
      . rw [hbefore.2.2]
        exact hswapped
    . exact hbefore.1

/--
A run of the scheduler: calls of `schedule` that succeed, and between them operations of the block
manager on the groups that have been received. What is in the queues has been received.
-/
inductive Turn : Scheduler × List SequenceGroup → Scheduler × List SequenceGroup → Prop where
  | operate {scheduler scheduler' : Scheduler} {groups groups' : List SequenceGroup}
      (hstep : Step { memory := scheduler.memory, groups }
        { memory := scheduler'.memory, groups := groups' })
      (hsubperm : scheduler'.groups.Subperm groups')
    : Turn (scheduler, groups) (scheduler', groups')
  | schedule {scheduler scheduler' : Scheduler} {groups : List SequenceGroup} {instants : Instants}
      {metadata : List SequenceGroupMetadata} {outputs : SchedulerOutputs}
      (hschedule : scheduler.schedule instants = .ok (metadata, outputs, scheduler'))
    : Turn (scheduler, groups) (scheduler', groups)

/--
`scheduler` is reached by some run, from a scheduler without a sliding window.
-/
def Reached (scheduler : Scheduler) : Prop :=
  ∃ config blockSize numCpuBlocks numGpuBlocks sequences now groups,
    Relation.ReflTransGen Turn
      (Scheduler.new config blockSize numCpuBlocks numGpuBlocks none sequences now, [])
      (scheduler, groups)

/--
What the block manager reaches, a scheduler reaches, with any of the groups in its queues.
-/
theorem reached_of_reachable {blockSize numCpuBlocks numGpuBlocks : Nat} {state : RunState}
    (h : Reachable blockSize numCpuBlocks numGpuBlocks state)
    (hmemory : scheduler.memory = state.memory) (hsubperm : scheduler.groups.Subperm state.groups)
    : scheduler.Reached := by
  rcases h with ⟨heap, hrun⟩
  let start := Scheduler.new scheduler.schedulerConfig blockSize numCpuBlocks numGpuBlocks none heap 0
  have hturns : Relation.ReflTransGen Turn (start, [])
      ({ start with memory := state.memory }, state.groups) := by
    clear hmemory hsubperm
    induction hrun with
    | refl => exact .refl
    | tail _ hstep ih => exact ih.tail (.operate hstep List.nil_subperm)
  refine ⟨_, _, _, _, _, _, state.groups, hturns.tail (.operate ?_ hsubperm)⟩
  -- an operation that changes nothing
  have hsame : Function.update state.heap ⟨0, 0⟩ (state.heap ⟨0, 0⟩) = state.memory.sequences :=
    Function.update_eq_self ..
  have hedit := Step.edit state ⟨0, 0⟩ (state.heap ⟨0, 0⟩) rfl
  rw [hsame] at hedit
  rw [hmemory]
  exact hedit

/--
In every run blocks are shared only within the groups.
-/
theorem grouped_of_reached (h : scheduler.Reached) : scheduler.Grouped := by
  rcases h with ⟨config, blockSize, numCpuBlocks, numGpuBlocks, sequences, now, groups, hrun⟩
  suffices ∀ state, Relation.ReflTransGen Turn
      (Scheduler.new config blockSize numCpuBlocks numGpuBlocks none sequences now, []) state →
        state.1.groups.Subperm state.2 ∧ state.1.memory.Grouped state.2 from
    ⟨groups, this (scheduler, groups) hrun⟩
  intro state hrun
  induction hrun with
  | refl =>
    refine ⟨List.Subperm.refl _, ?_, ?_⟩
    . exact (RunInvariant.init blockSize numCpuBlocks numGpuBlocks sequences).rebase
    . intro group hgroup
      cases hgroup
  | tail _ hturn ih =>
    cases hturn with
    | operate hstep hsubperm => exact ⟨hsubperm, ih.2.step hstep⟩
    | schedule hschedule =>
      refine ⟨(groups_subperm_of_schedule hschedule).trans ih.1, ?_⟩
      rcases schedule_eq_ok hschedule with ⟨passed, hpolicy, ⟨manager, rfl, hmanager⟩, -⟩
      exact (grouped_of_schedulePolicy hpolicy ih.2 ih.1).of_sameButAccess hmanager

end Scheduler

end AtomaInfer
