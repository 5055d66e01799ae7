import Mathlib.Logic.Relation
import AtomaInfer.BlockManager.Swap

/-!
Runs of the block manager: any interleaving of guarded operations on any number of sequence groups.
An operation that fails takes part in a run with the state it leaves behind.
-/

namespace AtomaInfer

namespace SequenceGroup

def sequenceIds (group : SequenceGroup) : List Nat :=
  group.sequences.map (·.sequenceId)

theorem mem_sequenceIds {group : SequenceGroup} {seq : SequenceRef} (h : seq ∈ group.sequences)
    : seq.sequenceId ∈ group.sequenceIds :=
  List.mem_map_of_mem h

end SequenceGroup

namespace BlockSpaceManager

open EStateM RefPool

structure RunState where
  memory : Memory
  groups : List SequenceGroup

namespace RunState

variable (state : RunState)

def sequences : List SequenceRef :=
  state.groups.flatMap (·.sequences)

def heap : SequenceHeap :=
  state.memory.sequences

def manager : BlockSpaceManager :=
  state.memory.blockManager

/--
No group has been received yet.
-/
def init (blockSize numCpuBlocks numGpuBlocks : Nat) (heap : SequenceHeap) : RunState where
  memory := {
    sequences := heap
    blockManager := BlockSpaceManager.new blockSize numCpuBlocks numGpuBlocks none
  }
  groups := []

end RunState

inductive Step : RunState → RunState → Prop where
  /-- A group arrives. The identifiers of its sequences are new. -/
  | arrive (state : RunState) (group : SequenceGroup) (heap : SequenceHeap)
      (hfresh : ((group.sequences ++ state.sequences).map (·.sequenceId)).Nodup)
      (hwaiting : ∀ sequence ∈ group.sequences, (heap sequence).sequenceStatus = .waiting)
      (hheap : ∀ sequence, sequence ∉ group.sequences → heap sequence = state.heap sequence)
    : Step state {
        memory := { state.memory with sequences := heap }
        groups := group :: state.groups
      }
  /-- A sequence changes, for instance because a token is appended to it. -/
  | edit (state : RunState) (sequence : SequenceRef) (value : Sequence)
      (hstatus : value.sequenceStatus = (state.heap sequence).sequenceStatus)
    : Step state {
        state with
        memory := { state.memory with sequences := Function.update state.heap sequence value }
      }
  | finish (state : RunState) (sequence : SequenceRef) (status : SequenceStatus)
      (hstatus : status.isFinished)
    : Step state {
        state with
        memory := {
          state.memory with
          sequences := Function.update state.heap sequence
            ((state.heap sequence).setSequenceStatus status)
        }
      }
  | allocate (state : RunState) (group : SequenceGroup) (hgroup : group ∈ state.groups)
      (hnone : ∀ sequenceId ∈ group.getSequencesIds state.heap .waiting,
        state.manager.blockTables.lookup sequenceId = none)
      (hcan : state.manager.canAllocate group state.heap = .ok)
    : Step state {
        state with
        memory := {
          sequences := group.setStatusWhere state.heap
            (fun sequence => (state.heap sequence).sequenceStatus = .waiting) .running
          blockManager := (BlockSpaceManager.allocate group state.heap).finalState state.manager
        }
      }
  | appendSlots (state : RunState) (group : SequenceGroup) (sequence : SequenceRef)
      (hgroup : group ∈ state.groups) (hsequence : sequence ∈ group.sequences)
      (hrunning : (state.heap sequence).sequenceStatus = .running)
      (hcan : state.manager.canAppendSlots group state.heap)
    : Step state {
        state with
        memory := {
          state.memory with
          blockManager :=
            (BlockSpaceManager.appendSlots sequence.sequenceId (state.heap sequence)).finalState
              state.manager
        }
      }
  /--
  A new child is added to the group of its parent, at any place in the order in which the sequences
  of the group are iterated.
  -/
  | fork (state : RunState) (before after : List SequenceGroup) (group : SequenceGroup)
      (sequences : List SequenceRef) (parent child : SequenceRef) (value : Sequence)
      (hgroups : state.groups = before ++ group :: after)
      (hparent : parent ∈ group.sequences)
      (hrunning : (state.heap parent).sequenceStatus = .running)
      (hfresh : child.sequenceId ∉ state.sequences.map (·.sequenceId))
      (hvalue : value.sequenceStatus = .running)
      (hsequences : sequences.Perm (child :: group.sequences))
    : Step state {
        memory := {
          sequences := Function.update state.heap child value
          blockManager :=
            (BlockSpaceManager.fork parent.sequenceId child.sequenceId).finalState state.manager
        }
        groups := before ++ { group with sequences } :: after
      }
  | swapOut (state : RunState) (group : SequenceGroup) (hgroup : group ∈ state.groups)
      (hcan : state.manager.canSwapOut group state.heap)
    : Step state { state with memory := (Memory.swapOut group).finalState state.memory }
  | swapIn (state : RunState) (group : SequenceGroup) (hgroup : group ∈ state.groups)
      (hcan : state.manager.canSwapIn group state.heap = .ok)
    : Step state { state with memory := (Memory.swapIn group).finalState state.memory }
  | free (state : RunState) (sequenceId : Nat)
    : Step state {
        state with
        memory := {
          state.memory with
          blockManager := (BlockSpaceManager.free sequenceId).finalState state.manager
        }
      }
  | reset (state : RunState)
    : Step state {
        state with
        memory := {
          state.memory with
          blockManager := BlockSpaceManager.reset.finalState state.manager
        }
      }

/--
Where the status of a sequence allows its block table to be.
-/
def Placed (manager : BlockSpaceManager) (sequenceId : Nat) (status : SequenceStatus) : Prop :=
  match status with
  | .waiting => manager.blockTables.lookup sequenceId = none
  | .running => ∀ blockTable, manager.blockTables.lookup sequenceId = some blockTable →
      ∀ block ∈ blockTable, block.device = .gpu
  | .swapped => ∀ blockTable, manager.blockTables.lookup sequenceId = some blockTable →
      ∀ block ∈ blockTable, block.device = .cpu
  | .finishedStopped | .finishedLengthCapped | .finishedAborted | .finishedIgnored => True

/--
What every run that starts with the manager `initial` preserves.
-/
structure RunInvariant (initial : BlockSpaceManager) (state : RunState) : Prop where
  sameConfig : initial.SameConfig state.manager
  accounted : state.manager.Accounted
  nodup : (state.sequences.map (·.sequenceId)).Nodup
  mem_sequences : ∀ sequenceId blockTable,
    state.manager.blockTables.lookup sequenceId = some blockTable →
      sequenceId ∈ state.sequences.map (·.sequenceId)
  placed : ∀ sequence ∈ state.sequences,
    state.manager.Placed sequence.sequenceId (state.heap sequence).sequenceStatus

section Placed

variable {manager manager' : BlockSpaceManager} {sequenceId : Nat} {status : SequenceStatus}

theorem Placed.congr (h : manager.Placed sequenceId status)
    (hlookup : manager'.blockTables.lookup sequenceId = manager.blockTables.lookup sequenceId)
    : manager'.Placed sequenceId status := by
  unfold Placed at *
  rw [hlookup]
  exact h

theorem Placed.of_lookup_eq_none (h : manager.blockTables.lookup sequenceId = none)
    : manager.Placed sequenceId status := by
  unfold Placed
  cases status <;> simp [h]

theorem Placed.of_isFinished (h : status.isFinished) : manager.Placed sequenceId status := by
  unfold Placed
  cases status with
  | waiting => cases h
  | running => cases h
  | swapped => cases h
  | finishedStopped => trivial
  | finishedLengthCapped => trivial
  | finishedAborted => trivial
  | finishedIgnored => trivial

end Placed

namespace RunInvariant

variable {initial : BlockSpaceManager} {state : RunState} {group : SequenceGroup}
variable {sequence sequence' : SequenceRef}

theorem mem_sequences_of_mem (hgroup : group ∈ state.groups) (hsequence : sequence ∈ group.sequences)
    : sequence ∈ state.sequences :=
  List.mem_flatMap.mpr ⟨group, hgroup, hsequence⟩

theorem eq_of_sequenceId_eq (h : RunInvariant initial state) (hmem : sequence ∈ state.sequences)
    (hmem' : sequence' ∈ state.sequences) (hid : sequence.sequenceId = sequence'.sequenceId)
    : sequence = sequence' :=
  List.inj_on_of_nodup_map h.nodup hmem hmem' hid

theorem nodup_group (h : RunInvariant initial state) (hgroup : group ∈ state.groups)
    : (group.sequences.map (·.sequenceId)).Nodup := by
  have hnodup := h.nodup
  unfold RunState.sequences at hnodup
  rw [List.map_flatMap] at hnodup
  exact (List.nodup_flatMap.mp hnodup).1 group hgroup

theorem placed_group (h : RunInvariant initial state) (hgroup : group ∈ state.groups)
    {status : SequenceStatus}
    : ∀ sequenceId ∈ group.getSequencesIds state.heap status, state.manager.Placed sequenceId status := by
  intro sequenceId hid
  rcases List.mem_map.mp hid with ⟨sequence, hsequence, rfl⟩
  rw [SequenceGroup.mem_getSeqs] at hsequence
  have := h.placed sequence (mem_sequences_of_mem hgroup hsequence.1)
  rwa [hsequence.2] at this

/--
Different groups have different sequences.
-/
theorem disjoint (h : RunInvariant initial state) {group' : SequenceGroup}
    (hgroup : group ∈ state.groups) (hgroup' : group' ∈ state.groups) (hne : group' ≠ group)
    {sequenceId : Nat} (hid : sequenceId ∈ group'.sequenceIds) : sequenceId ∉ group.sequenceIds := by
  intro hid'
  have hnodup := h.nodup
  unfold RunState.sequences at hnodup
  rw [List.map_flatMap] at hnodup
  exact hne (List.eq_of_nodup_flatMap hnodup hgroup' hgroup hid hid')

theorem init (blockSize numCpuBlocks numGpuBlocks : Nat) (heap : SequenceHeap)
    : RunInvariant (BlockSpaceManager.new blockSize numCpuBlocks numGpuBlocks none)
        (.init blockSize numCpuBlocks numGpuBlocks heap) := by
  constructor
  . exact SameConfig.refl _
  . exact accounted_new blockSize numCpuBlocks numGpuBlocks
  . exact List.nodup_nil
  . intro sequenceId blockTable hlookup
    cases hlookup
  . intro sequence hsequence
    cases hsequence

theorem arrive (h : RunInvariant initial state) {heap : SequenceHeap}
    (hfresh : ((group.sequences ++ state.sequences).map (·.sequenceId)).Nodup)
    (hheap : ∀ sequence, sequence ∉ group.sequences → heap sequence = state.heap sequence)
    : RunInvariant initial {
        memory := { state.memory with sequences := heap }
        groups := group :: state.groups } := by
  rw [List.map_append, List.nodup_append] at hfresh
  constructor
  . exact h.sameConfig
  . exact h.accounted
  . change ((group.sequences ++ state.sequences).map (·.sequenceId)).Nodup
    rw [List.map_append, List.nodup_append]
    exact hfresh
  . intro sequenceId blockTable hlookup
    have := h.mem_sequences sequenceId blockTable hlookup
    change sequenceId ∈ (group.sequences ++ state.sequences).map (·.sequenceId)
    rw [List.map_append, List.mem_append]
    exact .inr this
  . intro sequence hsequence
    change sequence ∈ group.sequences ++ state.sequences at hsequence
    rcases List.mem_append.mp hsequence with hmem | hmem
    . -- the identifier of a new sequence is not in use, so there is no table for it
      apply Placed.of_lookup_eq_none
      cases hlookup : state.manager.blockTables.lookup sequence.sequenceId with
      | none => exact hlookup
      | some blockTable =>
        have := h.mem_sequences _ _ hlookup
        exact absurd rfl (hfresh.2.2 _ (List.mem_map_of_mem hmem) _ this)
    . have hnot : sequence ∉ group.sequences := by
        intro hmem'
        exact hfresh.2.2 _ (List.mem_map_of_mem hmem') _ (List.mem_map_of_mem hmem) rfl
      change state.manager.Placed sequence.sequenceId (heap sequence).sequenceStatus
      rw [hheap sequence hnot]
      exact h.placed sequence hmem

theorem update (h : RunInvariant initial state) {value : Sequence}
    (hstatus : value.sequenceStatus = (state.heap sequence).sequenceStatus
      ∨ value.sequenceStatus.isFinished)
    : RunInvariant initial {
        state with
        memory := { state.memory with sequences := Function.update state.heap sequence value } } := by
  refine ⟨h.sameConfig, h.accounted, h.nodup, h.mem_sequences, ?_⟩
  intro sequence' hsequence'
  change state.manager.Placed sequence'.sequenceId
    (Function.update state.heap sequence value sequence').sequenceStatus
  by_cases heq : sequence' = sequence
  . subst heq
    rw [Function.update_self]
    rcases hstatus with hstatus | hstatus
    . rw [hstatus]
      exact h.placed sequence' hsequence'
    . exact Placed.of_isFinished hstatus
  . rw [Function.update_of_ne heq]
    exact h.placed sequence' hsequence'

/--
An operation that keeps the sequences and the statuses, and moves no table to another device.
-/
theorem of_manager (h : RunInvariant initial state) {manager : BlockSpaceManager}
    (hconfig : state.manager.SameConfig manager) (haccounted : manager.Accounted)
    (hlookup : ∀ sequenceId blockTable,
      manager.blockTables.lookup sequenceId = some blockTable →
        sequenceId ∈ state.sequences.map (·.sequenceId))
    (hplaced : ∀ sequence ∈ state.sequences,
      state.manager.Placed sequence.sequenceId (state.heap sequence).sequenceStatus →
        manager.Placed sequence.sequenceId (state.heap sequence).sequenceStatus)
    : RunInvariant initial {
        state with memory := { state.memory with blockManager := manager } } := by
  refine ⟨h.sameConfig.trans hconfig, haccounted, h.nodup, hlookup, ?_⟩
  intro sequence hsequence
  exact hplaced sequence hsequence (h.placed sequence hsequence)

/--
The waiting sequences of a group get a table of blocks on the GPU, and run.
-/
theorem of_allocated (h : RunInvariant initial state) (hgroup : group ∈ state.groups)
    {manager : BlockSpaceManager} {blockTable : BlockTable} (hconfig : state.manager.SameConfig manager)
    (haccounted : manager.Accounted) (hgpu : ∀ block ∈ blockTable, block.device = .gpu)
    (hlookup : ∀ sequenceId, manager.blockTables.lookup sequenceId
        =
      if sequenceId ∈ group.getSequencesIds state.heap .waiting then some blockTable
      else state.manager.blockTables.lookup sequenceId)
    : RunInvariant initial {
        state with
        memory := {
          sequences := group.setStatusWhere state.heap
            (fun sequence => (state.heap sequence).sequenceStatus = .waiting) .running
          blockManager := manager } } := by
  refine ⟨h.sameConfig.trans hconfig, haccounted, h.nodup, ?_, ?_⟩
  . intro sequenceId table hsome
    change AList.lookup sequenceId manager.blockTables = some table at hsome
    rw [hlookup] at hsome
    split at hsome
    . next hmem =>
      rcases List.mem_map.mp hmem with ⟨seq, hseq, rfl⟩
      have := (SequenceGroup.mem_getSeqs.mp hseq).1
      exact List.mem_map_of_mem (mem_sequences_of_mem hgroup this)
    . exact h.mem_sequences _ _ hsome
  . intro seq hseq
    change BlockSpaceManager.Placed manager seq.sequenceId
      (group.setStatusWhere state.heap
        (fun sequence => (state.heap sequence).sequenceStatus = .waiting) .running
        seq).sequenceStatus
    rw [SequenceGroup.setStatusWhere_apply]
    by_cases hwaiting : seq ∈ group.getSeqs state.heap .waiting
    . have ⟨hmem, hstatus⟩ := SequenceGroup.mem_getSeqs.mp hwaiting
      rw [if_pos ⟨hmem, by simpa using hstatus⟩]
      intro table hsome
      have hid : seq.sequenceId ∈ group.getSequencesIds state.heap .waiting :=
        List.mem_map_of_mem hwaiting
      rw [hlookup, if_pos hid] at hsome
      cases hsome
      exact hgpu
    . rw [SequenceGroup.mem_getSeqs] at hwaiting
      rw [if_neg (by simpa using hwaiting)]
      apply (h.placed seq hseq).congr
      rw [hlookup, if_neg]
      intro hid
      rcases List.mem_map.mp hid with ⟨seq', hseq', hid'⟩
      rw [SequenceGroup.mem_getSeqs] at hseq'
      have := h.eq_of_sequenceId_eq (mem_sequences_of_mem hgroup hseq'.1) hseq hid'
      exact hwaiting (this ▸ hseq')

theorem allocate (h : RunInvariant initial state) (hgroup : group ∈ state.groups)
    (hnone : ∀ sequenceId ∈ group.getSequencesIds state.heap .waiting,
      state.manager.blockTables.lookup sequenceId = none)
    (hcan : state.manager.canAllocate group state.heap = .ok)
    : RunInvariant initial {
        state with
        memory := {
          sequences := group.setStatusWhere state.heap
            (fun sequence => (state.heap sequence).sequenceStatus = .waiting) .running
          blockManager :=
            (BlockSpaceManager.allocate group state.heap).finalState state.manager } } := by
  have hnodup := h.nodup_group hgroup
  have hyields := allocate_yields h.accounted (SequenceGroup.nodup_getSequencesIds hnodup) hnone hcan
  rcases hyields.finalState with ⟨-, sequence, blockTable, hfirst, -, -, hnew, hconfig,
    hlookup, haccounted⟩
  exact h.of_allocated hgroup hconfig haccounted (fun block hblock => (hnew block hblock).1) hlookup

/--
An operation that writes the table of one running sequence, with blocks on the GPU.
-/
theorem of_writesTable (h : RunInvariant initial state) (hmem : sequence ∈ state.sequences)
    (hrunning : (state.heap sequence).sequenceStatus = .running) {manager : BlockSpaceManager}
    {blockTable : BlockTable} (haccounted : manager.Accounted)
    (hwrites : state.manager.WritesTable manager sequence.sequenceId blockTable)
    (hgpu : ∀ block ∈ blockTable, block.device = .gpu)
    : RunInvariant initial {
        state with memory := { state.memory with blockManager := manager } } := by
  apply h.of_manager hwrites.1 haccounted
  . intro sequenceId table hsome
    rw [hwrites.2] at hsome
    split at hsome
    . next hid =>
      rw [hid]
      exact List.mem_map_of_mem hmem
    . exact h.mem_sequences _ _ hsome
  . intro sequence' hmem' hplaced
    by_cases hid : sequence'.sequenceId = sequence.sequenceId
    . have := h.eq_of_sequenceId_eq hmem' hmem hid
      subst this
      rw [hrunning]
      intro table hsome
      rw [hwrites.2, if_pos rfl] at hsome
      cases hsome
      exact hgpu
    . apply hplaced.congr
      rw [hwrites.2, if_neg hid]

theorem one_le_of_canAppendSlots {manager : BlockSpaceManager} {heap : SequenceHeap}
    (hsequence : sequence ∈ group.sequences) (hrunning : (heap sequence).sequenceStatus = .running)
    (hcan : manager.canAppendSlots group heap) : 1 ≤ manager.getNumFreeBlocks .gpu := by
  have hpos : 1 ≤ group.getNumSequences heap .running :=
    List.length_pos_of_mem (SequenceGroup.mem_getSeqs.mpr ⟨hsequence, hrunning⟩)
  have hle : group.getNumSequences heap .running ≤ manager.getNumFreeBlocks .gpu := by
    simpa [canAppendSlots, getNumFreeBlocks, allocator] using hcan
  omega

/--
`append_slots` under its guard either leaves the manager as it is, or writes the table of the
sequence, with blocks of its old table and free ones on the GPU.
-/
theorem writesTable_of_appendSlots (h : RunInvariant initial state) (hgroup : group ∈ state.groups)
    (hsequence : sequence ∈ group.sequences)
    (hrunning : (state.heap sequence).sequenceStatus = .running)
    (hcan : state.manager.canAppendSlots group state.heap)
    : let manager :=
        (BlockSpaceManager.appendSlots sequence.sequenceId (state.heap sequence)).finalState
          state.manager
      manager = state.manager
        ∨ ∃ blockTable blockTable',
            state.manager.blockTables.lookup sequence.sequenceId = some blockTable
              ∧ state.manager.WritesTable manager sequence.sequenceId blockTable'
              ∧ manager.Accounted
              ∧ ∀ block ∈ blockTable', block ∈ blockTable
                  ∨ block.device = .gpu ∧ block ∉ state.manager.owned := by
  dsimp only
  have hfree := one_le_of_canAppendSlots hsequence hrunning hcan
  cases hlookup : state.manager.blockTables.lookup sequence.sequenceId with
  | none =>
    left
    exact appendSlots_finalState_of_lookup_eq_none _ hlookup
  | some blockTable =>
    have hgpu : ∀ block ∈ blockTable, block.device = .gpu := by
      have := h.placed sequence (mem_sequences_of_mem hgroup hsequence)
      rw [hrunning] at this
      exact this blockTable hlookup
    by_cases hzero : (state.heap sequence).getNumTotalLogicalTokenBlocks = 0
    . left
      exact appendSlots_finalState_of_eq_zero hzero
    . rcases Nat.lt_trichotomy (blockTable.length + 1)
          (state.heap sequence).getNumTotalLogicalTokenBlocks with hbehind | hshort | hfull
      . rcases appendSlots_run_of_behind hlookup hbehind with ⟨e, hrun⟩
        left
        unfold finalState
        rw [hrun]
      . have hrun := appendSlots_run_of_short hlookup h.accounted.blockSlidingWindow_eq hshort.symm
        have hyields := appendSlots.pushBlock_yields h.accounted hlookup hgpu hfree
        rcases hyields.finalState with ⟨-, block, -, hdevice, hnew, hwrites, haccounted⟩
        right
        unfold finalState at *
        rw [hrun]
        refine ⟨blockTable, _, rfl, hwrites, haccounted, ?_⟩
        intro c hc
        rcases List.mem_append.mp hc with hc | hc
        . exact .inl hc
        . rw [List.mem_singleton.mp hc]
          exact .inr ⟨hdevice, hnew⟩
      . have hpos : 1 ≤ (state.heap sequence).getNumTotalLogicalTokenBlocks := by omega
        have hrun := appendSlots_run_of_full hlookup hpos (by omega)
        rcases List.eq_nil_or_concat blockTable with rfl | ⟨init, last, hconcat⟩
        . simp only [List.length_nil] at hfull
          omega
        . rw [List.concat_eq_append] at hconcat
          subst hconcat
          unfold finalState at *
          rw [hrun]
          by_cases hcount : state.manager.pool.refCount last = 1
          . left
            rw [appendSlots.copyOnWrite_run init last hcount]
          . have hyields := appendSlots.copyOnWrite_yields h.accounted hlookup hgpu hfree hcount
            rcases hyields with ⟨_, manager, hrun, block, -, hdevice, hnew, hwrites, haccounted⟩
            right
            rw [hrun]
            refine ⟨_, _, rfl, hwrites, haccounted, ?_⟩
            intro c hc
            rcases List.mem_append.mp hc with hc | hc
            . exact .inl (List.mem_append_left _ hc)
            . rw [List.mem_singleton.mp hc]
              exact .inr ⟨hdevice, hnew⟩

theorem appendSlots (h : RunInvariant initial state) (hgroup : group ∈ state.groups)
    (hsequence : sequence ∈ group.sequences)
    (hrunning : (state.heap sequence).sequenceStatus = .running)
    (hcan : state.manager.canAppendSlots group state.heap)
    : RunInvariant initial {
        state with
        memory := {
          state.memory with
          blockManager :=
            (BlockSpaceManager.appendSlots sequence.sequenceId (state.heap sequence)).finalState
              state.manager } } := by
  have hmem := mem_sequences_of_mem hgroup hsequence
  rcases h.writesTable_of_appendSlots hgroup hsequence hrunning hcan with
    hsame | ⟨blockTable, blockTable', hlookup, hwrites, haccounted, hblocks⟩
  . rw [hsame]
    exact h
  . apply h.of_writesTable hmem hrunning haccounted hwrites
    have hplaced := h.placed sequence hmem
    rw [hrunning] at hplaced
    intro block hblock
    rcases hblocks block hblock with hold | ⟨hdevice, -⟩
    . exact hplaced blockTable hlookup block hold
    . exact hdevice

/--
A fork gives the child the table of the parent, and writes no other table.
-/
theorem lookup_of_fork (h : RunInvariant initial state) (parent : SequenceRef) {child : SequenceRef}
    (hfresh : child.sequenceId ∉ state.sequences.map (·.sequenceId))
    : let manager :=
        (BlockSpaceManager.fork parent.sequenceId child.sequenceId).finalState state.manager
      state.manager.SameConfig manager
        ∧ manager.Accounted
        ∧ (∀ sequenceId, sequenceId ≠ child.sequenceId →
            manager.blockTables.lookup sequenceId = state.manager.blockTables.lookup sequenceId)
        ∧ ∀ blockTable, manager.blockTables.lookup child.sequenceId = some blockTable →
            state.manager.blockTables.lookup parent.sequenceId = some blockTable := by
  dsimp only
  have hnone : state.manager.blockTables.lookup child.sequenceId = none := by
    cases hlookup : state.manager.blockTables.lookup child.sequenceId with
    | none => rfl
    | some blockTable => exact absurd (h.mem_sequences _ _ hlookup) hfresh
  cases hlookup : state.manager.blockTables.lookup parent.sequenceId with
  | none =>
    unfold finalState
    rw [fork_run_of_lookup_eq_none hlookup]
    refine ⟨SameConfig.refl _, h.accounted, fun _ _ => rfl, ?_⟩
    intro table hsome
    rw [hnone] at hsome
    cases hsome
  | some blockTable =>
    rcases (fork_yields h.accounted hlookup hnone).finalState with ⟨-, hwrites, haccounted⟩
    refine ⟨hwrites.1, haccounted, ?_, ?_⟩
    . intro sequenceId hne
      rw [hwrites.2, if_neg hne]
    . intro table hsome
      rw [hwrites.2, if_pos rfl] at hsome
      exact hsome

theorem fork (h : RunInvariant initial state) {before after : List SequenceGroup}
    {sequences : List SequenceRef} {parent child : SequenceRef} {value : Sequence}
    (hgroups : state.groups = before ++ group :: after)
    (hparent : parent ∈ group.sequences)
    (hrunning : (state.heap parent).sequenceStatus = .running)
    (hfresh : child.sequenceId ∉ state.sequences.map (·.sequenceId))
    (hvalue : value.sequenceStatus = .running)
    (hsequences : sequences.Perm (child :: group.sequences))
    : RunInvariant initial {
        memory := {
          sequences := Function.update state.heap child value
          blockManager :=
            (BlockSpaceManager.fork parent.sequenceId child.sequenceId).finalState state.manager }
        groups := before ++ { group with sequences } :: after } := by
  have hmem : parent ∈ state.sequences := by
    apply mem_sequences_of_mem _ hparent
    simp [hgroups]
  have hperm : (before ++ { group with sequences } :: after).flatMap (·.sequences)
      |>.Perm (child :: state.sequences) := by
    unfold RunState.sequences
    rw [hgroups]
    simp only [List.flatMap_append, List.flatMap_cons]
    calc before.flatMap (·.sequences) ++ (sequences ++ after.flatMap (·.sequences))
      _ |>.Perm (before.flatMap (·.sequences)
            ++ (child :: group.sequences ++ after.flatMap (·.sequences))) :=
        List.Perm.append_left _ (List.Perm.append_right _ hsequences)
      _ |>.Perm (child :: (before.flatMap (·.sequences)
            ++ (group.sequences ++ after.flatMap (·.sequences)))) :=
        List.perm_middle
  have ⟨hconfig, haccounted, hother, hchild⟩ := h.lookup_of_fork parent hfresh
  generalize (BlockSpaceManager.fork parent.sequenceId child.sequenceId).finalState state.manager
    = manager at *
  constructor
  . exact h.sameConfig.trans hconfig
  . exact haccounted
  . change (((before ++ { group with sequences } :: after).flatMap (·.sequences)).map
      (·.sequenceId)).Nodup
    rw [(hperm.map _).nodup_iff, List.map_cons, List.nodup_cons]
    exact ⟨hfresh, h.nodup⟩
  . intro sequenceId blockTable hsome
    change sequenceId ∈ ((before ++ { group with sequences } :: after).flatMap (·.sequences)).map
      (·.sequenceId)
    rw [(hperm.map _).mem_iff, List.map_cons, List.mem_cons]
    by_cases hid : sequenceId = child.sequenceId
    . exact .inl hid
    . right
      change manager.blockTables.lookup sequenceId = some blockTable at hsome
      rw [hother sequenceId hid] at hsome
      exact h.mem_sequences _ _ hsome
  . intro sequence hsequence
    change sequence ∈ (before ++ { group with sequences } :: after).flatMap (·.sequences)
      at hsequence
    rw [hperm.mem_iff, List.mem_cons] at hsequence
    change manager.Placed sequence.sequenceId
      (Function.update state.heap child value sequence).sequenceStatus
    by_cases hsc : sequence = child
    . subst hsc
      rw [Function.update_self, hvalue]
      intro table hsome
      have hplaced := h.placed parent hmem
      rw [hrunning] at hplaced
      exact hplaced table (hchild table hsome)
    . have hold : sequence ∈ state.sequences := hsequence.resolve_left hsc
      have hid : sequence.sequenceId ≠ child.sequenceId := by
        intro hid
        exact hfresh (hid ▸ List.mem_map_of_mem hold)
      rw [Function.update_of_ne hsc]
      exact (h.placed sequence hold).congr (hother _ hid)

/--
A swap that sets the statuses to `after` puts the tables on the device where `after` allows them.
-/
theorem of_swapped (h : RunInvariant initial state) (hgroup : group ∈ state.groups) {memory : Memory}
    {source target : BlockDevice} {before after : SequenceStatus}
    {numbers : AList fun _ : Nat => Nat} {mapping : SwapMapping}
    (hswapped : Memory.Swapped source target (group.getSequencesIds state.heap before)
      state.manager memory.blockManager numbers mapping)
    (hheap : ∀ sequence, memory.sequences sequence
        =
      if sequence ∈ group.getSeqs state.heap before then
        (state.heap sequence).setSequenceStatus after
      else state.heap sequence)
    (hafter : ∀ (manager : BlockSpaceManager) (sequenceId : Nat),
      (∀ blockTable, manager.blockTables.lookup sequenceId = some blockTable →
        ∀ block ∈ blockTable, block.device = target) → manager.Placed sequenceId after)
    : RunInvariant initial { state with memory } := by
  have hmoved : ∀ sequenceId ∈ group.getSequencesIds state.heap before, ∀ blockTable,
      memory.blockManager.blockTables.lookup sequenceId = some blockTable →
        (∃ old, state.manager.blockTables.lookup sequenceId = some old)
          ∧ ∀ block ∈ blockTable, block.device = target := by
    intro sequenceId hid blockTable hsome
    have hrel := hswapped.lookup_of_mem sequenceId hid
    rw [hsome] at hrel
    generalize hold : state.manager.blockTables.lookup sequenceId = old at hrel
    cases hrel with
    | @some oldTable _ hsends =>
      refine ⟨⟨oldTable, rfl⟩, ?_⟩
      intro block hblock
      rcases hsends.exists_of_mem_right hblock with ⟨c, -, hsend⟩
      exact hswapped.valid.device_eq _ _ hsend
  refine ⟨h.sameConfig.trans hswapped.sameConfig, hswapped.accounted, h.nodup, ?_, ?_⟩
  . intro sequenceId blockTable hsome
    by_cases hid : sequenceId ∈ group.getSequencesIds state.heap before
    . rcases (hmoved sequenceId hid blockTable hsome).1 with ⟨old, hold⟩
      exact h.mem_sequences _ _ hold
    . have := hswapped.lookup_of_notMem sequenceId hid
      exact h.mem_sequences _ _ (this ▸ hsome)
  . intro sequence hsequence
    change memory.blockManager.Placed sequence.sequenceId (memory.sequences sequence).sequenceStatus
    rw [hheap]
    by_cases hmem : sequence ∈ group.getSeqs state.heap before
    . rw [if_pos hmem]
      apply hafter
      intro blockTable hsome
      exact (hmoved _ (List.mem_map_of_mem hmem) blockTable hsome).2
    . rw [if_neg hmem]
      apply (h.placed sequence hsequence).congr
      apply hswapped.lookup_of_notMem
      intro hid
      rcases List.mem_map.mp hid with ⟨sequence', hmem', hid'⟩
      have hsequence' := (SequenceGroup.mem_getSeqs.mp hmem').1
      have := h.eq_of_sequenceId_eq (mem_sequences_of_mem hgroup hsequence') hsequence hid'
      exact hmem (this ▸ hmem')

theorem swapOut (h : RunInvariant initial state) (hgroup : group ∈ state.groups)
    (hcan : state.manager.canSwapOut group state.heap)
    : RunInvariant initial { state with memory := (Memory.swapOut group).finalState state.memory } := by
  rcases (Memory.swapOut_yields h.accounted (h.nodup_group hgroup) (h.placed_group hgroup) hcan).finalState with
    ⟨numbers, mapping, hswapped, hheap⟩
  exact h.of_swapped hgroup hswapped hheap fun _ _ hdevice => hdevice

theorem swapIn (h : RunInvariant initial state) (hgroup : group ∈ state.groups)
    (hcan : state.manager.canSwapIn group state.heap = .ok)
    : RunInvariant initial { state with memory := (Memory.swapIn group).finalState state.memory } := by
  rcases (Memory.swapIn_yields h.accounted (h.nodup_group hgroup) (h.placed_group hgroup) hcan).finalState with
    ⟨numbers, mapping, hswapped, hheap⟩
  exact h.of_swapped hgroup hswapped hheap fun _ _ hdevice => hdevice

theorem free (h : RunInvariant initial state) (sequenceId : Nat)
    : RunInvariant initial {
        state with
        memory := {
          state.memory with
          blockManager := (BlockSpaceManager.free sequenceId).finalState state.manager } } := by
  rcases (free_yields h.accounted sequenceId).finalState with ⟨-, hconfig, hlookup, haccounted⟩
  apply h.of_manager hconfig haccounted
  . intro id blockTable hsome
    rw [hlookup] at hsome
    split at hsome
    . cases hsome
    . exact h.mem_sequences _ _ hsome
  . intro sequence _ hplaced
    by_cases hid : sequence.sequenceId = sequenceId
    . apply Placed.of_lookup_eq_none
      rw [hlookup, if_pos hid]
    . apply hplaced.congr
      rw [hlookup, if_neg hid]

theorem reset (h : RunInvariant initial state)
    : RunInvariant initial {
        state with
        memory := {
          state.memory with
          blockManager := BlockSpaceManager.reset.finalState state.manager } } := by
  rcases (reset_yields h.accounted).finalState with ⟨-, hconfig, htables, haccounted⟩
  apply h.of_manager hconfig haccounted
  . intro id blockTable hsome
    rw [htables] at hsome
    cases hsome
  . intro sequence _ _
    apply Placed.of_lookup_eq_none
    rw [htables]
    rfl

theorem step {state' : RunState} (h : RunInvariant initial state) (hstep : Step state state')
    : RunInvariant initial state' := by
  cases hstep with
  | arrive group heap hfresh _ hheap => exact h.arrive hfresh hheap
  | edit sequence value hstatus => exact h.update (.inl hstatus)
  | finish sequence status hstatus => exact h.update (.inr hstatus)
  | allocate group hgroup hnone hcan => exact h.allocate hgroup hnone hcan
  | appendSlots group sequence hgroup hsequence hrunning hcan =>
    exact h.appendSlots hgroup hsequence hrunning hcan
  | fork before after group sequences parent child value hgroups hparent hrunning hfresh hvalue hperm =>
    exact h.fork hgroups hparent hrunning hfresh hvalue hperm
  | swapOut group hgroup hcan => exact h.swapOut hgroup hcan
  | swapIn group hgroup hcan => exact h.swapIn hgroup hcan
  | free sequenceId => exact h.free sequenceId
  | reset => exact h.reset

end RunInvariant

/--
`block` is in the table of a sequence of the group.
-/
def Holds (manager : BlockSpaceManager) (group : SequenceGroup) (block : SyncPhysicalTokenBlock)
    : Prop :=
  ∃ sequenceId ∈ group.sequenceIds, ∃ blockTable,
    manager.blockTables.lookup sequenceId = some blockTable ∧ block ∈ blockTable

variable {manager : BlockSpaceManager} {group : SequenceGroup} {block : SyncPhysicalTokenBlock}

theorem Holds.mem_owned (h : manager.Holds group block) : block ∈ manager.owned := by
  rcases h with ⟨sequenceId, -, blockTable, hlookup, hmem⟩
  exact mem_owned_of_mem hlookup hmem

theorem RunInvariant.rebase {initial : BlockSpaceManager} {state : RunState}
    (h : RunInvariant initial state) : RunInvariant state.manager state :=
  ⟨SameConfig.refl _, h.accounted, h.nodup, h.mem_sequences, h.placed⟩

theorem RunInvariant.update_of_lookup_eq_none {initial : BlockSpaceManager} {state : RunState}
    (h : RunInvariant initial state) {sequence : SequenceRef} {value : Sequence}
    (hnone : state.manager.blockTables.lookup sequence.sequenceId = none)
    : RunInvariant initial {
        state with
        memory := { state.memory with sequences := Function.update state.heap sequence value } } := by
  refine ⟨h.sameConfig, h.accounted, h.nodup, h.mem_sequences, ?_⟩
  intro other hother
  change state.manager.Placed other.sequenceId
    (Function.update state.heap sequence value other).sequenceStatus
  by_cases heq : other = sequence
  . subst heq
    exact Placed.of_lookup_eq_none hnone
  . rw [Function.update_of_ne heq]
    exact h.placed other hother

/--
Sequences that finish keep what a run preserves.
-/
theorem RunInvariant.ignore {initial : BlockSpaceManager} {state : RunState}
    (h : RunInvariant initial state) (group : SequenceGroup) (p : SequenceRef → Bool)
    : RunInvariant initial {
        state with
        memory := {
          state.memory with
          sequences := group.setStatusWhere state.heap p .finishedIgnored } } := by
  refine ⟨h.sameConfig, h.accounted, h.nodup, h.mem_sequences, ?_⟩
  intro sequence hsequence
  change state.manager.Placed sequence.sequenceId
    (group.setStatusWhere state.heap p .finishedIgnored sequence).sequenceStatus
  rw [SequenceGroup.setStatusWhere_apply]
  split
  . exact Placed.of_isFinished rfl
  . exact h.placed sequence hsequence

/--
`state` is reached by some run of the block manager.
-/
def Reachable (blockSize numCpuBlocks numGpuBlocks : Nat) (state : RunState) : Prop :=
  ∃ heap, Relation.ReflTransGen Step (.init blockSize numCpuBlocks numGpuBlocks heap) state

theorem runInvariant_of_reachable {blockSize numCpuBlocks numGpuBlocks : Nat} {state : RunState}
    (h : Reachable blockSize numCpuBlocks numGpuBlocks state)
    : RunInvariant (BlockSpaceManager.new blockSize numCpuBlocks numGpuBlocks none) state := by
  rcases h with ⟨heap, hrun⟩
  induction hrun with
  | refl => exact RunInvariant.init blockSize numCpuBlocks numGpuBlocks heap
  | tail _ hstep ih => exact ih.step hstep

/--
The number of blocks the allocator of `device` is configured with.
-/
def configuredBlocks (numCpuBlocks numGpuBlocks : Nat) (device : BlockDevice) : Nat :=
  match device with
  | .cpu => numCpuBlocks
  | .gpu => numGpuBlocks

/--
The accounting of the blocks of a device, in every state that a run reaches. The allocator creates
as many blocks as it is configured with, unless that number does not fit in 32 bits.
-/
theorem accounting_of_reachable {blockSize numCpuBlocks numGpuBlocks : Nat} {state : RunState}
    (h : Reachable blockSize numCpuBlocks numGpuBlocks state) (device : BlockDevice)
    : let manager := state.manager
      let freeBlocks := (manager.allocator device).freeBlocks
      let numBlocks := configuredBlocks numCpuBlocks numGpuBlocks device
      let inTables := (manager.blockTables.entries.flatMap (·.2)).toFinset.filter (·.device = device)
      freeBlocks.Nodup
        ∧ (∀ block ∈ freeBlocks, (manager.blocks block).refCount = 0)
        ∧ (∀ sequenceId blockTable, manager.blockTables.lookup sequenceId = some blockTable →
            (∀ block ∈ blockTable,
              block ∉ freeBlocks
                ∧ (manager.blocks block).refCount
                    = manager.blockTables.entries.countP fun entry => block ∈ entry.2)
              ∧ ∃ tableDevice, ∀ block ∈ blockTable, block.device = tableDevice)
        ∧ freeBlocks.length + inTables.card = BlockAllocator.numCreated numBlocks
        ∧ (numBlocks < 2 ^ 32 → freeBlocks.length + inTables.card = numBlocks) := by
  have hinv := runInvariant_of_reachable h
  have hbalanced := hinv.accounted.balanced
  have hfree : ∀ block ∈ (state.manager.allocator device).freeBlocks,
      block ∈ state.manager.created ∧ block ∉ state.manager.owned := by
    intro block hblock
    exact ((hbalanced.mem_free device block).mp hblock).2
  have hnum : (state.manager.allocator device).numBlocks
      = configuredBlocks numCpuBlocks numGpuBlocks device := by
    rw [hinv.sameConfig.numBlocks_eq]
    cases device <;> rfl
  have hsum := hinv.accounted.length_free_add_card device
  rw [hnum] at hsum
  refine ⟨hbalanced.nodup_free device, ?_, ?_, hsum, ?_⟩
  . intro block hblock
    have ⟨hcreated, hown⟩ := hfree block hblock
    have := hbalanced.refCount_eq block hcreated
    rw [Multiset.count_eq_zero_of_notMem hown] at this
    exact this
  . intro sequenceId blockTable hlookup
    refine ⟨?_, hinv.accounted.device_eq sequenceId blockTable hlookup⟩
    intro block hblock
    have hown := mem_owned_of_mem hlookup hblock
    constructor
    . intro hmem
      exact (hfree block hmem).2 hown
    . rw [← hinv.accounted.count_owned]
      exact hbalanced.refCount_eq block (hbalanced.mem_univ block hown)
  . intro hlt
    rw [hsum]
    exact Nat.mod_eq_of_lt hlt

/--
A sequence with one token, in blocks of size one.
-/
def oneToken : Sequence where
  prompt := "a"
  sequenceData := SequenceData.new [7] []
  blockSize := 1
  logicalTokenBlocks := [{ blockNumber := 0, blockSize := 1, tokenIds := [7], numTokens := 1 }]
  outputText := ""
  outputLogprobs := []
  sequenceStatus := .waiting
  stopReason := none
  tokens := []

def oneTokenGroup (sequences : List SequenceRef) : SequenceGroup where
  requestId := "request"
  sequences
  arrivalTime := 0
  nextTokenChooserParams := {
    n := 1
    bestOf := 1
    temperature := 1
    topK := 0
    topP := 1
    doSample := false
    randomSeed := 0
    repetitionPenalty := 1
    repeatLastN := 0
  }
  stoppingCriteria := { maxNewTokens := 1, stopSequences := [], ignoreEosToken := false }
  logitsProcessor := { seed := 0, sampling := .argMax }

/--
A group arrives, is allocated and is forked, so that two tables share a block.
-/
theorem accounting_of_reachable_fork
    : ∃ state,
        Reachable 1 2 3 state
          ∧ state.manager.blockTables.lookup 0 = some [⟨.gpu, 2⟩]
          ∧ state.manager.blockTables.lookup 1 = some [⟨.gpu, 2⟩]
          ∧ (state.manager.allocator .gpu).freeBlocks.length
              + ((state.manager.blockTables.entries.flatMap (·.2)).toFinset.filter
                  (·.device = .gpu)).card = 3 := by
  let heap : SequenceHeap := fun _ => oneToken
  let parent : SequenceRef := ⟨0, 0⟩
  let child : SequenceRef := ⟨1, 1⟩
  let group := oneTokenGroup [parent]
  let arrived : RunState := { RunState.init 1 2 3 heap with groups := [group] }
  let allocated : RunState := {
    arrived with
    memory := {
      sequences := group.setStatusWhere heap
        (fun sequence => (heap sequence).sequenceStatus = .waiting) .running
      blockManager := (BlockSpaceManager.allocate group heap).finalState arrived.manager } }
  have harrive : Step (.init 1 2 3 heap) arrived :=
    Step.arrive _ group heap (by decide) (by decide) (fun _ _ => rfl)
  have hallocate : Step arrived allocated :=
    Step.allocate arrived group (List.mem_singleton_self _) (by decide) (by decide)
  have hfork := Step.fork allocated [] [] group [child, parent] parent child
    (oneToken.setSequenceStatus .running) rfl (List.mem_singleton_self _) (by decide) (by decide)
    rfl (List.Perm.refl _)
  have hreach : Reachable 1 2 3 _ := ⟨heap, ((Relation.ReflTransGen.refl.tail harrive).tail
    hallocate).tail hfork⟩
  exact ⟨_, hreach, by decide +kernel, by decide +kernel,
    (accounting_of_reachable hreach .gpu).2.2.2.2 (by decide)⟩

end BlockSpaceManager

end AtomaInfer
