import AtomaInfer.BlockManager.Frame
import AtomaInfer.Scheduler.Sound

/-!
What the operations of the scheduler do to a group with a single sequence.
-/

namespace AtomaInfer

namespace SequenceGroup

variable {group : SequenceGroup} {heap : SequenceHeap} {seq : SequenceRef} {status : SequenceStatus}

theorem getSeqs_eq_singleton (hgroup : group.sequences = [seq])
    (hstatus : (heap seq).sequenceStatus = status) : group.getSeqs heap status = [seq] := by
  simp [getSeqs, hgroup, hstatus]

theorem getSequencesIds_eq_singleton (hgroup : group.sequences = [seq])
    (hstatus : (heap seq).sequenceStatus = status)
    : group.getSequencesIds heap status = [seq.sequenceId] := by
  simp [getSequencesIds, getSeqs_eq_singleton hgroup hstatus]

theorem setStatusWhere_eq_self {p : SequenceRef → Bool} (h : ∀ seq ∈ group.sequences, p seq = false)
    : group.setStatusWhere heap p status = heap := by
  funext seq
  rw [setStatusWhere_apply]
  split
  . next hseq => simp [h seq hseq.1] at hseq
  . rfl

end SequenceGroup

namespace Memory

/--
The sequence is to be computed again from its first token.
-/
structure Recomputes (seq : SequenceRef) (memory memory' : Memory) : Prop extends
    Touches seq memory memory' where
  sequence_eq : memory'.sequences seq
    = ((memory.sequences seq).setSequenceStatus .waiting).resetStateForRecompute
  table_eq : memory'.table seq = none

/--
The blocks of the table are moved along `numbers` to free blocks of `target`.
-/
structure MovesBlocks (target : BlockDevice) (numbers : BlockMapping) (seq : SequenceRef)
    (memory memory' : Memory) : Prop where
  table_eq : ∃ blockTable blockTable',
    memory.table seq = some blockTable
      ∧ memory'.table seq = some blockTable'
      ∧ (∀ block ∈ blockTable', block.device = target)
      ∧ List.Forall₂ (fun block block' =>
          numbers.lookup block.blockNumber = some block'.blockNumber) blockTable blockTable'
      ∧ ∀ number number', numbers.lookup number = some number' →
          ∃ block ∈ blockTable, block.blockNumber = number
  notMem_owned : ∀ number number', numbers.lookup number = some number' →
    ⟨target, number'⟩ ∉ memory.blockManager.owned
  mem_owned : ∀ number number', numbers.lookup number = some number' →
    ⟨target, number'⟩ ∈ memory'.blockManager.owned
  injective : ∀ number₁ number₂ number',
    numbers.lookup number₁ = some number' → numbers.lookup number₂ = some number' →
      number₁ = number₂

/--
The sequence is moved to the device `target`.
-/
structure Swaps (target : BlockDevice) (status : SequenceStatus) (numbers : BlockMapping)
    (seq : SequenceRef) (memory memory' : Memory) : Prop extends Touches seq memory memory' where
  sequence_eq : memory'.sequences seq = (memory.sequences seq).setSequenceStatus status
  table_eq : ∃ blockTable blockTable',
    memory.table seq = some blockTable
      ∧ memory'.table seq = some blockTable'
      ∧ blockTable'.length = blockTable.length
  moves : memory.Unwindowed → MovesBlocks target numbers seq memory memory'

/--
The table of the sequence gets the block that it may be missing.
-/
structure Appends (seq : SequenceRef) (memory memory' : Memory) : Prop extends
    Touches seq memory memory' where
  sequences_eq : memory'.sequences = memory.sequences
  table_eq : ∃ blockTable blockTable',
    memory.table seq = some blockTable
      ∧ memory'.table seq = some blockTable'
      ∧ blockTable'.length = (memory.sequences seq).getNumTotalLogicalTokenBlocks
      ∧ (memory.Unwindowed → ∃ new, blockTable' = blockTable ++ new
          ∧ ∀ block ∈ new, block.device = .gpu)

/--
The sequence gets a table for all its tokens.
-/
structure Allocates (seq : SequenceRef) (memory memory' : Memory) : Prop extends
    Touches seq memory memory' where
  sequence_eq : memory'.sequences seq = (memory.sequences seq).setSequenceStatus .running
  table_eq : ∃ blockTable,
    memory'.table seq = some blockTable
      ∧ blockTable.length = (memory.sequences seq).getNumTotalLogicalTokenBlocks
      ∧ (memory.Unwindowed → ∀ block ∈ blockTable, block.device = .gpu)

structure Ignores (seq : SequenceRef) (memory memory' : Memory) : Prop extends
    Touches seq memory memory' where
  sequence_eq : memory'.sequences seq = (memory.sequences seq).setSequenceStatus .finishedIgnored
  blockManager_eq : memory'.blockManager = memory.blockManager

section Sound

variable {memory memory' : Memory} {seq : SequenceRef} {refs : List SequenceRef}
variable {status : SequenceStatus} {numbers : BlockMapping} {target : BlockDevice}

theorem OnDevice.device_eq {device : BlockDevice} (h : memory.OnDevice seq device)
    (hnone : memory.Unwindowed) (blockTable : BlockTable)
    (hlookup : memory.blockManager.blockTables.lookup seq.sequenceId = some blockTable)
    : ∀ block ∈ blockTable, block.device = device := by
  rcases h with ⟨_, htable, hdevice, -⟩
  have := htable.symm.trans hlookup
  cases this
  exact hdevice hnone

theorem MovesBlocks.device_eq (h : MovesBlocks target numbers seq memory memory')
    {blockTable : BlockTable} (htable : memory'.table seq = some blockTable)
    : ∀ block ∈ blockTable, block.device = target := by
  rcases h.table_eq with ⟨_, _, -, htable', htarget, -⟩
  cases htable'.symm.trans htable
  exact htarget

theorem Swaps.onDevice (h : Swaps target status numbers seq memory memory') {device : BlockDevice}
    (hdevice : memory.OnDevice seq device) : memory'.OnDevice seq target := by
  rcases h.table_eq with ⟨blockTable, blockTable', htable, htable', hlength⟩
  rcases hdevice with ⟨_, hsome, -, hfits⟩
  rw [htable] at hsome
  cases hsome
  refine ⟨blockTable', htable', fun hnone => ?_, ?_⟩
  . exact (h.moves (h.unwindowed_iff.mp hnone)).device_eq htable'
  . unfold Fits at hfits ⊢
    rw [hlength, h.sameConfig.blockSize_eq, h.sequence_eq]
    exact hfits

theorem Appends.onDevice (h : Appends seq memory memory') (hdevice : memory.OnDevice seq .gpu)
    : memory'.OnDevice seq .gpu := by
  rcases h.table_eq with ⟨blockTable, blockTable', htable, htable', hlength, hpushed⟩
  rcases hdevice with ⟨_, hsome, hgpu, hfits⟩
  rw [htable] at hsome
  cases hsome
  refine ⟨blockTable', htable', ?_, ?_⟩
  . intro hnone block hblock
    have hnone := h.unwindowed_iff.mp hnone
    rcases hpushed hnone with ⟨new, rfl, hnew⟩
    rcases List.mem_append.mp hblock with hblock | hblock
    . exact hgpu hnone block hblock
    . exact hnew block hblock
  . unfold Fits at hfits ⊢
    rw [h.sequences_eq, h.sameConfig.blockSize_eq, hlength]
    rcases hfits with ⟨hlt, hroom, hle, hdecode, -⟩
    refine ⟨hlt, hroom.trans (Nat.mul_le_mul_right _ hle), le_refl _, hdecode, fun _ => rfl⟩

theorem Touches.trans_appends {between : Memory} (h : Touches seq memory between)
    (h' : Appends seq between memory') : Touches seq memory memory' := by
  constructor
  . exact h.sameConfig.trans h'.sameConfig
  . exact fun hnone => h'.accounted (h.unwindowed_iff.mpr hnone)
  . intro other hne
    rw [h'.sequences_of_ne other hne, h.sequences_of_ne other hne]
  . exact h.keepsTokens.trans h'.keepsTokens
  . intro sequenceId hne
    rw [h'.lookup_of_ne sequenceId hne, h.lookup_of_ne sequenceId hne]
  . intro hnone table hsome block hblock
    rcases h'.fresh (h.unwindowed_iff.mpr hnone) table hsome block hblock with hold | hfree
    . cases htable : between.table seq with
      | none => simp [htable] at hold
      | some blockTable =>
        rw [htable] at hold
        exact h.fresh hnone blockTable htable block hold
    . -- a block of another sequence would not have been free in between
      by_contra hneither
      rw [not_or, not_not] at hneither
      rcases BlockSpaceManager.mem_owned_iff_lookup.mp hneither.2
        with ⟨sequenceId, blockTable, hlookup, hmem⟩
      by_cases hid : sequenceId = seq.sequenceId
      . subst hid
        exact hneither.1 (by rwa [show memory.table seq = _ from hlookup])
      . rw [← h.lookup_of_ne sequenceId hid] at hlookup
        exact hfree (BlockSpaceManager.mem_owned_of_mem hlookup hmem)

variable (hsound : memory.Sound refs) (hseq : seq ∈ refs)
include hsound hseq

theorem Sound.onDevice_of_running (hstatus : (memory.sequences seq).sequenceStatus = .running)
    : memory.OnDevice seq .gpu := by
  have := hsound.located seq hseq
  simpa only [Located, hstatus] using this

theorem Sound.onDevice_of_swapped (hstatus : (memory.sequences seq).sequenceStatus = .swapped)
    : memory.OnDevice seq .cpu := by
  have := hsound.located seq hseq
  simpa only [Located, hstatus] using this

theorem Sound.of_waiting (hstatus : (memory.sequences seq).sequenceStatus = .waiting)
    : memory.table seq = none
        ∧ (memory.sequences seq).sequenceData.numComputedTokens = 0
        ∧ (memory.sequences seq).sequenceData.stage = .prefill := by
  have := hsound.located seq hseq
  simpa only [Located, hstatus] using this

theorem Recomputes.sound (h : Recomputes seq memory memory') : memory'.Sound refs := by
  apply h.toTouches.sound hsound hseq
  simp only [Located, h.sequence_eq]
  exact ⟨h.table_eq, rfl, rfl⟩

theorem Ignores.sound (h : Ignores seq memory memory') : memory'.Sound refs := by
  apply h.toTouches.sound hsound hseq
  simp only [Located, h.sequence_eq]
  trivial

theorem Allocates.onDevice (h : Allocates seq memory memory')
    (hstatus : (memory.sequences seq).sequenceStatus = .waiting)
    (hpos : 1 ≤ (memory.sequences seq).length) : memory'.OnDevice seq .gpu := by
  rcases h.table_eq with ⟨blockTable, htable, hlength, hgpu⟩
  rcases hsound.of_waiting hseq hstatus with ⟨-, hcomputed, hstage⟩
  refine ⟨blockTable, htable, fun hnone => hgpu (h.unwindowed_iff.mp hnone), ?_⟩
  unfold Fits
  rw [h.sequence_eq]
  unfold Sequence.setSequenceStatus
  simp only [hcomputed, hstage, hlength]
  exact ⟨hpos, by omega, le_refl _, fun h => (nomatch h), fun _ => rfl⟩

theorem Swaps.sound_out (h : Swaps target .swapped numbers seq memory memory')
    (htarget : target = .cpu) (hstatus : (memory.sequences seq).sequenceStatus = .running)
    : memory'.Sound refs := by
  apply h.toTouches.sound hsound hseq
  have := h.onDevice (hsound.onDevice_of_running hseq hstatus)
  simp only [Located, h.sequence_eq, Sequence.setSequenceStatus]
  rwa [htarget] at this

theorem Swaps.sound_in (h : Swaps target .running numbers seq memory memory')
    (htarget : target = .gpu) (hstatus : (memory.sequences seq).sequenceStatus = .swapped)
    : memory'.Sound refs := by
  apply h.toTouches.sound hsound hseq
  have := h.onDevice (hsound.onDevice_of_swapped hseq hstatus)
  simp only [Located, h.sequence_eq, Sequence.setSequenceStatus]
  rwa [htarget] at this

theorem Appends.sound (h : Appends seq memory memory')
    (hstatus : (memory.sequences seq).sequenceStatus = .running) : memory'.Sound refs := by
  apply h.toTouches.sound hsound hseq
  have := h.onDevice (hsound.onDevice_of_running hseq hstatus)
  simpa only [Located, h.sequences_eq, hstatus] using this

theorem Allocates.sound (h : Allocates seq memory memory')
    (hstatus : (memory.sequences seq).sequenceStatus = .waiting)
    (hpos : 1 ≤ (memory.sequences seq).length) : memory'.Sound refs := by
  apply h.toTouches.sound hsound hseq
  have := h.onDevice hsound hseq hstatus hpos
  simpa only [Located, h.sequence_eq, Sequence.setSequenceStatus] using this

end Sound

end Memory

namespace Scheduler

open EStateM

theorem exists_onMemory_of_yields (scheduler : Scheduler) {α : Type} {x : Memory.MemoryM α}
    {Q : α → Memory → Prop} (h : Yields x scheduler.memory Q)
    : ∃ a memory, scheduler.onMemory x = .ok (a, { scheduler with memory }) ∧ Q a memory := by
  rcases h with ⟨a, memory, hrun, hQ⟩
  refine ⟨a, memory, ?_, hQ⟩
  unfold onMemory
  rw [hrun]

theorem exists_onBlockManager_of_yields (scheduler : Scheduler) {α : Type} {x : BlockSpaceM α}
    {Q : α → BlockSpaceManager → Prop} (h : Yields x scheduler.memory.blockManager Q)
    : ∃ a blockManager,
        scheduler.onMemory (Memory.onBlockManager x)
            = .ok (a, { scheduler with memory.blockManager := blockManager })
          ∧ Q a blockManager := by
  rcases h with ⟨a, blockManager, hrun, hQ⟩
  refine ⟨a, blockManager, ?_, hQ⟩
  unfold onMemory Memory.onBlockManager
  simp only [EStateM.run] at hrun ⊢
  rw [hrun]

section Specs

variable (scheduler : Scheduler) {group : SequenceGroup} {seq : SequenceRef}
variable {refs : List SequenceRef}
variable (hsound : scheduler.memory.Sound refs) (hgroup : group.sequences = [seq])
variable (hseq : seq ∈ refs)
include hsound hgroup

theorem preemptByRecompute_spec (hnone : scheduler.memory.Unwindowed)
    (hstatus : (scheduler.memory.sequences seq).sequenceStatus = .running)
    : ∃ memory,
        scheduler.preemptByRecompute group = .ok { scheduler with memory }
          ∧ Memory.Recomputes seq scheduler.memory memory := by
  rcases exists_onBlockManager_of_yields scheduler
    (BlockSpaceManager.free_yields (hsound.accounted hnone) seq.sequenceId)
    with ⟨_, manager, hfree, hconfig, hlookup, haccounted⟩
  let memory : Memory := {
    blockManager := manager
    sequences := Function.update scheduler.memory.sequences seq
      ((scheduler.memory.sequences seq).setSequenceStatus .waiting).resetStateForRecompute }
  have htable : memory.table seq = none := by
    unfold Memory.table
    rw [hlookup, if_pos rfl]
  refine ⟨memory, ?_, ⟨hconfig, fun _ => haccounted, ?_, ?_, ?_, ?_⟩, ?_, htable⟩
  . unfold preemptByRecompute freeSequence
    simp only [SequenceGroup.getSeqs_eq_singleton hgroup hstatus, List.length_singleton,
      ne_eq, not_true_eq_false, if_false, List.foldlM_cons, List.foldlM_nil, hfree]
    rfl
  . intro other hne
    exact Function.update_of_ne hne _ _
  . simp only [memory, Function.update_self]
    exact (Sequence.KeepsTokens.setSequenceStatus _ _).trans
      (Sequence.KeepsTokens.resetStateForRecompute _)
  . intro sequenceId hne
    rw [hlookup, if_neg hne]
  . simp [htable]
  . simp only [memory, Function.update_self]

theorem allocateAndSetRunning_spec (hnone : scheduler.memory.Unwindowed)
    (htable : scheduler.memory.table seq = none)
    (hstatus : (scheduler.memory.sequences seq).sequenceStatus = .waiting)
    (hcan : scheduler.memory.blockManager.canAllocate group scheduler.memory.sequences = .ok)
    : ∃ memory,
        scheduler.allocateAndSetRunning group = .ok { scheduler with memory }
          ∧ Memory.Allocates seq scheduler.memory memory := by
  have hids := SequenceGroup.getSequencesIds_eq_singleton hgroup hstatus
  rcases exists_onBlockManager_of_yields scheduler
    (BlockSpaceManager.allocate_yields (hsound.accounted hnone) (by simp [hids])
      (by simpa [hids, Memory.table] using htable) hcan)
    with ⟨_, manager, hallocate, sequence, blockTable, hfirst, hlength, -, hnew, hconfig, hlookup,
      haccounted⟩
  have hsequence : sequence = seq := by
    have := SequenceGroup.mem_getSeqs_of_getFirstSequence hfirst
    rwa [SequenceGroup.getSeqs_eq_singleton hgroup hstatus, List.mem_singleton] at this
  subst hsequence
  let memory : Memory := {
    blockManager := manager
    sequences := group.setStatusWhere scheduler.memory.sequences
      (fun seq => (scheduler.memory.sequences seq).sequenceStatus = .waiting) .running }
  have htable : memory.table sequence = some blockTable := by
    unfold Memory.table
    rw [hlookup, hids, if_pos (List.mem_singleton_self _)]
  have happly : memory.sequences sequence
      = (scheduler.memory.sequences sequence).setSequenceStatus .running := by
    simp [memory, SequenceGroup.setStatusWhere_apply, hgroup, hstatus]
  refine ⟨memory, ?_, ⟨hconfig, fun _ => haccounted, ?_, ?_, ?_, ?_⟩, happly, blockTable, htable,
    hlength, fun _ block hblock => (hnew block hblock).1⟩
  . unfold allocateAndSetRunning
    simp only [hallocate]
    rfl
  . intro other hne
    simp [memory, SequenceGroup.setStatusWhere_apply, hgroup, hne]
  . rw [happly]
    exact Sequence.KeepsTokens.setSequenceStatus _ _
  . intro sequenceId hne
    rw [hlookup, hids, if_neg (by simpa using hne)]
  . intro _ table hsome block hblock
    rw [htable] at hsome
    cases hsome
    exact .inr (hnew block hblock).2

omit hsound in
theorem one_le_of_canAppendSlots
    (hstatus : (scheduler.memory.sequences seq).sequenceStatus = .running)
    (hcan : scheduler.canAppendSlots group = true)
    : 1 ≤ scheduler.memory.blockManager.getNumFreeBlocks .gpu := by
  have hone : group.getNumSequences scheduler.memory.sequences .running = 1 := by
    unfold SequenceGroup.getNumSequences
    rw [SequenceGroup.getSeqs_eq_singleton hgroup hstatus]
    rfl
  unfold canAppendSlots BlockSpaceManager.canAppendSlots at hcan
  rw [hone, decide_eq_true_eq] at hcan
  exact hcan

theorem appendSlots_spec (hseq : seq ∈ refs) (hnone : scheduler.memory.Unwindowed)
    (hstatus : (scheduler.memory.sequences seq).sequenceStatus = .running)
    (hcan : ∀ blockTable, scheduler.memory.table seq = some blockTable
      → (scheduler.memory.sequences seq).getNumTotalLogicalTokenBlocks = blockTable.length + 1
      → 1 ≤ scheduler.memory.blockManager.getNumFreeBlocks .gpu)
    (blocksToCopy : BlockMapping)
    : ∃ memory,
        scheduler.appendSlots group blocksToCopy = .ok (blocksToCopy, { scheduler with memory })
          ∧ Memory.Appends seq scheduler.memory memory := by
  rcases hsound.onDevice_of_running hseq hstatus with ⟨blockTable, htable, hgpu, hfits⟩
  have hpos := hsound.numBlocks_pos hseq (Nat.one_le_of_lt hfits.1)
  have hyields : Yields (BlockSpaceManager.appendSlots seq.sequenceId
      (scheduler.memory.sequences seq)) scheduler.memory.blockManager fun cow manager =>
        cow = none
          ∧ Memory.Appends seq scheduler.memory
              { scheduler.memory with blockManager := manager } := by
    by_cases hfull : blockTable.length
        = (scheduler.memory.sequences seq).getNumTotalLogicalTokenBlocks
    . -- the last block is not shared, so it is not copied
      rcases List.eq_nil_or_concat blockTable with rfl | ⟨init, last, hlast⟩
      . simp only [List.length_nil] at hfull
        omega
      . rw [List.concat_eq_append] at hlast
        subst hlast
        have hcount := (hsound.unshared hnone).refCount_eq_one (hsound.accounted hnone) htable
          (List.mem_append_right init (List.mem_singleton_self last))
        refine ⟨none, scheduler.memory.blockManager, ?_, rfl, ?_⟩
        . rw [BlockSpaceManager.appendSlots_run_of_full htable hpos (by omega)]
          exact BlockSpaceManager.appendSlots.copyOnWrite_run init last hcount
        . refine ⟨⟨.refl _, hsound.accounted, fun _ _ => rfl, .refl _, fun _ _ => rfl, ?_⟩, rfl,
            init ++ [last], init ++ [last], htable, htable, hfull, fun _ => ⟨[], by simp⟩⟩
          intro _ table hsome block hblock
          left
          change scheduler.memory.table seq = some table at hsome
          rw [hsome]
          exact hblock
    . have hshort : (scheduler.memory.sequences seq).getNumTotalLogicalTokenBlocks
          = blockTable.length + 1 := by
        have := hsound.numBlocks_le hseq hfits
        have := hfits.2.2.1
        omega
      rcases BlockSpaceManager.appendSlots.pushBlock_yields (hsound.accounted hnone) htable
        (hgpu hnone) (hcan blockTable htable hshort)
        with ⟨_, manager, hrun, block, rfl, hdevice, hown, ⟨hconfig, hlookup⟩, haccounted⟩
      have htable' : Memory.table { scheduler.memory with blockManager := manager } seq
          = some (blockTable ++ [block]) := by
        unfold Memory.table
        rw [hlookup, if_pos rfl]
      refine ⟨none, manager, ?_, rfl, ?_⟩
      . rw [BlockSpaceManager.appendSlots_run_of_short htable hnone hshort]
        exact hrun
      . refine ⟨⟨hconfig, fun _ => haccounted, fun _ _ => rfl, .refl _, ?_, ?_⟩, rfl, blockTable, _,
          htable, htable', by simp [hshort], fun _ => ⟨[block], rfl, by simpa using hdevice⟩⟩
        . intro sequenceId hne
          exact (hlookup sequenceId).trans (if_neg hne)
        . intro _ table hsome block' hblock'
          rw [htable'] at hsome
          cases hsome
          rw [htable]
          rcases List.mem_append.mp hblock' with hold | hnew
          . exact .inl hold
          . rw [List.mem_singleton.mp hnew]
            exact .inr hown
  rcases exists_onBlockManager_of_yields scheduler hyields with ⟨_, manager, hrun, rfl, happends⟩
  refine ⟨_, ?_, happends⟩
  unfold appendSlots
  simp only [SequenceGroup.getSeqs_eq_singleton hgroup hstatus, List.foldlM_cons, List.foldlM_nil,
    hrun]
  rfl

omit hsound in
/--
`append_slots` does not succeed without the block that it needs.
-/
theorem one_le_of_appendSlots (hnone : scheduler.memory.Unwindowed)
    (hstatus : (scheduler.memory.sequences seq).sequenceStatus = .running)
    {blocksToCopy : BlockMapping} {result : BlockMapping × Scheduler}
    (h : scheduler.appendSlots group blocksToCopy = .ok result) (blockTable : BlockTable)
    (htable : scheduler.memory.table seq = some blockTable)
    (hshort : (scheduler.memory.sequences seq).getNumTotalLogicalTokenBlocks
      = blockTable.length + 1)
    : 1 ≤ scheduler.memory.blockManager.getNumFreeBlocks .gpu := by
  by_contra hfree
  have hrun : (BlockSpaceManager.appendSlots seq.sequenceId (scheduler.memory.sequences seq)).run
      scheduler.memory.blockManager
        = .error (.blockAllocatorError .outOfMemory) scheduler.memory.blockManager := by
    rw [BlockSpaceManager.appendSlots_run_of_short htable hnone hshort]
    unfold BlockSpaceManager.appendSlots.pushBlock
    rw [run_bind, BlockSpaceManager.allocateBlock_run_of_eq_zero (by omega)]
  unfold appendSlots at h
  simp only [SequenceGroup.getSeqs_eq_singleton hgroup hstatus, List.foldlM_cons] at h
  rcases Except.bind_eq_ok.mp h with ⟨acc, hacc, -⟩
  rcases Except.bind_eq_ok.mp hacc with ⟨⟨cow, next⟩, honMemory, -⟩
  rcases onBlockManager_eq_ok honMemory with ⟨manager, hok, -⟩
  rw [hrun] at hok
  cases hok

omit hsound in
theorem setStatuses_eq_self (before after : SequenceStatus)
    (hstatus : (scheduler.memory.sequences seq).sequenceStatus ≠ before)
    : scheduler.setStatuses group before after = scheduler := by
  unfold setStatuses
  rw [SequenceGroup.setStatusWhere_eq_self]
  intro seq' hseq'
  rw [hgroup, List.mem_singleton] at hseq'
  simpa [hseq'] using hstatus

omit hsound in
/--
The swap of a group with one sequence, read off the general one.
-/
theorem swaps_of_swapped {source target : BlockDevice} {before after : SequenceStatus}
    {memory : Memory} {numbers : BlockMapping} {mapping : BlockSpaceManager.SwapMapping}
    (hdevice : scheduler.memory.OnDevice seq source)
    (hstatus : (scheduler.memory.sequences seq).sequenceStatus = before)
    (hswapped : Memory.Swapped source target
      (group.getSequencesIds scheduler.memory.sequences before) scheduler.memory.blockManager
      memory.blockManager numbers mapping)
    (hsequences : ∀ sequence, memory.sequences sequence
      =
      if sequence ∈ group.getSeqs scheduler.memory.sequences before then
        (scheduler.memory.sequences sequence).setSequenceStatus after
      else scheduler.memory.sequences sequence)
    : Memory.Swaps target after numbers seq scheduler.memory memory := by
  have hids := SequenceGroup.getSequencesIds_eq_singleton hgroup hstatus
  rw [SequenceGroup.getSeqs_eq_singleton hgroup hstatus] at hsequences
  rw [hids] at hswapped
  rcases hswapped with ⟨hconfig, haccounted, hvalid, hnumbers, hother, hmoved⟩
  rcases hdevice with ⟨blockTable, htable, -, -⟩
  have htable₀ : scheduler.memory.blockManager.blockTables.lookup seq.sequenceId
      = some blockTable := htable
  have hrel := hmoved seq.sequenceId (List.mem_singleton_self _)
  rw [htable₀] at hrel
  obtain ⟨blockTable', htable', hsends⟩ : ∃ blockTable', memory.table seq = some blockTable'
      ∧ List.Forall₂ mapping.Sends blockTable blockTable' := by
    unfold Memory.table
    generalize memory.blockManager.blockTables.lookup seq.sequenceId = moved at hrel ⊢
    cases hrel with
    | some hsends => exact ⟨_, rfl, hsends⟩
  have hlookup : ∀ {number number'}, numbers.lookup number = some number' →
      ∃ block, mapping.lookup number = some block
        ∧ block = ⟨target, number'⟩ := by
    intro number number' hsome
    rw [hnumbers, Option.map_eq_some_iff] at hsome
    rcases hsome with ⟨block, hblock, rfl⟩
    exact ⟨block, hblock, SyncPhysicalTokenBlock.ext (hvalid.device_eq _ _ hblock) rfl⟩
  refine ⟨⟨hconfig, fun _ => haccounted, ?_, ?_, ?_, ?_⟩, ?_, ⟨blockTable, blockTable', htable,
    htable', hsends.length_eq.symm⟩, fun _ => ⟨⟨blockTable, blockTable', htable, htable', ?_, ?_, ?_⟩,
    ?_, ?_, ?_⟩⟩
  . intro other hne
    rw [hsequences, if_neg (by simpa using hne)]
  . rw [hsequences, if_pos (List.mem_singleton_self _)]
    exact Sequence.KeepsTokens.setSequenceStatus _ _
  . intro sequenceId hne
    exact hother sequenceId (by simpa using hne)
  . intro _ table hsome block hblock
    rw [htable'] at hsome
    cases hsome
    rcases hsends.exists_of_mem_right hblock with ⟨old, -, hold⟩
    exact .inr (hvalid.notMem_before _ _ hold)
  . rw [hsequences, if_pos (List.mem_singleton_self _)]
  . intro block hblock
    rcases hsends.exists_of_mem_right hblock with ⟨old, -, hold⟩
    exact hvalid.device_eq _ _ hold
  . refine hsends.imp fun block block' hblock => ?_
    have hblock : mapping.lookup block.blockNumber = some block' := hblock
    rw [hnumbers, hblock]
    rfl
  . intro number number' hsome
    rcases hlookup hsome with ⟨block, hblock, -⟩
    have := hvalid.mem_numbers _ _ hblock
    unfold BlockSpaceManager.tableNumbers at this
    rw [List.mem_toFinset, List.mem_map] at this
    rcases this with ⟨old, hold, hnumber⟩
    rw [List.flatMap_singleton, htable₀] at hold
    exact ⟨old, hold, hnumber⟩
  . intro number number' hsome
    rcases hlookup hsome with ⟨block, hblock, rfl⟩
    exact hvalid.notMem_before _ _ hblock
  . intro number number' hsome
    rcases hlookup hsome with ⟨block, hblock, rfl⟩
    exact hvalid.mem_own _ _ hblock
  . intro number₁ number₂ number' hsome₁ hsome₂
    rcases hlookup hsome₁ with ⟨block₁, hblock₁, rfl⟩
    rcases hlookup hsome₂ with ⟨block₂, hblock₂, rfl⟩
    exact hvalid.injective _ _ _ hblock₁ hblock₂

theorem swapOut_spec (hseq : seq ∈ refs) (hnone : scheduler.memory.Unwindowed)
    (hstatus : (scheduler.memory.sequences seq).sequenceStatus = .running)
    (hcan : scheduler.memory.blockManager.canSwapOut group scheduler.memory.sequences = true)
    (blocks : BlockMapping)
    : ∃ numbers memory,
        scheduler.swapOut group blocks = .ok (numbers ∪ blocks, { scheduler with memory })
          ∧ Memory.Swaps .cpu .swapped numbers seq scheduler.memory memory := by
  have hdevice := hsound.onDevice_of_running hseq hstatus
  have hids := SequenceGroup.getSequencesIds_eq_singleton hgroup hstatus
  rcases exists_onMemory_of_yields scheduler (Memory.swapOut_yields (hsound.accounted hnone)
    (by simp [hgroup]) (by simpa [hids] using hdevice.device_eq hnone) hcan)
    with ⟨numbers, memory, hrun, mapping, hswapped, hsequences⟩
  have hswaps := swaps_of_swapped scheduler hgroup hdevice hstatus hswapped hsequences
  refine ⟨numbers, memory, ?_, hswaps⟩
  unfold swapOut
  simp only [hcan, hrun]
  change Except.ok _ = _
  rw [setStatuses_eq_self _ hgroup .running .swapped (by
    rw [hswaps.sequence_eq]
    simp [Sequence.setSequenceStatus])]

theorem swapIn_spec (hseq : seq ∈ refs) (hnone : scheduler.memory.Unwindowed)
    (hstatus : (scheduler.memory.sequences seq).sequenceStatus = .swapped)
    (hcan : scheduler.memory.blockManager.canSwapIn group scheduler.memory.sequences = .ok)
    (blocks : BlockMapping)
    : ∃ numbers memory,
        scheduler.swapIn group blocks = .ok (numbers ∪ blocks, { scheduler with memory })
          ∧ Memory.Swaps .gpu .running numbers seq scheduler.memory memory := by
  have hdevice := hsound.onDevice_of_swapped hseq hstatus
  have hids := SequenceGroup.getSequencesIds_eq_singleton hgroup hstatus
  rcases exists_onMemory_of_yields scheduler (Memory.swapIn_yields (hsound.accounted hnone)
    (by simp [hgroup]) (by simpa [hids] using hdevice.device_eq hnone) hcan)
    with ⟨numbers, memory, hrun, mapping, hswapped, hsequences⟩
  have hswaps := swaps_of_swapped scheduler hgroup hdevice hstatus hswapped hsequences
  refine ⟨numbers, memory, ?_, hswaps⟩
  unfold swapIn
  simp only [hrun]
  change Except.ok _ = _
  rw [setStatuses_eq_self _ hgroup .swapped .running (by
    rw [hswaps.sequence_eq]
    simp [Sequence.setSequenceStatus])]

end Specs

section Windowed

variable {memory memory' : Memory} {group : SequenceGroup} {seq : SequenceRef}

theorem touches_of_replacesTable {blockTable : Option BlockTable} (hwindow : ¬ memory.Unwindowed)
    (hreplaces : memory.blockManager.ReplacesTable memory'.blockManager seq.sequenceId blockTable)
    (hsequences : ∀ other, other ≠ seq → memory'.sequences other = memory.sequences other)
    (hkeeps : (memory.sequences seq).KeepsTokens (memory'.sequences seq))
    : Memory.Touches seq memory memory' := by
  refine ⟨hreplaces.sameConfig, fun hnone => absurd hnone hwindow, hsequences, hkeeps, ?_,
    fun hnone => absurd hnone hwindow⟩
  intro sequenceId hne
  rw [hreplaces.lookup_eq, if_neg hne]

theorem table_of_replacesTable {blockTable : Option BlockTable}
    (hreplaces : memory.blockManager.ReplacesTable memory'.blockManager seq.sequenceId blockTable)
    : memory'.table seq = blockTable := by
  unfold Memory.table
  rw [hreplaces.lookup_eq, if_pos rfl]

/--
The swap of a group with one sequence.
-/
theorem swaps_of_swap {source target : BlockDevice} {before : SequenceStatus}
    {setStatus : Nat → Memory.MemoryM Unit} {numbers : BlockMapping} {blockTable : BlockTable}
    (after : SequenceStatus)
    (hwindow : ¬ memory.Unwindowed) (hgroup : group.sequences = [seq])
    (hstatus : (memory.sequences seq).sequenceStatus = before)
    (htable : memory.table seq = some blockTable)
    (hset : ∀ current, (setStatus seq.sequenceId).run current = .ok () {
      current with
      sequences := Function.update current.sequences seq
        ((current.sequences seq).setSequenceStatus after) })
    (h : (Memory.swap group source target before setStatus).run memory = .ok numbers memory')
    : Memory.Swaps target after numbers seq memory memory' := by
  have hids := SequenceGroup.getSequencesIds_eq_singleton hgroup hstatus
  simp only [Memory.swap, bind_run_eq_ok] at h
  rcases h with ⟨_, _, hget, mapping, _, hfold, hpure⟩
  cases hget
  cases hpure
  rw [hids] at hfold
  simp only [List.foldlM_cons, List.foldlM_nil, bind_run_eq_ok] at hfold
  rcases hfold with ⟨_, _, ⟨_, between, hswap, _, _, hstatus', hpure⟩, hpure'⟩
  cases hpure
  cases hpure'
  rw [hset] at hstatus'
  cases hstatus'
  unfold Memory.onBlockManager at hswap
  simp only [EStateM.run] at hswap
  split at hswap
  . next hrun =>
    cases hswap
    rcases BlockSpaceManager.of_swapTable hrun htable with ⟨blockTable', hreplaces, hlength⟩
    refine ⟨touches_of_replacesTable hwindow hreplaces ?_ ?_, ?_, ⟨blockTable, blockTable', htable,
      table_of_replacesTable hreplaces, hlength⟩, fun hnone => absurd hnone hwindow⟩
    . exact fun other hne => Function.update_of_ne hne _ _
    . dsimp only
      rw [Function.update_self]
      exact .setSequenceStatus _ _
    . dsimp only
      rw [Function.update_self]
  . cases hswap

end Windowed

section Effects

variable (scheduler : Scheduler) {group : SequenceGroup} {seq : SequenceRef}
variable {refs : List SequenceRef} {scheduler' : Scheduler}
variable (hsound : scheduler.memory.Sound refs) (hgroup : group.sequences = [seq])
variable (hseq : seq ∈ refs)
include hsound hgroup

theorem preemptByRecompute_effect (h : scheduler.preemptByRecompute group = .ok scheduler')
    (hstatus : (scheduler.memory.sequences seq).sequenceStatus = .running)
    : ∃ memory,
        scheduler' = { scheduler with memory }
          ∧ Memory.Recomputes seq scheduler.memory memory := by
  by_cases hnone : scheduler.memory.Unwindowed
  . rcases preemptByRecompute_spec scheduler hsound hgroup hnone hstatus with ⟨memory, hok, heffect⟩
    rw [h] at hok
    cases hok
    exact ⟨memory, rfl, heffect⟩
  . rcases preemptByRecompute_eq_ok h with ⟨seq', manager, hseqs, hrun, rfl⟩
    rw [SequenceGroup.getSeqs_eq_singleton hgroup hstatus] at hseqs
    cases hseqs
    have hreplaces := BlockSpaceManager.of_free hrun
    refine ⟨_, rfl, touches_of_replacesTable hnone hreplaces ?_ ?_, ?_,
      table_of_replacesTable hreplaces⟩
    . exact fun other hne => Function.update_of_ne hne _ _
    . dsimp only
      rw [Function.update_self]
      exact (Sequence.KeepsTokens.setSequenceStatus _ _).trans
        (Sequence.KeepsTokens.resetStateForRecompute _)
    . dsimp only
      rw [Function.update_self]

theorem allocateAndSetRunning_effect (h : scheduler.allocateAndSetRunning group = .ok scheduler')
    (htable : scheduler.memory.table seq = none)
    (hstatus : (scheduler.memory.sequences seq).sequenceStatus = .waiting)
    (hcan : scheduler.memory.blockManager.canAllocate group scheduler.memory.sequences = .ok)
    : ∃ memory,
        scheduler' = { scheduler with memory }
          ∧ Memory.Allocates seq scheduler.memory memory := by
  by_cases hnone : scheduler.memory.Unwindowed
  . rcases allocateAndSetRunning_spec scheduler hsound hgroup hnone htable hstatus hcan
      with ⟨memory, hok, heffect⟩
    rw [h] at hok
    cases hok
    exact ⟨memory, rfl, heffect⟩
  . simp only [allocateAndSetRunning, Except.bind_eq_ok] at h
    rcases h with ⟨⟨_, _⟩, hallocate, hpure⟩
    cases hpure
    rcases onBlockManager_eq_ok hallocate with ⟨manager, hrun, rfl⟩
    rcases BlockSpaceManager.of_allocate hrun hgroup hstatus with ⟨blockTable, hreplaces, hlength⟩
    have happly : group.setStatusWhere scheduler.memory.sequences
        (fun seq => (scheduler.memory.sequences seq).sequenceStatus = .waiting) .running seq
          = (scheduler.memory.sequences seq).setSequenceStatus .running := by
      simp [SequenceGroup.setStatusWhere_apply, hgroup, hstatus]
    refine ⟨_, rfl, touches_of_replacesTable hnone hreplaces ?_ ?_, happly, blockTable,
      table_of_replacesTable hreplaces, hlength, fun hnone' => absurd hnone' hnone⟩
    . intro other hne
      simp [SequenceGroup.setStatusWhere_apply, hgroup, hne]
    . dsimp only
      rw [happly]
      exact Sequence.KeepsTokens.setSequenceStatus _ _

theorem appendSlots_effect (hseq : seq ∈ refs) {blocksToCopy blocksToCopy' : BlockMapping}
    (h : scheduler.appendSlots group blocksToCopy = .ok (blocksToCopy', scheduler'))
    (hstatus : (scheduler.memory.sequences seq).sequenceStatus = .running)
    : ∃ memory,
        scheduler' = { scheduler with memory }
          ∧ (scheduler.memory.Unwindowed → blocksToCopy' = blocksToCopy)
          ∧ Memory.Appends seq scheduler.memory memory := by
  by_cases hnone : scheduler.memory.Unwindowed
  . rcases appendSlots_spec scheduler hsound hgroup hseq hnone hstatus
      (one_le_of_appendSlots scheduler hgroup hnone hstatus h) blocksToCopy
      with ⟨memory, hok, heffect⟩
    rw [h] at hok
    cases hok
    exact ⟨memory, rfl, fun _ => rfl, heffect⟩
  . rcases hsound.onDevice_of_running hseq hstatus with ⟨blockTable, htable, -, hfits⟩
    unfold appendSlots at h
    simp only [SequenceGroup.getSeqs_eq_singleton hgroup hstatus, List.foldlM_cons,
      List.foldlM_nil, Except.bind_eq_ok] at h
    rcases h with ⟨⟨_, _⟩, ⟨⟨cow, _⟩, happend, hcow⟩, hpure⟩
    cases hpure
    rcases onBlockManager_eq_ok happend with ⟨manager, hrun, rfl⟩
    rcases BlockSpaceManager.of_appendSlots hrun htable with ⟨blockTable', hreplaces, hlength⟩
    refine ⟨{ scheduler.memory with blockManager := manager }, ?_,
      fun hnone' => absurd hnone' hnone, touches_of_replacesTable hnone hreplaces (fun _ _ => rfl)
        (.refl _), rfl, blockTable, blockTable', htable, table_of_replacesTable hreplaces, ?_,
      fun hnone' => absurd hnone' hnone⟩
    . dsimp only at hcow
      split at hcow <;> cases hcow <;> rfl
    . rw [hlength]
      exact max_eq_right hfits.2.2.1

theorem swapOut_effect (hseq : seq ∈ refs) {blocks blocks' : BlockMapping}
    (h : scheduler.swapOut group blocks = .ok (blocks', scheduler'))
    (hstatus : (scheduler.memory.sequences seq).sequenceStatus = .running)
    : ∃ numbers memory,
        blocks' = numbers ∪ blocks
          ∧ scheduler' = { scheduler with memory }
          ∧ Memory.Swaps .cpu .swapped numbers seq scheduler.memory memory := by
  have hcan : scheduler.memory.blockManager.canSwapOut group scheduler.memory.sequences = true := by
    by_contra hcan
    rw [Bool.not_eq_true] at hcan
    simp only [swapOut, hcan] at h
    cases h
  by_cases hnone : scheduler.memory.Unwindowed
  . rcases swapOut_spec scheduler hsound hgroup hseq hnone hstatus hcan blocks
      with ⟨numbers, memory, hok, heffect⟩
    rw [h] at hok
    cases hok
    exact ⟨numbers, memory, rfl, rfl, heffect⟩
  . rcases hsound.onDevice_of_running hseq hstatus with ⟨blockTable, htable, -, -⟩
    simp only [swapOut, hcan, Bool.not_true, Bool.false_eq_true, if_false] at h
    rcases Except.bind_eq_ok.mp h with ⟨⟨numbers, _⟩, hswap, hpure⟩
    rcases onMemory_eq_ok hswap with ⟨memory, hrun, rfl⟩
    have hswaps := swaps_of_swap .swapped hnone hgroup hstatus htable (fun current => by
      rw [SequenceGroup.getSequenceFromId_eq_some (by simp [hgroup]) (by simp [hgroup])]
      rfl) hrun
    refine ⟨numbers, memory, ?_⟩
    have hself := setStatuses_eq_self { scheduler with memory } hgroup .running .swapped (by
      rw [hswaps.sequence_eq]
      simp [Sequence.setSequenceStatus])
    cases hpure
    exact ⟨rfl, hself, hswaps⟩

theorem swapIn_effect (hseq : seq ∈ refs) {blocks blocks' : BlockMapping}
    (h : scheduler.swapIn group blocks = .ok (blocks', scheduler'))
    (hstatus : (scheduler.memory.sequences seq).sequenceStatus = .swapped)
    (hcan : scheduler.memory.blockManager.canSwapIn group scheduler.memory.sequences = .ok)
    : ∃ numbers memory,
        blocks' = numbers ∪ blocks
          ∧ scheduler' = { scheduler with memory }
          ∧ Memory.Swaps .gpu .running numbers seq scheduler.memory memory := by
  by_cases hnone : scheduler.memory.Unwindowed
  . rcases swapIn_spec scheduler hsound hgroup hseq hnone hstatus hcan blocks
      with ⟨numbers, memory, hok, heffect⟩
    rw [h] at hok
    cases hok
    exact ⟨numbers, memory, rfl, rfl, heffect⟩
  . rcases hsound.onDevice_of_swapped hseq hstatus with ⟨blockTable, htable, -, -⟩
    rcases Except.bind_eq_ok.mp h with ⟨⟨numbers, _⟩, hswap, hpure⟩
    rcases onMemory_eq_ok hswap with ⟨memory, hrun, rfl⟩
    have hswaps := swaps_of_swap .running hnone hgroup hstatus htable (fun current => by
      have hupdate : group.setStatusWhere current.sequences (·.sequenceId = seq.sequenceId) .running
          = Function.update current.sequences seq
              ((current.sequences seq).setSequenceStatus .running) := by
        funext other
        rw [SequenceGroup.setStatusWhere_apply, hgroup]
        by_cases hother : other = seq
        . simp [hother]
        . simp [hother]
      rw [← hupdate]
      rfl) hrun
    refine ⟨numbers, memory, ?_⟩
    have hself := setStatuses_eq_self { scheduler with memory } hgroup .swapped .running (by
      rw [hswaps.sequence_eq]
      simp [Sequence.setSequenceStatus])
    cases hpure
    exact ⟨rfl, hself, hswaps⟩

end Effects

end Scheduler

end AtomaInfer
