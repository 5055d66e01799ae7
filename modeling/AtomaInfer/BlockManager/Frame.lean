import AtomaInfer.BlockManager.Accounting

/-!
What an operation of the block manager does to the block tables when it succeeds, with or without a
sliding window.
-/

namespace AtomaInfer

namespace BlockSpaceManager

open EStateM

variable {manager manager' manager'' : BlockSpaceManager} {device source target : BlockDevice}
variable {sequenceId : Nat} {blockTable : BlockTable}

/--
The configuration and the block tables are the same.
-/
def KeepsTables (manager manager' : BlockSpaceManager) : Prop :=
  manager.SameConfig manager' ∧ manager'.blockTables = manager.blockTables

theorem KeepsTables.refl (manager : BlockSpaceManager) : manager.KeepsTables manager :=
  ⟨.refl manager, rfl⟩

theorem KeepsTables.trans (h : manager.KeepsTables manager') (h' : manager'.KeepsTables manager'')
    : manager.KeepsTables manager'' :=
  ⟨h.1.trans h'.1, h'.2.trans h.2⟩

theorem keepsTables_setAllocator {allocator : BlockAllocator} {blocks : BlockHeap}
    (h : allocator.numBlocks = (manager.allocator device).numBlocks)
    : manager.KeepsTables { manager.setAllocator device allocator with blocks } := by
  constructor
  . cases device <;> refine ⟨rfl, rfl, rfl, ?_⟩ <;> intro device' <;> cases device'
    all_goals first | rfl | exact h
  . cases device <;> rfl

theorem keepsTables_of_allocateBlock {block : SyncPhysicalTokenBlock}
    (h : (allocateBlock device).run manager = .ok block manager') : manager.KeepsTables manager' := by
  simp only [allocateBlock, bind_run_eq_ok] at h
  rcases h with ⟨_, _, hget, h⟩
  cases hget
  unfold BlockAllocator.allocate at h
  split at h
  . cases h
  . next hallocate =>
    split at hallocate
    . cases hallocate
      simp only [bind_run_eq_ok] at h
      rcases h with ⟨_, _, hset, hpure⟩
      cases hset
      cases hpure
      exact keepsTables_setAllocator rfl
    . cases hallocate

theorem keepsTables_of_freeBlock {block : SyncPhysicalTokenBlock} {u : Unit}
    (h : (freeBlock device block).run manager = .ok u manager') : manager.KeepsTables manager' := by
  simp only [freeBlock, bind_run_eq_ok] at h
  rcases h with ⟨_, _, hget, h⟩
  cases hget
  split at h
  . cases h
  . next allocator blocks hfree =>
    cases h
    apply keepsTables_setAllocator
    unfold BlockAllocator.free at hfree
    split at hfree
    . cases hfree
    . split at hfree
      . cases hfree
      . dsimp only at hfree
        split at hfree <;> cases hfree <;> rfl

theorem keepsTables_of_writeBlock {block : SyncPhysicalTokenBlock}
    {f : PhysicalTokenBlock → PhysicalTokenBlock} {u : Unit}
    (h : (writeBlock block f).run manager = .ok u manager') : manager.KeepsTables manager' := by
  cases h
  exact ⟨⟨rfl, rfl, rfl, fun _ => rfl⟩, rfl⟩

/--
The table of one sequence is replaced, and nothing else.
-/
structure ReplacesTable (manager manager' : BlockSpaceManager) (sequenceId : Nat)
    (blockTable : Option BlockTable) : Prop where
  sameConfig : manager.SameConfig manager'
  lookup_eq : ∀ sequenceId', manager'.blockTables.lookup sequenceId'
    = if sequenceId' = sequenceId then blockTable else manager.blockTables.lookup sequenceId'

theorem KeepsTables.replacesTable (h : manager.KeepsTables manager')
    (hlookup : manager.blockTables.lookup sequenceId = some blockTable)
    : manager.ReplacesTable manager' sequenceId (some blockTable) := by
  refine ⟨h.1, fun sequenceId' => ?_⟩
  rw [h.2]
  split
  . next heq => rw [heq, hlookup]
  . rfl

theorem ReplacesTable.insertTable (h : manager.KeepsTables manager')
    : manager.ReplacesTable (manager'.insertTable sequenceId blockTable) sequenceId
        (some blockTable) := by
  refine ⟨h.1.trans sameConfig_insertTable, fun sequenceId' => ?_⟩
  rw [lookup_insertTable, h.2]

theorem of_pushBlock {cow : Option (Nat × Nat)}
    (h : (appendSlots.pushBlock sequenceId blockTable).run manager = .ok cow manager')
    : ∃ block, manager.ReplacesTable manager' sequenceId (some (blockTable ++ [block])) := by
  simp only [appendSlots.pushBlock, bind_run_eq_ok] at h
  rcases h with ⟨block, _, hallocate, _, _, hmodify, hpure⟩
  cases hmodify
  cases hpure
  exact ⟨block, .insertTable (keepsTables_of_allocateBlock hallocate)⟩

theorem of_copyOnWrite {cow : Option (Nat × Nat)}
    (h : (appendSlots.copyOnWrite sequenceId blockTable).run manager = .ok cow manager')
    (hlookup : manager.blockTables.lookup sequenceId = some blockTable)
    : ∃ blockTable',
        manager.ReplacesTable manager' sequenceId (some blockTable')
          ∧ blockTable'.length = blockTable.length := by
  unfold appendSlots.copyOnWrite at h
  split at h
  . cases h
  . next lastBlock hlast =>
    have hpos : 0 < blockTable.length := by
      apply List.length_pos_of_ne_nil
      rintro rfl
      cases hlast
    simp only [bind_run_eq_ok] at h
    rcases h with ⟨_, _, hget, h⟩
    cases hget
    split at h
    . cases h
      exact ⟨blockTable, (KeepsTables.refl _).replacesTable hlookup, rfl⟩
    . simp only [bind_run_eq_ok] at h
      rcases h with ⟨newBlock, _, hallocate, _, _, hfree, _, _, hmodify, hpure⟩
      cases hmodify
      cases hpure
      refine ⟨blockTable.dropLast ++ [newBlock], .insertTable
        ((keepsTables_of_allocateBlock hallocate).trans (keepsTables_of_freeBlock hfree)), ?_⟩
      rw [List.length_append, List.length_dropLast, List.length_singleton]
      omega

/--
The branches of `append_slots` that may succeed.
-/
inductive AppendSlotsCases (manager manager' : BlockSpaceManager) (sequenceId : Nat)
    (sequence : Sequence) (cow : Option (Nat × Nat)) : Prop where
  | missing (hlookup : manager.blockTables.lookup sequenceId = none) (hmanager : manager' = manager)
    : AppendSlotsCases manager manager' sequenceId sequence cow
  | push (blockTable : BlockTable)
    (hlookup : manager.blockTables.lookup sequenceId = some blockTable)
    (hlength : sequence.getNumTotalLogicalTokenBlocks = blockTable.length + 1)
    (hrun : (appendSlots.pushBlock sequenceId blockTable).run manager = .ok cow manager')
    : AppendSlotsCases manager manager' sequenceId sequence cow
  | reuse (blockTable : BlockTable) (block : SyncPhysicalTokenBlock) (blockSlidingWindow : Nat)
    (hlookup : manager.blockTables.lookup sequenceId = some blockTable)
    (hsome : manager.blockSlidingWindow = some blockSlidingWindow)
    (hpos : 0 < blockSlidingWindow)
    (hwindow : blockSlidingWindow ≤ blockTable.length)
    (hblock : blockTable[blockTable.length % blockSlidingWindow]? = some block)
    (hlength : sequence.getNumTotalLogicalTokenBlocks = blockTable.length + 1)
    (hrun : (appendSlots.copyOnWrite sequenceId (blockTable ++ [block])).run
      (manager.insertTable sequenceId (blockTable ++ [block])) = .ok cow manager')
    : AppendSlotsCases manager manager' sequenceId sequence cow
  | full (blockTable : BlockTable)
    (hlookup : manager.blockTables.lookup sequenceId = some blockTable)
    (hlength : sequence.getNumTotalLogicalTokenBlocks ≤ blockTable.length)
    (hrun : (appendSlots.copyOnWrite sequenceId blockTable).run manager = .ok cow manager')
    : AppendSlotsCases manager manager' sequenceId sequence cow

theorem appendSlots_cases {sequence : Sequence} {cow : Option (Nat × Nat)}
    (h : (appendSlots sequenceId sequence).run manager = .ok cow manager')
    : AppendSlotsCases manager manager' sequenceId sequence cow := by
  simp only [appendSlots] at h
  split at h
  . cases h
  . simp only [bind_run_eq_ok] at h
    rcases h with ⟨_, _, hget, h⟩
    cases hget
    split at h
    . next hlookup =>
      cases h
      exact .missing hlookup rfl
    . next blockTable hlookup =>
      split at h
      . next hshort =>
        split at h
        . cases h
        . next hone =>
          have hlength : sequence.getNumTotalLogicalTokenBlocks = blockTable.length + 1 := by omega
          split at h
          . exact .push blockTable hlookup hlength h
          . next blockSlidingWindow hsome =>
            split at h
            . next hwindow =>
              split at h
              . cases h
              . next hpos =>
                split at h
                . cases h
                . next block hblock =>
                  simp only [bind_run_eq_ok] at h
                  rcases h with ⟨_, _, hmodify, h⟩
                  cases hmodify
                  exact .reuse blockTable block blockSlidingWindow hlookup hsome (by omega) hwindow
                    hblock hlength h
            . exact .push blockTable hlookup hlength h
      . next hfull => exact .full blockTable hlookup (by omega) h

/--
A table that is one block behind catches up; one that is not keeps its length.
-/
theorem of_appendSlots {sequence : Sequence} {cow : Option (Nat × Nat)}
    (h : (appendSlots sequenceId sequence).run manager = .ok cow manager')
    (hlookup : manager.blockTables.lookup sequenceId = some blockTable)
    : ∃ blockTable',
        manager.ReplacesTable manager' sequenceId (some blockTable')
          ∧ blockTable'.length
              = max blockTable.length sequence.getNumTotalLogicalTokenBlocks := by
  cases appendSlots_cases h with
  | missing hnone _ =>
    rw [hlookup] at hnone
    cases hnone
  | push table hsome hlength hrun =>
    rw [hlookup] at hsome
    cases hsome
    rcases of_pushBlock hrun with ⟨block, hreplaces⟩
    refine ⟨_, hreplaces, ?_⟩
    rw [List.length_append, List.length_singleton]
    omega
  | reuse table block _ hsome _ _ _ _ hlength hrun =>
    rw [hlookup] at hsome
    cases hsome
    rcases of_copyOnWrite hrun (by simp) with ⟨blockTable', hreplaces, hlength'⟩
    refine ⟨blockTable', ⟨sameConfig_insertTable.trans hreplaces.sameConfig, ?_⟩, ?_⟩
    . intro sequenceId'
      rw [hreplaces.lookup_eq, lookup_insertTable]
      split <;> rfl
    . rw [hlength', List.length_append, List.length_singleton]
      omega
  | full table hsome hlength hrun =>
    rw [hlookup] at hsome
    cases hsome
    rcases of_copyOnWrite hrun hlookup with ⟨blockTable', hreplaces, hlength'⟩
    exact ⟨blockTable', hreplaces, by rw [hlength']; omega⟩

/--
The branches of the loop of `allocate` that may succeed: the block is a new one, or it is already in
the table.
-/
theorem logicalBlock_cases {refCount logicalIdx : Nat} {blockTable' : BlockTable}
    (h : (allocate.logicalBlock refCount blockTable logicalIdx).run manager
      = .ok blockTable' manager')
    : ∃ block between,
        blockTable' = blockTable ++ [block]
          ∧ (writeBlock block (·.setRefCountBy refCount)).run between = .ok () manager'
          ∧ ((allocateBlock .gpu).run manager = .ok block between
            ∨ between = manager ∧ ∃ blockSlidingWindow,
                manager.blockSlidingWindow = some blockSlidingWindow
                  ∧ 0 < blockSlidingWindow
                  ∧ blockSlidingWindow ≤ logicalIdx
                  ∧ blockTable[logicalIdx % blockSlidingWindow]? = some block) := by
  have hrest : ∀ {block between},
      (writeBlock block (·.setRefCountBy refCount) >>= fun _ =>
        pure (blockTable ++ [block])).run between = .ok blockTable' manager' →
      blockTable' = blockTable ++ [block]
        ∧ (writeBlock block (·.setRefCountBy refCount)).run between = .ok () manager' := by
    intro block between h
    rw [bind_run_eq_ok] at h
    rcases h with ⟨_, _, hwrite, hpure⟩
    cases hpure
    exact ⟨rfl, hwrite⟩
  have hnew : ((allocateBlock .gpu) >>= fun block =>
      writeBlock block (·.setRefCountBy refCount) >>= fun _ =>
        pure (blockTable ++ [block])).run manager = .ok blockTable' manager' →
      ∃ block between,
        blockTable' = blockTable ++ [block]
          ∧ (writeBlock block (·.setRefCountBy refCount)).run between = .ok () manager'
          ∧ (allocateBlock .gpu).run manager = .ok block between := by
    intro h
    rw [bind_run_eq_ok] at h
    rcases h with ⟨block, between, hallocate, h⟩
    exact ⟨block, between, (hrest h).1, (hrest h).2, hallocate⟩
  unfold allocate.logicalBlock at h
  rw [bind_run_eq_ok] at h
  rcases h with ⟨_, _, hget, h⟩
  cases hget
  split at h
  . next blockSlidingWindow hsome =>
    split at h
    . next hwindow =>
      split at h
      . cases h
      . next hpos =>
        split at h
        . next block hblock =>
          exact ⟨block, manager, (hrest h).1, (hrest h).2,
            .inr ⟨rfl, blockSlidingWindow, hsome, by omega, hwindow, hblock⟩⟩
        . cases h
    . rcases hnew h with ⟨block, between, htable, hwrite, hallocate⟩
      exact ⟨block, between, htable, hwrite, .inl hallocate⟩
  . rcases hnew h with ⟨block, between, htable, hwrite, hallocate⟩
    exact ⟨block, between, htable, hwrite, .inl hallocate⟩

theorem keepsTables_of_logicalBlock {refCount logicalIdx : Nat} {blockTable' : BlockTable}
    (h : (allocate.logicalBlock refCount blockTable logicalIdx).run manager
      = .ok blockTable' manager')
    : manager.KeepsTables manager' ∧ blockTable'.length = blockTable.length + 1 := by
  rcases logicalBlock_cases h with ⟨block, between, rfl, hwrite, hblock⟩
  refine ⟨?_, by simp⟩
  rcases hblock with hallocate | ⟨rfl, -⟩
  . exact (keepsTables_of_allocateBlock hallocate).trans (keepsTables_of_writeBlock hwrite)
  . exact keepsTables_of_writeBlock hwrite

theorem of_allocate {group : SequenceGroup} {heap : SequenceHeap} {seq : SequenceRef} {u : Unit}
    (h : (allocate group heap).run manager = .ok u manager')
    (hgroup : group.sequences = [seq]) (hstatus : (heap seq).sequenceStatus = .waiting)
    : ∃ blockTable,
        manager.ReplacesTable manager' seq.sequenceId (some blockTable)
          ∧ blockTable.length = (heap seq).getNumTotalLogicalTokenBlocks := by
  have hfirst : group.getFirstSequence heap .waiting = some seq := by
    simp [SequenceGroup.getFirstSequence, hgroup, hstatus]
  have hids : group.getSequencesIds heap .waiting = [seq.sequenceId] := by
    simp [SequenceGroup.getSequencesIds, SequenceGroup.getSeqs, hgroup, hstatus]
  simp only [allocate, hfirst, hids, bind_run_eq_ok] at h
  rcases h with ⟨blockTable, between, hfold, hmodify⟩
  cases hmodify
  have hinv : manager.KeepsTables between
      ∧ blockTable.length + ([] : List Nat).length
        = (heap seq).getNumTotalLogicalTokenBlocks := by
    refine foldlM_run_invariant
      (I := fun rest table current => manager.KeepsTables current
        ∧ table.length + rest.length = (heap seq).getNumTotalLogicalTokenBlocks)
      ?_ hfold ⟨.refl _, by simp⟩
    intro logicalIdx rest table table' current next hI hstep
    rcases keepsTables_of_logicalBlock hstep with ⟨hkeeps, hlength⟩
    refine ⟨hI.1.trans hkeeps, ?_⟩
    have := hI.2
    rw [List.length_cons] at this
    omega
  exact ⟨blockTable, .insertTable hinv.1, hinv.2⟩

theorem keepsTables_of_swapBlock {acc acc' : SwapMapping × BlockTable}
    {block : SyncPhysicalTokenBlock}
    (h : (swapBlock source target acc block).run manager = .ok acc' manager')
    : manager.KeepsTables manager' ∧ acc'.2.length = acc.2.length + 1 := by
  simp only [swapBlock, bind_run_eq_ok] at h
  rcases h with ⟨⟨mapping, newBlock⟩, between, hnew, _, _, hfree, hpure⟩
  cases hpure
  refine ⟨KeepsTables.trans ?_ (keepsTables_of_freeBlock hfree), by simp⟩
  unfold swapBlock.newBlock at hnew
  split at hnew
  . simp only [bind_run_eq_ok] at hnew
    rcases hnew with ⟨_, _, hallocate, hpure⟩
    cases hpure
    exact keepsTables_of_allocateBlock hallocate
  . simp only [bind_run_eq_ok] at hnew
    rcases hnew with ⟨_, _, hwrite, hpure⟩
    cases hpure
    exact keepsTables_of_writeBlock hwrite

theorem of_swapTable {mapping mapping' : SwapMapping}
    (h : (swapTable source target mapping sequenceId).run manager = .ok mapping' manager')
    (hlookup : manager.blockTables.lookup sequenceId = some blockTable)
    : ∃ blockTable',
        manager.ReplacesTable manager' sequenceId (some blockTable')
          ∧ blockTable'.length = blockTable.length := by
  simp only [swapTable, bind_run_eq_ok] at h
  rcases h with ⟨_, _, hget, h⟩
  cases hget
  rw [hlookup] at h
  simp only [bind_run_eq_ok] at h
  rcases h with ⟨⟨mapping'', newBlockTable⟩, between, hfold, _, _, hmodify, hpure⟩
  cases hmodify
  cases hpure
  have hinv : manager.KeepsTables between
      ∧ newBlockTable.length + ([] : BlockTable).length = blockTable.length := by
    refine foldlM_run_invariant
      (I := fun rest (acc : SwapMapping × BlockTable) current => manager.KeepsTables current
        ∧ acc.2.length + rest.length = blockTable.length)
      ?_ hfold ⟨.refl _, by simp⟩
    intro block rest acc acc' current next hI hstep
    rcases keepsTables_of_swapBlock hstep with ⟨hkeeps, hlength⟩
    refine ⟨hI.1.trans hkeeps, ?_⟩
    have := hI.2
    rw [List.length_cons] at this
    omega
  exact ⟨newBlockTable, .insertTable hinv.1, hinv.2⟩

theorem keepsTables_of_freeUnseen (blocks : BlockTable) {blockIds : List Nat}
    (h : (blocks.foldlM freeBlockTable.freeUnseen []).run manager = .ok blockIds manager')
    : manager.KeepsTables manager' := by
  refine foldlM_run_invariant (I := fun _ _ current => manager.KeepsTables current) ?_ h (.refl _)
  intro block rest blockIds blockIds' current next hI hstep
  refine hI.trans ?_
  unfold freeBlockTable.freeUnseen at hstep
  split at hstep
  . cases hstep
    exact .refl _
  . simp only [bind_run_eq_ok] at hstep
    rcases hstep with ⟨_, _, hfree, hpure⟩
    cases hpure
    exact keepsTables_of_freeBlock hfree

theorem keepsTables_of_freeBlockTable {u : Unit}
    (h : (freeBlockTable blockTable).run manager = .ok u manager')
    : manager.KeepsTables manager' := by
  unfold freeBlockTable at h
  rw [bind_run_eq_ok] at h
  rcases h with ⟨_, _, hget, h⟩
  cases hget
  split at h
  . simp only [bind_run_eq_ok] at h
    rcases h with ⟨_, _, hblocks, _, _, hfold, hpure⟩
    cases hblocks
    cases hpure
    exact keepsTables_of_freeUnseen _ hfold
  . split at h
    . simp only [bind_run_eq_ok] at h
      rcases h with ⟨_, _, hblocks, _, _, hfold, hpure⟩
      cases hblocks
      cases hpure
      exact keepsTables_of_freeUnseen _ hfold
    . simp only [bind_run_eq_ok] at h
      rcases h with ⟨_, _, hthrow, -⟩
      cases hthrow

theorem of_free {u : Unit} (h : (free sequenceId).run manager = .ok u manager')
    : manager.ReplacesTable manager' sequenceId none := by
  simp only [free, bind_run_eq_ok] at h
  rcases h with ⟨_, _, hget, h⟩
  cases hget
  split at h
  . next hnone =>
    cases h
    refine ⟨.refl _, fun sequenceId' => ?_⟩
    split
    . next heq => rw [heq, hnone]
    . rfl
  . simp only [bind_run_eq_ok] at h
    rcases h with ⟨_, between, hfree, hmodify⟩
    cases hmodify
    have hkeeps := keepsTables_of_freeBlockTable hfree
    refine ⟨hkeeps.1.trans (sameConfig_blockTables _), fun sequenceId' => ?_⟩
    dsimp only
    rw [hkeeps.2]
    split
    . next heq => rw [heq, AList.lookup_erase]
    . next hne => rw [AList.lookup_erase_ne hne]

end BlockSpaceManager

end AtomaInfer
