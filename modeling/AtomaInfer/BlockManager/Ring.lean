import AtomaInfer.Util.Ring
import AtomaInfer.BlockManager.CopyOnWrite
import AtomaInfer.BlockManager.Frame

/-!
Block tables under a sliding window: `allocate` and `append_slots` run around the first blocks of the
table, so the blocks of one window are distinct.
-/

namespace AtomaInfer

namespace BlockSpaceManager

open EStateM

variable {manager manager' : BlockSpaceManager} {device : BlockDevice}
variable {block : SyncPhysicalTokenBlock} {blockTable : BlockTable}
variable {sequenceId blockSlidingWindow : Nat}

theorem sameTables_of_allocateBlock (h : (allocateBlock device).run manager = .ok block manager')
    : ∃ rest, manager.pool.free device = block :: rest
        ∧ manager.SameTables manager' (manager.pool.take device block rest) := by
  rcases allocateBlock_yields (one_le_of_allocateBlock h) with ⟨block', next, hrun, rest, hrest⟩
  rw [h] at hrun
  cases hrun
  exact ⟨rest, hrest⟩

theorem sameTables_of_freeBlock {u : Unit}
    (h : (freeBlock device block).run manager = .ok u manager')
    : 1 ≤ manager.pool.refCount block
        ∧ manager.SameTables manager' (manager.pool.release device block) := by
  have hpos : 1 ≤ manager.pool.refCount block := by
    by_contra hzero
    have hcount : (manager.blocks block).refCount = 0 := by
      change ¬ 1 ≤ (manager.blocks block).refCount at hzero
      omega
    simp only [freeBlock, BlockAllocator.free, hcount, if_true, run_bind, run_get] at h
    cases h
  rcases freeBlock_yields hpos with ⟨u', next, hrun, hsame⟩
  rw [h] at hrun
  cases hrun
  exact ⟨hpos, hsame⟩

/--
The free blocks of the GPU are what an allocator makes of them.
-/
structure SoundFree (manager : BlockSpaceManager) : Prop where
  nodup : (manager.pool.free .gpu).Nodup
  device_eq : ∀ block ∈ manager.pool.free .gpu, block.device = .gpu

theorem soundFree_new (blockSize numCpuBlocks numGpuBlocks : Nat) (slidingWindow : Option Nat)
    : (new blockSize numCpuBlocks numGpuBlocks slidingWindow).SoundFree := by
  constructor
  . exact (accounted_new blockSize numCpuBlocks numGpuBlocks).balanced.nodup_free .gpu
  . intro block hblock
    exact (mem_free_new.mp hblock).1

/--
`manager'` has no free block of the GPU that `manager` has not.
-/
structure Draws (manager manager' : BlockSpaceManager) : Prop where
  sameConfig : manager.SameConfig manager'
  sublist : (manager'.pool.free .gpu).Sublist (manager.pool.free .gpu)

theorem Draws.refl (manager : BlockSpaceManager) : manager.Draws manager :=
  ⟨.refl manager, .refl _⟩

theorem Draws.trans {manager'' : BlockSpaceManager} (h : manager.Draws manager')
    (h' : manager'.Draws manager'') : manager.Draws manager'' :=
  ⟨h.sameConfig.trans h'.sameConfig, h'.sublist.trans h.sublist⟩

theorem Draws.soundFree (h : manager.Draws manager') (hfree : manager.SoundFree)
    : manager'.SoundFree :=
  ⟨hfree.nodup.sublist h.sublist, fun block hblock => hfree.device_eq block (h.sublist.mem hblock)⟩

theorem Draws.insertTable (h : manager.Draws manager')
    : manager.Draws (manager'.insertTable sequenceId blockTable) :=
  ⟨h.sameConfig.trans sameConfig_insertTable, h.sublist⟩

theorem draws_of_allocateBlock (h : (allocateBlock .gpu).run manager = .ok block manager')
    : manager.Draws manager' ∧ manager.pool.free .gpu = block :: manager'.pool.free .gpu
        ∧ manager'.blockTables = manager.blockTables := by
  rcases sameTables_of_allocateBlock h with ⟨rest, hrest, hsame⟩
  have hfree : manager'.pool.free .gpu = rest := by
    rw [hsame.pool_eq]
    simp [RefPool.take]
  refine ⟨⟨hsame.toSameConfig, ?_⟩, ?_, hsame.blockTables_eq⟩
  . rw [hrest, hfree]
    exact List.sublist_cons_self block rest
  . rw [hrest, hfree]

theorem draws_of_writeBlock {f : PhysicalTokenBlock → PhysicalTokenBlock} {u : Unit}
    (h : (writeBlock block f).run manager = .ok u manager')
    : manager.Draws manager' := by
  have hkeeps := keepsTables_of_writeBlock h
  cases h
  exact ⟨hkeeps.1, .refl _⟩

/--
The blocks of a table under a sliding window.
-/
structure Ringed (manager : BlockSpaceManager) (blockSlidingWindow : Nat) (blockTable : BlockTable)
    : Prop where
  blockSlidingWindow_eq : manager.blockSlidingWindow = some blockSlidingWindow
  soundFree : manager.SoundFree
  isRing : List.IsRing blockSlidingWindow blockTable
  notMem_free : ∀ block ∈ blockTable, block ∉ manager.pool.free .gpu
  device_eq : ∀ block ∈ blockTable, block.device = .gpu

namespace Ringed

theorem congr (h : manager.Ringed blockSlidingWindow blockTable) (hdraws : manager.Draws manager')
    : manager'.Ringed blockSlidingWindow blockTable where
  blockSlidingWindow_eq := by
    rw [hdraws.sameConfig.blockSlidingWindow_eq, h.blockSlidingWindow_eq]
  soundFree := hdraws.soundFree h.soundFree
  isRing := h.isRing
  notMem_free block hblock hfree := h.notMem_free block hblock (hdraws.sublist.mem hfree)
  device_eq := h.device_eq

theorem of_append {rest : BlockTable} (h : manager.Ringed blockSlidingWindow (blockTable ++ rest))
    : manager.Ringed blockSlidingWindow blockTable where
  blockSlidingWindow_eq := h.blockSlidingWindow_eq
  soundFree := h.soundFree
  isRing := h.isRing.of_append
  notMem_free block hblock := h.notMem_free block (List.mem_append_left _ hblock)
  device_eq block hblock := h.device_eq block (List.mem_append_left _ hblock)

/--
A free block goes to the end of the table.
-/
theorem push (h : manager.Ringed blockSlidingWindow blockTable) (hdraws : manager.Draws manager')
    (hmem : block ∈ manager.pool.free .gpu) (hnotMem : block ∉ manager'.pool.free .gpu)
    : manager'.Ringed blockSlidingWindow (blockTable ++ [block]) where
  blockSlidingWindow_eq := (h.congr hdraws).blockSlidingWindow_eq
  soundFree := (h.congr hdraws).soundFree
  isRing := h.isRing.push fun hblock => h.notMem_free block hblock hmem
  notMem_free block' hblock' := by
    rcases List.mem_append.mp hblock' with hblock' | hblock'
    . exact (h.congr hdraws).notMem_free block' hblock'
    . rwa [List.mem_singleton.mp hblock']
  device_eq block' hblock' := by
    rcases List.mem_append.mp hblock' with hblock' | hblock'
    . exact h.device_eq block' hblock'
    . rw [List.mem_singleton.mp hblock']
      exact h.soundFree.device_eq block hmem

/--
A block of the table goes to its end once more.
-/
theorem reuse (h : manager.Ringed blockSlidingWindow blockTable) (hpos : 0 < blockSlidingWindow)
    (hwindow : blockSlidingWindow ≤ blockTable.length)
    (hblock : blockTable[blockTable.length % blockSlidingWindow]? = some block)
    : manager.Ringed blockSlidingWindow (blockTable ++ [block]) where
  blockSlidingWindow_eq := h.blockSlidingWindow_eq
  soundFree := h.soundFree
  isRing := h.isRing.reuse hpos hwindow hblock
  notMem_free block' hblock' := by
    rcases List.mem_append.mp hblock' with hblock' | hblock'
    . exact h.notMem_free block' hblock'
    . rw [List.mem_singleton.mp hblock']
      exact h.notMem_free block (List.mem_of_getElem? hblock)
  device_eq block' hblock' := by
    rcases List.mem_append.mp hblock' with hblock' | hblock'
    . exact h.device_eq block' hblock'
    . rw [List.mem_singleton.mp hblock']
      exact h.device_eq block (List.mem_of_getElem? hblock)

theorem of_allocateBlock (h : manager.Ringed blockSlidingWindow blockTable)
    (hrun : (allocateBlock .gpu).run manager = .ok block manager')
    : manager'.Ringed blockSlidingWindow (blockTable ++ [block]) := by
  rcases draws_of_allocateBlock hrun with ⟨hdraws, hfree, -⟩
  have hnodup := h.soundFree.nodup
  rw [hfree, List.nodup_cons] at hnodup
  exact h.push hdraws (by rw [hfree]; exact List.mem_cons_self) hnodup.1

end Ringed

/--
The copy on write, whether the table is known or not.
-/
structure CopiesLast (manager manager' : BlockSpaceManager) (sequenceId : Nat) (blockTable : BlockTable)
    (block : SyncPhysicalTokenBlock) : Prop where
  draws : manager.Draws manager'
  mem_free : block ∈ manager.pool.free .gpu
  notMem_free : manager.SoundFree → blockTable.getLast? ≠ some block →
    block ∉ manager'.pool.free .gpu
  replacesTable :
    manager.ReplacesTable manager' sequenceId (some (blockTable.dropLast ++ [block]))

theorem copiesLast_of_copyOnWrite {cow : Option (Nat × Nat)}
    (h : (appendSlots.copyOnWrite sequenceId blockTable).run manager = .ok cow manager')
    : manager' = manager ∨ ∃ block, CopiesLast manager manager' sequenceId blockTable block := by
  unfold appendSlots.copyOnWrite at h
  split at h
  . cases h
  . next last hlast =>
    simp only [bind_run_eq_ok] at h
    rcases h with ⟨_, _, hget, h⟩
    cases hget
    split at h
    . cases h
      exact .inl rfl
    . next hcount =>
      right
      simp only [bind_run_eq_ok] at h
      rcases h with ⟨block, allocated, hallocate, _, freed, hfree, _, _, hmodify, hpure⟩
      cases hmodify
      cases hpure
      rcases sameTables_of_allocateBlock hallocate with ⟨rest, hrest, hallocated⟩
      rcases draws_of_allocateBlock hallocate with ⟨hdraws, hcons, -⟩
      rcases sameTables_of_freeBlock hfree with ⟨-, hfreed⟩
      have hrelease : freed.pool.free .gpu
          = if allocated.pool.refCount last = 1 then last :: allocated.pool.free .gpu
            else allocated.pool.free .gpu := by
        rw [hfreed.pool_eq]
        unfold RefPool.release
        split <;> simp
      have hother : last ≠ block → freed.pool.free .gpu = allocated.pool.free .gpu := by
        intro hne
        rw [hrelease, if_neg]
        have hcount' : manager.pool.refCount last ≠ 1 := hcount
        rw [hallocated.pool_eq]
        simpa [RefPool.take, hne] using hcount'
      have hsublist : (freed.pool.free .gpu).Sublist (manager.pool.free .gpu) := by
        by_cases hne : last = block
        . rw [hrelease, hcons, hne]
          split
          . exact .refl _
          . exact List.sublist_cons_self _ _
        . rw [hother hne]
          exact hdraws.sublist
      have hkeeps := (keepsTables_of_allocateBlock hallocate).trans (keepsTables_of_freeBlock hfree)
      refine ⟨block, ⟨hkeeps.1.trans sameConfig_insertTable, hsublist⟩, ?_, ?_,
        .insertTable hkeeps⟩
      . rw [hcons]
        exact List.mem_cons_self
      . intro hsound hne
        rw [hlast] at hne
        have hnodup := hsound.nodup
        rw [hcons, List.nodup_cons] at hnodup
        have heq := hother fun heq => hne (by rw [heq])
        change block ∉ freed.pool.free .gpu
        rw [heq]
        exact hnodup.1

theorem Ringed.of_copyOnWrite {cow : Option (Nat × Nat)}
    (h : manager.Ringed blockSlidingWindow blockTable)
    (hlookup : manager.blockTables.lookup sequenceId = some blockTable)
    (hrun : (appendSlots.copyOnWrite sequenceId blockTable).run manager = .ok cow manager')
    : ∃ blockTable', manager'.blockTables.lookup sequenceId = some blockTable'
        ∧ manager'.Ringed blockSlidingWindow blockTable' := by
  rcases copiesLast_of_copyOnWrite hrun with rfl | ⟨block, hcopies⟩
  . exact ⟨blockTable, hlookup, h⟩
  . refine ⟨blockTable.dropLast ++ [block], ?_, ?_⟩
    . rw [hcopies.replacesTable.lookup_eq, if_pos rfl]
    . have hnotLast : blockTable.getLast? ≠ some block := fun hlast =>
        h.notMem_free block (List.mem_of_getLast? hlast) hcopies.mem_free
      have hinit : manager.Ringed blockSlidingWindow blockTable.dropLast := by
        rcases List.eq_nil_or_concat blockTable with rfl | ⟨init, last, rfl⟩
        . exact h
        . rw [List.concat_eq_append] at h ⊢
          rw [List.dropLast_concat]
          exact h.of_append
      exact hinit.push hcopies.draws hcopies.mem_free (hcopies.notMem_free h.soundFree hnotLast)

theorem Ringed.of_pushBlock {cow : Option (Nat × Nat)}
    (h : manager.Ringed blockSlidingWindow blockTable)
    (hrun : (appendSlots.pushBlock sequenceId blockTable).run manager = .ok cow manager')
    : ∃ blockTable', manager'.blockTables.lookup sequenceId = some blockTable'
        ∧ manager'.Ringed blockSlidingWindow blockTable' := by
  simp only [appendSlots.pushBlock, bind_run_eq_ok] at hrun
  rcases hrun with ⟨block, next, hallocate, _, _, hmodify, hpure⟩
  cases hmodify
  cases hpure
  refine ⟨blockTable ++ [block], by rw [lookup_insertTable, if_pos rfl], ?_⟩
  exact (h.of_allocateBlock hallocate).congr (Draws.refl next).insertTable

/--
`append_slots` keeps to the ring.
-/
theorem Ringed.of_appendSlots {sequence : Sequence} {cow : Option (Nat × Nat)}
    (h : manager.Ringed blockSlidingWindow blockTable)
    (hlookup : manager.blockTables.lookup sequenceId = some blockTable)
    (hrun : (appendSlots sequenceId sequence).run manager = .ok cow manager')
    : ∃ blockTable', manager'.blockTables.lookup sequenceId = some blockTable'
        ∧ manager'.Ringed blockSlidingWindow blockTable' := by
  cases appendSlots_cases hrun with
  | missing hnone _ =>
    rw [hlookup] at hnone
    cases hnone
  | push table hsome _ hpush =>
    rw [hlookup] at hsome
    cases hsome
    exact h.of_pushBlock hpush
  | reuse table block window hsome hwindow hpos hlength hblock _ hcopy =>
    rw [hlookup] at hsome
    cases hsome
    rw [h.blockSlidingWindow_eq] at hwindow
    cases hwindow
    have hreuse := h.reuse hpos hlength hblock
    exact (hreuse.congr (Draws.refl manager).insertTable).of_copyOnWrite
      (by rw [lookup_insertTable, if_pos rfl]) hcopy
  | full table hsome _ hcopy =>
    rw [hlookup] at hsome
    cases hsome
    exact h.of_copyOnWrite hlookup hcopy

/--
A round of the loop of `allocate` keeps to the ring.
-/
theorem Ringed.of_logicalBlock {refCount : Nat} {blockTable' : BlockTable}
    (h : manager.Ringed blockSlidingWindow blockTable)
    (hrun : (allocate.logicalBlock refCount blockTable blockTable.length).run manager
      = .ok blockTable' manager')
    : manager'.Ringed blockSlidingWindow blockTable'
        ∧ blockTable'.length = blockTable.length + 1 := by
  rcases logicalBlock_cases hrun with ⟨block, between, rfl, hwrite, hblock⟩
  refine ⟨?_, by simp⟩
  rcases hblock with hallocate | ⟨rfl, window, hsome, hpos, hwindow, hblock⟩
  . exact (h.of_allocateBlock hallocate).congr (draws_of_writeBlock hwrite)
  . rw [h.blockSlidingWindow_eq] at hsome
    cases hsome
    exact (h.reuse hpos hwindow hblock).congr (draws_of_writeBlock hwrite)

theorem draws_of_logicalBlock {refCount logicalIdx : Nat} {blockTable' : BlockTable}
    (hrun : (allocate.logicalBlock refCount blockTable logicalIdx).run manager
      = .ok blockTable' manager')
    : manager.Draws manager' := by
  rcases logicalBlock_cases hrun with ⟨block, between, -, hwrite, hblock⟩
  rcases hblock with hallocate | ⟨rfl, -⟩
  . exact (draws_of_allocateBlock hallocate).1.trans (draws_of_writeBlock hwrite)
  . exact draws_of_writeBlock hwrite

/--
The table that `allocate` makes.
-/
theorem ringed_of_foldlM {refCount numBlocks : Nat} (hfree : manager.SoundFree)
    (hwindow : manager.blockSlidingWindow = some blockSlidingWindow)
    (hrun : ((List.range numBlocks).foldlM (allocate.logicalBlock refCount) []).run manager
      = .ok blockTable manager')
    : manager'.Ringed blockSlidingWindow blockTable := by
  have hstart : manager.Ringed blockSlidingWindow [] :=
    ⟨hwindow, hfree, .nil, by simp, by simp⟩
  have hinv := foldlM_run_invariant
    (I := fun rest table (current : BlockSpaceManager) =>
      current.Ringed blockSlidingWindow table ∧ rest = List.range' table.length rest.length)
    (by
      intro logicalIdx rest table table' current next hI hstep
      rcases hI with ⟨hringed, hrest⟩
      rw [List.length_cons, List.range'_succ, List.cons.injEq] at hrest
      rw [hrest.1] at hstep
      rcases hringed.of_logicalBlock hstep with ⟨hringed, hlength⟩
      exact ⟨hringed, by rw [hlength]; exact hrest.2⟩)
    hrun ⟨hstart, by rw [List.range_eq_range', List.length_range', List.length_nil]⟩
  exact hinv.1

section Allocate

variable {group : SequenceGroup} {heap : SequenceHeap} {u : Unit}

theorem ringed_of_allocate (hfree : manager.SoundFree)
    (hwindow : manager.blockSlidingWindow = some blockSlidingWindow)
    (hmem : sequenceId ∈ group.getSequencesIds heap .waiting)
    (hrun : (allocate group heap).run manager = .ok u manager')
    : ∃ blockTable, manager'.blockTables.lookup sequenceId = some blockTable
        ∧ manager'.Ringed blockSlidingWindow blockTable := by
  unfold allocate at hrun
  split at hrun
  . next hnone =>
    exact absurd hmem (by rw [SequenceGroup.getSequencesIds_eq_nil hnone]; exact List.not_mem_nil)
  . simp only [bind_run_eq_ok] at hrun
    rcases hrun with ⟨blockTable, between, hfold, hmodify⟩
    cases hmodify
    refine ⟨blockTable, by rw [lookup_insertTables, if_pos hmem], ?_⟩
    refine (ringed_of_foldlM hfree hwindow hfold).congr ⟨sameConfig_insertTables _, ?_⟩
    rw [pool_insertTables]

theorem draws_of_allocate (hrun : (allocate group heap).run manager = .ok u manager')
    : manager.Draws manager'
        ∧ ∀ sequenceId ∉ group.getSequencesIds heap .waiting,
            manager'.blockTables.lookup sequenceId = manager.blockTables.lookup sequenceId := by
  unfold allocate at hrun
  split at hrun
  . cases hrun
    exact ⟨.refl manager, fun _ _ => rfl⟩
  . simp only [bind_run_eq_ok] at hrun
    rcases hrun with ⟨blockTable, between, hfold, hmodify⟩
    cases hmodify
    have hinv := foldlM_run_invariant
      (I := fun _ _ (current : BlockSpaceManager) =>
        manager.Draws current ∧ manager.KeepsTables current)
      (fun hI hstep => ⟨hI.1.trans (draws_of_logicalBlock hstep),
        hI.2.trans (keepsTables_of_logicalBlock hstep).1⟩)
      hfold ⟨.refl manager, .refl manager⟩
    refine ⟨hinv.1.trans ⟨sameConfig_insertTables _, by rw [pool_insertTables]⟩, ?_⟩
    intro sequenceId hnotMem
    rw [lookup_insertTables, if_neg hnotMem, hinv.2.2]

end Allocate

theorem draws_of_copyOnWrite {cow : Option (Nat × Nat)}
    (h : (appendSlots.copyOnWrite sequenceId blockTable).run manager = .ok cow manager')
    : manager.Draws manager' ∧ ∀ id ≠ sequenceId,
        manager'.blockTables.lookup id = manager.blockTables.lookup id := by
  rcases copiesLast_of_copyOnWrite h with rfl | ⟨block, hcopies⟩
  . exact ⟨.refl manager', fun _ _ => rfl⟩
  . refine ⟨hcopies.draws, fun id hid => ?_⟩
    rw [hcopies.replacesTable.lookup_eq, if_neg hid]

theorem draws_of_appendSlots {sequence : Sequence} {cow : Option (Nat × Nat)}
    (h : (appendSlots sequenceId sequence).run manager = .ok cow manager')
    : manager.Draws manager' ∧ ∀ id ≠ sequenceId,
        manager'.blockTables.lookup id = manager.blockTables.lookup id := by
  cases appendSlots_cases h with
  | missing _ hmanager =>
    subst hmanager
    exact ⟨.refl _, fun _ _ => rfl⟩
  | push blockTable _ _ hrun =>
    simp only [appendSlots.pushBlock, bind_run_eq_ok] at hrun
    rcases hrun with ⟨block, next, hallocate, _, _, hmodify, hpure⟩
    cases hmodify
    cases hpure
    rcases draws_of_allocateBlock hallocate with ⟨hdraws, -, htables⟩
    refine ⟨hdraws.insertTable, fun id hid => ?_⟩
    rw [lookup_insertTable, if_neg hid, htables]
  | reuse blockTable block _ _ _ _ _ _ _ hrun =>
    rcases draws_of_copyOnWrite hrun with ⟨hdraws, hlookup⟩
    refine ⟨(Draws.refl manager).insertTable.trans hdraws, fun id hid => ?_⟩
    rw [hlookup id hid, lookup_insertTable, if_neg hid]
  | full blockTable _ _ hrun => exact draws_of_copyOnWrite hrun

/--
What happens to the other sequences leaves the table of this one alone and does not free its blocks.
-/
structure Spares (manager manager' : BlockSpaceManager) (sequenceId : Nat) : Prop where
  blockSlidingWindow_eq : manager'.blockSlidingWindow = manager.blockSlidingWindow
  soundFree : manager.SoundFree → manager'.SoundFree
  lookup_eq : manager'.blockTables.lookup sequenceId = manager.blockTables.lookup sequenceId
  notMem_free : ∀ blockTable, manager.blockTables.lookup sequenceId = some blockTable →
    ∀ block ∈ blockTable, block ∉ manager.pool.free .gpu → block ∉ manager'.pool.free .gpu

/--
The states in which the table of a sequence is one that `allocate` and `append_slots` have built.
-/
inductive Built (sequenceId blockSlidingWindow : Nat) : BlockSpaceManager → Prop where
  | allocate {manager manager' : BlockSpaceManager} {group : SequenceGroup} {heap : SequenceHeap}
    (hfree : manager.SoundFree)
    (hwindow : manager.blockSlidingWindow = some blockSlidingWindow)
    (hmem : sequenceId ∈ group.getSequencesIds heap .waiting)
    (hrun : (BlockSpaceManager.allocate group heap).run manager = .ok () manager')
    : Built sequenceId blockSlidingWindow manager'
  | appendSlots {manager manager' : BlockSpaceManager} {sequence : Sequence}
    {cow : Option (Nat × Nat)} (h : Built sequenceId blockSlidingWindow manager)
    (hrun : (BlockSpaceManager.appendSlots sequenceId sequence).run manager = .ok cow manager')
    : Built sequenceId blockSlidingWindow manager'
  | spare {manager manager' : BlockSpaceManager} (h : Built sequenceId blockSlidingWindow manager)
    (hspares : manager.Spares manager' sequenceId) : Built sequenceId blockSlidingWindow manager'

namespace Built

/--
A table that is built runs around its first blocks.
-/
theorem exists_ringed (h : Built sequenceId blockSlidingWindow manager)
    : ∃ blockTable, manager.blockTables.lookup sequenceId = some blockTable
        ∧ manager.Ringed blockSlidingWindow blockTable := by
  induction h with
  | allocate hfree hwindow hmem hrun => exact ringed_of_allocate hfree hwindow hmem hrun
  | appendSlots _ hrun ih =>
    rcases ih with ⟨blockTable, hlookup, hringed⟩
    exact hringed.of_appendSlots hlookup hrun
  | spare _ hspares ih =>
    rcases ih with ⟨blockTable, hlookup, hringed⟩
    refine ⟨blockTable, by rw [hspares.lookup_eq, hlookup], ?_⟩
    exact {
      blockSlidingWindow_eq := by
        rw [hspares.blockSlidingWindow_eq, hringed.blockSlidingWindow_eq]
      soundFree := hspares.soundFree hringed.soundFree
      isRing := hringed.isRing
      notMem_free := fun block hblock =>
        hspares.notMem_free blockTable hlookup block hblock (hringed.notMem_free block hblock)
      device_eq := hringed.device_eq
    }

theorem isRing_of_getBlockTableIds {blockTableIds : List Nat}
    (h : Built sequenceId blockSlidingWindow manager)
    (htable : manager.getBlockTableIds sequenceId = some blockTableIds)
    : List.IsRing blockSlidingWindow blockTableIds := by
  rcases h.exists_ringed with ⟨blockTable, hlookup, hringed⟩
  unfold getBlockTableIds at htable
  rw [hlookup, Option.map_some, Option.some_inj] at htable
  rw [← htable]
  apply hringed.isRing.map
  intro x hx y hy hnumber
  ext1
  . rw [hringed.device_eq x hx, hringed.device_eq y hy]
  . exact hnumber

end Built

end BlockSpaceManager

end AtomaInfer
