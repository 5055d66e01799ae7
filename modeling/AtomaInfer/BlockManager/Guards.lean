import AtomaInfer.BlockManager.CopyOnWrite
import AtomaInfer.BlockManager.Run

/-!
The guards of the block manager are sufficient: an operation whose guard holds finds the free blocks
that it takes, also when it is the first of several operations of which each takes one block more.
-/

namespace AtomaInfer

namespace BlockSpaceManager

open EStateM RefPool

section Allocate

variable {manager : BlockSpaceManager} {group : SequenceGroup} {heap : SequenceHeap}

theorem getNumFreeBlocks_of_allocateBlock {manager' : BlockSpaceManager} {device : BlockDevice}
    {block : SyncPhysicalTokenBlock} {rest : List SyncPhysicalTokenBlock}
    (hrest : manager.pool.free device = block :: rest)
    (hsame : manager.SameTables manager' (manager.pool.take device block rest))
    : manager.getNumFreeBlocks device = manager'.getNumFreeBlocks device + 1 := by
  rw [getNumFreeBlocks_eq, getNumFreeBlocks_eq, hsame.pool_eq, hrest]
  simp [RefPool.take]

/--
A round of the loop of `allocate` takes a block unless it is past the window.
-/
theorem allocate.logicalBlock_takes {refCount : Nat} {blockTable : BlockTable}
    (hwindow : manager.blockSlidingWindow ≠ some 0)
    (hfree : manager.windowed (blockTable.length + 1)
      ≤ manager.getNumFreeBlocks .gpu + manager.windowed blockTable.length)
    : Yields (allocate.logicalBlock refCount blockTable blockTable.length) manager
        fun blockTable' manager' =>
          blockTable'.length = blockTable.length + 1
            ∧ manager.SameConfig manager'
            ∧ manager.getNumFreeBlocks .gpu + manager.windowed blockTable.length
                = manager'.getNumFreeBlocks .gpu + manager.windowed (blockTable.length + 1) := by
  have hwrite : ∀ (block : SyncPhysicalTokenBlock) (m : BlockSpaceManager),
      Yields (do
        writeBlock block (·.setRefCountBy refCount)
        return blockTable ++ [block]) m fun blockTable' m' =>
          blockTable'.length = blockTable.length + 1 ∧ m.SameConfig m'
            ∧ m.getNumFreeBlocks .gpu = m'.getNumFreeBlocks .gpu := by
    intro block m
    apply Yields.bind (setRefCountBy_yields refCount)
    rintro _ m' hsame
    apply Yields.pure
    refine ⟨by simp, hsame.toSameConfig, ?_⟩
    rw [getNumFreeBlocks_eq, getNumFreeBlocks_eq, hsame.pool_eq]
    rfl
  have htake : 1 ≤ manager.getNumFreeBlocks .gpu →
      Yields (do
        let block ← allocateBlock .gpu
        writeBlock block (·.setRefCountBy refCount)
        return blockTable ++ [block]) manager fun blockTable' manager' =>
          blockTable'.length = blockTable.length + 1 ∧ manager.SameConfig manager'
            ∧ manager.getNumFreeBlocks .gpu = manager'.getNumFreeBlocks .gpu + 1 := by
    intro hpos
    apply Yields.bind (allocateBlock_yields hpos)
    rintro block m ⟨rest, hrest, hsame⟩
    apply Yields.mono (hwrite block m)
    rintro blockTable' manager' ⟨hlength, hconfig, heq⟩
    have := getNumFreeBlocks_of_allocateBlock hrest hsame
    exact ⟨hlength, hsame.toSameConfig.trans hconfig, by omega⟩
  unfold allocate.logicalBlock windowed at *
  apply Yields.get_bind
  cases hwin : manager.blockSlidingWindow with
  | none =>
    simp only [hwin] at *
    apply Yields.mono (htake (by omega))
    rintro blockTable' manager' ⟨hlength, hconfig, heq⟩
    exact ⟨hlength, hconfig, by omega⟩
  | some blockSlidingWindow =>
    simp only [hwin] at *
    have hpos : blockSlidingWindow ≠ 0 := fun hzero => hwindow (by rw [hzero])
    by_cases hpast : blockSlidingWindow ≤ blockTable.length
    . -- the table has a block for every index below its length
      have hindex : blockTable.length % blockSlidingWindow < blockTable.length := by
        have := Nat.mod_lt blockTable.length (Nat.pos_of_ne_zero hpos)
        omega
      simp only [if_pos hpast, if_neg hpos, List.getElem?_eq_getElem hindex]
      apply Yields.mono (hwrite _ manager)
      rintro blockTable' manager' ⟨hlength, hconfig, heq⟩
      exact ⟨hlength, hconfig, by omega⟩
    . simp only [if_neg hpast]
      apply Yields.mono (htake (by omega))
      rintro blockTable' manager' ⟨hlength, hconfig, heq⟩
      exact ⟨hlength, hconfig, by omega⟩

/--
The loop of `allocate`. The blocks that it still takes and the free ones are as many as at first.
-/
theorem allocate.foldlM_takes {refCount : Nat} (numBlocks : Nat)
    (hwindow : manager.blockSlidingWindow ≠ some 0)
    (hfree : manager.windowed numBlocks ≤ manager.getNumFreeBlocks .gpu)
    : Yields ((List.range numBlocks).foldlM (allocate.logicalBlock refCount) []) manager
        fun _ manager' =>
          manager.SameConfig manager'
            ∧ manager.getNumFreeBlocks .gpu
                = manager'.getNumFreeBlocks .gpu + manager.windowed numBlocks := by
  let I : List Nat → BlockTable → BlockSpaceManager → Prop := fun rest blockTable manager' =>
    List.range' blockTable.length rest.length = rest
      ∧ blockTable.length + rest.length = numBlocks
      ∧ manager.SameConfig manager'
      ∧ manager.getNumFreeBlocks .gpu
          = manager'.getNumFreeBlocks .gpu + manager.windowed blockTable.length
  have hmono : ∀ {m n : Nat}, m ≤ n → manager.windowed m ≤ manager.windowed n := by
    intro m n hle
    unfold windowed
    split
    . omega
    . exact hle
  have hzero : manager.windowed 0 = 0 := by
    unfold windowed
    split <;> simp
  have hloop := Yields.foldlM I (f := allocate.logicalBlock refCount)
  apply Yields.mono (hloop ?_ (List.range numBlocks) [] manager ?_)
  . rintro blockTable manager' ⟨-, hlength, hconfig, heq⟩
    rw [← hlength]
    exact ⟨hconfig, heq⟩
  . rintro idx rest blockTable m ⟨hrange, hlength, hconfig, heq⟩
    rw [List.length_cons] at hrange hlength
    rw [List.range'_succ, List.cons.injEq] at hrange
    rcases hrange with ⟨rfl, hrange⟩
    have hwindow' : m.blockSlidingWindow ≠ some 0 := by
      rwa [hconfig.blockSlidingWindow_eq]
    have hnext := hmono (show blockTable.length + 1 ≤ numBlocks by omega)
    apply Yields.mono (allocate.logicalBlock_takes hwindow' ?_)
    . rintro blockTable' m' ⟨hlength', hconfig', heq'⟩
      rw [hconfig.windowed_eq, hconfig.windowed_eq] at heq'
      refine ⟨?_, by omega, hconfig.trans hconfig', ?_⟩
      . rw [hlength']
        exact hrange
      . rw [hlength']
        omega
    . rw [hconfig.windowed_eq, hconfig.windowed_eq]
      omega
  . refine ⟨?_, by simp, SameConfig.refl _, ?_⟩
    . rw [List.length_nil, List.length_range, List.range_eq_range']
    . rw [List.length_nil, hzero]
      rfl

theorem getNumFreeBlocks_insertTables (sequenceIds : List Nat) (blockTable : BlockTable)
    (device : BlockDevice)
    : (manager.insertTables sequenceIds blockTable).getNumFreeBlocks device
        = manager.getNumFreeBlocks device := by
  rw [getNumFreeBlocks_eq, getNumFreeBlocks_eq, pool_insertTables]

/--
`allocate` succeeds under its guard with and without a window, and takes no more blocks than the
guard asks for.
-/
theorem allocate_takes (hwindow : manager.blockSlidingWindow ≠ some 0)
    (hcan : manager.canAllocate group heap = .ok)
    : ∃ sequence manager',
        group.getFirstSequence heap .waiting = some sequence
          ∧ (allocate group heap).run manager = .ok () manager'
          ∧ manager.getNumFreeBlocks .gpu
              = manager'.getNumFreeBlocks .gpu
                + manager.windowed (heap sequence).getNumTotalLogicalTokenBlocks := by
  rcases canAllocate_eq_ok_iff.mp hcan with ⟨sequence, hfirst, hle⟩
  have hyields : Yields (allocate group heap) manager fun _ manager' =>
      manager.getNumFreeBlocks .gpu
        = manager'.getNumFreeBlocks .gpu
          + manager.windowed (heap sequence).getNumTotalLogicalTokenBlocks := by
    unfold allocate
    simp only [hfirst]
    apply Yields.bind (allocate.foldlM_takes _ hwindow hle)
    rintro blockTable m ⟨-, heq⟩
    apply Yields.of_modify
    rw [getNumFreeBlocks_insertTables]
    exact heq
  rcases hyields with ⟨_, manager', hrun, heq⟩
  exact ⟨sequence, manager', hfirst, hrun, heq⟩

end Allocate

section Counting

variable {manager manager' : BlockSpaceManager} {block : SyncPhysicalTokenBlock}

/--
The blocks that stop being free are among those that the tables gain.
-/
theorem Accounted.getNumFreeBlocks_le_add_card (h : manager.Accounted) (h' : manager'.Accounted)
    (hconfig : manager.SameConfig manager') (device : BlockDevice)
    (gained : Finset SyncPhysicalTokenBlock)
    (hgained : ∀ block ∈ manager'.owned, block.device = device →
      block ∈ manager.owned ∨ block ∈ gained)
    : manager.getNumFreeBlocks device ≤ manager'.getNumFreeBlocks device + gained.card := by
  have hsum := h.length_free_add_card device
  have hsum' := h'.length_free_add_card device
  rw [hconfig.numBlocks_eq] at hsum'
  have hin : ∀ (m : BlockSpaceManager) (block : SyncPhysicalTokenBlock),
      block ∈ (m.blockTables.entries.flatMap (·.2)).toFinset.filter (·.device = device)
        ↔ block ∈ m.owned ∧ block.device = device := by
    intro m block
    rw [Finset.mem_filter, List.mem_toFinset, List.mem_flatMap, mem_owned_iff]
  have hcard := Finset.card_le_card_of_injOn
    (s := (manager'.blockTables.entries.flatMap (·.2)).toFinset.filter (·.device = device))
    (t := (manager.blockTables.entries.flatMap (·.2)).toFinset.filter (·.device = device) ∪ gained)
    id ?_ Function.injective_id.injOn
  . have hunion := Finset.card_union_le
      ((manager.blockTables.entries.flatMap (·.2)).toFinset.filter (·.device = device)) gained
    unfold getNumFreeBlocks BlockAllocator.getNumFreeBlocks
    omega
  . intro block hblock
    rcases (hin manager' block).mp hblock with ⟨hown, hdevice⟩
    apply Finset.mem_union.mpr
    rcases hgained block hown hdevice with hold | hnew
    . exact .inl ((hin manager block).mpr ⟨hold, hdevice⟩)
    . exact .inr hnew

theorem WritesTable.mem_owned {sequenceId : Nat} {blockTable : BlockTable}
    (h : manager.WritesTable manager' sequenceId blockTable) (hown : block ∈ manager'.owned)
    : block ∈ blockTable ∨ block ∈ manager.owned := by
  rcases mem_owned_iff_lookup.mp hown with ⟨id, table, hlookup, hblock⟩
  rw [h.2] at hlookup
  split at hlookup
  . cases hlookup
    exact .inl hblock
  . exact .inr (mem_owned_of_mem hlookup hblock)

/--
A call of `append_slots` takes at most one block.
-/
theorem Appended.getNumFreeBlocks_le {sequenceId : Nat} {sequence : Sequence}
    {cow : Option (Nat × Nat)} (h : Appended manager manager' sequenceId sequence cow)
    (haccounted : manager.Accounted)
    : manager.getNumFreeBlocks .gpu ≤ manager'.getNumFreeBlocks .gpu + 1 := by
  cases h with
  | keep hmanager =>
    rw [hmanager]
    omega
  | push blockTable new hlookup _ _ _ hwrites haccounted' =>
    apply haccounted.getNumFreeBlocks_le_add_card haccounted' hwrites.1 .gpu {new}
    intro block hown _
    rcases hwrites.mem_owned hown with hmem | hold
    . rcases List.mem_append.mp hmem with hmem | hmem
      . exact .inl (mem_owned_of_mem hlookup hmem)
      . exact .inr (Finset.mem_singleton.mpr (List.mem_singleton.mp hmem))
    . exact .inl hold
  | copy init last new hlookup _ _ _ _ _ hwrites haccounted' =>
    apply haccounted.getNumFreeBlocks_le_add_card haccounted' hwrites.1 .gpu {new}
    intro block hown _
    rcases hwrites.mem_owned hown with hmem | hold
    . rcases List.mem_append.mp hmem with hmem | hmem
      . exact .inl (mem_owned_of_mem hlookup (List.mem_append_left _ hmem))
      . exact .inr (Finset.mem_singleton.mpr (List.mem_singleton.mp hmem))
    . exact .inl hold

/--
A swap takes at most one block of the target for every number in the tables that it moves.
-/
theorem getNumFreeBlocks_le_of_swapped {source target : BlockDevice} {sequenceIds : List Nat}
    {numbers : AList fun _ : Nat => Nat} {mapping : SwapMapping}
    (h : Memory.Swapped source target sequenceIds manager manager' numbers mapping)
    (haccounted : manager.Accounted)
    : manager.getNumFreeBlocks target
        ≤ manager'.getNumFreeBlocks target + (manager.tableNumbers sequenceIds).card := by
  let sent : Nat → SyncPhysicalTokenBlock := fun number =>
    (mapping.lookup number).getD ⟨target, number⟩
  have hcard := Finset.card_image_le (s := manager.tableNumbers sequenceIds) (f := sent)
  have hle := haccounted.getNumFreeBlocks_le_add_card h.accounted h.sameConfig target
    ((manager.tableNumbers sequenceIds).image sent) ?_
  . omega
  . intro block hown _
    rcases mem_owned_iff_lookup.mp hown with ⟨sequenceId, blockTable, hlookup, hblock⟩
    by_cases hid : sequenceId ∈ sequenceIds
    . have hrel := h.lookup_of_mem sequenceId hid
      rw [hlookup] at hrel
      generalize manager.blockTables.lookup sequenceId = old at hrel
      cases hrel with
      | some hsends =>
        rcases hsends.exists_of_mem_right hblock with ⟨block', -, hsend⟩
        refine .inr (Finset.mem_image.mpr ⟨block'.blockNumber, h.valid.mem_numbers _ _ hsend, ?_⟩)
        change (mapping.lookup block'.blockNumber).getD _ = block
        rw [hsend, Option.getD_some]
    . rw [h.lookup_of_notMem sequenceId hid] at hlookup
      exact .inl (mem_owned_of_mem hlookup hblock)

end Counting

section AppendSlots

variable {manager manager' : BlockSpaceManager} {heap : SequenceHeap} {seq : SequenceRef}
variable {seqs : List SequenceRef}

/--
The sequence has tokens, and its table is at most one block shorter than they need.
-/
def LacksAtMostOne (manager : BlockSpaceManager) (heap : SequenceHeap) (seq : SequenceRef) : Prop :=
  1 ≤ (heap seq).getNumTotalLogicalTokenBlocks
    ∧ ∀ blockTable, manager.blockTables.lookup seq.sequenceId = some blockTable →
        (heap seq).getNumTotalLogicalTokenBlocks ≤ blockTable.length + 1

theorem appendSlots_succeeds (h : manager.Accounted)
    (hgpu : ∀ blockTable, manager.blockTables.lookup seq.sequenceId = some blockTable →
      ∀ block ∈ blockTable, block.device = .gpu)
    (hlacks : manager.LacksAtMostOne heap seq) (hfree : 1 ≤ manager.getNumFreeBlocks .gpu)
    : ∃ cow manager', (appendSlots seq.sequenceId (heap seq)).run manager = .ok cow manager' := by
  rcases hlacks with ⟨hpos, hlength⟩
  cases hlookup : manager.blockTables.lookup seq.sequenceId with
  | none =>
    refine ⟨none, manager, ?_⟩
    unfold appendSlots
    simp only [Nat.ne_of_gt hpos, if_false, run_bind, run_get, hlookup]
    rfl
  | some blockTable =>
    have hgpu := hgpu blockTable hlookup
    have hlength := hlength blockTable hlookup
    by_cases hfull : (heap seq).getNumTotalLogicalTokenBlocks ≤ blockTable.length
    . rw [appendSlots_run_of_full hlookup hpos hfull]
      rcases List.eq_nil_or_concat blockTable with rfl | ⟨init, last, hconcat⟩
      . simp only [List.length_nil] at hfull
        omega
      . rw [List.concat_eq_append] at hconcat
        subst hconcat
        by_cases hcount : manager.pool.refCount last = 1
        . exact ⟨none, manager, appendSlots.copyOnWrite_run init last hcount⟩
        . rcases appendSlots.copyOnWrite_yields h hlookup hgpu hfree hcount
            with ⟨cow, manager', hrun, -⟩
          exact ⟨cow, manager', hrun⟩
    . rw [appendSlots_run_of_short hlookup h.blockSlidingWindow_eq (by omega)]
      rcases appendSlots.pushBlock_yields h hlookup hgpu hfree with ⟨cow, manager', hrun, -⟩
      exact ⟨cow, manager', hrun⟩

/--
One free block for each of the calls is enough, since a call takes at most one.
-/
theorem appendSlotsOf_succeeds (h : manager.Appendable seqs)
    (hlacks : ∀ seq ∈ seqs, manager.LacksAtMostOne heap seq)
    (hfree : seqs.length ≤ manager.getNumFreeBlocks .gpu)
    : ∃ pairs manager', (appendSlotsOf heap seqs).run manager = .ok pairs manager' := by
  induction seqs generalizing manager with
  | nil => exact ⟨[], manager, rfl⟩
  | cons seq seqs ih =>
    rw [List.length_cons] at hfree
    rcases appendSlots_succeeds h.accounted (h.device_eq seq List.mem_cons_self)
      (hlacks seq List.mem_cons_self) (by omega) with ⟨cow, next, hfirst⟩
    have happended := appended_of_run h.accounted (h.device_eq seq List.mem_cons_self) hfirst
    have htook := happended.getNumFreeBlocks_le h.accounted
    have hlacks' : ∀ other ∈ seqs, next.LacksAtMostOne heap other := by
      intro other hother
      unfold LacksAtMostOne
      rw [happended.lookup_of_ne (h.ne_of_mem hother)]
      exact hlacks other (List.mem_cons_of_mem _ hother)
    rcases ih (h.of_appended happended) hlacks' (by omega) with ⟨cows, last, hrest⟩
    refine ⟨cow.toList ++ cows, last, ?_⟩
    simp only [appendSlotsOf, bind_run_eq_ok]
    exact ⟨cow, next, hfirst, cows, last, hrest, rfl⟩

end AppendSlots

section Reachable

variable {initial : BlockSpaceManager} {state : RunState} {group : SequenceGroup}
variable {order : List SequenceRef} {memory : Memory}

/--
The sequences in `order` are different ones of the group, have the given status and lack at most one
block.
-/
structure InTurn (state : RunState) (group : SequenceGroup) (status : SequenceStatus)
    (order : List SequenceRef) : Prop where
  nodup : order.Nodup
  mem_getSeqs : ∀ seq ∈ order, seq ∈ group.getSeqs state.heap status
  lacks : ∀ seq ∈ order, state.manager.LacksAtMostOne state.heap seq

theorem InTurn.length_le {status : SequenceStatus} (h : InTurn state group status order)
    : order.length ≤ group.getNumSequences state.heap status :=
  (List.subperm_of_subset h.nodup h.mem_getSeqs).length_le

theorem RunInvariant.appendable (h : RunInvariant initial state) (hgroup : group ∈ state.groups)
    (hnodup : order.Nodup) (hrunning : ∀ seq ∈ order, seq ∈ group.getSeqs state.heap .running)
    : state.manager.Appendable order := by
  have hmem : ∀ seq ∈ order, seq ∈ state.sequences := fun seq hseq =>
    mem_sequences_of_mem hgroup (SequenceGroup.mem_getSeqs.mp (hrunning seq hseq)).1
  refine ⟨h.accounted, ?_, ?_⟩
  . apply List.Nodup.map_on _ hnodup
    intro seq hseq other hother hid
    exact h.eq_of_sequenceId_eq (hmem seq hseq) (hmem other hother) hid
  . intro seq hseq
    have hplaced := h.placed seq (hmem seq hseq)
    rwa [(SequenceGroup.mem_getSeqs.mp (hrunning seq hseq)).2] at hplaced

theorem le_getNumFreeBlocks_of_canSwapIn {manager : BlockSpaceManager} {heap : SequenceHeap}
    (hcan : manager.canSwapIn group heap = .ok)
    : (manager.getPhysicalBlocks group heap).length + group.getNumSequences heap .swapped
        ≤ manager.getNumFreeBlocks .gpu := by
  unfold canSwapIn at hcan
  dsimp only at hcan
  split at hcan
  . cases hcan
  . split at hcan
    . next hle => exact hle
    . cases hcan

theorem swapOut_succeeds (h : RunInvariant initial state) (hgroup : group ∈ state.groups)
    (hcan : state.manager.canSwapOut group state.heap)
    : ∃ numbers memory', (Memory.swapOut group).run state.memory = .ok numbers memory' := by
  rcases Memory.swapOut_yields h.accounted (h.nodup_group hgroup) (h.placed_group hgroup) hcan
    with ⟨numbers, memory', hrun, -⟩
  exact ⟨numbers, memory', hrun⟩

/--
The guard of `swap_in` leaves one free block for every sequence that it moves.
-/
theorem swapIn_succeeds (h : RunInvariant initial state) (hgroup : group ∈ state.groups)
    (hcan : state.manager.canSwapIn group state.heap = .ok)
    : ∃ numbers memory',
        (Memory.swapIn group).run state.memory = .ok numbers memory'
          ∧ ∀ order, InTurn state group .swapped order →
              ∃ pairs manager',
                (appendSlotsOf memory'.sequences order).run memory'.blockManager
                  = .ok pairs manager' := by
  rcases Memory.swapIn_yields h.accounted (h.nodup_group hgroup) (h.placed_group hgroup) hcan
    with ⟨numbers, memory', hrun, mapping, hswapped, hheap⟩
  refine ⟨numbers, memory', hrun, ?_⟩
  intro order horder
  have hinv : RunInvariant initial { state with memory := memory' } := by
    have := h.swapIn hgroup hcan
    unfold finalState at this
    rwa [hrun] at this
  have hafter : ∀ seq ∈ order,
      memory'.sequences seq = (state.heap seq).setSequenceStatus .running := by
    intro seq hseq
    rw [hheap]
    exact if_pos (horder.mem_getSeqs seq hseq)
  have hrunning : ∀ seq ∈ order, seq ∈ group.getSeqs memory'.sequences .running := by
    intro seq hseq
    have hmem := SequenceGroup.mem_getSeqs.mp (horder.mem_getSeqs seq hseq)
    refine SequenceGroup.mem_getSeqs.mpr ⟨hmem.1, ?_⟩
    rw [hafter seq hseq]
    rfl
  have happendable : memory'.blockManager.Appendable order :=
    hinv.appendable hgroup horder.nodup hrunning
  apply appendSlotsOf_succeeds happendable
  . intro seq hseq
    rcases horder.lacks seq hseq with ⟨hpos, hlength⟩
    have hblocks : (memory'.sequences seq).getNumTotalLogicalTokenBlocks
        = (state.heap seq).getNumTotalLogicalTokenBlocks := by
      rw [hafter seq hseq]
      rfl
    unfold LacksAtMostOne
    rw [hblocks]
    refine ⟨hpos, ?_⟩
    intro blockTable hlookup
    -- the table has moved, and is as long as before
    have hrel := hswapped.lookup_of_mem seq.sequenceId
      (List.mem_map_of_mem (horder.mem_getSeqs seq hseq))
    change memory'.blockManager.blockTables.lookup seq.sequenceId = some blockTable at hlookup
    rw [hlookup] at hrel
    generalize hold : state.memory.blockManager.blockTables.lookup seq.sequenceId = old at hrel
    cases hrel with
    | some hsends =>
      rw [← hsends.length_eq]
      exact hlength _ hold
  . have htook := getNumFreeBlocks_le_of_swapped hswapped h.accounted
    have hcard := card_tableNumbers_le state.manager group state.heap
      (show SequenceStatus.isFinished .swapped = false from rfl)
    have hroom := le_getNumFreeBlocks_of_canSwapIn hcan
    have hlength := horder.length_le
    change state.manager.getNumFreeBlocks .gpu ≤ memory'.blockManager.getNumFreeBlocks .gpu
      + (state.manager.tableNumbers (group.getSequencesIds state.heap .swapped)).card at htook
    change order.length ≤ memory'.blockManager.getNumFreeBlocks .gpu
    omega

/--
A window of one token or more takes at least one block, as the number of its blocks is rounded up.
-/
theorem div_pos_of_window {blockSize slidingWindow : Nat} (hsize : 1 ≤ blockSize)
    (hwindow : 1 ≤ slidingWindow) : 0 < (slidingWindow + blockSize - 1) / blockSize :=
  Nat.div_pos (by omega) hsize

/--
The operations succeed under their guards. The first part is about every state of a manager that is
configured with any window, the others about the states that a run reaches.
-/
theorem guards_suffice (blockSize numCpuBlocks numGpuBlocks : Nat)
    : (∀ (slidingWindow : Option Nat) (manager : BlockSpaceManager),
          1 ≤ blockSize → slidingWindow ≠ some 0
            → (BlockSpaceManager.new blockSize numCpuBlocks numGpuBlocks slidingWindow).SameConfig
                manager
            → ∀ (group : SequenceGroup) (heap : SequenceHeap),
                manager.canAllocate group heap = .ok →
                  ∃ sequence manager',
                    group.getFirstSequence heap .waiting = some sequence
                      ∧ (allocate group heap).run manager = .ok () manager'
                      ∧ manager.getNumFreeBlocks .gpu
                          = manager'.getNumFreeBlocks .gpu
                            + manager.windowed (heap sequence).getNumTotalLogicalTokenBlocks)
        ∧ ∀ (state : RunState) (group : SequenceGroup),
            Reachable blockSize numCpuBlocks numGpuBlocks state → group ∈ state.groups →
              (state.manager.canAppendSlots group state.heap →
                  ∀ order, InTurn state group .running order →
                    ∃ pairs manager',
                      (appendSlotsOf state.heap order).run state.manager = .ok pairs manager')
                ∧ (state.manager.canSwapOut group state.heap →
                    ∃ numbers memory',
                      (Memory.swapOut group).run state.memory = .ok numbers memory')
                ∧ (state.manager.canSwapIn group state.heap = .ok →
                    ∃ numbers memory',
                      (Memory.swapIn group).run state.memory = .ok numbers memory'
                        ∧ ∀ order, InTurn state group .swapped order →
                            ∃ pairs manager',
                              (appendSlotsOf memory'.sequences order).run memory'.blockManager
                                = .ok pairs manager') := by
  constructor
  . intro slidingWindow manager hsize hsome hconfig group heap hcan
    apply allocate_takes _ hcan
    rw [hconfig.blockSlidingWindow_eq]
    cases slidingWindow with
    | none =>
      intro hzero
      cases hzero
    | some window =>
      intro hzero
      have hwindow : window ≠ 0 := fun h => hsome (by rw [h])
      exact Nat.ne_of_gt (div_pos_of_window hsize (by omega)) (Option.some.inj hzero)
  . intro state group hreach hgroup
    have hinv := runInvariant_of_reachable hreach
    refine ⟨?_, swapOut_succeeds hinv hgroup, swapIn_succeeds hinv hgroup⟩
    intro hcan order horder
    apply appendSlotsOf_succeeds (hinv.appendable hgroup horder.nodup horder.mem_getSeqs) horder.lacks
    have hroom : group.getNumSequences state.heap .running ≤ state.manager.getNumFreeBlocks .gpu := by
      simpa [canAppendSlots, getNumFreeBlocks, allocator] using hcan
    exact horder.length_le.trans hroom

end Reachable

/--
A sequence that is created for no tokens.
-/
def noTokens : Sequence :=
  { oneToken with prompt := "", sequenceData := SequenceData.new [] [], logicalTokenBlocks := [] }

example : Sequence.new "" [] 1 false = .ok noTokens := by rfl

/--
A sequence that has received two tokens since it was created.
-/
def threeTokens : Sequence := {
  oneToken with
  sequenceData := SequenceData.new [7] [8, 9]
  logicalTokenBlocks := [
    { blockNumber := 0, blockSize := 1, tokenIds := [7], numTokens := 1 },
    { blockNumber := 1, blockSize := 1, tokenIds := [8], numTokens := 1 },
    { blockNumber := 2, blockSize := 1, tokenIds := [9], numTokens := 1 }
  ]
}

section Allocated

variable (sequence : Sequence)

/--
The group of one sequence has arrived.
-/
def arrivedState : RunState where
  memory := {
    sequences := fun _ => sequence
    blockManager := BlockSpaceManager.new 1 3 3 none
  }
  groups := [oneTokenGroup [⟨0, 0⟩]]

/--
The blocks of the group are allocated.
-/
def allocatedState : RunState := {
  arrivedState sequence with
  memory := {
    sequences := (oneTokenGroup [⟨0, 0⟩]).setStatusWhere (fun _ => sequence)
      (fun _ => sequence.sequenceStatus = .waiting) .running
    blockManager := (BlockSpaceManager.allocate (oneTokenGroup [⟨0, 0⟩]) fun _ => sequence).finalState
      (BlockSpaceManager.new 1 3 3 none) } }

theorem reachable_allocatedState (hwaiting : sequence.sequenceStatus = .waiting)
    (hcan : (arrivedState sequence).manager.canAllocate (oneTokenGroup [⟨0, 0⟩])
      (fun _ => sequence) = .ok)
    : Reachable 1 3 3 (allocatedState sequence) := by
  have harrive : Step (.init 1 3 3 fun _ => sequence) (arrivedState sequence) :=
    Step.arrive _ (oneTokenGroup [⟨0, 0⟩]) (fun _ => sequence) (List.nodup_singleton 0)
      (fun _ _ => hwaiting) (fun _ _ => rfl)
  have hallocate : Step (arrivedState sequence) (allocatedState sequence) :=
    Step.allocate _ (oneTokenGroup [⟨0, 0⟩]) (List.mem_singleton_self _) (fun _ _ => rfl) hcan
  exact ⟨fun _ => sequence, (Relation.ReflTransGen.refl.tail harrive).tail hallocate⟩

end Allocated

/--
Two tokens are appended to the running sequence, without `append_slots`.
-/
def editedState : RunState := {
  allocatedState oneToken with
  memory := {
    (allocatedState oneToken).memory with
    sequences := Function.update (allocatedState oneToken).heap ⟨0, 0⟩
      (threeTokens.setSequenceStatus .running) } }

/--
The group is swapped out.
-/
def swappedState : RunState := {
  editedState with
  memory := (Memory.swapOut (oneTokenGroup [⟨0, 0⟩])).finalState editedState.memory }

theorem reachable_swappedState : Reachable 1 3 3 swappedState := by
  rcases reachable_allocatedState oneToken rfl (by decide) with ⟨heap, hrun⟩
  have hedit : Step (allocatedState oneToken) editedState :=
    Step.edit _ ⟨0, 0⟩ (threeTokens.setSequenceStatus .running) rfl
  have hswap : Step editedState swappedState :=
    Step.swapOut _ (oneTokenGroup [⟨0, 0⟩]) (List.mem_singleton_self _) (by decide +kernel)
  exact ⟨heap, (hrun.tail hedit).tail hswap⟩

/--
A sequence with three tokens takes the two blocks of a window of two tokens. The other operations
succeed for a sequence with one token.
-/
theorem guards_suffice_one_token
    : (∃ manager',
          (allocate (oneTokenGroup [⟨0, 0⟩]) fun _ => threeTokens).run
              (BlockSpaceManager.new 1 3 3 (some 2)) = .ok () manager'
            ∧ manager'.getNumFreeBlocks .gpu = 1)
        ∧ (∃ pairs manager',
          (appendSlotsOf (allocatedState oneToken).heap [⟨0, 0⟩]).run (allocatedState oneToken).manager
            = .ok pairs manager')
        ∧ (∃ numbers memory',
            (Memory.swapOut (oneTokenGroup [⟨0, 0⟩])).run (allocatedState oneToken).memory
              = .ok numbers memory')
        ∧ ∃ numbers memory',
            (Memory.swapIn (oneTokenGroup [⟨0, 0⟩])).run swappedState.memory = .ok numbers memory' := by
  have hreach := reachable_allocatedState oneToken rfl (by decide)
  have hafter := (guards_suffice 1 3 3).2 _ (oneTokenGroup [⟨0, 0⟩]) hreach (List.mem_singleton_self _)
  have hswapped := (guards_suffice 1 3 3).2 _ (oneTokenGroup [⟨0, 0⟩]) reachable_swappedState
    (List.mem_singleton_self _)
  have hwindow := (guards_suffice 1 3 3).1 (some 2) _ (by decide) (by decide) (SameConfig.refl _)
    (oneTokenGroup [⟨0, 0⟩]) (fun _ => threeTokens) (by decide +kernel)
  refine ⟨?_, hafter.1 (by decide +kernel) [⟨0, 0⟩] ⟨List.nodup_singleton _, ?_, ?_⟩,
    hafter.2.1 (by decide +kernel), ?_⟩
  . rcases hwindow with ⟨sequence, manager', -, hrun, htook⟩
    refine ⟨manager', hrun, ?_⟩
    have hfree : (BlockSpaceManager.new 1 3 3 (some 2)).getNumFreeBlocks .gpu = 3 := by
      decide +kernel
    have htakes : (BlockSpaceManager.new 1 3 3 (some 2)).windowed
        threeTokens.getNumTotalLogicalTokenBlocks = 2 := by decide +kernel
    omega
  . decide +kernel
  . intro seq hseq
    rw [List.mem_singleton.mp hseq]
    refine ⟨by decide +kernel, ?_⟩
    intro blockTable _
    have : ((allocatedState oneToken).heap ⟨0, 0⟩).getNumTotalLogicalTokenBlocks = 1 := by
      decide +kernel
    omega
  . rcases hswapped.2.2 (by decide +kernel) with ⟨numbers, memory', hrun, -⟩
    exact ⟨numbers, memory', hrun⟩

/--
A sequence without tokens has no slot to append, and neither has one whose table is two blocks short
when it is swapped in.
-/
theorem not_guards_suffice
    : (∃ state group seq blockTable,
          Reachable 1 3 3 state ∧ group ∈ state.groups
            ∧ state.manager.canAppendSlots group state.heap
            ∧ seq ∈ group.getSeqs state.heap .running
            ∧ state.manager.blockTables.lookup seq.sequenceId = some blockTable
            ∧ (state.heap seq).getNumTotalLogicalTokenBlocks ≤ blockTable.length + 1
            ∧ ∀ pairs manager',
                (appendSlotsOf state.heap [seq]).run state.manager ≠ .ok pairs manager')
        ∧ ∃ state group seq numbers memory',
            Reachable 1 3 3 state ∧ group ∈ state.groups
              ∧ state.manager.canSwapIn group state.heap = .ok
              ∧ seq ∈ group.getSeqs state.heap .swapped
              ∧ (Memory.swapIn group).run state.memory = .ok numbers memory'
              ∧ ∀ pairs manager',
                  (appendSlotsOf memory'.sequences [seq]).run memory'.blockManager
                    ≠ .ok pairs manager' := by
  have hfails : ∀ {heap : SequenceHeap} {manager : BlockSpaceManager},
      ((appendSlotsOf heap [⟨0, 0⟩]).run manager).okAny (fun _ => true) = false →
        ∀ pairs manager', (appendSlotsOf heap [⟨0, 0⟩]).run manager ≠ .ok pairs manager' := by
    intro heap manager hrun pairs manager' hok
    rw [hok] at hrun
    cases hrun
  constructor
  . exact ⟨allocatedState noTokens, oneTokenGroup [⟨0, 0⟩], ⟨0, 0⟩, [],
      reachable_allocatedState noTokens rfl (by decide), List.mem_singleton_self _, by decide +kernel,
      by decide +kernel, by decide +kernel, by decide +kernel, hfails (by decide +kernel)⟩
  . rcases exists_run_eq_finalState (x := Memory.swapIn (oneTokenGroup [⟨0, 0⟩]))
      (s := swappedState.memory) (p := fun _ => true) (by decide +kernel) with ⟨numbers, hrun⟩
    exact ⟨swappedState, oneTokenGroup [⟨0, 0⟩], ⟨0, 0⟩, numbers, _, reachable_swappedState,
      List.mem_singleton_self _, by decide +kernel, by decide +kernel, hrun,
      hfails (by decide +kernel)⟩

end BlockSpaceManager

end AtomaInfer
