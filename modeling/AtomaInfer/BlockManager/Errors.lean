import AtomaInfer.BlockManager.Guards
import AtomaInfer.BlockManager.SwapRun

/-!
What an operation that returns an error leaves behind. `append_slots` checks before it writes. The
other operations write as they go, and keep to the blocks and the sequences they work on.
-/

namespace AtomaInfer

namespace BlockSpaceManager

open EStateM RefPool

variable {manager manager' : BlockSpaceManager} {sequenceId : Nat} {sequence : Sequence}
variable {block : SyncPhysicalTokenBlock} {blockTable : BlockTable}

theorem allocateBlock_ends (device : BlockDevice)
    : Ends (allocateBlock device) manager
        (fun block manager' => ∃ rest,
          manager.pool.free device = block :: rest
            ∧ manager.SameTables manager' (manager.pool.take device block rest))
        (· = manager) := by
  by_cases hfree : 1 ≤ manager.getNumFreeBlocks device
  . exact (allocateBlock_yields hfree).ends _
  . unfold Ends
    rw [allocateBlock_run_of_eq_zero (by omega)]

section AppendSlots

theorem appendSlots.pushBlock_ends
    : Ends (appendSlots.pushBlock sequenceId blockTable) manager (fun _ _ => True) (· = manager) :=
  Ends.bind (allocateBlock_ends .gpu) fun _ _ _ => trivial

/--
Once there is a block for the copy, the shared block is released without an error.
-/
theorem appendSlots.copyOnWrite_ends (h : manager.Accounted)
    (hlookup : manager.blockTables.lookup sequenceId = some blockTable)
    : Ends (appendSlots.copyOnWrite sequenceId blockTable) manager (fun _ _ => True)
        (· = manager) := by
  unfold appendSlots.copyOnWrite
  cases hlast : blockTable.getLast? with
  | none => exact Ends.throw rfl
  | some last =>
    apply Ends.get_bind
    split
    . trivial
    . apply Ends.bind (allocateBlock_ends .gpu)
      rintro newBlock m ⟨rest, hrest, hsame⟩
      have hpos : 1 ≤ m.pool.refCount last := by
        rw [hsame.pool_eq]
        refine (h.balanced.take hrest).one_le_refCount (Multiset.mem_cons_of_mem ?_)
        exact mem_owned_of_mem hlookup (List.mem_of_getLast? hlast)
      exact Ends.bind ((freeBlock_yields hpos).ends _) fun _ _ _ => trivial

theorem appendSlots_ends (h : manager.Accounted)
    : Ends (appendSlots sequenceId sequence) manager (fun _ _ => True) (· = manager) := by
  unfold appendSlots
  dsimp only
  split
  . exact Ends.bind (Ends.throw rfl) fun _ _ h => h
  . apply Ends.get_bind
    split
    . trivial
    . next blockTable hlookup =>
      simp only [h.blockSlidingWindow_eq]
      split
      . split
        . exact Ends.throw rfl
        . exact appendSlots.pushBlock_ends
      . exact appendSlots.copyOnWrite_ends h hlookup

end AppendSlots

/--
`manager'` has the tables of `manager` but for those of `sequenceIds`, and the blocks and free lists
of `manager` but for `blocks`.
-/
structure ChangesOnly (manager manager' : BlockSpaceManager) (sequenceIds : List Nat)
    (blocks : Set SyncPhysicalTokenBlock) : Prop where
  sameConfig : manager.SameConfig manager'
  lookup_eq : ∀ sequenceId, sequenceId ∉ sequenceIds →
    manager'.blockTables.lookup sequenceId = manager.blockTables.lookup sequenceId
  refCount_eq : ∀ block, block ∉ blocks →
    manager'.pool.refCount block = manager.pool.refCount block
  mem_free_iff : ∀ device block, block ∉ blocks →
    (block ∈ manager'.pool.free device ↔ block ∈ manager.pool.free device)

/--
The blocks that an operation works on: those that it may take from the free list of `device`, and
those of the tables of `sequenceIds`.
-/
structure WorksOn (manager : BlockSpaceManager) (device : BlockDevice) (sequenceIds : List Nat)
    (blocks : Set SyncPhysicalTokenBlock) : Prop where
  free : ∀ block ∈ manager.pool.free device, block ∈ blocks
  tables : ∀ sequenceId ∈ sequenceIds, ∀ blockTable,
    manager.blockTables.lookup sequenceId = some blockTable → ∀ block ∈ blockTable, block ∈ blocks

/--
The free blocks of a device and the blocks of the tables of `sequenceIds`.
-/
def workBlocks (manager : BlockSpaceManager) (device : BlockDevice) (sequenceIds : List Nat)
    : Set SyncPhysicalTokenBlock :=
  { block |
    block ∈ manager.pool.free device
      ∨ ∃ sequenceId ∈ sequenceIds, ∃ blockTable,
          manager.blockTables.lookup sequenceId = some blockTable ∧ block ∈ blockTable }

theorem worksOn_workBlocks (manager : BlockSpaceManager) (device : BlockDevice)
    (sequenceIds : List Nat)
    : manager.WorksOn device sequenceIds (manager.workBlocks device sequenceIds) :=
  ⟨fun _ hfree => .inl hfree, fun sequenceId hid blockTable hlookup _ hblock =>
    .inr ⟨sequenceId, hid, blockTable, hlookup, hblock⟩⟩

section Within

variable {manager : BlockSpaceManager} {device : BlockDevice} {sequenceIds : List Nat}
variable {blocks : Set SyncPhysicalTokenBlock} {current next : BlockSpaceManager}

/--
An operation that works on `blocks` has not changed others so far.
-/
structure Within (manager : BlockSpaceManager) (device : BlockDevice) (sequenceIds : List Nat)
    (blocks : Set SyncPhysicalTokenBlock) (current : BlockSpaceManager) : Prop where
  changesOnly : manager.ChangesOnly current sequenceIds blocks
  worksOn : current.WorksOn device sequenceIds blocks

theorem WorksOn.within (h : manager.WorksOn device sequenceIds blocks)
    : manager.Within device sequenceIds blocks manager :=
  ⟨⟨.refl _, fun _ _ => rfl, fun _ _ => rfl, fun _ _ _ => Iff.rfl⟩, h⟩

/--
A step that keeps the tables and changes one block.
-/
theorem Within.of_pool {pool : RefPool BlockDevice SyncPhysicalTokenBlock}
    (h : manager.Within device sequenceIds blocks current) (hblock : block ∈ blocks)
    (hsame : current.SameTables next pool)
    (hcount : ∀ other, other ≠ block → pool.refCount other = current.pool.refCount other)
    (hfree : ∀ device other, other ≠ block →
      (other ∈ pool.free device ↔ other ∈ current.pool.free device))
    : manager.Within device sequenceIds blocks next := by
  have hne : ∀ {other}, other ∉ blocks → other ≠ block := by
    rintro other hother rfl
    exact hother hblock
  refine ⟨⟨h.changesOnly.sameConfig.trans hsame.toSameConfig, ?_, ?_, ?_⟩, ⟨?_, ?_⟩⟩
  . intro sequenceId hid
    rw [hsame.blockTables_eq]
    exact h.changesOnly.lookup_eq sequenceId hid
  . intro other hother
    rw [hsame.pool_eq, hcount other (hne hother)]
    exact h.changesOnly.refCount_eq other hother
  . intro device other hother
    rw [hsame.pool_eq, hfree device other (hne hother)]
    exact h.changesOnly.mem_free_iff device other hother
  . intro other hmem
    rw [hsame.pool_eq] at hmem
    by_cases heq : other = block
    . rwa [heq]
    . exact h.worksOn.free other ((hfree device other heq).mp hmem)
  . rw [hsame.blockTables_eq]
    exact h.worksOn.tables

theorem Within.allocateBlock (h : manager.Within device sequenceIds blocks current)
    : Ends (allocateBlock device) current
        (fun block next => block ∈ blocks ∧ manager.Within device sequenceIds blocks next)
        (manager.Within device sequenceIds blocks) := by
  apply Ends.mono (allocateBlock_ends device)
  . rintro block next ⟨rest, hrest, hsame⟩
    have hblock : block ∈ blocks := h.worksOn.free block (by simp [hrest])
    refine ⟨hblock, h.of_pool hblock hsame ?_ ?_⟩
    . intro other hother
      exact Function.update_of_ne hother _ _
    . intro device' other hother
      simp only [RefPool.take]
      by_cases hdevice : device' = device
      . subst hdevice
        simp [hrest, hother]
      . rw [Function.update_of_ne hdevice]
  . rintro next rfl
    exact h

theorem Within.freeBlock {source : BlockDevice} (h : manager.Within device sequenceIds blocks current)
    (hblock : block ∈ blocks)
    : Ends (freeBlock source block) current
        (fun _ => manager.Within device sequenceIds blocks)
        (manager.Within device sequenceIds blocks) := by
  by_cases hcount : 1 ≤ current.pool.refCount block
  . apply Yields.ends
    apply Yields.mono (freeBlock_yields hcount)
    intro _ next hsame
    apply h.of_pool hblock hsame
    . intro other hother
      exact Function.update_of_ne hother _ _
    . intro device' other hother
      simp only [RefPool.release]
      split
      . by_cases hdevice : device' = source
        . subst hdevice
          simp [hother]
        . rw [Function.update_of_ne hdevice]
      . rfl
  . have hzero : (current.blocks block).refCount = 0 := by
      change ¬ 1 ≤ (current.blocks block).refCount at hcount
      omega
    unfold Ends BlockSpaceManager.freeBlock
    simp only [BlockAllocator.free, hzero, if_true, run_bind, run_get]
    exact h

theorem Within.writeBlock {f : PhysicalTokenBlock → PhysicalTokenBlock}
    (h : manager.Within device sequenceIds blocks current) (hblock : block ∈ blocks)
    : Ends (writeBlock block f) current
        (fun _ => manager.Within device sequenceIds blocks)
        (manager.Within device sequenceIds blocks) := by
  let pool : RefPool BlockDevice SyncPhysicalTokenBlock :=
    ⟨current.pool.free, Function.update current.pool.refCount block (f (current.blocks block)).refCount⟩
  have hsame : current.SameTables
      { current with blocks := Function.update current.blocks block (f (current.blocks block)) }
      pool :=
    sameTables_writeBlock rfl rfl
  exact h.of_pool hblock hsame (fun _ hother => Function.update_of_ne hother _ _)
    fun _ _ _ => Iff.rfl

theorem Within.insertTable (h : manager.Within device sequenceIds blocks current)
    (hid : sequenceId ∈ sequenceIds) (htable : ∀ block ∈ blockTable, block ∈ blocks)
    : manager.Within device sequenceIds blocks (current.insertTable sequenceId blockTable) := by
  refine ⟨⟨h.changesOnly.sameConfig.trans sameConfig_insertTable, ?_, h.changesOnly.refCount_eq,
    h.changesOnly.mem_free_iff⟩, ⟨h.worksOn.free, ?_⟩⟩
  . intro other hother
    rw [lookup_insertTable, if_neg]
    . exact h.changesOnly.lookup_eq other hother
    . rintro rfl
      exact hother hid
  . intro other hother table hlookup
    rw [lookup_insertTable] at hlookup
    split at hlookup
    . cases hlookup
      exact htable
    . exact h.worksOn.tables other hother table hlookup

end Within

section Operations

variable {manager current : BlockSpaceManager} {target source : BlockDevice}
variable {sequenceIds : List Nat} {blocks : Set SyncPhysicalTokenBlock}

/--
The loop of `allocate` is given free blocks and blocks of the table that it makes.
-/
theorem Within.logicalBlock {refCount logicalIdx : Nat}
    (h : manager.Within .gpu sequenceIds blocks current) (htable : ∀ block ∈ blockTable, block ∈ blocks)
    : Ends (allocate.logicalBlock refCount blockTable logicalIdx) current
        (fun blockTable next =>
          (∀ block ∈ blockTable, block ∈ blocks) ∧ manager.Within .gpu sequenceIds blocks next)
        (manager.Within .gpu sequenceIds blocks) := by
  have hwrite : ∀ block next, block ∈ blocks ∧ manager.Within .gpu sequenceIds blocks next →
      Ends (do
        BlockSpaceManager.writeBlock block (·.setRefCountBy refCount)
        return blockTable ++ [block]) next
        (fun blockTable next =>
          (∀ block ∈ blockTable, block ∈ blocks) ∧ manager.Within .gpu sequenceIds blocks next)
        (manager.Within .gpu sequenceIds blocks) := by
    rintro block next ⟨hblock, hwithin⟩
    apply Ends.bind (hwithin.writeBlock hblock)
    intro _ next hwithin
    refine Ends.pure ⟨?_, hwithin⟩
    intro other hother
    rcases List.mem_append.mp hother with hother | hother
    . exact htable other hother
    . rwa [List.mem_singleton.mp hother]
  unfold allocate.logicalBlock
  apply Ends.get_bind
  split
  . split
    . split
      . exact Ends.throw h
      . split
        . next block hget => exact hwrite block current ⟨htable block (List.mem_of_getElem? hget), h⟩
        . exact Ends.throw h
    . exact Ends.bind h.allocateBlock hwrite
  . exact Ends.bind h.allocateBlock hwrite

theorem Within.allocate {group : SequenceGroup} {heap : SequenceHeap}
    (h : manager.Within .gpu [] blocks manager)
    : Ends (allocate group heap) manager (fun _ _ => True) (manager.Within .gpu [] blocks) := by
  unfold BlockSpaceManager.allocate
  split
  . trivial
  . apply Ends.bind (Q := fun _ _ => True)
    . refine Ends.mono (Ends.foldlM (fun blockTable next =>
        (∀ block ∈ blockTable, block ∈ blocks) ∧ manager.Within .gpu [] blocks next) ?_
        ⟨by simp, h⟩) (fun _ _ _ => trivial) fun _ h => h
      rintro logicalIdx - blockTable next ⟨htable, hwithin⟩
      exact hwithin.logicalBlock htable
    . intro _ _ _
      trivial

theorem Within.swapBlock {acc : SwapMapping × BlockTable}
    (h : manager.Within target sequenceIds blocks current)
    (hmapping : ∀ number block, acc.1.lookup number = some block → block ∈ blocks)
    (htable : ∀ block ∈ acc.2, block ∈ blocks) (hblock : block ∈ blocks)
    : Ends (swapBlock source target acc block) current
        (fun acc next =>
          (∀ number block, acc.1.lookup number = some block → block ∈ blocks)
            ∧ (∀ block ∈ acc.2, block ∈ blocks) ∧ manager.Within target sequenceIds blocks next)
        (manager.Within target sequenceIds blocks) := by
  unfold BlockSpaceManager.swapBlock
  apply Ends.bind (Q := fun new next =>
    (∀ number block, new.1.lookup number = some block → block ∈ blocks) ∧ new.2 ∈ blocks
      ∧ manager.Within target sequenceIds blocks next)
  . unfold swapBlock.newBlock
    cases hlookup : acc.1.lookup block.blockNumber with
    | none =>
      apply Ends.bind h.allocateBlock
      rintro newBlock next ⟨hnew, hwithin⟩
      refine Ends.pure ⟨?_, hnew, hwithin⟩
      intro number other hother
      by_cases hnumber : number = block.blockNumber
      . rw [hnumber, AList.lookup_insert] at hother
        cases hother
        exact hnew
      . rw [AList.lookup_insert_ne hnumber] at hother
        exact hmapping number other hother
    | some newBlock =>
      have hnew := hmapping _ _ hlookup
      exact Ends.bind (h.writeBlock hnew) fun _ _ hwithin => Ends.pure ⟨hmapping, hnew, hwithin⟩
  . rintro new next ⟨hmapping', hnew, hwithin⟩
    apply Ends.bind (hwithin.freeBlock hblock)
    intro _ next hwithin
    refine Ends.pure ⟨hmapping', ?_, hwithin⟩
    intro other hother
    rcases List.mem_append.mp hother with hother | hother
    . exact htable other hother
    . rwa [List.mem_singleton.mp hother]

theorem Within.swapTable {mapping : SwapMapping} (h : manager.Within target sequenceIds blocks current)
    (hmapping : ∀ number block, mapping.lookup number = some block → block ∈ blocks)
    (hid : sequenceId ∈ sequenceIds)
    : Ends (swapTable source target mapping sequenceId) current
        (fun mapping next =>
          (∀ number block, mapping.lookup number = some block → block ∈ blocks)
            ∧ manager.Within target sequenceIds blocks next)
        (manager.Within target sequenceIds blocks) := by
  unfold BlockSpaceManager.swapTable
  apply Ends.get_bind
  cases hlookup : current.blockTables.lookup sequenceId with
  | none => exact Ends.pure ⟨hmapping, h⟩
  | some blockTable =>
    apply Ends.bind (Ends.foldlM (fun acc next =>
      (∀ number block, acc.1.lookup number = some block → block ∈ blocks)
        ∧ (∀ block ∈ acc.2, block ∈ blocks) ∧ manager.Within target sequenceIds blocks next) ?_
      ⟨hmapping, by simp, h⟩)
    . rintro acc next ⟨hmapping', htable, hwithin⟩
      exact Ends.modify_bind (Ends.pure ⟨hmapping', hwithin.insertTable hid htable⟩)
    . rintro block hblock acc next ⟨hmapping', htable, hwithin⟩
      exact hwithin.swapBlock hmapping' htable
        (h.worksOn.tables sequenceId hid blockTable hlookup block hblock)

end Operations

end BlockSpaceManager

namespace Memory

open EStateM BlockSpaceManager

variable {memory : Memory} {group : SequenceGroup} {source target : BlockDevice}
variable {before : SequenceStatus}

theorem onBlockManager_ends {α : Type} {x : BlockSpaceM α} {Q : α → BlockSpaceManager → Prop}
    {E : BlockSpaceManager → Prop} (h : Ends x memory.blockManager Q E)
    : Ends (onBlockManager x) memory
        (fun a memory' => Q a memory'.blockManager ∧ memory'.sequences = memory.sequences)
        (fun memory' => E memory'.blockManager ∧ memory'.sequences = memory.sequences) := by
  unfold Ends at h
  cases hrun : x.run memory.blockManager with
  | ok a blockManager =>
    have hok : (onBlockManager x).run memory = .ok a { memory with blockManager } := by
      change onBlockManager x memory = _
      unfold onBlockManager
      rw [hrun]
    rw [hrun] at h
    unfold Ends
    rw [hok]
    exact ⟨h, rfl⟩
  | error e blockManager =>
    have herror : (onBlockManager x).run memory = .error e { memory with blockManager } := by
      change onBlockManager x memory = _
      unfold onBlockManager
      rw [hrun]
    rw [hrun] at h
    unfold Ends
    rw [herror]
    exact ⟨h, rfl⟩

/--
`memory'` has the sequences, the tables and the blocks of `memory`, but for those of the sequences of
the group with status `before` and the free blocks of `target`.
-/
structure SwapsOnly (memory memory' : Memory) (group : SequenceGroup) (target : BlockDevice)
    (before : SequenceStatus) : Prop where
  changesOnly :
    memory.blockManager.ChangesOnly memory'.blockManager
      (group.getSequencesIds memory.sequences before)
      (memory.blockManager.workBlocks target (group.getSequencesIds memory.sequences before))
  sequences_eq : ∀ seq, seq ∉ group.getSeqs memory.sequences before →
    memory'.sequences seq = memory.sequences seq

theorem swap_ends {setStatus : Nat → MemoryM Unit}
    (hset : ∀ sequenceId ∈ group.getSequencesIds memory.sequences before, ∀ current : Memory,
      Yields (setStatus sequenceId) current fun _ next =>
        next.blockManager = current.blockManager
          ∧ ∀ seq, seq ∉ group.getSeqs memory.sequences before →
              next.sequences seq = current.sequences seq)
    : Ends (swap group source target before setStatus) memory (fun _ _ => True)
        (memory.SwapsOnly · group target before) := by
  let Kept : Memory → Prop := fun current =>
    memory.blockManager.Within target (group.getSequencesIds memory.sequences before)
        (memory.blockManager.workBlocks target (group.getSequencesIds memory.sequences before))
        current.blockManager
      ∧ ∀ seq, seq ∉ group.getSeqs memory.sequences before →
          current.sequences seq = memory.sequences seq
  have hkept : ∀ current, Kept current → memory.SwapsOnly current group target before :=
    fun current hcurrent => ⟨hcurrent.1.changesOnly, hcurrent.2⟩
  unfold swap
  apply Ends.get_bind
  refine Ends.bind (Ends.mono (Ends.foldlM (fun mapping current =>
    (∀ number block, mapping.lookup number = some block →
      block ∈ memory.blockManager.workBlocks target (group.getSequencesIds memory.sequences before))
      ∧ Kept current) ?_ ⟨by simp, (worksOn_workBlocks _ _ _).within, fun _ _ => rfl⟩)
    (fun _ _ h => h) hkept) fun _ _ _ => trivial
  rintro sequenceId hid mapping current ⟨hmapping, hwithin, hsequences⟩
  apply Ends.bind (Ends.mono (onBlockManager_ends (hwithin.swapTable hmapping hid))
    (fun _ _ h => h) ?_)
  . rintro mapping' next ⟨⟨hmapping', hwithin'⟩, hsame⟩
    apply Ends.bind ((hset sequenceId hid next).ends _)
    rintro _ last ⟨hmanager, hwritten⟩
    refine Ends.pure ⟨hmapping', ?_, ?_⟩
    . rw [hmanager]
      exact hwithin'
    . intro seq hseq
      rw [hwritten seq hseq, hsame]
      exact hsequences seq hseq
  . rintro next ⟨hwithin', hsame⟩
    refine ⟨hwithin', ?_⟩
    intro seq hseq
    rw [hsame]
    exact hsequences seq hseq

theorem swap_ends_of_nodup (hnodup : (group.sequences.map (·.sequenceId)).Nodup)
    (direction : SwapDirection)
    : Ends (direction.swap group) memory (fun _ _ => True)
        (memory.SwapsOnly · group direction.target direction.before) := by
  cases direction with
  | swapIn =>
    apply swap_ends
    intro sequenceId hid current
    refine ⟨_, _, rfl, rfl, ?_⟩
    intro seq hseq
    change group.setStatusWhere current.sequences (·.sequenceId = sequenceId) .running seq = _
    rw [SequenceGroup.setStatusWhere_apply, if_neg]
    rintro ⟨hmem, heq⟩
    refine hseq ((SequenceGroup.mem_getSeqs_iff_mem_getSequencesIds hnodup).mp ⟨hmem, ?_⟩)
    rwa [of_decide_eq_true heq]
  | swapOut =>
    apply swap_ends
    intro sequenceId hid current
    rcases List.mem_map.mp hid with ⟨seq, hseq, rfl⟩
    rw [SequenceGroup.getSequenceFromId_eq_some hnodup (SequenceGroup.mem_getSeqs.mp hseq).1]
    refine ⟨_, _, rfl, rfl, ?_⟩
    intro other hother
    apply Function.update_of_ne
    rintro rfl
    exact hother hseq

/--
What errors change. The guards of the operations rule them out, and `append_slots` changes nothing.
-/
theorem errors_change_only (h : memory.blockManager.Accounted)
    (hnodup : (group.sequences.map (·.sequenceId)).Nodup)
    : (∀ seq e manager',
          (appendSlots seq.sequenceId (memory.sequences seq)).run memory.blockManager
              = .error e manager' →
            manager' = memory.blockManager)
        ∧ (∀ e manager',
            (allocate group memory.sequences).run memory.blockManager = .error e manager' →
              memory.blockManager.canAllocate group memory.sequences ≠ .ok
                ∧ memory.blockManager.ChangesOnly manager' []
                    { block | block ∈ memory.blockManager.pool.free .gpu })
        ∧ ∀ (direction : SwapDirection) e memory',
            (direction.swap group).run memory = .error e memory' →
              ((∀ sequenceId ∈ group.getSequencesIds memory.sequences direction.before,
                  ∀ blockTable, memory.blockManager.blockTables.lookup sequenceId = some blockTable →
                    ∀ block ∈ blockTable, block.device = direction.source) →
                ¬ direction.Guard group memory)
              ∧ memory.SwapsOnly memory' group direction.target direction.before := by
  refine ⟨?_, ?_, ?_⟩
  . intro seq e manager' hrun
    exact (appendSlots_ends h).of_error hrun
  . intro e manager' hrun
    constructor
    . intro hcan
      rcases allocate_takes (by simp [h.blockSlidingWindow_eq]) hcan with ⟨_, next, -, hok, -⟩
      rw [hrun] at hok
      cases hok
    . have hworks : memory.blockManager.WorksOn .gpu []
          { block | block ∈ memory.blockManager.pool.free .gpu } :=
        ⟨fun _ hfree => hfree, fun _ hid => absurd hid List.not_mem_nil⟩
      exact (hworks.within.allocate.of_error hrun).changesOnly
  . intro direction e memory' hrun
    constructor
    . intro hsource hguard
      cases direction with
      | swapOut =>
        rcases swapOut_yields h hnodup hsource hguard with ⟨_, _, hok, -⟩
        change (swapOut group).run memory = _ at hrun
        rw [hrun] at hok
        cases hok
      | swapIn =>
        rcases swapIn_yields h hnodup hsource hguard with ⟨_, _, hok, -⟩
        change (swapIn group).run memory = _ at hrun
        rw [hrun] at hok
        cases hok
    . exact (swap_ends_of_nodup hnodup direction).of_error hrun

/--
One block for a sequence that needs three.
-/
def crowded : Memory where
  sequences := fun _ => threeTokens
  blockManager := BlockSpaceManager.new 1 1 1 none

theorem errors_change_only_crowded
    : ∃ manager',
        (allocate (oneTokenGroup [⟨0, 0⟩]) crowded.sequences).run crowded.blockManager
            = .error (.blockAllocatorError .outOfMemory) manager'
          ∧ crowded.blockManager.ChangesOnly manager' []
              { block | block ∈ crowded.blockManager.pool.free .gpu } :=
  ⟨_, rfl, ((@errors_change_only crowded (oneTokenGroup [⟨0, 0⟩]) (accounted_new 1 1 1)
    (by decide)).2.1 _ _ rfl).2⟩

/--
The only free block is gone, and no table has it.
-/
theorem not_errors_change_nothing
    : ∃ manager',
        crowded.blockManager.Accounted
          ∧ (allocate (oneTokenGroup [⟨0, 0⟩]) crowded.sequences).run crowded.blockManager
              = .error (.blockAllocatorError .outOfMemory) manager'
          ∧ crowded.blockManager.pool.free .gpu = [⟨.gpu, 0⟩]
          ∧ crowded.blockManager.pool.refCount ⟨.gpu, 0⟩ = 0
          ∧ manager'.pool.free .gpu = []
          ∧ manager'.pool.refCount ⟨.gpu, 0⟩ = 1
          ∧ manager'.blockTables = ∅ :=
  ⟨_, accounted_new 1 1 1, rfl, by decide, rfl, rfl, rfl, rfl⟩

end Memory

end AtomaInfer
