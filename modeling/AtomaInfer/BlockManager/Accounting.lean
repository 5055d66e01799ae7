import Mathlib.Algebra.Order.Group.Multiset
import Mathlib.Tactic.Abel
import AtomaInfer.BlockManager.Impl
import AtomaInfer.Sequence.Lemmas
import AtomaInfer.Util.AList
import AtomaInfer.Util.EStateM
import AtomaInfer.Util.RefPool

/-!
What the operations of the block manager do to its free lists and reference counts. The two
allocators are a pool of reference counted blocks, and the references are the entries of the block
tables.
-/

namespace AtomaInfer

namespace BlockSpaceManager

open EStateM RefPool

/--
The two allocators as a pool of blocks.
-/
def pool (manager : BlockSpaceManager) : RefPool BlockDevice SyncPhysicalTokenBlock where
  free device := (manager.allocator device).freeBlocks
  refCount block := (manager.blocks block).refCount

/--
The blocks that the allocators have created.
-/
def created (manager : BlockSpaceManager) : Set SyncPhysicalTokenBlock :=
  { block |
    block.blockNumber < BlockAllocator.numCreated (manager.allocator block.device).numBlocks }

/--
The references held by the block tables.
-/
def owned (manager : BlockSpaceManager) : Multiset SyncPhysicalTokenBlock :=
  manager.blockTables.sumValues Multiset.ofList

/--
`manager'` has the configuration of `manager`.
-/
structure SameConfig (manager manager' : BlockSpaceManager) : Prop where
  blockSize_eq : manager'.blockSize = manager.blockSize
  numGpuBlocks_eq : manager'.numGpuBlocks = manager.numGpuBlocks
  blockSlidingWindow_eq : manager'.blockSlidingWindow = manager.blockSlidingWindow
  numBlocks_eq : ∀ device,
    (manager'.allocator device).numBlocks = (manager.allocator device).numBlocks

namespace SameConfig

variable {m₁ m₂ m₃ : BlockSpaceManager}

theorem refl (m : BlockSpaceManager) : SameConfig m m := by
  constructor <;> simp

theorem trans (h₁ : SameConfig m₁ m₂) (h₂ : SameConfig m₂ m₃) : SameConfig m₁ m₃ := by
  constructor
  . rw [h₂.blockSize_eq, h₁.blockSize_eq]
  . rw [h₂.numGpuBlocks_eq, h₁.numGpuBlocks_eq]
  . rw [h₂.blockSlidingWindow_eq, h₁.blockSlidingWindow_eq]
  . intro device
    rw [h₂.numBlocks_eq, h₁.numBlocks_eq]

theorem created_eq (h : SameConfig m₁ m₂) : m₂.created = m₁.created := by
  unfold created
  simp only [h.numBlocks_eq]

end SameConfig

/--
`manager'` has the configuration and the block tables of `manager`; its blocks are `pool`.
-/
structure SameTables (manager manager' : BlockSpaceManager)
    (pool : RefPool BlockDevice SyncPhysicalTokenBlock) : Prop extends
    SameConfig manager manager' where
  blockTables_eq : manager'.blockTables = manager.blockTables
  pool_eq : manager'.pool = pool

section Primitives

variable {manager : BlockSpaceManager} {device : BlockDevice} {block : SyncPhysicalTokenBlock}

@[simp]
theorem allocator_setAllocator (device' : BlockDevice) (allocator : BlockAllocator)
    : (manager.setAllocator device allocator).allocator device'
        =
      if device' = device then allocator else manager.allocator device' := by
  cases device <;> cases device' <;> rfl

theorem sameTables_setAllocator {allocator : BlockAllocator} {blocks : BlockHeap}
    {pool : RefPool BlockDevice SyncPhysicalTokenBlock}
    (hnum : allocator.numBlocks = (manager.allocator device).numBlocks)
    (hfree : pool.free = Function.update manager.pool.free device allocator.freeBlocks)
    (hcount : pool.refCount = fun block => (blocks block).refCount)
    : manager.SameTables { manager.setAllocator device allocator with blocks } pool := by
  constructor
  . constructor
    . cases device <;> rfl
    . cases device <;> rfl
    . cases device <;> rfl
    . intro device'
      have : BlockSpaceManager.allocator
          { manager.setAllocator device allocator with blocks } device'
            =
          (manager.setAllocator device allocator).allocator device' := by
        cases device' <;> rfl
      rw [this, allocator_setAllocator]
      split
      . next h => rw [h, hnum]
      . rfl
  . cases device <;> rfl
  . rcases pool with ⟨free, refCount⟩
    dsimp only at hfree hcount
    unfold BlockSpaceManager.pool
    rw [hfree, hcount]
    congr 1
    funext device'
    cases device <;> cases device' <;> rfl

/--
An allocation takes the first block of the free list.
-/
theorem allocateBlock_yields (hfree : 1 ≤ manager.getNumFreeBlocks device)
    : Yields (allocateBlock device) manager fun block manager' =>
        ∃ rest,
          manager.pool.free device = block :: rest
            ∧ manager.SameTables manager' (manager.pool.take device block rest) := by
  unfold getNumFreeBlocks BlockAllocator.getNumFreeBlocks at hfree
  cases hblocks : (manager.allocator device).freeBlocks with
  | nil => simp [hblocks] at hfree
  | cons block rest =>
    have hrun : (allocateBlock device).run manager = .ok block {
        manager.setAllocator device { manager.allocator device with freeBlocks := rest } with
        blocks := Function.update manager.blocks block
          (manager.blocks block).incrementRefCount } := by
      simp only [allocateBlock, BlockAllocator.allocate, run_bind, run_get, hblocks]
      rfl
    refine ⟨block, _, hrun, rest, hblocks, ?_⟩
    apply sameTables_setAllocator
    . rfl
    . rfl
    . funext c
      by_cases hc : c = block
      . subst hc
        simp [RefPool.take, PhysicalTokenBlock.incrementRefCount, pool]
      . simp [RefPool.take, hc, pool]

theorem allocateBlock_run_of_eq_zero (hfree : manager.getNumFreeBlocks device = 0)
    : (allocateBlock device).run manager = .error (.blockAllocatorError .outOfMemory) manager := by
  unfold getNumFreeBlocks BlockAllocator.getNumFreeBlocks at hfree
  have : (manager.allocator device).freeBlocks = [] := List.eq_nil_of_length_eq_zero hfree
  simp only [allocateBlock, BlockAllocator.allocate, this, run_bind, run_get]
  rfl

theorem freeBlock_yields (hcount : 1 ≤ manager.pool.refCount block)
    : Yields (freeBlock device block) manager fun _ manager' =>
        manager.SameTables manager' (manager.pool.release device block) := by
  change 1 ≤ (manager.blocks block).refCount at hcount
  have hpos : 0 < (manager.blocks block).refCount := hcount
  have hne : (manager.blocks block).refCount ≠ 0 := by omega
  let decreased := { manager.blocks block with refCount := (manager.blocks block).refCount - 1 }
  let blocks := Function.update manager.blocks block decreased
  have hrefCount : (manager.pool.release device block).refCount
      = fun c => (blocks c).refCount := by
    funext c
    by_cases hc : c = block
    . subst hc
      simp [RefPool.release, blocks, decreased, pool]
    . simp [RefPool.release, blocks, pool, hc]
  by_cases hlast : (manager.blocks block).refCount - 1 = 0
  . have hone : manager.pool.refCount block = 1 := by
      change (manager.blocks block).refCount = 1
      omega
    let allocator := {
      manager.allocator device with
      freeBlocks := block :: (manager.allocator device).freeBlocks }
    have hrun : (freeBlock device block).run manager
        = .ok () { manager.setAllocator device allocator with blocks } := by
      simp [freeBlock, BlockAllocator.free, hne, PhysicalTokenBlock.decreaseRefCount, hlast, hpos,
        allocator, blocks, decreased]
    refine ⟨(), _, hrun, ?_⟩
    refine @sameTables_setAllocator manager device allocator blocks _ rfl ?_ hrefCount
    simp only [RefPool.release]
    rw [if_pos hone]
    rfl
  . have hone : manager.pool.refCount block ≠ 1 := by
      change (manager.blocks block).refCount ≠ 1
      omega
    have hrun : (freeBlock device block).run manager
        = .ok () { manager.setAllocator device (manager.allocator device) with blocks } := by
      simp [freeBlock, BlockAllocator.free, hne, PhysicalTokenBlock.decreaseRefCount, hlast, hpos,
        blocks, decreased]
    refine ⟨(), _, hrun, ?_⟩
    refine @sameTables_setAllocator manager device (manager.allocator device) blocks _ rfl ?_
      hrefCount
    simp only [RefPool.release]
    rw [if_neg hone]
    exact (Function.update_eq_self device manager.pool.free).symm

theorem writeBlock_run (f : PhysicalTokenBlock → PhysicalTokenBlock)
    : (writeBlock block f).run manager
        =
      .ok () {
        manager with
        blocks := Function.update manager.blocks block (f (manager.blocks block)) } := by
  rfl

theorem sameTables_writeBlock {pool : RefPool BlockDevice SyncPhysicalTokenBlock}
    {b : PhysicalTokenBlock} (hfree : pool.free = manager.pool.free)
    (hcount : pool.refCount = Function.update manager.pool.refCount block b.refCount)
    : manager.SameTables
        { manager with blocks := Function.update manager.blocks block b } pool := by
  constructor
  . constructor
    . rfl
    . rfl
    . rfl
    . intro device'
      cases device' <;> rfl
  . rfl
  . rcases pool with ⟨free, refCount⟩
    dsimp only at hfree hcount
    unfold BlockSpaceManager.pool
    rw [hfree, hcount]
    congr 1
    . funext c
      by_cases hc : c = block
      . subst hc
        simp
      . simp [hc, BlockSpaceManager.pool]

theorem incrementRefCount_yields
    : Yields (writeBlock block (·.incrementRefCount)) manager fun _ manager' =>
        manager.SameTables manager' (manager.pool.share block) := by
  refine ⟨(), _, writeBlock_run _, ?_⟩
  apply sameTables_writeBlock
  . rfl
  . rfl

theorem setRefCountBy_yields (n : Nat)
    : Yields (writeBlock block (·.setRefCountBy n)) manager fun _ manager' =>
        manager.SameTables manager' (manager.pool.setCount block n) := by
  refine ⟨(), _, writeBlock_run _, ?_⟩
  apply sameTables_writeBlock
  . rfl
  . rfl

end Primitives

section Tables

variable {manager manager' : BlockSpaceManager} {sequenceId : Nat} {blockTable : BlockTable}

/--
The references held by the block tables of the other sequences.
-/
def ownedByOthers (manager : BlockSpaceManager) (sequenceId : Nat)
    : Multiset SyncPhysicalTokenBlock :=
  (manager.blockTables.erase sequenceId).sumValues Multiset.ofList

theorem owned_eq (h : manager.blockTables.lookup sequenceId = some blockTable)
    : manager.owned = blockTable + manager.ownedByOthers sequenceId :=
  AList.sumValues_of_lookup_eq_some Multiset.ofList h

theorem owned_eq_of_lookup_eq_none (h : manager.blockTables.lookup sequenceId = none)
    : manager.owned = manager.ownedByOthers sequenceId := by
  unfold owned ownedByOthers
  rw [AList.erase_eq_self_of_lookup_eq_none h]

theorem owned_insertTable (manager : BlockSpaceManager) (sequenceId : Nat) (blockTable : BlockTable)
    : (manager.insertTable sequenceId blockTable).owned
        =
      blockTable + manager.ownedByOthers sequenceId :=
  AList.sumValues_insert Multiset.ofList manager.blockTables sequenceId blockTable

theorem mem_owned_of_mem (h : manager.blockTables.lookup sequenceId = some blockTable)
    {block : SyncPhysicalTokenBlock} (hmem : block ∈ blockTable) : block ∈ manager.owned := by
  rw [owned_eq h]
  exact Multiset.mem_add.mpr (.inl hmem)

@[simp]
theorem pool_insertTable : (manager.insertTable sequenceId blockTable).pool = manager.pool := by
  rfl

theorem sameConfig_blockTables (blockTables : AList fun _ : Nat => BlockTable)
    : manager.SameConfig { manager with blockTables } := by
  constructor
  . rfl
  . rfl
  . rfl
  . intro device
    cases device <;> rfl

theorem sameConfig_insertTable : manager.SameConfig (manager.insertTable sequenceId blockTable) :=
  sameConfig_blockTables _

@[simp]
theorem lookup_insertTable (sequenceId' : Nat)
    : (manager.insertTable sequenceId blockTable).blockTables.lookup sequenceId'
        =
      if sequenceId' = sequenceId then some blockTable
      else manager.blockTables.lookup sequenceId' := by
  unfold insertTable
  split
  . next h => rw [h, AList.lookup_insert]
  . next h => rw [AList.lookup_insert_ne h]

theorem pool_insertTables (sequenceIds : List Nat)
    : (manager.insertTables sequenceIds blockTable).pool = manager.pool := by
  unfold insertTables
  induction sequenceIds generalizing manager with
  | nil => rfl
  | cons sequenceId sequenceIds ih => rw [List.foldl_cons, ih, pool_insertTable]

theorem sameConfig_insertTables (sequenceIds : List Nat)
    : manager.SameConfig (manager.insertTables sequenceIds blockTable) := by
  unfold insertTables
  induction sequenceIds generalizing manager with
  | nil => exact SameConfig.refl manager
  | cons sequenceId sequenceIds ih => exact sameConfig_insertTable.trans ih

theorem lookup_insertTables (sequenceIds : List Nat) (sequenceId : Nat)
    : (manager.insertTables sequenceIds blockTable).blockTables.lookup sequenceId
        =
      if sequenceId ∈ sequenceIds then some blockTable
      else manager.blockTables.lookup sequenceId := by
  unfold insertTables
  induction sequenceIds generalizing manager with
  | nil => simp
  | cons sequenceId' sequenceIds ih =>
    rw [List.foldl_cons, ih, lookup_insertTable]
    simp only [List.mem_cons]
    grind

theorem owned_insertTables {sequenceIds : List Nat} (hnodup : sequenceIds.Nodup)
    (hnone : ∀ sequenceId ∈ sequenceIds, manager.blockTables.lookup sequenceId = none)
    : (manager.insertTables sequenceIds blockTable).owned
        =
      manager.owned + sequenceIds.length • (blockTable : Multiset SyncPhysicalTokenBlock) := by
  induction sequenceIds generalizing manager with
  | nil => simp [insertTables]
  | cons sequenceId sequenceIds ih =>
    rw [List.nodup_cons] at hnodup
    have hnone' : ∀ id ∈ sequenceIds,
        (manager.insertTable sequenceId blockTable).blockTables.lookup id = none := by
      intro id hid
      have : id ≠ sequenceId := fun h => hnodup.1 (h ▸ hid)
      rw [lookup_insertTable, if_neg this]
      exact hnone id (List.mem_cons_of_mem _ hid)
    have hinsert := owned_insertTable manager sequenceId blockTable
    rw [← owned_eq_of_lookup_eq_none (hnone sequenceId List.mem_cons_self)] at hinsert
    have := ih hnodup.2 hnone'
    rw [hinsert] at this
    rw [List.length_cons, succ_nsmul]
    unfold insertTables at *
    rw [List.foldl_cons, this]
    abel

theorem owned_congr (h : manager'.blockTables = manager.blockTables)
    : manager'.owned = manager.owned := by
  unfold owned
  rw [h]

theorem getNumFreeBlocks_eq (manager : BlockSpaceManager) (device : BlockDevice)
    : manager.getNumFreeBlocks device = (manager.pool.free device).length := by
  rfl

end Tables

/--
The manager has no sliding window, its pool accounts for the references held by the block tables,
and a table has no block twice and all its blocks on one device.
-/
structure Accounted (manager : BlockSpaceManager) : Prop where
  blockSlidingWindow_eq : manager.blockSlidingWindow = none
  balanced : Balanced (·.device) manager.created manager.pool manager.owned
  nodup : ∀ sequenceId blockTable,
    manager.blockTables.lookup sequenceId = some blockTable → blockTable.Nodup
  device_eq : ∀ sequenceId blockTable,
    manager.blockTables.lookup sequenceId = some blockTable →
      ∃ device, ∀ block ∈ blockTable, block.device = device

theorem mem_free_new {blockSize numCpuBlocks numGpuBlocks : Nat} {slidingWindow : Option Nat}
    {device : BlockDevice} {block : SyncPhysicalTokenBlock}
    : block ∈ (new blockSize numCpuBlocks numGpuBlocks slidingWindow).pool.free device
        ↔
      block.device = device
        ∧ block ∈ (new blockSize numCpuBlocks numGpuBlocks slidingWindow).created := by
  rcases block with ⟨blockDevice, blockNumber⟩
  cases device <;> cases blockDevice <;>
    simp [new, pool, created, allocator, BlockAllocator.new]

theorem accounted_new (blockSize numCpuBlocks numGpuBlocks : Nat)
    : (new blockSize numCpuBlocks numGpuBlocks none).Accounted := by
  refine ⟨rfl, ⟨?_, ?_, ?_, ?_⟩, ?_, ?_⟩
  . intro device
    have hinjective : ∀ device, Function.Injective (SyncPhysicalTokenBlock.mk device) := by
      intro device i j h
      cases h
      rfl
    cases device with
    | cpu => exact List.nodup_reverse.mpr (List.nodup_range.map (hinjective .cpu))
    | gpu => exact List.nodup_reverse.mpr (List.nodup_range.map (hinjective .gpu))
  . intro device block
    rw [mem_free_new]
    have : block ∉ (new blockSize numCpuBlocks numGpuBlocks none).owned := by
      rintro hmem
      cases hmem
    simp [this]
  . intro block _
    rfl
  . intro block hmem
    cases hmem
  . intro sequenceId blockTable hlookup
    cases hlookup
  . intro sequenceId blockTable hlookup
    cases hlookup

/--
The accounting after an operation that has written block tables.
-/
theorem Accounted.of_tables {manager manager' : BlockSpaceManager} (h : manager.Accounted)
    (hconfig : manager.SameConfig manager')
    (hbalanced : Balanced (·.device) manager.created manager'.pool manager'.owned)
    (htables : ∀ sequenceId blockTable, manager'.blockTables.lookup sequenceId = some blockTable →
      manager.blockTables.lookup sequenceId = some blockTable
        ∨ (blockTable.Nodup ∧ ∃ device, ∀ block ∈ blockTable, block.device = device))
    : manager'.Accounted := by
  constructor
  . rw [hconfig.blockSlidingWindow_eq, h.blockSlidingWindow_eq]
  . rwa [hconfig.created_eq]
  . intro sequenceId blockTable hlookup
    rcases htables sequenceId blockTable hlookup with hold | ⟨hnodup, -⟩
    . exact h.nodup sequenceId blockTable hold
    . exact hnodup
  . intro sequenceId blockTable hlookup
    rcases htables sequenceId blockTable hlookup with hold | ⟨-, hdevice⟩
    . exact h.device_eq sequenceId blockTable hold
    . exact hdevice

section Allocate

variable {manager : BlockSpaceManager} {group : SequenceGroup} {heap : SequenceHeap}
variable {base : Multiset SyncPhysicalTokenBlock} {univ : Set SyncPhysicalTokenBlock}

theorem allocate.logicalBlock_yields {refCount logicalIdx : Nat} {blockTable : BlockTable}
    (hwindow : manager.blockSlidingWindow = none) (hcount : 1 ≤ refCount)
    (hbalanced : Balanced (·.device) univ manager.pool (base + refCount • blockTable))
    (hfree : 1 ≤ manager.getNumFreeBlocks .gpu)
    : Yields (allocate.logicalBlock refCount blockTable logicalIdx) manager
        fun blockTable' manager' =>
          ∃ block,
            blockTable' = blockTable ++ [block]
              ∧ block.device = .gpu
              ∧ block ∉ base + refCount • (blockTable : Multiset SyncPhysicalTokenBlock)
              ∧ manager.SameConfig manager'
              ∧ manager'.blockTables = manager.blockTables
              ∧ manager.getNumFreeBlocks .gpu = manager'.getNumFreeBlocks .gpu + 1
              ∧ Balanced (·.device) univ manager'.pool (base + refCount • blockTable') := by
  unfold allocate.logicalBlock
  apply Yields.get_bind
  simp only [hwindow]
  apply Yields.bind (allocateBlock_yields hfree)
  rintro block m₁ ⟨rest, hrest, h₁⟩
  apply Yields.bind (setRefCountBy_yields refCount)
  rintro _ m₂ h₂
  rcases hbalanced.head_free hrest with ⟨hdevice, -, hown⟩
  apply Yields.pure
  refine ⟨block, rfl, hdevice, hown, h₁.toSameConfig.trans h₂.toSameConfig, ?_, ?_, ?_⟩
  . rw [h₂.blockTables_eq, h₁.blockTables_eq]
  . rw [getNumFreeBlocks_eq, getNumFreeBlocks_eq, h₂.pool_eq, h₁.pool_eq, hrest]
    simp [RefPool.setCount, RefPool.take]
  . rw [h₂.pool_eq, h₁.pool_eq]
    have := (hbalanced.take hrest).setCount hown hcount
    rw [← Multiset.nsmul_singleton] at this
    convert this using 1
    simp only [← Multiset.coe_add, Multiset.coe_singleton, nsmul_add]
    abel

/--
The loop of `allocate` returns `numBlocks` blocks that no table holds yet.
-/
theorem allocate.foldlM_yields {refCount : Nat} (logicalIdxs : List Nat)
    (hwindow : manager.blockSlidingWindow = none) (hcount : 1 ≤ refCount)
    (hbalanced : Balanced (·.device) univ manager.pool base)
    (hfree : logicalIdxs.length ≤ manager.getNumFreeBlocks .gpu)
    : Yields (logicalIdxs.foldlM (allocate.logicalBlock refCount) []) manager
        fun blockTable manager' =>
          blockTable.Nodup
            ∧ blockTable.length = logicalIdxs.length
            ∧ (∀ block ∈ blockTable, block.device = .gpu ∧ block ∉ base)
            ∧ manager.SameConfig manager'
            ∧ manager'.blockTables = manager.blockTables
            ∧ Balanced (·.device) univ manager'.pool (base + refCount • blockTable) := by
  let I : List Nat → BlockTable → BlockSpaceManager → Prop := fun rest blockTable manager' =>
    blockTable.Nodup
      ∧ blockTable.length + rest.length = logicalIdxs.length
      ∧ (∀ block ∈ blockTable, block.device = .gpu ∧ block ∉ base)
      ∧ manager.SameConfig manager'
      ∧ manager'.blockTables = manager.blockTables
      ∧ Balanced (·.device) univ manager'.pool (base + refCount • blockTable)
      ∧ rest.length ≤ manager'.getNumFreeBlocks .gpu
  have hloop := Yields.foldlM I (f := allocate.logicalBlock refCount)
  apply Yields.mono (hloop ?_ logicalIdxs [] manager ?_)
  . rintro blockTable manager' ⟨hnodup, hlength, hnew, hconfig, htables, hbalanced, -⟩
    exact ⟨hnodup, hlength, hnew, hconfig, htables, hbalanced⟩
  . rintro idx rest blockTable m ⟨hnodup, hlength, hnew, hconfig, htables, hbalanced, hfree⟩
    have hwindow' : m.blockSlidingWindow = none := by
      rw [hconfig.blockSlidingWindow_eq, hwindow]
    rw [List.length_cons] at hlength hfree
    apply Yields.mono (allocate.logicalBlock_yields hwindow' hcount hbalanced (by omega))
    rintro _ m' ⟨block, rfl, hdevice, hown, hconfig', htables', hfree', hbalanced'⟩
    rw [Multiset.mem_add, not_or] at hown
    have hnotmem : block ∉ blockTable := by
      intro hmem
      apply hown.2
      rw [Multiset.mem_nsmul]
      exact ⟨by omega, hmem⟩
    refine ⟨?_, ?_, ?_, hconfig.trans hconfig', ?_, hbalanced', by omega⟩
    . rw [← List.concat_eq_append]
      exact List.Nodup.concat hnotmem hnodup
    . rw [List.length_append, List.length_singleton]
      omega
    . intro c hc
      rcases List.mem_append.mp hc with hc | hc
      . exact hnew c hc
      . rw [List.mem_singleton.mp hc]
        exact ⟨hdevice, hown.1⟩
    . rw [htables', htables]
  . refine ⟨List.nodup_nil, by simp, by simp, SameConfig.refl _, rfl, ?_, hfree⟩
    simpa using hbalanced

/--
The blocks that a table of `numBlocks` entries consists of: from the window on, they repeat.
-/
def windowed (manager : BlockSpaceManager) (numBlocks : Nat) : Nat :=
  match manager.blockSlidingWindow with
  | some blockSlidingWindow => min numBlocks blockSlidingWindow
  | none => numBlocks

theorem SameConfig.windowed_eq {manager' : BlockSpaceManager} (h : manager.SameConfig manager')
    (numBlocks : Nat) : manager'.windowed numBlocks = manager.windowed numBlocks := by
  unfold windowed
  rw [h.blockSlidingWindow_eq]

theorem canAllocate_eq_ok_iff
    : manager.canAllocate group heap = .ok ↔
        ∃ sequence,
          group.getFirstSequence heap .waiting = some sequence
            ∧ manager.windowed (heap sequence).getNumTotalLogicalTokenBlocks
                ≤ manager.getNumFreeBlocks .gpu := by
  unfold canAllocate SequenceGroup.getNumTotalLogicalTokenBlocks
  cases group.getFirstSequence heap .waiting with
  | none => simp
  | some sequence =>
    simp only [Option.map_some]
    generalize hnum : (heap sequence).getNumTotalLogicalTokenBlocks = numBlocks
    change (if manager.windowed numBlocks ≤ manager.getNumFreeBlocks .gpu then AllocationStatus.ok
      else if manager.numGpuBlocks < manager.windowed numBlocks then .never
      else .later) = .ok ↔ _
    constructor
    . intro h
      refine ⟨sequence, rfl, ?_⟩
      rw [hnum]
      split at h
      . assumption
      . split at h <;> cases h
    . rintro ⟨_, hsome, hle⟩
      cases hsome
      rw [hnum] at hle
      exact if_pos hle

theorem canAllocate_eq_ok (hwindow : manager.blockSlidingWindow = none)
    : manager.canAllocate group heap = .ok ↔
        ∃ sequence,
          group.getFirstSequence heap .waiting = some sequence
            ∧ (heap sequence).getNumTotalLogicalTokenBlocks ≤ manager.getNumFreeBlocks .gpu := by
  rw [canAllocate_eq_ok_iff]
  unfold windowed
  simp only [hwindow]

/--
The sequences of `sequenceIds`, which have no table, get one of new blocks of the GPU.
-/
theorem Accounted.insertTables (h : manager.Accounted) {m : BlockSpaceManager}
    {blockTable : BlockTable} {sequenceIds : List Nat} (hnodup : sequenceIds.Nodup)
    (hnone : ∀ sequenceId ∈ sequenceIds, manager.blockTables.lookup sequenceId = none)
    (hblocks : blockTable.Nodup) (hgpu : ∀ block ∈ blockTable, block.device = .gpu)
    (hconfig : manager.SameConfig m) (htables : m.blockTables = manager.blockTables)
    (hbalanced : Balanced (·.device) manager.created m.pool
      (manager.owned + sequenceIds.length • (blockTable : Multiset SyncPhysicalTokenBlock)))
    : manager.SameConfig (m.insertTables sequenceIds blockTable)
        ∧ (∀ sequenceId, (m.insertTables sequenceIds blockTable).blockTables.lookup sequenceId
            =
          if sequenceId ∈ sequenceIds then some blockTable
          else manager.blockTables.lookup sequenceId)
        ∧ (m.insertTables sequenceIds blockTable).Accounted := by
  have hlookup : ∀ sequenceId, (m.insertTables sequenceIds blockTable).blockTables.lookup sequenceId
      =
    if sequenceId ∈ sequenceIds then some blockTable
    else manager.blockTables.lookup sequenceId := by
    intro sequenceId
    rw [lookup_insertTables, htables]
  have hconfig' : manager.SameConfig (m.insertTables sequenceIds blockTable) :=
    hconfig.trans (sameConfig_insertTables _)
  refine ⟨hconfig', hlookup, ?_⟩
  apply h.of_tables hconfig'
  . rw [pool_insertTables, owned_insertTables hnodup (by rwa [htables]), owned_congr htables]
    exact hbalanced
  . intro sequenceId table hsome
    rw [hlookup] at hsome
    split at hsome
    . cases hsome
      exact .inr ⟨hblocks, .gpu, hgpu⟩
    . exact .inl hsome

/--
`allocate` succeeds under its guard. The waiting sequences share one table of blocks that no
other table holds.
-/
theorem allocate_yields (h : manager.Accounted)
    (hnodup : (group.getSequencesIds heap .waiting).Nodup)
    (hnone : ∀ sequenceId ∈ group.getSequencesIds heap .waiting,
      manager.blockTables.lookup sequenceId = none)
    (hcan : manager.canAllocate group heap = .ok)
    : Yields (allocate group heap) manager fun _ manager' =>
        ∃ sequence blockTable,
          group.getFirstSequence heap .waiting = some sequence
            ∧ blockTable.length = (heap sequence).getNumTotalLogicalTokenBlocks
            ∧ blockTable.Nodup
            ∧ (∀ block ∈ blockTable, block.device = .gpu ∧ block ∉ manager.owned)
            ∧ manager.SameConfig manager'
            ∧ (∀ sequenceId, manager'.blockTables.lookup sequenceId
                =
              if sequenceId ∈ group.getSequencesIds heap .waiting then some blockTable
              else manager.blockTables.lookup sequenceId)
            ∧ manager'.Accounted := by
  rcases (canAllocate_eq_ok h.blockSlidingWindow_eq).mp hcan with ⟨sequence, hfirst, hle⟩
  have hcount : 1 ≤ group.getNumSequences heap .waiting :=
    List.length_pos_of_mem (SequenceGroup.mem_getSeqs_of_getFirstSequence hfirst)
  unfold allocate
  simp only [hfirst]
  apply Yields.bind
    (allocate.foldlM_yields _ h.blockSlidingWindow_eq hcount h.balanced (by simpa using hle))
  rintro blockTable m ⟨hblocks, hlength, hnew, hconfig, htables, hbalanced⟩
  apply Yields.of_modify
  refine ⟨sequence, blockTable, rfl, by simpa using hlength, hblocks, hnew, ?_⟩
  apply h.insertTables hnodup hnone hblocks (fun block hblock => (hnew block hblock).1) hconfig
    htables
  rwa [SequenceGroup.getSequencesIds, List.length_map]

end Allocate

section AppendSlots

variable {manager : BlockSpaceManager} {sequenceId : Nat} {blockTable : BlockTable}

/--
The block tables of `manager'` are those of `manager`, but for the one of `sequenceId`.
-/
def WritesTable (manager manager' : BlockSpaceManager) (sequenceId : Nat) (blockTable : BlockTable)
    : Prop :=
  manager.SameConfig manager'
    ∧ ∀ sequenceId', manager'.blockTables.lookup sequenceId'
        =
      if sequenceId' = sequenceId then some blockTable
      else manager.blockTables.lookup sequenceId'

theorem appendSlots.pushBlock_yields (h : manager.Accounted)
    (hlookup : manager.blockTables.lookup sequenceId = some blockTable)
    (hgpu : ∀ block ∈ blockTable, block.device = .gpu) (hfree : 1 ≤ manager.getNumFreeBlocks .gpu)
    : Yields (appendSlots.pushBlock sequenceId blockTable) manager fun cow manager' =>
        ∃ block,
          cow = none
            ∧ block.device = .gpu
            ∧ block ∉ manager.owned
            ∧ manager.WritesTable manager' sequenceId (blockTable ++ [block])
            ∧ manager'.Accounted := by
  unfold appendSlots.pushBlock
  apply Yields.bind (allocateBlock_yields hfree)
  rintro block m ⟨rest, hrest, hsame⟩
  apply Yields.modify_bind
  apply Yields.pure
  have ⟨hdevice, _, hown⟩ := h.balanced.head_free hrest
  have hconfig : manager.SameConfig (m.insertTable sequenceId (blockTable ++ [block])) :=
    hsame.toSameConfig.trans sameConfig_insertTable
  have htables : ∀ id, (m.insertTable sequenceId (blockTable ++ [block])).blockTables.lookup id
      =
    if id = sequenceId then some (blockTable ++ [block]) else manager.blockTables.lookup id := by
    intro id
    rw [lookup_insertTable, hsame.blockTables_eq]
  have hothers : m.ownedByOthers sequenceId = manager.ownedByOthers sequenceId := by
    unfold ownedByOthers
    rw [hsame.blockTables_eq]
  refine ⟨block, rfl, hdevice, hown, ⟨hconfig, htables⟩, ?_⟩
  apply h.of_tables hconfig
  . rw [pool_insertTable, hsame.pool_eq, owned_insertTable, hothers]
    have := h.balanced.take hrest
    rw [owned_eq hlookup] at this
    convert this using 1
    rw [← Multiset.coe_add, ← Multiset.singleton_add, Multiset.coe_singleton]
    abel
  . intro id table hsome
    rw [htables] at hsome
    split at hsome
    . cases hsome
      right
      constructor
      . have hnotmem : block ∉ blockTable := fun hmem => hown (mem_owned_of_mem hlookup hmem)
        rw [← List.concat_eq_append]
        exact List.Nodup.concat hnotmem (h.nodup sequenceId blockTable hlookup)
      . refine ⟨.gpu, ?_⟩
        simpa [or_imp, forall_and] using ⟨hgpu, hdevice⟩
    . exact .inl hsome

theorem appendSlots.copyOnWrite_run (init : BlockTable) (last : SyncPhysicalTokenBlock)
    (hcount : manager.pool.refCount last = 1)
    : (appendSlots.copyOnWrite sequenceId (init ++ [last])).run manager = .ok none manager := by
  change (manager.blocks last).refCount = 1 at hcount
  unfold appendSlots.copyOnWrite
  simp only [List.getLast?_concat, run_bind, run_get]
  rw [if_pos hcount]
  rfl

theorem appendSlots.copyOnWrite_yields {init : BlockTable} {last : SyncPhysicalTokenBlock}
    (h : manager.Accounted)
    (hlookup : manager.blockTables.lookup sequenceId = some (init ++ [last]))
    (hgpu : ∀ block ∈ init ++ [last], block.device = .gpu)
    (hfree : 1 ≤ manager.getNumFreeBlocks .gpu) (hcount : manager.pool.refCount last ≠ 1)
    : Yields (appendSlots.copyOnWrite sequenceId (init ++ [last])) manager fun cow manager' =>
        ∃ block,
          cow = some (last.blockNumber, block.blockNumber)
            ∧ block.device = .gpu
            ∧ block ∉ manager.owned
            ∧ manager.WritesTable manager' sequenceId (init ++ [block])
            ∧ manager'.Accounted := by
  change (manager.blocks last).refCount ≠ 1 at hcount
  unfold appendSlots.copyOnWrite
  simp only [List.getLast?_concat]
  apply Yields.get_bind
  rw [if_neg hcount]
  apply Yields.bind (allocateBlock_yields hfree)
  rintro block m₁ ⟨rest, hrest, h₁⟩
  have ⟨hdevice, _, hown⟩ := h.balanced.head_free hrest
  have htake := h.balanced.take hrest
  have hlast : last ∈ block ::ₘ manager.owned := by
    rw [Multiset.mem_cons]
    exact .inr (mem_owned_of_mem hlookup (by simp))
  have hpos : 1 ≤ m₁.pool.refCount last := by
    rw [h₁.pool_eq]
    exact htake.one_le_refCount hlast
  apply Yields.bind (freeBlock_yields hpos)
  rintro _ m₂ h₂
  apply Yields.modify_bind
  apply Yields.pure
  simp only [List.dropLast_concat]
  have hconfig : manager.SameConfig (m₂.insertTable sequenceId (init ++ [block])) :=
    (h₁.toSameConfig.trans h₂.toSameConfig).trans sameConfig_insertTable
  have htables : ∀ id, (m₂.insertTable sequenceId (init ++ [block])).blockTables.lookup id
      =
    if id = sequenceId then some (init ++ [block]) else manager.blockTables.lookup id := by
    intro id
    rw [lookup_insertTable, h₂.blockTables_eq, h₁.blockTables_eq]
  have hothers : m₂.ownedByOthers sequenceId = manager.ownedByOthers sequenceId := by
    unfold ownedByOthers
    rw [h₂.blockTables_eq, h₁.blockTables_eq]
  refine ⟨block, rfl, hdevice, hown, ⟨hconfig, htables⟩, ?_⟩
  apply h.of_tables hconfig
  . rw [pool_insertTable, h₂.pool_eq, h₁.pool_eq, owned_insertTable, hothers]
    have := htake.release hlast (hgpu last (by simp))
    have hreplace : (block ::ₘ manager.owned)
        = last ::ₘ ((init ++ [block] : BlockTable) + manager.ownedByOthers sequenceId) := by
      rw [owned_eq hlookup]
      simp only [← Multiset.coe_add, Multiset.coe_singleton, ← Multiset.singleton_add]
      abel
    rwa [hreplace, Multiset.erase_cons_head] at this
  . intro id table hsome
    rw [htables] at hsome
    split at hsome
    . cases hsome
      right
      have hnodup := h.nodup sequenceId _ hlookup
      constructor
      . have hnotmem : block ∉ init :=
          fun hmem => hown (mem_owned_of_mem hlookup (List.mem_append_left _ hmem))
        rw [← List.concat_eq_append]
        exact List.Nodup.concat hnotmem (List.Nodup.of_append_left hnodup)
      . refine ⟨.gpu, ?_⟩
        intro c hc
        rcases List.mem_append.mp hc with hc | hc
        . exact hgpu c (List.mem_append_left _ hc)
        . rw [List.mem_singleton.mp hc]
          exact hdevice
    . exact .inl hsome

theorem appendSlots_finalState_of_eq_zero {sequence : Sequence}
    (hblocks : sequence.getNumTotalLogicalTokenBlocks = 0)
    : (appendSlots sequenceId sequence).finalState manager = manager := by
  unfold finalState appendSlots
  simp only [hblocks, if_true, run_bind]
  rfl

theorem appendSlots_finalState_of_lookup_eq_none (sequence : Sequence)
    (hlookup : manager.blockTables.lookup sequenceId = none)
    : (appendSlots sequenceId sequence).finalState manager = manager := by
  by_cases hblocks : sequence.getNumTotalLogicalTokenBlocks = 0
  . exact appendSlots_finalState_of_eq_zero hblocks
  . unfold finalState appendSlots
    simp only [hblocks, if_false, run_bind, run_get, hlookup]
    rfl

section Lookup

variable {sequence : Sequence}
variable (hlookup : manager.blockTables.lookup sequenceId = some blockTable)
include hlookup

theorem appendSlots_run_of_full
    (hpos : 1 ≤ sequence.getNumTotalLogicalTokenBlocks)
    (hfull : sequence.getNumTotalLogicalTokenBlocks ≤ blockTable.length)
    : (appendSlots sequenceId sequence).run manager
        =
      (appendSlots.copyOnWrite sequenceId blockTable).run manager := by
  have hne : sequence.getNumTotalLogicalTokenBlocks ≠ 0 := by omega
  have hlt : ¬ blockTable.length < sequence.getNumTotalLogicalTokenBlocks := by omega
  unfold appendSlots
  simp only [hne, if_false, run_bind, run_get, hlookup, hlt]

theorem appendSlots_run_of_short (hwindow : manager.blockSlidingWindow = none)
    (hshort : sequence.getNumTotalLogicalTokenBlocks = blockTable.length + 1)
    : (appendSlots sequenceId sequence).run manager
        =
      (appendSlots.pushBlock sequenceId blockTable).run manager := by
  have hne : sequence.getNumTotalLogicalTokenBlocks ≠ 0 := by omega
  have hlt : blockTable.length < sequence.getNumTotalLogicalTokenBlocks := by omega
  have hone : ¬ blockTable.length ≠ sequence.getNumTotalLogicalTokenBlocks - 1 := by omega
  unfold appendSlots
  simp only [hne, if_false, run_bind, run_get, hlookup, hlt, if_true, hone, hwindow]

/--
`append_slots` rejects a sequence that needs more than one new block.
-/
theorem appendSlots_run_of_behind
    (hbehind : blockTable.length + 1 < sequence.getNumTotalLogicalTokenBlocks)
    : ∃ message, (appendSlots sequenceId sequence).run manager
        = .error (.appendSlotError message) manager := by
  have hne : sequence.getNumTotalLogicalTokenBlocks ≠ 0 := by omega
  have hlt : blockTable.length < sequence.getNumTotalLogicalTokenBlocks := by omega
  have hone : blockTable.length ≠ sequence.getNumTotalLogicalTokenBlocks - 1 := by omega
  unfold appendSlots
  simp only [hne, if_false, run_bind, run_get, hlookup, hlt, if_true, if_pos hone]
  exact ⟨_, rfl⟩

end Lookup

end AppendSlots

/--
On one device different blocks have different numbers.
-/
theorem number_notMem_of_nodup {device : BlockDevice} {blockTable done rest : BlockTable}
    {block : SyncPhysicalTokenBlock} (hnodup : blockTable.Nodup)
    (hdevice : ∀ block ∈ blockTable, block.device = device)
    (hdone : blockTable = done ++ block :: rest)
    : block.blockNumber ∉ done.map (·.blockNumber) := by
  intro hseen
  rcases List.mem_map.mp hseen with ⟨c, hc, hnumber⟩
  have hcb : c.device = block.device := by
    rw [hdevice c (by simp [hdone, hc]), hdevice block (by simp [hdone])]
  have : c = block := SyncPhysicalTokenBlock.ext hcb hnumber
  subst this
  rw [hdone] at hnodup
  exact (List.nodup_append.mp hnodup).2.2 c hc c (by simp) rfl

section Fork

variable {manager : BlockSpaceManager} {univ : Set SyncPhysicalTokenBlock}
variable {base : Multiset SyncPhysicalTokenBlock}

/--
The loop of `fork` adds a reference to every block.
-/
theorem fork.foldlM_yields {device : BlockDevice} (blockTable : BlockTable)
    (hnodup : blockTable.Nodup) (hdevice : ∀ block ∈ blockTable, block.device = device)
    (hown : ∀ block ∈ blockTable, block ∈ base)
    (hbalanced : Balanced (·.device) univ manager.pool base)
    : Yields (blockTable.foldlM fork.incrementBlock []) manager fun _ manager' =>
        manager.SameConfig manager'
          ∧ manager'.blockTables = manager.blockTables
          ∧ Balanced (·.device) univ manager'.pool (blockTable + base) := by
  -- the numbers in `seen` are those of blocks that are not to come any more
  let I : BlockTable → List Nat → BlockSpaceManager → Prop := fun rest seen manager' =>
    ∃ done,
      blockTable = done ++ rest
        ∧ seen = done.map (·.blockNumber)
        ∧ manager.SameConfig manager'
        ∧ manager'.blockTables = manager.blockTables
        ∧ Balanced (·.device) univ manager'.pool (done + base)
  have hloop := Yields.foldlM I (f := fork.incrementBlock)
  apply Yields.mono (hloop ?_ blockTable [] manager ?_)
  . rintro _ m ⟨done, hdone, -, hconfig, htables, hbalanced⟩
    rw [List.append_nil] at hdone
    subst hdone
    exact ⟨hconfig, htables, hbalanced⟩
  . rintro block rest _ m ⟨done, hdone, rfl, hconfig, htables, hbalanced⟩
    have hmem : block ∈ blockTable := by simp [hdone]
    have hunseen := number_notMem_of_nodup hnodup hdevice hdone
    unfold fork.incrementBlock
    rw [if_pos hunseen]
    apply Yields.bind incrementRefCount_yields
    rintro _ m' hsame
    apply Yields.pure
    refine ⟨done ++ [block], by simp [hdone], by simp, hconfig.trans hsame.toSameConfig, ?_, ?_⟩
    . rw [hsame.blockTables_eq, htables]
    . rw [hsame.pool_eq]
      have hin : block ∈ (done : Multiset SyncPhysicalTokenBlock) + base :=
        Multiset.mem_add.mpr (.inr (hown block hmem))
      convert hbalanced.share hin using 1
      simp only [← Multiset.coe_add, Multiset.coe_singleton, ← Multiset.singleton_add]
      abel
  . exact ⟨[], rfl, rfl, SameConfig.refl _, rfl, by simpa using hbalanced⟩

theorem fork_yields {parentSequenceId childSequenceId : Nat} {blockTable : BlockTable}
    (h : manager.Accounted)
    (hparent : manager.blockTables.lookup parentSequenceId = some blockTable)
    (hchild : manager.blockTables.lookup childSequenceId = none)
    : Yields (fork parentSequenceId childSequenceId) manager fun _ manager' =>
        manager.WritesTable manager' childSequenceId blockTable ∧ manager'.Accounted := by
  unfold fork
  apply Yields.get_bind
  simp only [hparent]
  apply Yields.modify_bind
  rcases h.device_eq parentSequenceId blockTable hparent with ⟨device, hdevice⟩
  have hnodup := h.nodup parentSequenceId blockTable hparent
  have hbalanced : Balanced (·.device) manager.created
      (manager.insertTable childSequenceId blockTable).pool manager.owned := by
    rw [pool_insertTable]
    exact h.balanced
  apply Yields.bind
    (fork.foldlM_yields blockTable hnodup hdevice (fun _ => mem_owned_of_mem hparent) hbalanced)
  rintro _ m ⟨hconfig, htables, hbalanced⟩
  apply Yields.pure
  have hconfig' : manager.SameConfig m := sameConfig_insertTable.trans hconfig
  have hlookup : ∀ id, m.blockTables.lookup id
      = if id = childSequenceId then some blockTable else manager.blockTables.lookup id := by
    intro id
    rw [htables, lookup_insertTable]
  refine ⟨⟨hconfig', hlookup⟩, ?_⟩
  apply h.of_tables hconfig'
  . rw [owned_congr htables, owned_insertTable, ← owned_eq_of_lookup_eq_none hchild]
    exact hbalanced
  . intro id table hsome
    rw [hlookup] at hsome
    split at hsome
    . cases hsome
      exact .inr ⟨hnodup, device, hdevice⟩
    . exact .inl hsome

theorem fork_run_of_lookup_eq_none {parentSequenceId childSequenceId : Nat}
    (hparent : manager.blockTables.lookup parentSequenceId = none)
    : (fork parentSequenceId childSequenceId).run manager = .error .missingSequence manager := by
  unfold fork
  simp only [run_bind, run_get, hparent]
  rfl

end Fork

section Free

variable {manager : BlockSpaceManager} {univ : Set SyncPhysicalTokenBlock}
variable {base : Multiset SyncPhysicalTokenBlock}

/--
Freeing a block table releases each of its references.
-/
theorem freeBlockTable_yields {device : BlockDevice} {blockTable : BlockTable}
    (hwindow : manager.blockSlidingWindow = none) (hnodup : blockTable.Nodup)
    (hdevice : ∀ block ∈ blockTable, block.device = device)
    (hbalanced : Balanced (·.device) univ manager.pool (blockTable + base))
    : Yields (freeBlockTable blockTable) manager fun _ manager' =>
        manager.SameConfig manager'
          ∧ manager'.blockTables = manager.blockTables
          ∧ Balanced (·.device) univ manager'.pool base := by
  unfold freeBlockTable
  apply Yields.get_bind
  simp only [hwindow, pure_bind]
  let I : BlockTable → List Nat → BlockSpaceManager → Prop := fun rest seen manager' =>
    ∃ done,
      blockTable = done ++ rest
        ∧ seen = done.map (·.blockNumber)
        ∧ manager.SameConfig manager'
        ∧ manager'.blockTables = manager.blockTables
        ∧ Balanced (·.device) univ manager'.pool (rest + base)
  have hloop := Yields.foldlM I (f := freeBlockTable.freeUnseen)
  apply Yields.bind (hloop ?_ blockTable [] manager ?_)
  . rintro _ m ⟨done, -, -, hconfig, htables, hbalanced⟩
    apply Yields.pure
    exact ⟨hconfig, htables, by simpa using hbalanced⟩
  . rintro block rest _ m ⟨done, hdone, rfl, hconfig, htables, hbalanced⟩
    have hunseen := number_notMem_of_nodup hnodup hdevice hdone
    have hmem : block ∈ ((block :: rest : BlockTable) : Multiset SyncPhysicalTokenBlock) + base :=
      Multiset.mem_add.mpr (.inl (by simp))
    unfold freeBlockTable.freeUnseen
    rw [if_neg hunseen]
    apply Yields.bind (freeBlock_yields (hbalanced.one_le_refCount hmem))
    rintro _ m' hsame
    apply Yields.pure
    refine ⟨done ++ [block], by simp [hdone], by simp, hconfig.trans hsame.toSameConfig, ?_, ?_⟩
    . rw [hsame.blockTables_eq, htables]
    . rw [hsame.pool_eq]
      have := hbalanced.release hmem rfl
      rwa [← Multiset.cons_coe, Multiset.cons_add, Multiset.erase_cons_head] at this
  . exact ⟨[], rfl, rfl, SameConfig.refl _, rfl, hbalanced⟩

/--
`free` of any identifier succeeds and leaves no table for it.
-/
theorem free_yields (h : manager.Accounted) (sequenceId : Nat)
    : Yields (free sequenceId) manager fun _ manager' =>
        manager.SameConfig manager'
          ∧ (∀ sequenceId', manager'.blockTables.lookup sequenceId'
              =
            if sequenceId' = sequenceId then none else manager.blockTables.lookup sequenceId')
          ∧ manager'.Accounted := by
  unfold free
  apply Yields.get_bind
  cases hlookup : manager.blockTables.lookup sequenceId with
  | none =>
    apply Yields.pure
    refine ⟨SameConfig.refl _, ?_, h⟩
    intro id
    split
    . next hid => rw [hid, hlookup]
    . rfl
  | some blockTable =>
    rcases h.device_eq sequenceId blockTable hlookup with ⟨device, hdevice⟩
    have hbalanced := h.balanced
    rw [owned_eq hlookup] at hbalanced
    apply Yields.bind (freeBlockTable_yields h.blockSlidingWindow_eq
      (h.nodup sequenceId blockTable hlookup) hdevice hbalanced)
    rintro _ m ⟨hconfig, htables, hbalanced'⟩
    apply Yields.of_modify
    have hconfig' : manager.SameConfig
        { m with blockTables := m.blockTables.erase sequenceId } :=
      hconfig.trans (sameConfig_blockTables _)
    have herase : ∀ id, (m.blockTables.erase sequenceId).lookup id
        = if id = sequenceId then none else manager.blockTables.lookup id := by
      intro id
      rw [htables]
      split
      . next hid => rw [hid, AList.lookup_erase]
      . next hid => rw [AList.lookup_erase_ne hid]
    refine ⟨hconfig', herase, ?_⟩
    apply h.of_tables hconfig'
    . have : owned { m with blockTables := m.blockTables.erase sequenceId }
          = manager.ownedByOthers sequenceId := by
        unfold owned ownedByOthers
        rw [htables]
      rw [this]
      exact hbalanced'
    . intro id table hsome
      rw [herase] at hsome
      split at hsome
      . cases hsome
      . exact .inl hsome

/--
`reset` succeeds and leaves no table.
-/
theorem reset_yields (h : manager.Accounted)
    : Yields reset manager fun _ manager' =>
        manager.SameConfig manager' ∧ manager'.blockTables = ∅ ∧ manager'.Accounted := by
  unfold reset
  apply Yields.get_bind
  let I : List (Sigma fun _ : Nat => BlockTable) → BlockSpaceManager → Prop := fun rest manager' =>
    rest ⊆ manager.blockTables.entries
      ∧ manager.SameConfig manager'
      ∧ Balanced (·.device) manager.created manager'.pool
          (rest.map fun e => Multiset.ofList e.2).sum
  have hloop := Yields.forM I (f := fun e => freeBlockTable e.2)
  apply Yields.bind (hloop ?_ manager.blockTables.entries manager ?_)
  . rintro _ m ⟨-, hconfig, hbalanced⟩
    apply Yields.of_modify
    have hconfig' : manager.SameConfig { m with blockTables := ∅ } :=
      hconfig.trans (sameConfig_blockTables _)
    refine ⟨hconfig', rfl, ?_⟩
    apply h.of_tables hconfig'
    . exact hbalanced
    . intro id table hsome
      cases hsome
  . rintro entry rest m ⟨hsubset, hconfig, hbalanced⟩
    have hentry := AList.mem_entries_iff.mp (hsubset List.mem_cons_self)
    rcases h.device_eq entry.1 entry.2 hentry with ⟨device, hdevice⟩
    rw [List.map_cons, List.sum_cons] at hbalanced
    have hwindow : m.blockSlidingWindow = none := by
      rw [hconfig.blockSlidingWindow_eq, h.blockSlidingWindow_eq]
    apply Yields.mono (freeBlockTable_yields hwindow (h.nodup _ _ hentry) hdevice hbalanced)
    rintro _ m' ⟨hconfig', -, hbalanced'⟩
    exact ⟨fun e he => hsubset (List.mem_cons_of_mem _ he), hconfig.trans hconfig', hbalanced'⟩
  . exact ⟨fun e he => he, SameConfig.refl _, h.balanced⟩

end Free

section Counting

variable {manager : BlockSpaceManager}

theorem mem_owned_iff {block : SyncPhysicalTokenBlock}
    : block ∈ manager.owned ↔ ∃ entry ∈ manager.blockTables.entries, block ∈ entry.2 := by
  unfold owned AList.sumValues
  induction manager.blockTables.entries with
  | nil => simp
  | cons entry entries ih =>
    rw [List.map_cons, List.sum_cons, Multiset.mem_add, ih]
    simp

theorem mem_owned_iff_lookup {block : SyncPhysicalTokenBlock}
    : block ∈ manager.owned ↔
        ∃ sequenceId blockTable,
          manager.blockTables.lookup sequenceId = some blockTable ∧ block ∈ blockTable := by
  rw [mem_owned_iff]
  constructor
  . rintro ⟨⟨sequenceId, blockTable⟩, hentry, hblock⟩
    exact ⟨sequenceId, blockTable, AList.mem_entries_iff.mp hentry, hblock⟩
  . rintro ⟨sequenceId, blockTable, hlookup, hblock⟩
    exact ⟨⟨sequenceId, blockTable⟩, AList.mem_entries_iff.mpr hlookup, hblock⟩

/--
Without repetitions in a table, the references to a block are the tables that contain it.
-/
theorem Accounted.count_owned (h : manager.Accounted) (block : SyncPhysicalTokenBlock)
    : manager.owned.count block
        =
      manager.blockTables.entries.countP fun entry => block ∈ entry.2 := by
  have hnodup : ∀ entry ∈ manager.blockTables.entries, entry.2.Nodup := by
    intro entry hentry
    exact h.nodup entry.1 entry.2 (AList.mem_entries_iff.mp hentry)
  unfold owned AList.sumValues
  generalize manager.blockTables.entries = entries at *
  induction entries with
  | nil => simp
  | cons entry entries ih =>
    rw [List.map_cons, List.sum_cons, Multiset.count_add,
      ih fun e he => hnodup e (List.mem_cons_of_mem _ he), List.countP_cons, Multiset.coe_count,
      List.Nodup.count (hnodup entry List.mem_cons_self)]
    simp only [decide_eq_true_eq]
    omega

/--
Every block of a device is free or in a table.
-/
theorem Accounted.length_free_add_card (h : manager.Accounted) (device : BlockDevice)
    : (manager.allocator device).freeBlocks.length
          + ((manager.blockTables.entries.flatMap (·.2)).toFinset.filter (·.device = device)).card
        =
      BlockAllocator.numCreated (manager.allocator device).numBlocks := by
  have hinjective : Function.Injective (SyncPhysicalTokenBlock.mk device) := by
    intro i j h
    exact (SyncPhysicalTokenBlock.mk.inj h).2
  let s : Finset SyncPhysicalTokenBlock :=
    (Finset.range (BlockAllocator.numCreated (manager.allocator device).numBlocks)).image
      (SyncPhysicalTokenBlock.mk device)
  have hs : ∀ block, block ∈ s ↔ block.device = device ∧ block ∈ manager.created := by
    rintro ⟨blockDevice, blockNumber⟩
    simp only [s, created, Finset.mem_image, Finset.mem_range]
    constructor
    . rintro ⟨number, hlt, hblock⟩
      cases hblock
      exact ⟨rfl, hlt⟩
    . rintro ⟨rfl, hlt⟩
      exact ⟨blockNumber, hlt, rfl⟩
  have htables : (manager.blockTables.entries.flatMap (·.2)).toFinset = manager.owned.toFinset := by
    ext block
    rw [List.mem_toFinset, List.mem_flatMap, Multiset.mem_toFinset, mem_owned_iff]
  have := h.balanced.length_free_add_card hs
  rw [htables]
  rwa [Finset.card_image_of_injective _ hinjective, Finset.card_range] at this

end Counting

end BlockSpaceManager

end AtomaInfer
