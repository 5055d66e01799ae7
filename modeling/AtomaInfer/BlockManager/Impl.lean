import AtomaInfer.Block.Allocator
import AtomaInfer.Sequence.Group

/-!
The block space manager (`block_manager.rs`). An operation that returns an error keeps the changes it
has already made, so the operations are computations in `EStateM`. The two swaps also write the
statuses of the sequences and work on a `Memory`.
-/

namespace AtomaInfer

inductive AllocationStatus where
  | ok
  | later
  | never
  | nothing
  deriving DecidableEq, Repr

inductive BlockSpaceManagerError where
  | blockAllocatorError (error : BlockAllocatorError)
  | appendSlotError (message : String)
  | emptySequence
  | missingSequence
  | panic (message : String)
  deriving DecidableEq, Repr

structure BlockSpaceManager where
  blockSize : Nat
  blockTables : AList fun _ : Nat => BlockTable
  numGpuBlocks : Nat
  cpuAllocator : BlockAllocator
  gpuAllocator : BlockAllocator
  blockSlidingWindow : Option Nat
  blocks : BlockHeap

abbrev BlockSpaceM := EStateM BlockSpaceManagerError BlockSpaceManager

namespace BlockSpaceManager

def new (blockSize numCpuBlocks numGpuBlocks : Nat) (slidingWindow : Option Nat)
    : BlockSpaceManager where
  blockSize
  blockTables := ∅
  numGpuBlocks
  cpuAllocator := BlockAllocator.new .cpu numCpuBlocks
  gpuAllocator := BlockAllocator.new .gpu numGpuBlocks
  blockSlidingWindow := slidingWindow.map fun sw => (sw + blockSize - 1) / blockSize
  blocks := fun _ => PhysicalTokenBlock.new

section Allocators

variable (manager : BlockSpaceManager) (device : BlockDevice)

def allocator : BlockAllocator :=
  match device with
  | .cpu => manager.cpuAllocator
  | .gpu => manager.gpuAllocator

def setAllocator (allocator : BlockAllocator) : BlockSpaceManager :=
  match device with
  | .cpu => { manager with cpuAllocator := allocator }
  | .gpu => { manager with gpuAllocator := allocator }

def getNumFreeBlocks : Nat :=
  (manager.allocator device).getNumFreeBlocks

end Allocators

def insertTable (manager : BlockSpaceManager) (sequenceId : Nat) (blockTable : BlockTable)
    : BlockSpaceManager :=
  { manager with blockTables := manager.blockTables.insert sequenceId blockTable }

def insertTables (manager : BlockSpaceManager) (sequenceIds : List Nat) (blockTable : BlockTable)
    : BlockSpaceManager :=
  sequenceIds.foldl (fun manager sequenceId => manager.insertTable sequenceId blockTable) manager

/--
`allocate` of the allocator of `device`.
-/
def allocateBlock (device : BlockDevice) : BlockSpaceM SyncPhysicalTokenBlock := do
  let manager ← get
  match (manager.allocator device).allocate manager.blocks with
  | .error e => throw (.blockAllocatorError e)
  | .ok (block, allocator, blocks) =>
    set { manager.setAllocator device allocator with blocks }
    return block

/--
`free` of the allocator of `device`.
-/
def freeBlock (device : BlockDevice) (block : SyncPhysicalTokenBlock) : BlockSpaceM Unit := do
  let manager ← get
  match (manager.allocator device).free manager.blocks block with
  | .error e => throw (.blockAllocatorError e)
  | .ok (allocator, blocks) => set { manager.setAllocator device allocator with blocks }

/--
Write to a block through its lock.
-/
def writeBlock (block : SyncPhysicalTokenBlock) (f : PhysicalTokenBlock → PhysicalTokenBlock)
    : BlockSpaceM Unit :=
  modify fun manager =>
    { manager with blocks := Function.update manager.blocks block (f (manager.blocks block)) }

section Allocate

variable (manager : BlockSpaceManager) (group : SequenceGroup) (heap : SequenceHeap)

def canAllocate : AllocationStatus :=
  match group.getNumTotalLogicalTokenBlocks heap .waiting with
  | none => .nothing
  | some numRequiredBlocks =>
    let numFreeGpuBlocks := manager.gpuAllocator.getNumFreeBlocks
    let numRequiredBlocks :=
      match manager.blockSlidingWindow with
      | some blockSlidingWindow => min numRequiredBlocks blockSlidingWindow
      | none => numRequiredBlocks
    if numRequiredBlocks ≤ numFreeGpuBlocks then
      .ok
    else if manager.numGpuBlocks < numRequiredBlocks then
      .never
    else
      .later

/--
The body of the loop of `allocate`: the block for `logicalIdx`, with its reference count set.
-/
def allocate.logicalBlock (refCount : Nat) (blockTable : BlockTable) (logicalIdx : Nat)
    : BlockSpaceM BlockTable := do
  let block ←
    match (← get).blockSlidingWindow with
    | some blockSlidingWindow =>
      if blockSlidingWindow ≤ logicalIdx then
        if blockSlidingWindow = 0 then
          throw (.panic "remainder with a divisor of zero")
        else
          match blockTable[logicalIdx % blockSlidingWindow]? with
          | some block => pure block
          | none => throw (.panic "unwrap")
      else
        allocateBlock .gpu
    | none => allocateBlock .gpu
  writeBlock block (·.setRefCountBy refCount)
  return blockTable ++ [block]

def allocate : BlockSpaceM Unit := do
  match group.getFirstSequence heap .waiting with
  | none => return ()
  | some sequence =>
    let numLogicalBlocksToAllocate := (heap sequence).getNumTotalLogicalTokenBlocks
    let refCount := group.getNumSequences heap .waiting
    let blockTable ←
      (List.range numLogicalBlocksToAllocate).foldlM (allocate.logicalBlock refCount) []
    modify (·.insertTables (group.getSequencesIds heap .waiting) blockTable)

end Allocate

section AppendSlots

variable (manager : BlockSpaceManager) (group : SequenceGroup) (heap : SequenceHeap)

def canAppendSlots : Bool :=
  group.getNumSequences heap .running ≤ manager.gpuAllocator.getNumFreeBlocks

variable (sequenceId : Nat) (blockTable : BlockTable)

/--
The last part of `append_slots`: the new token goes to the last block of `blockTable`, which is
copied first when other sequences share it.
-/
def appendSlots.copyOnWrite : BlockSpaceM (Option (Nat × Nat)) := do
  match blockTable.getLast? with
  | none => throw (.panic "unwrap")
  | some lastBlock =>
    if ((← get).blocks lastBlock).refCount = 1 then
      return none
    else
      let newBlock ← allocateBlock .gpu
      freeBlock .gpu lastBlock
      modify (·.insertTable sequenceId (blockTable.dropLast ++ [newBlock]))
      return some (lastBlock.blockNumber, newBlock.blockNumber)

/--
Allocate a new block at the end of `blockTable`.
-/
def appendSlots.pushBlock : BlockSpaceM (Option (Nat × Nat)) := do
  let newBlock ← allocateBlock .gpu
  modify (·.insertTable sequenceId (blockTable ++ [newBlock]))
  return none

def appendSlots (sequence : Sequence) : BlockSpaceM (Option (Nat × Nat)) := do
  let numTotalLogicalTokenBlocks := sequence.getNumTotalLogicalTokenBlocks
  if numTotalLogicalTokenBlocks = 0 then
    throw .emptySequence
  let manager ← get
  match manager.blockTables.lookup sequenceId with
  | none => return none
  | some blockTable =>
    if blockTable.length < numTotalLogicalTokenBlocks then
      if blockTable.length ≠ numTotalLogicalTokenBlocks - 1 then
        let requested := numTotalLogicalTokenBlocks - blockTable.length
        throw <| .appendSlotError
          s!"Can only allocate one physical block at the time, requested = {requested} blocks"
      else
        match manager.blockSlidingWindow with
        | none => appendSlots.pushBlock sequenceId blockTable
        | some blockSlidingWindow =>
          if blockSlidingWindow ≤ blockTable.length then
            if blockSlidingWindow = 0 then
              throw (.panic "remainder with a divisor of zero")
            else
              match blockTable[blockTable.length % blockSlidingWindow]? with
              | none => throw (.panic "unwrap")
              | some block =>
                modify (·.insertTable sequenceId (blockTable ++ [block]))
                appendSlots.copyOnWrite sequenceId (blockTable ++ [block])
          else
            appendSlots.pushBlock sequenceId blockTable
    else
      appendSlots.copyOnWrite sequenceId blockTable

end AppendSlots

/--
The body of the loop of `fork`. The accumulator holds the numbers of the blocks seen so far.
-/
def fork.incrementBlock (blockIds : List Nat) (block : SyncPhysicalTokenBlock)
    : BlockSpaceM (List Nat) := do
  if block.blockNumber ∉ blockIds then
    writeBlock block (·.incrementRefCount)
  return blockIds ++ [block.blockNumber]

def fork (parentSequenceId childSequenceId : Nat) : BlockSpaceM Unit := do
  match (← get).blockTables.lookup parentSequenceId with
  | none => throw .missingSequence
  | some sourceBlockTable =>
    modify (·.insertTable childSequenceId sourceBlockTable)
    let _ ← sourceBlockTable.foldlM fork.incrementBlock []

/--
The blocks of a list whose number does not occur earlier in it.
-/
def dedupByNumber (blocks : List SyncPhysicalTokenBlock) : List SyncPhysicalTokenBlock :=
  go [] blocks
where
  go (blockIds : List Nat) : List SyncPhysicalTokenBlock → List SyncPhysicalTokenBlock
    | [] => []
    | block :: blocks =>
      if block.blockNumber ∈ blockIds then
        go blockIds blocks
      else
        block :: go (blockIds ++ [block.blockNumber]) blocks

section Swap

variable (manager : BlockSpaceManager) (group : SequenceGroup) (heap : SequenceHeap)

def getPhysicalBlocks : List SyncPhysicalTokenBlock :=
  dedupByNumber <|
    (group.getUnfinishedSequences heap).flatMap fun sequence =>
      (manager.blockTables.lookup sequence.sequenceId).getD []

def canSwapIn : AllocationStatus :=
  let blocks := manager.getPhysicalBlocks group heap
  let numSwappedSequences := group.getNumSequences heap .swapped
  let numFreeBlocks := manager.gpuAllocator.getNumFreeBlocks
  let numRequiredBlocks := blocks.length + numSwappedSequences
  if manager.gpuAllocator.getNumTotalBlocks < numRequiredBlocks then
    .never
  else if numRequiredBlocks ≤ numFreeBlocks then
    .ok
  else
    .later

def canSwapOut : Bool :=
  let blocks := manager.getPhysicalBlocks group heap
  blocks.length ≤ manager.cpuAllocator.getNumFreeBlocks

/--
From the numbers of blocks of one device to blocks of the other.
-/
abbrev SwapMapping := AList fun _ : Nat => SyncPhysicalTokenBlock

/--
The block for `blockNumber` on `target`: a new one, or the one that it was already mapped to.
-/
def swapBlock.newBlock (target : BlockDevice) (mapping : SwapMapping) (blockNumber : Nat)
    : BlockSpaceM (SwapMapping × SyncPhysicalTokenBlock) := do
  match mapping.lookup blockNumber with
  | none =>
    let newBlock ← allocateBlock target
    return (mapping.insert blockNumber newBlock, newBlock)
  | some newBlock =>
    writeBlock newBlock (·.incrementRefCount)
    return (mapping, newBlock)

/--
The body of the inner loop of `swap_in` and `swap_out`: move one block of a table from `source` to
`target`.
-/
def swapBlock (source target : BlockDevice) (acc : SwapMapping × BlockTable)
    (block : SyncPhysicalTokenBlock) : BlockSpaceM (SwapMapping × BlockTable) := do
  let (mapping, newBlock) ← swapBlock.newBlock target acc.1 block.blockNumber
  freeBlock source block
  return (mapping, acc.2 ++ [newBlock])

/--
Move the block table of one sequence, if there is one.
-/
def swapTable (source target : BlockDevice) (mapping : SwapMapping) (sequenceId : Nat)
    : BlockSpaceM SwapMapping := do
  match (← get).blockTables.lookup sequenceId with
  | none => return mapping
  | some blockTable =>
    let (mapping, newBlockTable) ← blockTable.foldlM (swapBlock source target) (mapping, [])
    modify (·.insertTable sequenceId newBlockTable)
    return mapping

end Swap

/--
The body of the loop of `free_block_table`.
-/
def freeBlockTable.freeUnseen (blockIds : List Nat) (block : SyncPhysicalTokenBlock)
    : BlockSpaceM (List Nat) := do
  if block.blockNumber ∈ blockIds then
    return blockIds
  else
    freeBlock block.device block
    return blockIds ++ [block.blockNumber]

def freeBlockTable (blockTable : BlockTable) : BlockSpaceM Unit := do
  let blocksToFree ←
    match (← get).blockSlidingWindow with
    | none => pure blockTable
    | some blockSlidingWindow =>
      if blockSlidingWindow ≤ blockTable.length then
        pure (blockTable.drop blockSlidingWindow)
      else
        throw (.panic "range start index out of range")
  let _ ← blocksToFree.foldlM freeBlockTable.freeUnseen []

def free (sequenceId : Nat) : BlockSpaceM Unit := do
  match (← get).blockTables.lookup sequenceId with
  | none => return ()
  | some blockTable =>
    freeBlockTable blockTable
    modify fun manager => { manager with blockTables := manager.blockTables.erase sequenceId }

def reset : BlockSpaceM Unit := do
  (← get).blockTables.entries.forM fun entry => freeBlockTable entry.2
  modify fun manager => { manager with blockTables := ∅ }

section Tables

variable (manager : BlockSpaceManager) (sequenceId : Nat)

def getBlockTableIds : Option (List Nat) :=
  (manager.blockTables.lookup sequenceId).map fun blockTable => blockTable.map (·.blockNumber)

def accessAllBlocksInSequence (accessTime : Nat) : BlockSpaceManager :=
  match manager.blockTables.lookup sequenceId with
  | none => manager
  | some blockTable =>
    {
      manager with
      blocks := blockTable.foldl
        (fun blocks block => Function.update blocks block ((blocks block).setLastAccessed accessTime))
        manager.blocks
    }

end Tables

end BlockSpaceManager

/--
The sequences and the block manager of a scheduler, which the swaps write together.
-/
structure Memory where
  sequences : SequenceHeap
  blockManager : BlockSpaceManager

namespace Memory

abbrev MemoryM := EStateM BlockSpaceManagerError Memory

/--
An operation of the block manager alone.
-/
def onBlockManager {α : Type} (x : BlockSpaceM α) : MemoryM α := fun memory =>
  match x.run memory.blockManager with
  | .ok a blockManager => .ok a { memory with blockManager }
  | .error e blockManager => .error e { memory with blockManager }

variable (group : SequenceGroup)

/--
The loops of `swap_in` and `swap_out`: move the tables of the sequences with status `before`, and
call `setStatus` for each of them.
-/
def swap (source target : BlockDevice) (before : SequenceStatus) (setStatus : Nat → MemoryM Unit)
    : MemoryM (AList fun _ : Nat => Nat) := do
  let mapping ←
    (group.getSequencesIds (← get).sequences before).foldlM
      (fun mapping sequenceId => do
        let mapping ← onBlockManager (BlockSpaceManager.swapTable source target mapping sequenceId)
        setStatus sequenceId
        return mapping)
      (∅ : BlockSpaceManager.SwapMapping)
  return (mapping.entries.map fun e => (⟨e.1, e.2.blockNumber⟩ : Sigma fun _ : Nat => Nat)).toAList

def swapIn : MemoryM (AList fun _ : Nat => Nat) :=
  swap group .cpu .gpu .swapped fun sequenceId =>
    modify fun memory => {
      memory with
      sequences := group.setStatusWhere memory.sequences (·.sequenceId = sequenceId) .running
    }

def swapOut : MemoryM (AList fun _ : Nat => Nat) :=
  swap group .gpu .cpu .running fun sequenceId =>
    match group.getSequenceFromId sequenceId with
    | none => throw (.panic "unwrap")
    | some sequence =>
      modify fun memory => {
        memory with
        sequences := Function.update memory.sequences sequence
          ((memory.sequences sequence).setSequenceStatus .swapped)
      }

end Memory

end AtomaInfer
