import Mathlib.Algebra.Group.Nat.Defs
import AtomaInfer.Block.Basic

/-!
The allocator of the physical blocks of one device (`block_allocator.rs`).
-/

namespace AtomaInfer

inductive BlockAllocatorError where
  | cannotDoubleFree (blockNumber : Nat)
  | outOfMemory
  | blockError (error : BlockError)
  deriving DecidableEq, Repr

/--
`freeBlocks` is the vector of the source read from its end, so that `pop` and `push` work on the
head.
-/
structure BlockAllocator where
  numBlocks : Nat
  freeBlocks : BlockTable
  deriving DecidableEq, Repr

namespace BlockAllocator

/--
The number of blocks an allocator for `numBlocks` blocks creates: `num_blocks as u32`.
-/
def numCreated (numBlocks : Nat) : Nat :=
  numBlocks % 2 ^ 32

def new (device : BlockDevice) (numBlocks : Nat) : BlockAllocator where
  numBlocks
  freeBlocks := ((List.range (numCreated numBlocks)).map fun i => ⟨device, i⟩).reverse

def allocate (allocator : BlockAllocator) (blocks : BlockHeap)
    : Except BlockAllocatorError (SyncPhysicalTokenBlock × BlockAllocator × BlockHeap) :=
  match allocator.freeBlocks with
  | block :: freeBlocks =>
    .ok (
      block,
      { allocator with freeBlocks },
      Function.update blocks block (blocks block).incrementRefCount
    )
  | [] => .error .outOfMemory

def free (allocator : BlockAllocator) (blocks : BlockHeap) (block : SyncPhysicalTokenBlock)
    : Except BlockAllocatorError (BlockAllocator × BlockHeap) :=
  if (blocks block).refCount = 0 then
    .error (.cannotDoubleFree block.blockNumber)
  else
    match (blocks block).decreaseRefCount with
    | .error e => .error (.blockError e)
    | .ok decreased =>
      let blocks := Function.update blocks block decreased
      if decreased.refCount = 0 then
        .ok ({ allocator with freeBlocks := block :: allocator.freeBlocks }, blocks)
      else
        .ok (allocator, blocks)

def getNumFreeBlocks (allocator : BlockAllocator) : Nat :=
  allocator.freeBlocks.length

def getNumTotalBlocks (allocator : BlockAllocator) : Nat :=
  allocator.numBlocks

end BlockAllocator

end AtomaInfer
