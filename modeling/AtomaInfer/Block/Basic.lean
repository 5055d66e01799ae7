import Mathlib.Logic.Function.Basic

/-!
Logical and physical token blocks (`block.rs`).

A `SyncPhysicalTokenBlock` is an `Arc` that the free lists and the block tables share. It is modelled
by a reference, and the blocks themselves live in a `BlockHeap`. An allocator creates one block for
each device and number, so these two name the reference.
-/

namespace AtomaInfer

inductive BlockDevice where
  | cpu
  | gpu
  deriving DecidableEq, Repr

inductive BlockError where
  | allocationError (message : String)
  | referenceCountError
  deriving DecidableEq, Repr

structure LogicalTokenBlock where
  blockNumber : Nat
  blockSize : Nat
  tokenIds : List Nat
  numTokens : Nat
  deriving DecidableEq, Repr

namespace LogicalTokenBlock

def new (blockNumber blockSize : Nat) : LogicalTokenBlock where
  blockNumber
  blockSize
  tokenIds := []
  numTokens := 0

def isFull (block : LogicalTokenBlock) : Bool :=
  block.numTokens = block.blockSize

def getNumEmptySlots (block : LogicalTokenBlock) : Nat :=
  block.blockSize - block.numTokens

def appendTokens (block : LogicalTokenBlock) (tokenIds : List Nat)
    : Except BlockError LogicalTokenBlock :=
  if tokenIds.length ≤ block.getNumEmptySlots then
    .ok {
      block with
      tokenIds := block.tokenIds ++ tokenIds
      numTokens := block.numTokens + tokenIds.length
    }
  else
    .error (.allocationError "Not enough space for allocation")

end LogicalTokenBlock

@[ext]
structure SyncPhysicalTokenBlock where
  device : BlockDevice
  blockNumber : Nat
  deriving DecidableEq, Repr

abbrev BlockTable := List SyncPhysicalTokenBlock

structure PhysicalTokenBlock where
  computed : Bool
  lastAccessed : Option Nat
  numHashedTokens : Nat
  refCount : Nat
  deriving DecidableEq, Repr

namespace PhysicalTokenBlock

def new : PhysicalTokenBlock where
  computed := false
  lastAccessed := none
  numHashedTokens := 0
  refCount := 0

def incrementRefCount (block : PhysicalTokenBlock) : PhysicalTokenBlock :=
  { block with refCount := block.refCount + 1 }

def setRefCountBy (block : PhysicalTokenBlock) (value : Nat) : PhysicalTokenBlock :=
  { block with refCount := value }

def decreaseRefCount (block : PhysicalTokenBlock) : Except BlockError PhysicalTokenBlock :=
  if 0 < block.refCount then
    .ok { block with refCount := block.refCount - 1 }
  else
    .error .referenceCountError

def setLastAccessed (block : PhysicalTokenBlock) (instant : Nat) : PhysicalTokenBlock :=
  { block with lastAccessed := some instant }

end PhysicalTokenBlock

abbrev BlockHeap := SyncPhysicalTokenBlock → PhysicalTokenBlock

end AtomaInfer
