import Mathlib.Algebra.Group.Nat.Defs
import AtomaInfer.Attention.Metadata

/-!
The caches of the keys and values and how their blocks are swapped between the devices
(`flash_attention.rs`, `cache_manager.rs`, `ops.rs`). Several views share one storage; a storage is
its bytes. The copies of the devices move the addressed bytes and are done when the call returns.
-/

namespace AtomaInfer

inductive DType where
  | u8
  | u32
  | i64
  | bf16
  | f16
  | f32
  | f64
  deriving DecidableEq, Repr

def DType.sizeInBytes (dtype : DType) : Nat :=
  match dtype with
  | .u8 => 1
  | .u32 | .f32 => 4
  | .i64 | .f64 => 8
  | .bf16 | .f16 => 2

def DType.name (dtype : DType) : String :=
  match dtype with
  | .u8 => "U8"
  | .u32 => "U32"
  | .i64 => "I64"
  | .bf16 => "BF16"
  | .f16 => "F16"
  | .f32 => "F32"
  | .f64 => "F64"

inductive Device where
  | cpu
  | cuda (ordinal : Nat)
  deriving DecidableEq, Repr

/--
`numBytes` is the length of the storage; the bytes past it mean nothing.
-/
structure Storage where
  device : Device
  dtype : DType
  numBytes : Nat
  bytes : Nat → UInt8

/--
The layout of a contiguous view. The start offset counts elements.
-/
structure Layout where
  dims : List Nat
  startOffset : Nat
  deriving DecidableEq, Repr

namespace Layout

/--
`tensor.i(n)`
-/
def i (layout : Layout) (n : Nat) : Except CandleError Layout :=
  match layout.dims with
  | [] => .error .narrowInvalidArgs
  | dim :: dims =>
    if n < dim then
      .ok { dims, startOffset := layout.startOffset + n * dims.prod }
    else
      .error .narrowInvalidArgs

/--
`tensor.squeeze(0)`: the first dimension is removed if its size is one.
-/
def squeeze (layout : Layout) : Layout :=
  match layout.dims with
  | 1 :: dims => { layout with dims }
  | _ => layout

end Layout

/--
A slice of the bytes of a storage.
-/
structure ByteSlice where
  start : Nat
  length : Nat

namespace ByteSlice

def ofStorage (storage : Storage) : ByteSlice where
  start := 0
  length := storage.numBytes

/--
`slice(n..)`
-/
def dropTo (slice : ByteSlice) (n : Nat) : Except CandleError ByteSlice :=
  if n ≤ slice.length then
    .ok { start := slice.start + n, length := slice.length - n }
  else
    .error (.panic "range start index out of range")

/--
`slice(offset..offset + length)`
-/
def range (slice : ByteSlice) (offset length : Nat) : Except CandleError ByteSlice :=
  if offset + length ≤ slice.length then
    .ok { start := slice.start + offset, length }
  else
    .error (.panic "range end index out of range")

end ByteSlice

/--
Copy the bytes of a slice to a slice of another storage.
-/
def memcpy (src dst : Nat → UInt8) (srcSlice dstSlice : ByteSlice) : Nat → UInt8 := fun a =>
  if dstSlice.start ≤ a ∧ a < dstSlice.start + srcSlice.length then
    src (srcSlice.start + (a - dstSlice.start))
  else
    dst a

def invalidDType : CandleError :=
  .msg "Only support f16/bf16 dtypes and src and dst must have same dtype"

structure SwapBlockOp where
  blockSizeInBytes : Nat
  srcOffset : Nat
  dstOffset : Nat

def SwapBlockOp.cudaFwd (op : SwapBlockOp) (dst : Storage) (dstLayout : Layout) (src : Storage)
    (srcLayout : Layout) : Except CandleError Storage := do
  let tSizeInBytes := src.dtype.sizeInBytes
  match src.dtype, dst.dtype with
  | .bf16, .bf16 | .f16, .f16 =>
    let srcBytes ← (ByteSlice.ofStorage src).dropTo (srcLayout.startOffset * tSizeInBytes)
    let dstBytes ← (ByteSlice.ofStorage dst).dropTo (dstLayout.startOffset * tSizeInBytes)
    let srcBlock ← srcBytes.range op.srcOffset op.blockSizeInBytes
    let dstBlock ← dstBytes.range op.dstOffset op.blockSizeInBytes
    return { dst with bytes := memcpy src.bytes dst.bytes srcBlock dstBlock }
  | _, _ => throw invalidDType

/--
`srcSlice` is a slice of the storage on the CPU.
-/
structure SwapBlockCpuToGpuOp where
  srcSlice : ByteSlice
  blockSizeInBytes : Nat
  srcOffset : Nat
  dstOffset : Nat

def SwapBlockCpuToGpuOp.cudaFwd (op : SwapBlockCpuToGpuOp) (src : Nat → UInt8) (dst : Storage)
    (dstLayout : Layout) : Except CandleError Storage := do
  let tSizeInBytes := dst.dtype.sizeInBytes
  match dst.dtype with
  | .bf16 | .f16 =>
    let dstBytes ← (ByteSlice.ofStorage dst).dropTo (dstLayout.startOffset * tSizeInBytes)
    let dstBlock ← dstBytes.range op.dstOffset op.blockSizeInBytes
    return { dst with bytes := memcpy src dst.bytes op.srcSlice dstBlock }
  | _ => throw invalidDType

/--
`srcSlice` is a slice of the storage on the GPU.
-/
structure SwapBlockGpuToCpuOp where
  srcSlice : ByteSlice
  blockSizeInBytes : Nat
  dstOffset : Nat

/--
The layout of the destination is not read.
-/
def SwapBlockGpuToCpuOp.cpuFwd (op : SwapBlockGpuToCpuOp) (src : Nat → UInt8) (dst : Storage)
    (_dstLayout : Layout) : Except CandleError Storage := do
  match dst.dtype with
  | .bf16 | .f16 =>
    let dstBlock ← (ByteSlice.ofStorage dst).range op.dstOffset op.blockSizeInBytes
    return { dst with bytes := memcpy src dst.bytes op.srcSlice dstBlock }
  | _ => throw invalidDType

/--
`swap_blocks` of the cache manager. The entries of the mapping come in any order.
-/
def swapBlocks (src : Storage) (srcLayout : Layout) (dst : Storage) (dstLayout : Layout)
    (blockMapping : List (Nat × Nat)) : Except CandleError Storage := do
  let tSizeInBytes := src.dtype.sizeInBytes
  let blockSizeInBytes ←
    match srcLayout.dims with
    | [] => throw (.panic "range start index out of range")
    | _ :: dims => pure (tSizeInBytes * dims.prod)
  match src.device, dst.device with
  | .cuda srcOrdinal, .cuda dstOrdinal =>
    if srcOrdinal ≠ dstOrdinal then
      throw <| .msg
        "swap_blocks: Both src and dst tensors should be on the same device to swap"
    blockMapping.foldlM
      (fun dst (srcBlock, dstBlock) =>
        let op : SwapBlockOp := {
          blockSizeInBytes
          srcOffset := srcBlock * blockSizeInBytes
          dstOffset := dstBlock * blockSizeInBytes
        }
        op.cudaFwd dst dstLayout src srcLayout)
      dst
  | .cpu, .cuda _ =>
    match src.dtype with
    | .bf16 | .f16 =>
      blockMapping.foldlM
        (fun dst (srcBlock, dstBlock) => do
          let srcOffset := srcBlock * blockSizeInBytes
          let srcSlice ← (ByteSlice.ofStorage src).range srcOffset blockSizeInBytes
          let op : SwapBlockCpuToGpuOp := {
            srcSlice
            blockSizeInBytes
            srcOffset
            dstOffset := dstBlock * blockSizeInBytes
          }
          op.cudaFwd src.bytes dst dstLayout)
        dst
    | _ =>
      throw (.msg "swap_blocks: Invalid combination of src and dst tensors storage to swap")
  | .cuda _, .cpu =>
    match src.dtype with
    | .bf16 | .f16 =>
      let srcBytes ← (ByteSlice.ofStorage src).dropTo (srcLayout.startOffset * tSizeInBytes)
      blockMapping.foldlM
        (fun dst (srcBlock, dstBlock) => do
          let srcSlice ← srcBytes.range (srcBlock * blockSizeInBytes) blockSizeInBytes
          let op : SwapBlockGpuToCpuOp := {
            srcSlice
            blockSizeInBytes
            dstOffset := dstBlock * blockSizeInBytes
          }
          op.cpuFwd src.bytes dst dstLayout)
        dst
    | dtype =>
      throw <| .msg <|
        "swap_blocks:Invalid dtype for cuda src tensor, expected f16/bf16, got " ++ dtype.name
  | .cpu, .cpu =>
    throw <| .msg <|
      "swap_blocks: Either src and dst are on the same cuda device, or src and dst are on cpu "
        ++ "and cuda devices, alternately"

/--
What of the attention the caches read.
-/
structure FlashAttention where
  numKvHeads : Nat
  headDim : Nat

namespace FlashAttention

def getKvCacheShape (numBlocks blockSize numKvHeads headDim : Nat) : List Nat :=
  [2, numBlocks, blockSize, numKvHeads, headDim]

variable (attention : FlashAttention)

def splitKvCache (kvCache : Layout) : Except CandleError (Layout × Layout) := do
  match kvCache.dims with
  | [cacheSize, _, _, numKvHeads, headDim] =>
    if cacheSize ≠ 2 then
      throw (.msg s!"KV cache must have cache_size 2 (got {cacheSize})")
    if numKvHeads ≠ attention.numKvHeads then
      throw (.msg s!"KV cache must have num_heads {attention.numKvHeads} (got {numKvHeads})")
    if headDim ≠ attention.headDim then
      throw (.msg s!"KV cache must have head_dim {attention.headDim} (got {headDim})")
    let keyCache ← kvCache.i 0
    let valueCache ← kvCache.i 1
    return (keyCache.squeeze, valueCache.squeeze)
  | dims => throw (.msg s!"KV cache must have rank 5 (got {dims.length})")

/--
The two views of `dst` share its storage.
-/
def swapBlocks (src : Storage) (srcCache : Layout) (dst : Storage) (dstCache : Layout)
    (blockMapping : List (Nat × Nat)) : Except CandleError Storage := do
  let (srcKey, srcValue) ← attention.splitKvCache srcCache
  let (dstKey, dstValue) ← attention.splitKvCache dstCache
  let dst ← AtomaInfer.swapBlocks src srcKey dst dstKey blockMapping
  AtomaInfer.swapBlocks src srcValue dst dstValue blockMapping

end FlashAttention

end AtomaInfer
