import AtomaInfer.Attention.Cache
import AtomaInfer.Util.Region

/-!
Blocks that are swapped out to the CPU and back: what the two calls copy, and when the GPU gets its
bytes back.
-/

namespace AtomaInfer

/--
What the caches of a layer have in common.
-/
structure CacheConfig where
  dtype : DType
  blockSize : Nat
  numKvHeads : Nat
  headDim : Nat
  dtype_eq : dtype = .bf16 ∨ dtype = .f16
  blockSize_pos : 1 ≤ blockSize
  numKvHeads_pos : 1 ≤ numKvHeads
  headDim_pos : 1 ≤ headDim

namespace CacheConfig

variable (config : CacheConfig) (numBlocks : Nat)

def attention : FlashAttention where
  numKvHeads := config.numKvHeads
  headDim := config.headDim

def layout : Layout where
  dims := FlashAttention.getKvCacheShape numBlocks config.blockSize config.numKvHeads config.headDim
  startOffset := 0

def tokenBytes : Nat :=
  2 * (config.numKvHeads * config.headDim)

def blockBytes : Nat :=
  config.blockSize * config.tokenBytes

/--
The bytes that a swap takes for a block of a source of `numBlocks` blocks. A source of one block has
lost its first dimension, so this is a token.
-/
def copiedBytes : Nat :=
  if numBlocks = 1 then config.tokenBytes else config.blockBytes

/--
`storage` is a cache of `numBlocks` blocks: the keys and then the values.
-/
structure IsCache (device : Device) (storage : Storage) : Prop where
  device_eq : storage.device = device
  dtype_eq : storage.dtype = config.dtype
  numBytes_eq : storage.numBytes = 2 * (numBlocks * config.blockBytes)

/--
The view of the keys for 0 and of the values for 1.
-/
def view (half : Nat) : Layout where
  dims :=
    if numBlocks = 1 then [config.blockSize, config.numKvHeads, config.headDim]
    else [numBlocks, config.blockSize, config.numKvHeads, config.headDim]
  startOffset :=
    half * (numBlocks * (config.blockSize * (config.numKvHeads * config.headDim)))

variable {config : CacheConfig} {numBlocks half : Nat}

theorem sizeInBytes_eq : config.dtype.sizeInBytes = 2 := by
  rcases config.dtype_eq with h | h <;> rw [h] <;> rfl

theorem squeeze_eq (startOffset : Nat)
    : Layout.squeeze {
          dims := [numBlocks, config.blockSize, config.numKvHeads, config.headDim]
          startOffset
        } = {
          dims :=
            if numBlocks = 1 then [config.blockSize, config.numKvHeads, config.headDim]
            else [numBlocks, config.blockSize, config.numKvHeads, config.headDim]
          startOffset
        } := by
  rcases numBlocks with _ | _ | n
  . rfl
  . rfl
  . rfl

theorem splitKvCache_eq
    : config.attention.splitKvCache (config.layout numBlocks)
        = .ok (config.view numBlocks 0, config.view numBlocks 1) := by
  unfold FlashAttention.splitKvCache layout FlashAttention.getKvCacheShape attention view
  simp only [ne_eq, not_true_eq_false, if_false, bind, Except.bind, pure, Except.pure, Layout.i,
    Nat.zero_lt_two, Nat.one_lt_two, if_true, squeeze_eq]
  simp

theorem sizeInBytes_mul_prod_tail (config : CacheConfig) (numBlocks half : Nat)
    : ∃ dim dims, (config.view numBlocks half).dims = dim :: dims
        ∧ config.dtype.sizeInBytes * dims.prod = config.copiedBytes numBlocks := by
  unfold view copiedBytes blockBytes tokenBytes
  rw [sizeInBytes_eq]
  by_cases hone : numBlocks = 1
  . rw [if_pos hone, if_pos hone]
    exact ⟨_, _, rfl, by simp⟩
  . rw [if_neg hone, if_neg hone]
    refine ⟨_, _, rfl, ?_⟩
    simp only [List.prod_cons, List.prod_nil, Nat.mul_one]
    rw [Nat.mul_left_comm]

theorem startOffset_mul_sizeInBytes (config : CacheConfig) (numBlocks half : Nat)
    : (config.view numBlocks half).startOffset * config.dtype.sizeInBytes
        = half * (numBlocks * config.blockBytes) := by
  unfold view blockBytes tokenBytes
  rw [sizeInBytes_eq]
  dsimp only
  rw [Nat.mul_comm _ 2]
  simp only [Nat.mul_left_comm 2]

theorem copiedBytes_le (config : CacheConfig) (numBlocks : Nat)
    : config.copiedBytes numBlocks ≤ config.blockBytes := by
  have hpos := config.blockSize_pos
  unfold copiedBytes
  split
  . exact Nat.le_mul_of_pos_left _ hpos
  . exact Nat.le_refl _

/--
The blocks of a cache lie in each of its halves.
-/
theorem mul_add_le {block : Nat} (hblock : block < numBlocks) {size : Nat}
    (hsize : size ≤ config.blockBytes)
    : block * size + size ≤ numBlocks * config.blockBytes := by
  calc
    block * size + size = (block + 1) * size := (Nat.succ_mul block size).symm
    _ ≤ numBlocks * config.blockBytes := Nat.mul_le_mul hblock hsize

section Folds

variable {src dst : Storage} {size : Nat} {blockMapping : List (Nat × Nat)} {bytes : Nat → UInt8}

theorem cpuFwd_eq (hdtype : dst.dtype = .bf16 ∨ dst.dtype = .f16) {op : SwapBlockGpuToCpuOp}
    (hdst : op.dstOffset + op.blockSizeInBytes ≤ dst.numBytes) (dstLayout : Layout)
    : op.cpuFwd bytes dst dstLayout
        = .ok {
            dst with
            bytes := Region.copy bytes dst.bytes op.srcSlice.start op.dstOffset op.srcSlice.length
          } := by
  unfold SwapBlockGpuToCpuOp.cpuFwd ByteSlice.range ByteSlice.ofStorage
  dsimp only
  rw [if_pos hdst, Nat.zero_add]
  rcases hdtype with h | h <;> rw [h] <;> rfl

theorem cudaFwd_eq (hdtype : dst.dtype = .bf16 ∨ dst.dtype = .f16) {op : SwapBlockCpuToGpuOp}
    {dstLayout : Layout}
    (hdst : dstLayout.startOffset * dst.dtype.sizeInBytes + op.dstOffset + op.blockSizeInBytes
      ≤ dst.numBytes)
    : op.cudaFwd bytes dst dstLayout
        = .ok {
            dst with
            bytes := Region.copy bytes dst.bytes op.srcSlice.start
              (dstLayout.startOffset * dst.dtype.sizeInBytes + op.dstOffset) op.srcSlice.length
          } := by
  unfold SwapBlockCpuToGpuOp.cudaFwd ByteSlice.dropTo ByteSlice.range ByteSlice.ofStorage
  dsimp only
  rw [if_pos (by omega), Nat.zero_add]
  simp only [bind, Except.bind]
  rw [if_pos (by omega)]
  rcases hdtype with h | h <;> rw [h] <;> rfl

theorem foldlM_cpuFwd (bytes : Nat → UInt8) (srcBytes : ByteSlice) (dstLayout : Layout)
    (hdtype : dst.dtype = .bf16 ∨ dst.dtype = .f16)
    (hsrc : ∀ block ∈ blockMapping, block.1 * size + size ≤ srcBytes.length)
    (hdst : ∀ block ∈ blockMapping, block.2 * size + size ≤ dst.numBytes)
    : blockMapping.foldlM
          (fun dst (srcBlock, dstBlock) => do
            let srcSlice ← srcBytes.range (srcBlock * size) size
            let op : SwapBlockGpuToCpuOp := {
              srcSlice
              blockSizeInBytes := size
              dstOffset := dstBlock * size
            }
            op.cpuFwd bytes dst dstLayout)
          dst
        = .ok {
            dst with
            bytes := Region.copyAll bytes srcBytes.start 0 size blockMapping dst.bytes
          } := by
  induction blockMapping generalizing dst with
  | nil => rfl
  | cons block blockMapping ih =>
    rw [List.foldlM_cons, Region.copyAll_cons]
    rcases block with ⟨x, y⟩
    dsimp only
    unfold ByteSlice.range
    rw [if_pos (hsrc _ List.mem_cons_self)]
    simp only [bind, Except.bind]
    rw [cpuFwd_eq hdtype (hdst _ List.mem_cons_self)]
    dsimp only
    rw [Nat.zero_add]
    exact ih hdtype (fun block hblock => hsrc block (List.mem_cons_of_mem _ hblock))
      (fun block hblock => hdst block (List.mem_cons_of_mem _ hblock))

theorem foldlM_cudaFwd {dstLayout : Layout}
    (hdtype : dst.dtype = .bf16 ∨ dst.dtype = .f16)
    (hsrc : ∀ block ∈ blockMapping, block.1 * size + size ≤ src.numBytes)
    (hdst : ∀ block ∈ blockMapping,
      dstLayout.startOffset * dst.dtype.sizeInBytes + block.2 * size + size ≤ dst.numBytes)
    : blockMapping.foldlM
          (fun dst (srcBlock, dstBlock) => do
            let srcOffset := srcBlock * size
            let srcSlice ← (ByteSlice.ofStorage src).range srcOffset size
            let op : SwapBlockCpuToGpuOp := {
              srcSlice
              blockSizeInBytes := size
              srcOffset
              dstOffset := dstBlock * size
            }
            op.cudaFwd src.bytes dst dstLayout)
          dst
        = .ok {
            dst with
            bytes := Region.copyAll src.bytes 0 (dstLayout.startOffset * dst.dtype.sizeInBytes) size
              blockMapping dst.bytes
          } := by
  induction blockMapping generalizing dst with
  | nil => rfl
  | cons block blockMapping ih =>
    rw [List.foldlM_cons, Region.copyAll_cons]
    rcases block with ⟨x, y⟩
    dsimp only
    unfold ByteSlice.range ByteSlice.ofStorage
    dsimp only
    rw [if_pos (hsrc _ List.mem_cons_self)]
    simp only [bind, Except.bind]
    rw [cudaFwd_eq hdtype (hdst _ List.mem_cons_self)]
    exact ih hdtype (fun block hblock => hsrc block (List.mem_cons_of_mem _ hblock))
      (fun block hblock => hdst block (List.mem_cons_of_mem _ hblock))

end Folds

section Swap

variable {src dst : Storage} {numSrc numDst : Nat} {ordinal : Nat}
variable {blockMapping : List (Nat × Nat)}

theorem IsCache.dtype_cases {device : Device} (h : config.IsCache numBlocks device src)
    : src.dtype = .bf16 ∨ src.dtype = .f16 := by
  rw [h.dtype_eq]
  exact config.dtype_eq

/--
A swap out reads the view, but writes from the start of the storage.
-/
theorem swapOut_eq (hsrc : config.IsCache numSrc (.cuda ordinal) src)
    (hdst : config.IsCache numDst .cpu dst) (hhalf : half ≤ 1)
    (hin : ∀ block ∈ blockMapping, block.1 < numSrc ∧ block.2 < numDst) (dstLayout : Layout)
    : swapBlocks src (config.view numSrc half) dst dstLayout blockMapping
        = .ok {
            dst with
            bytes := Region.copyAll src.bytes (half * (numSrc * config.blockBytes)) 0
              (config.copiedBytes numSrc) blockMapping dst.bytes
          } := by
  rcases config.sizeInBytes_mul_prod_tail numSrc half with ⟨dim, dims, hdims, hsize⟩
  have hoffset := config.startOffset_mul_sizeInBytes numSrc half
  have hhalf' := Nat.mul_le_mul_right (numSrc * config.blockBytes) hhalf
  have hsrcRange : ∀ block ∈ blockMapping,
      block.1 * config.copiedBytes numSrc + config.copiedBytes numSrc
        ≤ src.numBytes - half * (numSrc * config.blockBytes) := by
    intro block hblock
    have := mul_add_le (hin block hblock).1 (config.copiedBytes_le numSrc)
    rw [hsrc.numBytes_eq]
    omega
  have hdstRange : ∀ block ∈ blockMapping,
      block.2 * config.copiedBytes numSrc + config.copiedBytes numSrc ≤ dst.numBytes := by
    intro block hblock
    have := mul_add_le (hin block hblock).2 (config.copiedBytes_le numSrc)
    rw [hdst.numBytes_eq]
    omega
  have hfold := foldlM_cpuFwd src.bytes ⟨half * (numSrc * config.blockBytes),
    src.numBytes - half * (numSrc * config.blockBytes)⟩ dstLayout hdst.dtype_cases hsrcRange hdstRange
  refine Eq.trans ?_ hfold
  unfold swapBlocks ByteSlice.dropTo ByteSlice.ofStorage
  rw [hdims, hsrc.device_eq, hdst.device_eq]
  simp only [bind, Except.bind, pure, Except.pure]
  rw [hsrc.dtype_eq, hsize, hoffset, if_pos (by rw [hsrc.numBytes_eq]; omega), Nat.zero_add]
  rcases config.dtype_eq with h | h <;> rw [h]

/--
A swap in writes the view, but reads from the start of the storage.
-/
theorem swapIn_eq (hsrc : config.IsCache numSrc .cpu src)
    (hdst : config.IsCache numDst (.cuda ordinal) dst) (hhalf : half ≤ 1)
    (hin : ∀ block ∈ blockMapping, block.1 < numSrc ∧ block.2 < numDst) (srcHalf : Nat)
    : swapBlocks src (config.view numSrc srcHalf) dst (config.view numDst half) blockMapping
        = .ok {
            dst with
            bytes := Region.copyAll src.bytes 0 (half * (numDst * config.blockBytes))
              (config.copiedBytes numSrc) blockMapping dst.bytes
          } := by
  rcases config.sizeInBytes_mul_prod_tail numSrc srcHalf with ⟨dim, dims, hdims, hsize⟩
  have hoffset : (config.view numDst half).startOffset * dst.dtype.sizeInBytes
      = half * (numDst * config.blockBytes) := by
    rw [hdst.dtype_eq]
    exact config.startOffset_mul_sizeInBytes numDst half
  have hhalf' := Nat.mul_le_mul_right (numDst * config.blockBytes) hhalf
  have hsrcRange : ∀ block ∈ blockMapping,
      block.1 * config.copiedBytes numSrc + config.copiedBytes numSrc ≤ src.numBytes := by
    intro block hblock
    have := mul_add_le (hin block hblock).1 (config.copiedBytes_le numSrc)
    rw [hsrc.numBytes_eq]
    omega
  have hdstRange : ∀ block ∈ blockMapping,
      (config.view numDst half).startOffset * dst.dtype.sizeInBytes
          + block.2 * config.copiedBytes numSrc + config.copiedBytes numSrc
        ≤ dst.numBytes := by
    intro block hblock
    have := mul_add_le (hin block hblock).2 (config.copiedBytes_le numSrc)
    rw [hoffset, hdst.numBytes_eq]
    omega
  have hfold := foldlM_cudaFwd hdst.dtype_cases hsrcRange hdstRange
  rw [hoffset] at hfold
  refine Eq.trans ?_ hfold
  unfold swapBlocks
  rw [hdims, hsrc.device_eq, hdst.device_eq]
  simp only [bind, Except.bind, pure, Except.pure]
  rw [hsrc.dtype_eq, hsize]
  rcases config.dtype_eq with h | h <;> rw [h]

/--
The bytes of the CPU after a swap out: the keys are copied, and the values over them.
-/
def swappedOut (config : CacheConfig) (numGpu : Nat) (gpu cpu : Nat → UInt8)
    (blockMapping : List (Nat × Nat)) : Nat → UInt8 :=
  Region.copyAll gpu (numGpu * config.blockBytes) 0 (config.copiedBytes numGpu) blockMapping
    (Region.copyAll gpu 0 0 (config.copiedBytes numGpu) blockMapping cpu)

/--
The bytes of the GPU after a swap in: both halves get the keys of the CPU.
-/
def swappedIn (config : CacheConfig) (numGpu numCpu : Nat) (cpu gpu : Nat → UInt8)
    (blockMapping : List (Nat × Nat)) : Nat → UInt8 :=
  Region.copyAll cpu 0 (numGpu * config.blockBytes) (config.copiedBytes numCpu) blockMapping
    (Region.copyAll cpu 0 0 (config.copiedBytes numCpu) blockMapping gpu)

variable {gpu cpu : Storage} {numGpu numCpu : Nat}

theorem swapBlocks_gpu_cpu (hgpu : config.IsCache numGpu (.cuda ordinal) gpu)
    (hcpu : config.IsCache numCpu .cpu cpu)
    (hin : ∀ block ∈ blockMapping, block.1 < numGpu ∧ block.2 < numCpu)
    : config.attention.swapBlocks gpu (config.layout numGpu) cpu (config.layout numCpu) blockMapping
        = .ok { cpu with bytes := config.swappedOut numGpu gpu.bytes cpu.bytes blockMapping } := by
  unfold FlashAttention.swapBlocks
  rw [splitKvCache_eq, splitKvCache_eq]
  simp only [bind, Except.bind]
  rw [swapOut_eq hgpu hcpu (by omega) hin]
  dsimp only
  rw [swapOut_eq hgpu (by exact ⟨hcpu.device_eq, hcpu.dtype_eq, hcpu.numBytes_eq⟩) (by omega) hin]
  simp [swappedOut]

theorem swapBlocks_cpu_gpu (hgpu : config.IsCache numGpu (.cuda ordinal) gpu)
    (hcpu : config.IsCache numCpu .cpu cpu)
    (hin : ∀ block ∈ blockMapping, block.1 < numCpu ∧ block.2 < numGpu)
    : config.attention.swapBlocks cpu (config.layout numCpu) gpu (config.layout numGpu) blockMapping
        = .ok {
            gpu with
            bytes := config.swappedIn numGpu numCpu cpu.bytes gpu.bytes blockMapping
          } := by
  unfold FlashAttention.swapBlocks
  rw [splitKvCache_eq, splitKvCache_eq]
  simp only [bind, Except.bind]
  rw [swapIn_eq hcpu hgpu (by omega) hin]
  dsimp only
  rw [swapIn_eq hcpu (by exact ⟨hgpu.device_eq, hgpu.dtype_eq, hgpu.numBytes_eq⟩) (by omega) hin]
  simp [swappedIn]

end Swap

/--
`a` lies in none of the blocks, neither of the keys nor of the values.
-/
def Outside (config : CacheConfig) (numBlocks : Nat) (blocks : List Nat) (a : Nat) : Prop :=
  ∀ block ∈ blocks,
    ¬ (block * config.blockBytes ≤ a ∧ a < block * config.blockBytes + config.blockBytes)
    ∧ ¬ (numBlocks * config.blockBytes + block * config.blockBytes ≤ a
      ∧ a < numBlocks * config.blockBytes + block * config.blockBytes + config.blockBytes)

/--
The two halves of the blocks are the same in both memories.
-/
def Restores (config : CacheConfig) (numBlocks : Nat) (blocks : List Nat)
    (bytes bytes' : Nat → UInt8) : Prop :=
  ∀ block ∈ blocks, ∀ k < config.blockBytes,
    bytes' (block * config.blockBytes + k) = bytes (block * config.blockBytes + k)
    ∧ bytes' (numBlocks * config.blockBytes + block * config.blockBytes + k)
        = bytes (numBlocks * config.blockBytes + block * config.blockBytes + k)

/--
A swap out and a swap in with the inverse mapping give the mapped blocks of the GPU back, whatever
was written to them in between, and neither touches another byte.
-/
def SwapsBack (config : CacheConfig) (numGpu numCpu : Nat) (gpu cpu : Storage)
    (blockMapping : List (Nat × Nat)) : Prop :=
  ∃ cpu',
    config.attention.swapBlocks gpu (config.layout numGpu) cpu (config.layout numCpu) blockMapping
        = .ok cpu'
    ∧ (∀ a, config.Outside numCpu (blockMapping.map (·.2)) a → cpu'.bytes a = cpu.bytes a)
    ∧ ∀ (gpu' : Storage) (inverse : List (Nat × Nat)),
        config.IsCache numGpu gpu.device gpu' →
        (∀ a, config.Outside numGpu (blockMapping.map (·.1)) a → gpu'.bytes a = gpu.bytes a) →
        inverse.Perm (blockMapping.map Prod.swap) →
        ∃ gpu'',
          config.attention.swapBlocks cpu' (config.layout numCpu) gpu' (config.layout numGpu)
              inverse
            = .ok gpu''
          ∧ (∀ a, config.Outside numGpu (blockMapping.map (·.1)) a →
              gpu''.bytes a = gpu'.bytes a)
          ∧ config.Restores numGpu (blockMapping.map (·.1)) gpu.bytes gpu''.bytes

/--
The same of the bytes alone.
-/
def BytesSwapBack (config : CacheConfig) (numGpu numCpu : Nat) (gpu cpu : Nat → UInt8)
    (blockMapping : List (Nat × Nat)) : Prop :=
  (∀ a, config.Outside numCpu (blockMapping.map (·.2)) a →
      config.swappedOut numGpu gpu cpu blockMapping a = cpu a)
  ∧ ∀ (gpu' : Nat → UInt8) (inverse : List (Nat × Nat)),
      (∀ a, config.Outside numGpu (blockMapping.map (·.1)) a → gpu' a = gpu a) →
      inverse.Perm (blockMapping.map Prod.swap) →
      (∀ a, config.Outside numGpu (blockMapping.map (·.1)) a →
          config.swappedIn numGpu numCpu (config.swappedOut numGpu gpu cpu blockMapping) gpu'
            inverse a = gpu' a)
      ∧ config.Restores numGpu (blockMapping.map (·.1)) gpu
          (config.swappedIn numGpu numCpu (config.swappedOut numGpu gpu cpu blockMapping) gpu'
            inverse)

section RoundTrip

variable {numGpu numCpu ordinal : Nat} {blockMapping inverse : List (Nat × Nat)}

theorem inverse_lt (hin : ∀ block ∈ blockMapping, block.1 < numGpu ∧ block.2 < numCpu)
    (hinverse : inverse.Perm (blockMapping.map Prod.swap))
    : ∀ block ∈ inverse, block.1 < numCpu ∧ block.2 < numGpu := by
  intro block hblock
  rcases List.mem_map.mp (hinverse.mem_iff.mp hblock) with ⟨block', hblock', rfl⟩
  exact (hin block' hblock').symm

theorem swapsBack_iff_bytesSwapBack {gpu cpu : Storage}
    (hgpu : config.IsCache numGpu (.cuda ordinal) gpu) (hcpu : config.IsCache numCpu .cpu cpu)
    (hin : ∀ block ∈ blockMapping, block.1 < numGpu ∧ block.2 < numCpu)
    : config.SwapsBack numGpu numCpu gpu cpu blockMapping
        ↔ config.BytesSwapBack numGpu numCpu gpu.bytes cpu.bytes blockMapping := by
  have hout := swapBlocks_gpu_cpu hgpu hcpu hin
  have hback : ∀ {gpu' : Storage} {inverse : List (Nat × Nat)},
      config.IsCache numGpu gpu.device gpu' → inverse.Perm (blockMapping.map Prod.swap) →
      config.attention.swapBlocks
          { cpu with bytes := config.swappedOut numGpu gpu.bytes cpu.bytes blockMapping }
          (config.layout numCpu) gpu' (config.layout numGpu) inverse
        = .ok {
            gpu' with
            bytes := config.swappedIn numGpu numCpu
              (config.swappedOut numGpu gpu.bytes cpu.bytes blockMapping) gpu'.bytes inverse
          } := by
    intro gpu' inverse hgpu' hinverse
    rw [hgpu.device_eq] at hgpu'
    exact swapBlocks_cpu_gpu hgpu' ⟨hcpu.device_eq, hcpu.dtype_eq, hcpu.numBytes_eq⟩
      (inverse_lt hin hinverse)
  constructor
  . rintro ⟨cpu', hcpu', hframe, hrest⟩
    rw [hout] at hcpu'
    cases hcpu'
    refine ⟨hframe, ?_⟩
    intro gpu' inverse hsame hinverse
    have hcache : config.IsCache numGpu gpu.device { gpu with bytes := gpu' } :=
      ⟨rfl, hgpu.dtype_eq, hgpu.numBytes_eq⟩
    rcases hrest _ inverse hcache hsame hinverse with ⟨gpu'', hgpu'', hframe', hrestores⟩
    rw [hback hcache hinverse] at hgpu''
    cases hgpu''
    exact ⟨hframe', hrestores⟩
  . rintro ⟨hframe, hrest⟩
    refine ⟨_, hout, hframe, ?_⟩
    intro gpu' inverse hcache hsame hinverse
    rcases hrest gpu'.bytes inverse hsame hinverse with ⟨hframe', hrestores⟩
    exact ⟨_, hback hcache hinverse, hframe', hrestores⟩

section Bytes

variable {gpu cpu gpu' : Nat → UInt8} {x y k a : Nat}

theorem swappedOut_of_mem (config : CacheConfig) (numGpu : Nat) (gpu cpu : Nat → UInt8)
    (hnodup : (blockMapping.map (·.2)).Nodup) (hmem : (x, y) ∈ blockMapping)
    (hk : k < config.copiedBytes numGpu)
    : config.swappedOut numGpu gpu cpu blockMapping (y * config.copiedBytes numGpu + k)
        = gpu (numGpu * config.blockBytes + x * config.copiedBytes numGpu + k) := by
  have hcopy := Region.copyAll_of_mem gpu
    (Region.copyAll gpu 0 0 (config.copiedBytes numGpu) blockMapping cpu)
    (numGpu * config.blockBytes) 0 hnodup hmem hk
  rw [Nat.zero_add] at hcopy
  exact hcopy

theorem swappedOut_of_forall
    (h : ∀ block ∈ blockMapping, ¬ (block.2 * config.copiedBytes numGpu ≤ a
      ∧ a < block.2 * config.copiedBytes numGpu + config.copiedBytes numGpu))
    : config.swappedOut numGpu gpu cpu blockMapping a = cpu a := by
  unfold swappedOut
  rw [Region.copyAll_of_forall, Region.copyAll_of_forall]
  . simpa using h
  . simpa using h

/--
Both halves of a block get the same bytes.
-/
theorem swappedIn_of_mem (config : CacheConfig) {numGpu : Nat} (numCpu : Nat)
    (cpu gpu : Nat → UInt8) (hnodup : (inverse.map (·.2)).Nodup)
    (hin : ∀ block ∈ inverse, block.2 < numGpu) (hmem : (x, y) ∈ inverse)
    (hk : k < config.copiedBytes numCpu)
    : config.swappedIn numGpu numCpu cpu gpu inverse (y * config.copiedBytes numCpu + k)
          = cpu (x * config.copiedBytes numCpu + k)
        ∧ config.swappedIn numGpu numCpu cpu gpu inverse
            (numGpu * config.blockBytes + y * config.copiedBytes numCpu + k)
          = cpu (x * config.copiedBytes numCpu + k) := by
  unfold swappedIn
  constructor
  . have hle := mul_add_le (hin _ hmem) (config.copiedBytes_le numCpu)
    rw [Region.copyAll_of_forall (by intro block _; dsimp only at hle; omega)]
    have hcopy := Region.copyAll_of_mem cpu gpu 0 0 hnodup hmem hk
    rw [Nat.zero_add, Nat.zero_add] at hcopy
    exact hcopy
  . have hcopy := Region.copyAll_of_mem cpu
      (Region.copyAll cpu 0 0 (config.copiedBytes numCpu) inverse gpu) 0
      (numGpu * config.blockBytes) hnodup hmem hk
    rw [Nat.zero_add] at hcopy
    exact hcopy

theorem swappedIn_of_forall
    (h : ∀ block ∈ inverse, ¬ (block.2 * config.copiedBytes numCpu ≤ a
        ∧ a < block.2 * config.copiedBytes numCpu + config.copiedBytes numCpu)
      ∧ ¬ (numGpu * config.blockBytes + block.2 * config.copiedBytes numCpu ≤ a
        ∧ a < numGpu * config.blockBytes + block.2 * config.copiedBytes numCpu
            + config.copiedBytes numCpu))
    : config.swappedIn numGpu numCpu cpu gpu inverse a = gpu a := by
  unfold swappedIn
  rw [Region.copyAll_of_forall, Region.copyAll_of_forall]
  . intro block hblock
    simpa using (h block hblock).1
  . intro block hblock
    exact (h block hblock).2

theorem one_le_tokenBytes (config : CacheConfig) : 1 ≤ config.tokenBytes := by
  have := Nat.mul_le_mul config.numKvHeads_pos config.headDim_pos
  unfold tokenBytes
  omega

theorem nodup_of_perm_swap (hkeys : (blockMapping.map (·.1)).Nodup)
    (hinverse : inverse.Perm (blockMapping.map Prod.swap)) : (inverse.map (·.2)).Nodup := by
  rw [(hinverse.map _).nodup_iff, List.map_map]
  exact hkeys

theorem mem_of_perm_swap (hinverse : inverse.Perm (blockMapping.map Prod.swap))
    : (y, x) ∈ inverse ↔ (x, y) ∈ blockMapping := by
  rw [hinverse.mem_iff, List.mem_map]
  constructor
  . rintro ⟨⟨x', y'⟩, hmem, heq⟩
    cases heq
    exact hmem
  . intro hmem
    exact ⟨(x, y), hmem, rfl⟩

/--
Blocks that are swapped as a whole come back with the bytes of their values in both halves.
-/
theorem bytesSwapBack_iff_of_blocks (hgpuBytes : config.copiedBytes numGpu = config.blockBytes)
    (hcpuBytes : config.copiedBytes numCpu = config.blockBytes)
    (hin : ∀ block ∈ blockMapping, block.1 < numGpu ∧ block.2 < numCpu)
    (hkeys : (blockMapping.map (·.1)).Nodup) (hvalues : (blockMapping.map (·.2)).Nodup)
    : config.BytesSwapBack numGpu numCpu gpu cpu blockMapping
        ↔ ∀ block ∈ blockMapping, ∀ k < config.blockBytes,
            gpu (block.1 * config.blockBytes + k)
              = gpu (numGpu * config.blockBytes + block.1 * config.blockBytes + k) := by
  have hout : ∀ {x y k}, (x, y) ∈ blockMapping → k < config.blockBytes →
      config.swappedOut numGpu gpu cpu blockMapping (y * config.blockBytes + k)
        = gpu (numGpu * config.blockBytes + x * config.blockBytes + k) := by
    intro x y k hmem hk
    have h := config.swappedOut_of_mem numGpu gpu cpu hvalues hmem (by rwa [hgpuBytes])
    rwa [hgpuBytes] at h
  have hback : ∀ gpu' {inverse x y k}, inverse.Perm (blockMapping.map Prod.swap) →
      (x, y) ∈ blockMapping → k < config.blockBytes →
      config.swappedIn numGpu numCpu (config.swappedOut numGpu gpu cpu blockMapping) gpu' inverse
            (x * config.blockBytes + k)
          = gpu (numGpu * config.blockBytes + x * config.blockBytes + k)
        ∧ config.swappedIn numGpu numCpu (config.swappedOut numGpu gpu cpu blockMapping) gpu'
            inverse (numGpu * config.blockBytes + x * config.blockBytes + k)
          = gpu (numGpu * config.blockBytes + x * config.blockBytes + k) := by
    intro gpu' inverse x y k hinverse hmem hk
    have h := config.swappedIn_of_mem numCpu (config.swappedOut numGpu gpu cpu blockMapping) gpu'
      (nodup_of_perm_swap hkeys hinverse)
      (fun block hblock => (inverse_lt hin hinverse block hblock).2)
      ((mem_of_perm_swap hinverse).mpr hmem) (by rwa [hcpuBytes])
    rwa [hcpuBytes, hout hmem hk] at h
  constructor
  . rintro ⟨-, hrest⟩ ⟨x, y⟩ hmem k hk
    have hrestores := (hrest gpu _ (fun _ _ => rfl) (.refl _)).2 x (List.mem_map_of_mem hmem) k hk
    rw [← hrestores.1]
    exact (hback _ (.refl _) hmem hk).1
  . intro hhalves
    refine ⟨?_, ?_⟩
    . intro a houtside
      apply swappedOut_of_forall
      intro block hblock
      rw [hgpuBytes]
      exact (houtside block.2 (List.mem_map_of_mem hblock)).1
    . intro gpu' inverse _ hinverse
      refine ⟨?_, ?_⟩
      . intro a houtside
        apply swappedIn_of_forall
        rintro ⟨y, x⟩ hblock
        rw [hcpuBytes]
        exact houtside x (List.mem_map_of_mem ((mem_of_perm_swap hinverse).mp hblock))
      . intro x hx k hk
        rcases List.mem_map.mp hx with ⟨⟨x, y⟩, hmem, rfl⟩
        have hboth := hback gpu' hinverse hmem hk
        exact ⟨hboth.1.trans (hhalves _ hmem k hk).symm, hboth.2⟩

/--
Where a token of the first rows lies when the blocks have more than one.
-/
theorem tokens_le {config : CacheConfig} (hsize : config.blockSize ≠ 1) (hy : 1 ≤ y)
    : y * config.tokenBytes + config.tokenBytes ≤ y * config.blockBytes := by
  have hpos := config.blockSize_pos
  have htwo : 2 * config.tokenBytes ≤ config.blockBytes :=
    Nat.mul_le_mul_right _ (by omega : 2 ≤ config.blockSize)
  calc
    y * config.tokenBytes + config.tokenBytes ≤ y * config.tokenBytes + y * config.tokenBytes :=
      Nat.add_le_add_left (Nat.le_mul_of_pos_left _ hy) _
    _ = y * (2 * config.tokenBytes) := by rw [← Nat.two_mul, Nat.mul_left_comm]
    _ ≤ y * config.blockBytes := Nat.mul_le_mul_left y htwo

/--
A GPU of one block gives out a token, to a wrong place unless the block goes to the first one of the
CPU.
-/
theorem bytesSwapBack_iff_of_gpu_block (hsize : config.blockSize ≠ 1) (hcpu : numCpu ≠ 1)
    (hy : y < numCpu)
    : config.BytesSwapBack 1 numCpu gpu cpu [(0, y)]
        ↔ (∀ k < config.blockBytes, gpu k = gpu (config.blockBytes + k))
          ∧ (∀ k < config.blockBytes,
              y = 0 ∧ k < config.tokenBytes ∨ cpu (y * config.blockBytes + k) = gpu k)
          ∧ ∀ k < config.tokenBytes, y = 0 ∨ cpu (y * config.tokenBytes + k) = gpu k := by
  have hgpuBytes : config.copiedBytes 1 = config.tokenBytes := if_pos rfl
  have hcpuBytes : config.copiedBytes numCpu = config.blockBytes := if_neg hcpu
  have htoken : config.tokenBytes ≤ config.blockBytes := by
    have := config.copiedBytes_le 1
    rwa [hgpuBytes] at this
  have hplaces : ∀ {k}, 1 ≤ y → y * config.tokenBytes + config.tokenBytes
      ≤ y * config.blockBytes + k := by
    intro k hpos
    have := tokens_le hsize hpos
    omega
  have hin : y * config.blockBytes + config.blockBytes ≤ numCpu * config.blockBytes :=
    mul_add_le hy (Nat.le_refl _)
  have hone : ([(0, y)].map (·.2)).Nodup := List.nodup_singleton y
  have hout : ∀ {k}, k < config.tokenBytes →
      config.swappedOut 1 gpu cpu [(0, y)] (y * config.tokenBytes + k)
        = gpu (config.blockBytes + k) := by
    intro k hk
    have h := config.swappedOut_of_mem 1 gpu cpu hone List.mem_cons_self (by rwa [hgpuBytes])
    rwa [hgpuBytes, Nat.one_mul, Nat.zero_mul, Nat.add_zero] at h
  have hkept : ∀ {a}, ¬ (y * config.tokenBytes ≤ a
      ∧ a < y * config.tokenBytes + config.tokenBytes) →
      config.swappedOut 1 gpu cpu [(0, y)] a = cpu a := by
    intro a ha
    apply swappedOut_of_forall
    intro block hblock
    rw [List.mem_singleton.mp hblock, hgpuBytes]
    exact ha
  have hback : ∀ {gpu' k}, k < config.blockBytes →
      config.swappedIn 1 numCpu (config.swappedOut 1 gpu cpu [(0, y)]) gpu' [(y, 0)] k
          = config.swappedOut 1 gpu cpu [(0, y)] (y * config.blockBytes + k)
        ∧ config.swappedIn 1 numCpu (config.swappedOut 1 gpu cpu [(0, y)]) gpu' [(y, 0)]
            (config.blockBytes + k)
          = config.swappedOut 1 gpu cpu [(0, y)] (y * config.blockBytes + k) := by
    intro gpu' k hk
    have hinverse : ([(y, 0)].map (·.2)).Nodup := List.nodup_singleton 0
    have hlt : ∀ block ∈ [(y, 0)], block.2 < 1 := by simp
    have h := config.swappedIn_of_mem numCpu (config.swappedOut 1 gpu cpu [(0, y)]) gpu' hinverse
      hlt List.mem_cons_self (by rwa [hcpuBytes])
    rwa [hcpuBytes, Nat.one_mul, Nat.zero_mul, Nat.add_zero, Nat.zero_add] at h
  constructor
  . rintro ⟨hframe, hrest⟩
    have hrestores : ∀ k < config.blockBytes,
        config.swappedOut 1 gpu cpu [(0, y)] (y * config.blockBytes + k) = gpu k
          ∧ gpu k = gpu (config.blockBytes + k) := by
      intro k hk
      have h := (hrest gpu [(y, 0)] (fun _ _ => rfl) (.refl _)).2 0 List.mem_cons_self k hk
      rw [Nat.one_mul, Nat.zero_mul, Nat.zero_add, Nat.add_zero, (hback hk).1, (hback hk).2] at h
      exact ⟨h.1, h.1.symm.trans h.2⟩
    refine ⟨fun k hk => (hrestores k hk).2, ?_, ?_⟩
    . intro k hk
      by_cases hcovered : y = 0 ∧ k < config.tokenBytes
      . exact .inl hcovered
      . right
        rw [← (hrestores k hk).1, hkept]
        rintro ⟨-, hlt⟩
        rcases Nat.eq_zero_or_pos y with rfl | hpos
        . omega
        . have := hplaces (k := k) hpos
          omega
    . intro k hk
      rcases Nat.eq_zero_or_pos y with rfl | hpos
      . exact .inl rfl
      . right
        have houtside : config.Outside numCpu [y] (y * config.tokenBytes + k) := by
          have := hplaces (k := 0) hpos
          intro block hblock
          rw [List.mem_singleton.mp hblock]
          omega
        rw [← hframe _ houtside, hout hk, (hrestores k (by omega)).2]
  . rintro ⟨hhalves, hblock, hrow⟩
    refine ⟨?_, ?_⟩
    . intro a houtside
      by_cases ha : y * config.tokenBytes ≤ a ∧ a < y * config.tokenBytes + config.tokenBytes
      . have hk : a - y * config.tokenBytes < config.tokenBytes := by omega
        rcases hrow _ hk with rfl | hrow
        . exact absurd (by omega) (houtside 0 List.mem_cons_self).1
        . have hsum : y * config.tokenBytes + (a - y * config.tokenBytes) = a := by omega
          have hout := hout hk
          rw [hsum] at hout hrow
          rw [hout, hrow]
          exact (hhalves _ (by omega)).symm
      . exact hkept ha
    . intro gpu' inverse _ hinverse
      rw [show inverse = [(y, 0)] from List.perm_singleton.mp hinverse]
      refine ⟨?_, ?_⟩
      . intro a houtside
        apply swappedIn_of_forall
        intro block hmem
        rw [List.mem_singleton.mp hmem, hcpuBytes]
        exact houtside 0 List.mem_cons_self
      . intro x hx k hk
        rw [show x = 0 from List.mem_singleton.mp hx, Nat.zero_mul, Nat.one_mul, Nat.add_zero,
          Nat.zero_add, (hback hk).1, (hback hk).2, ← hhalves k hk, and_self]
        rcases hblock k hk with ⟨rfl, hcovered⟩ | hcpu
        . have h := hout hcovered
          rw [Nat.zero_mul] at h ⊢
          rw [h, hhalves k hk]
        . by_cases hcovered : y = 0 ∧ k < config.tokenBytes
          . have h := hout hcovered.2
            rw [hcovered.1, Nat.zero_mul] at h ⊢
            rw [h, hhalves k hk]
          . rw [hkept, hcpu]
            rintro ⟨-, hlt⟩
            rcases Nat.eq_zero_or_pos y with rfl | hpos
            . omega
            . have := hplaces (k := k) hpos
              omega

/--
A CPU of one block gives back a token.
-/
theorem not_bytesSwapBack_of_cpu_block (hsize : config.blockSize ≠ 1) (hx : x < numGpu)
    : ¬ config.BytesSwapBack numGpu 1 gpu cpu [(x, 0)] := by
  have hcpuBytes : config.copiedBytes 1 = config.tokenBytes := if_pos rfl
  have hpos := config.one_le_tokenBytes
  have htoken := tokens_le hsize (Nat.le_refl 1)
  rw [Nat.one_mul, Nat.one_mul] at htoken
  have hin : x * config.blockBytes + config.blockBytes ≤ numGpu * config.blockBytes :=
    mul_add_le hx (Nat.le_refl _)
  -- the last byte of the block
  let a := x * config.blockBytes + (config.blockBytes - 1)
  have hother : ∃ byte : UInt8, byte ≠ gpu a := by
    by_cases hzero : gpu a = 0
    . exact ⟨1, by rw [hzero]; decide⟩
    . exact ⟨0, Ne.symm hzero⟩
  rcases hother with ⟨byte, hbyte⟩
  rintro ⟨-, hrest⟩
  have hsame : ∀ a', config.Outside numGpu [x] a' → Function.update gpu a byte a' = gpu a' := by
    intro a' houtside
    apply Function.update_of_ne
    rintro rfl
    have := (houtside x List.mem_cons_self).1
    omega
  have hrestored := ((hrest (Function.update gpu a byte) [(0, x)] hsame (.refl _)).2 x
    List.mem_cons_self (config.blockBytes - 1) (by omega)).1
  rw [swappedIn_of_forall, Function.update_self] at hrestored
  . exact hbyte hrestored
  . intro block hblock
    rw [List.mem_singleton.mp hblock, hcpuBytes]
    dsimp only
    rcases Nat.eq_zero_or_pos x with rfl | hposx
    . omega
    . have := tokens_le hsize hposx
      omega

end Bytes

/--
Whether the swapped sizes are right for the block `x` of the GPU and the block `y` of the CPU. They
are wrong for a cache of one block of several tokens, and then the block comes back only if the CPU
held it before.
-/
def Survives (config : CacheConfig) (numGpu numCpu : Nat) (gpu cpu : Nat → UInt8) (y : Nat)
    : Prop :=
  config.blockSize = 1
  ∨ numGpu ≠ 1 ∧ numCpu ≠ 1
  ∨ numGpu = 1 ∧ numCpu ≠ 1
    ∧ (∀ k < config.blockBytes,
        y = 0 ∧ k < config.tokenBytes ∨ cpu (y * config.blockBytes + k) = gpu k)
    ∧ ∀ k < config.tokenBytes, y = 0 ∨ cpu (y * config.tokenBytes + k) = gpu k

theorem copiedBytes_eq_blockBytes (h : config.blockSize = 1 ∨ numBlocks ≠ 1)
    : config.copiedBytes numBlocks = config.blockBytes := by
  unfold copiedBytes blockBytes
  split
  . next hone =>
    rcases h with h | h
    . rw [h, Nat.one_mul]
    . exact absurd hone h
  . rfl

theorem eq_nil_or_singleton
    (hin : ∀ block ∈ blockMapping, block.1 < numGpu ∧ block.2 < numCpu)
    (hkeys : (blockMapping.map (·.1)).Nodup) (hvalues : (blockMapping.map (·.2)).Nodup)
    (hone : numGpu = 1 ∨ numCpu = 1)
    : blockMapping = [] ∨ ∃ x y, blockMapping = [(x, y)] := by
  match blockMapping with
  | [] => exact .inl rfl
  | [(x, y)] => exact .inr ⟨x, y, rfl⟩
  | (x, y) :: (x', y') :: _ =>
    have hfirst := hin (x, y) List.mem_cons_self
    have hsecond := hin (x', y') (List.mem_cons_of_mem _ List.mem_cons_self)
    simp only [List.map_cons, List.nodup_cons, List.mem_cons, not_or] at hkeys hvalues
    omega

theorem bytesSwapBack_nil (gpu cpu : Nat → UInt8)
    : config.BytesSwapBack numGpu numCpu gpu cpu [] := by
  refine ⟨fun _ _ => rfl, ?_⟩
  intro gpu' inverse _ hinverse
  rw [List.map_nil, List.perm_nil] at hinverse
  rw [hinverse]
  refine ⟨fun _ _ => rfl, ?_⟩
  intro x hx
  cases hx

/--
The GPU gets its blocks back exactly when their keys and their values are the same and the sizes are
right for them.
-/
theorem swapsBack_iff {gpu cpu : Storage} (hgpu : config.IsCache numGpu (.cuda ordinal) gpu)
    (hcpu : config.IsCache numCpu .cpu cpu)
    (hin : ∀ block ∈ blockMapping, block.1 < numGpu ∧ block.2 < numCpu)
    (hkeys : (blockMapping.map (·.1)).Nodup) (hvalues : (blockMapping.map (·.2)).Nodup)
    : config.SwapsBack numGpu numCpu gpu cpu blockMapping
        ↔ ∀ block ∈ blockMapping,
            (∀ k < config.blockBytes,
              gpu.bytes (block.1 * config.blockBytes + k)
                = gpu.bytes (numGpu * config.blockBytes + block.1 * config.blockBytes + k))
            ∧ config.Survives numGpu numCpu gpu.bytes cpu.bytes block.2 := by
  rw [swapsBack_iff_bytesSwapBack hgpu hcpu hin]
  by_cases hwhole : config.blockSize = 1 ∨ numGpu ≠ 1 ∧ numCpu ≠ 1
  . rw [bytesSwapBack_iff_of_blocks (copiedBytes_eq_blockBytes (by tauto))
      (copiedBytes_eq_blockBytes (by tauto)) hin hkeys hvalues]
    constructor
    . intro h block hblock
      exact ⟨h block hblock, hwhole.imp_right .inl⟩
    . intro h block hblock
      exact (h block hblock).1
  . rw [not_or] at hwhole
    rcases eq_nil_or_singleton hin hkeys hvalues (by tauto) with rfl | ⟨x, y, rfl⟩
    . exact iff_of_true (bytesSwapBack_nil gpu.bytes cpu.bytes) (by simp)
    . have hblock := hin (x, y) List.mem_cons_self
      by_cases hcpuOne : numCpu = 1
      . subst hcpuOne
        obtain rfl : y = 0 := by omega
        refine iff_of_false (not_bytesSwapBack_of_cpu_block hwhole.1 hblock.1) ?_
        intro h
        rcases (h _ List.mem_cons_self).2 with hsize | hboth | hgpuOne
        . exact hwhole.1 hsize
        . exact hwhole.2 hboth
        . exact hgpuOne.2.1 rfl
      . obtain rfl : numGpu = 1 := by tauto
        obtain rfl : x = 0 := by omega
        rw [bytesSwapBack_iff_of_gpu_block hwhole.1 hcpuOne hblock.2]
        simp only [List.mem_singleton, forall_eq, Nat.zero_mul, Nat.zero_add, Nat.one_mul,
          Nat.add_zero, Survives]
        tauto

end RoundTrip

/--
Blocks of 16 tokens, with one head of 64 elements.
-/
def smallConfig : CacheConfig where
  dtype := .bf16
  blockSize := 16
  numKvHeads := 1
  headDim := 64
  dtype_eq := .inl rfl
  blockSize_pos := by decide
  numKvHeads_pos := by decide
  headDim_pos := by decide

/--
A cache of two blocks.
-/
def twoBlocks (device : Device) (bytes : Nat → UInt8) : Storage where
  device
  dtype := .bf16
  numBytes := 8192
  bytes

theorem isCache_twoBlocks (device : Device) (bytes : Nat → UInt8)
    : smallConfig.IsCache 2 device (twoBlocks device bytes) :=
  ⟨rfl, rfl, rfl⟩

/--
The values repeat the keys, and the byte of each key tells where it is in its row.
-/
def repeated (a : Nat) : UInt8 :=
  UInt8.ofNat (a % 4096)

theorem swapsBack_iff_repeated
    : smallConfig.SwapsBack 2 2 (twoBlocks (.cuda 0) repeated) (twoBlocks .cpu fun _ => 1)
        [(0, 1), (1, 0)] := by
  refine (swapsBack_iff (isCache_twoBlocks _ _) (isCache_twoBlocks _ _) (by decide) (by decide)
    (by decide)).mpr ?_
  intro block _
  refine ⟨?_, .inr (.inl (by decide))⟩
  intro k _
  change repeated (block.1 * 2048 + k) = repeated (4096 + block.1 * 2048 + k)
  unfold repeated
  rw [Nat.add_assoc, Nat.add_mod_left]

/--
The keys of the block come back as its values.
-/
theorem not_swapsBack_other_values
    : ¬ smallConfig.SwapsBack 2 2 (twoBlocks (.cuda 0) fun a => if a < 4096 then 0 else 1)
        (twoBlocks .cpu fun _ => 0) [(0, 1)] := by
  rw [swapsBack_iff_bytesSwapBack (isCache_twoBlocks _ _) (isCache_twoBlocks _ _) (by decide),
    bytesSwapBack_iff_of_blocks rfl rfl (by decide) (by decide) (by decide)]
  intro h
  exact absurd (h (0, 1) List.mem_cons_self 0 (by decide)) (by decide)

end CacheConfig

end AtomaInfer
