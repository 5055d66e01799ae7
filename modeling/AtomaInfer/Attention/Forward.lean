import AtomaInfer.Attention.Cache
import AtomaInfer.Util.Causal
import AtomaInfer.Util.EStateM

/-!
The forward pass of the flash attention on the rows of its tensors (`flash_attention.rs`), with the
kernels that it calls (`csrc`). The data types, the devices and the shapes of the rows are those that
the models pass. A kernel that would read or write outside of its tensors fails.
-/

namespace AtomaInfer

/--
The keys and values of a layer on the GPU, by block and offset.
-/
structure LayerCache (ρ : Type) where
  numBlocks : Nat
  blockSize : Nat
  rows : Nat → Nat → ρ × ρ

def illegalMemoryAccess : CandleError :=
  .panic "illegal memory access"

namespace LayerCache

variable {ρ : Type} (cache : LayerCache ρ)

/--
`reshape_and_cache_flash_kernel` for one token.
-/
def write (slot : Int) (row : ρ × ρ) : Except CandleError (LayerCache ρ) :=
  if slot < 0 then
    .ok cache
  else
    let blockIdx := slot.toNat / cache.blockSize
    let blockOffset := slot.toNat % cache.blockSize
    if blockIdx < cache.numBlocks then
      .ok {
        cache with
        rows := Function.update cache.rows blockIdx
          (Function.update (cache.rows blockIdx) blockOffset row) }
    else
      .error illegalMemoryAccess

def writeAll (writes : List (Int × ρ × ρ)) : Except CandleError (LayerCache ρ) :=
  writes.foldlM (fun cache (slot, row) => cache.write slot row) cache

/--
`split_kv_cache` squeezes the blocks away when there is only one.
-/
def reshapeAndCacheFlash (keysValues : List (ρ × ρ)) (slotMapping : List Int)
    : Except CandleError (LayerCache ρ) :=
  if cache.numBlocks = 1 then
    .error (.msg "Only support key_cache tensors with rank 4 (got 3)")
  else if keysValues.length ≠ slotMapping.length then
    .error <| .msg <|
      s!"Only support slot_mapping with shape [{keysValues.length}] "
        ++ s!"(got Ok({slotMapping.length}))"
  else
    cache.writeAll (slotMapping.zip keysValues)

/--
A key and value that a kernel reads through a row of the block table.
-/
def read (blockTable : List Nat) (i : Nat) : Except CandleError (ρ × ρ) :=
  match blockTable[i / cache.blockSize]? with
  | some blockIdx =>
    if blockIdx < cache.numBlocks then
      .ok (cache.rows blockIdx (i % cache.blockSize))
    else
      .error illegalMemoryAccess
  | none => .error illegalMemoryAccess

end LayerCache

def FlashAttention.supportedHeadSizes : List Nat :=
  [64, 80, 96, 112, 128, 192, 256]

/--
The attention with all that its forward pass reads. `attend` is what a query gets from the keys and
values that it sees.
-/
structure AttentionBackend (ρ : Type) extends FlashAttention where
  numHeads : Nat
  attend : ρ → List (ρ × ρ) → ρ
  numKvHeads_pos : 0 < numKvHeads
  mod_eq_zero : numHeads % numKvHeads = 0
  headDim_mem : headDim ∈ FlashAttention.supportedHeadSizes

namespace FlashAttention

/--
The constructor.
-/
def new {ρ : Type} (numHeads numKvHeads headDim : Nat) (attend : ρ → List (ρ × ρ) → ρ)
    : Except CandleError (AttentionBackend ρ) :=
  if hpos : numKvHeads = 0 then
    .error (.panic "attempt to calculate the remainder with a divisor of zero")
  else if hmod : numHeads % numKvHeads = 0 then
    if hdim : headDim ∈ supportedHeadSizes then
      .ok {
        numHeads
        numKvHeads
        headDim
        attend
        numKvHeads_pos := Nat.pos_of_ne_zero hpos
        mod_eq_zero := hmod
        headDim_mem := hdim
      }
    else
      .error (.msg s!"head_dim {headDim} is not supported")
  else
    .error (.msg s!"number of heads {numHeads} must divide number of kv heads {numKvHeads}")

/--
How many keys the mask leaves to the query `rowIdx`.
-/
def colIdxLimitRight (causal : Bool) (seqlenQ seqlenK rowIdx : Nat) : Nat :=
  if causal then min seqlenK (rowIdx + 1 + seqlenK - seqlenQ) else seqlenK

/--
The locations cut `n` rows into pieces of at most `maxSeqlen`.
-/
def covers (locations : List Nat) (maxSeqlen n : Nat) : Bool :=
  locations.head? = some 0 && locations.getLast? = some n
    && (List.zipWith (fun start stop => stop - start) locations locations.tail).all (· ≤ maxSeqlen)

end FlashAttention

namespace AttentionBackend

open FlashAttention (VarlenCall KvCacheCall colIdxLimitRight covers)

variable {ρ : Type} (attention : AttentionBackend ρ)

/--
The queries of one sequence.
-/
def attendAll (causal : Bool) (q : List ρ) (keysValues : List (ρ × ρ)) : List ρ :=
  q.mapIdx fun rowIdx query =>
    attention.attend query
      (keysValues.take (colIdxLimitRight causal q.length keysValues.length rowIdx))

/--
Each query with the keys and values up to its own.
-/
def attendCausally (q : List ρ) (keysValues : List (ρ × ρ)) : List ρ :=
  q.mapIdx fun i query => attention.attend query (keysValues.take (i + 1))

/--
For decoding the query is reshaped to four dimensions.
-/
def seqlenqNgroupsSwapped (call : VarlenCall) : Bool :=
  call.maxSeqlenQ = 1 && attention.numKvHeads < attention.numHeads && !call.causal
    && attention.headDim % 8 = 0

def flashAttnVarlen (call : VarlenCall) (q : List ρ) (keysValues : List (ρ × ρ))
    : Except CandleError (List ρ) :=
  let batchSize := call.seqlensQ.length - 1
  if attention.seqlenqNgroupsSwapped call then
    .error (.msg "flash-attn-varlen expects input tensors of rank 3 (q: 4, k: 3, v: 3")
  else if batchSize = 0 then
    .error (.msg "batch_size must be > 0")
  else if 256 < attention.headDim then
    .error (.msg s!"only supports head dimension at most 256 (got {attention.headDim})")
  else if attention.headDim % 8 ≠ 0 then
    .error (.msg s!"only supports head sizes that are a multiple of 8 (got {attention.headDim})")
  else if attention.numHeads % attention.numKvHeads ≠ 0 then
    .error <| .msg <|
      s!"number of k/v heads {attention.numKvHeads} must divide number of heads in query "
        ++ s!"{attention.numHeads}"
  else if call.seqlensK.length ≠ batchSize + 1 then
    .error <| .msg <|
      s!"shape mismatch of seqlens_k (got [{call.seqlensK.length}]) expected {batchSize + 1})"
  else if covers call.seqlensQ call.maxSeqlenQ q.length
      && covers call.seqlensK call.maxSeqlenK keysValues.length then
    .ok (List.zipWith (attention.attendAll call.causal) (segments call.seqlensQ q)
      (segments call.seqlensK keysValues)).flatten
  else
    .error illegalMemoryAccess

/--
The query of a sequence and the keys and values that its row of the block table leads to.
-/
def attendCached (cache : LayerCache ρ) (query : ρ) (blockTable : List Nat) (seqlenK : Nat)
    : Except CandleError ρ := do
  let keysValues ← (List.range seqlenK).mapM (cache.read blockTable)
  return attention.attend query keysValues

def attendAllCached (cache : LayerCache ρ) (q : List ρ) (rows : List (List Nat × Nat))
    : Except CandleError (List ρ) :=
  (q.zip rows).mapM fun (query, blockTable, seqlenK) =>
    attention.attendCached cache query blockTable seqlenK

/--
Each query is the only one of its sequence. Without a block table a sequence has one block of the
cache.
-/
def flashAttnKvCacheFull (call : KvCacheCall) (q : List ρ) (cache : LayerCache ρ)
    : Except CandleError (List ρ) :=
  let batchSize := q.length
  let maxNumBlocksPerSequence :=
    match call.blockTable with
    | some blockTable => (blockTable.map (·.length)).headD 0
    | none => 1
  let blockTable := call.blockTable.getD ((List.range batchSize).map ([·]))
  let seqlensK :=
    call.seqlensK.getD (List.replicate batchSize (maxNumBlocksPerSequence * cache.blockSize))
  if blockTable.length ≠ batchSize then
    .error <| .msg <|
      s!"shape mismatch of block_table (got [{blockTable.length}, {maxNumBlocksPerSequence}]) "
        ++ s!"expected ({batchSize}, {maxNumBlocksPerSequence}))"
  else if call.blockTable.isSome && cache.blockSize % 16 ≠ 0 then
    .error (.msg "page_block_size must be a multiple of 16 when block_table is provided")
  else if seqlensK.length ≠ batchSize then
    .error <| .msg <|
      s!"shape mismatch of seqlens_k (got [{seqlensK.length}]) expected [{batchSize}])"
  else
    attention.attendAllCached cache q (blockTable.zip seqlensK)

/--
`output.slice_set(out, 0, offset)`
-/
def sliceSet (output out : List ρ) (offset : Nat) : Except CandleError (List ρ) :=
  if offset + out.length ≤ output.length then
    .ok (output.take offset ++ out ++ output.drop (offset + out.length))
  else
    .error .narrowInvalidArgs

/--
The cache is written to in place.
-/
def forward [Zero ρ] (q k v : List ρ) (cache : LayerCache ρ) (metadata : FlashAttentionMetadata)
    : Except CandleError (List ρ × LayerCache ρ) := do
  if q.length ≠ k.length ∨ q.length ≠ v.length then
    throw <| .msg <|
      "query, key, and value must have the same number of tokens "
        ++ s!"(got {q.length}, {k.length}, {v.length})"
  let cache ← cache.reshapeAndCacheFlash (k.zip v) metadata.slotMapping
  let (prefill, decoding) ← FlashAttention.forward q.length metadata
  let output := List.replicate q.length 0
  let decodeQ ← rowsFrom q metadata.numPrefillTokens
  let q ← rowsTo q metadata.numPrefillTokens
  let keysValues ← rowsTo (k.zip v) metadata.numPrefillTokens
  let output ←
    match prefill with
    | none => pure output
    | some call => do
      let out ← attention.flashAttnVarlen call q keysValues
      sliceSet output out 0
  let output ←
    match decoding with
    | none => pure output
    | some call => do
      let out ← attention.flashAttnKvCacheFull call decodeQ cache
      sliceSet output out metadata.numPrefillTokens
  return (output, cache)

section Lemmas

variable {attention}

theorem headDim_eq (attention : AttentionBackend ρ)
    : ¬ 256 < attention.headDim ∧ ¬ attention.headDim % 8 ≠ 0 := by
  have hall : ∀ headDim ∈ FlashAttention.supportedHeadSizes,
      ¬ 256 < headDim ∧ ¬ headDim % 8 ≠ 0 := by
    decide
  exact hall _ attention.headDim_mem

theorem length_attendCausally (q : List ρ) (keysValues : List (ρ × ρ))
    : (attention.attendCausally q keysValues).length = q.length :=
  List.length_mapIdx

theorem getElem_attendCausally {q : List ρ} {keysValues : List (ρ × ρ)} {i : Nat} (h : i < q.length)
    (h' : i < (attention.attendCausally q keysValues).length)
    : (attention.attendCausally q keysValues)[i]
        = attention.attend q[i] (keysValues.take (i + 1)) :=
  List.getElem_mapIdx

/--
What the causal mask leaves is what comes up to the query.
-/
theorem attendAll_eq {causal : Bool} {q : List ρ} {keysValues : List (ρ × ρ)}
    (hlength : q.length = keysValues.length) (hcausal : causal = true ∨ q.length ≤ 1)
    : attention.attendAll causal q keysValues = attention.attendCausally q keysValues := by
  unfold attendAll attendCausally
  apply List.ext_getElem
  . rw [List.length_mapIdx, List.length_mapIdx]
  . intro i hi hi'
    rw [List.length_mapIdx] at hi'
    have hlimit : colIdxLimitRight causal q.length keysValues.length i = i + 1 := by
      unfold colIdxLimitRight
      rcases hcausal with rfl | hle
      . rw [if_pos rfl]
        omega
      . split <;> omega
    rw [List.getElem_mapIdx, List.getElem_mapIdx, hlimit]

theorem zipWith_sub_scanl (n : Nat) (lengths : List Nat)
    : List.zipWith (fun start stop => stop - start) (lengths.scanl (· + ·) n)
          (lengths.scanl (· + ·) n).tail
        = lengths := by
  induction lengths generalizing n with
  | nil => rfl
  | cons length lengths ih =>
    have hrest := ih (n + length)
    rw [List.scanl_cons, List.tail_cons]
    rw [scanl_eq_cons, List.tail_cons] at hrest
    rw [scanl_eq_cons, List.zipWith_cons_cons, hrest, Nat.add_sub_cancel_left]

theorem covers_scanl {lengths : List Nat} {maxSeqlen : Nat} (h : ∀ n ∈ lengths, n ≤ maxSeqlen)
    : covers (lengths.scanl (· + ·) 0) maxSeqlen lengths.sum = true := by
  unfold covers
  rw [zipWith_sub_scanl, List.head?_scanl, List.getLast?_scanl, ← List.sum_eq_foldl]
  simpa using h

/--
Each sequence is computed on its own.
-/
theorem flashAttnVarlen_eq {call : VarlenCall} {pieces : List (List ρ × List (ρ × ρ))}
    (hlengths : ∀ piece ∈ pieces, piece.1.length = piece.2.length)
    (hq : call.seqlensQ = (pieces.map (·.1.length)).scanl (· + ·) 0)
    (hk : call.seqlensK = (pieces.map (·.1.length)).scanl (· + ·) 0)
    (hmaxQ : ∀ piece ∈ pieces, piece.1.length ≤ call.maxSeqlenQ)
    (hmaxK : ∀ piece ∈ pieces, piece.1.length ≤ call.maxSeqlenK) (hne : pieces ≠ [])
    (hcausal : call.causal = true ∨ ∀ piece ∈ pieces, piece.1.length ≤ 1)
    (hswapped : attention.seqlenqNgroupsSwapped call = false)
    : attention.flashAttnVarlen call (pieces.flatMap (·.1)) (pieces.flatMap (·.2))
        = .ok (pieces.flatMap fun piece => attention.attendCausally piece.1 piece.2) := by
  have hcount : call.seqlensQ.length = pieces.length + 1 := by
    rw [hq, List.length_scanl, List.length_map]
  have hpos := List.length_pos_iff.mpr hne
  have hlengthQ : (pieces.flatMap (·.1)).length = (pieces.map (·.1.length)).sum := List.length_flatMap
  have hlengthK : (pieces.flatMap (·.2)).length = (pieces.map (·.1.length)).sum := by
    rw [List.length_flatMap, List.map_congr_left fun piece hpiece => (hlengths piece hpiece).symm]
  have hsegmentsQ : segments call.seqlensQ (pieces.flatMap (·.1)) = pieces.map (·.1) := by
    have hcut := segments_scanl (pieces.map (·.1))
    rw [List.map_map] at hcut
    rw [hq, List.flatMap_def]
    exact hcut
  have hsegmentsK : segments call.seqlensK (pieces.flatMap (·.2)) = pieces.map (·.2) := by
    have hcut := segments_scanl (pieces.map (·.2))
    rw [List.map_map] at hcut
    rw [hk, List.flatMap_def, List.map_congr_left fun piece hpiece => hlengths piece hpiece]
    exact hcut
  have hcovers : (covers call.seqlensQ call.maxSeqlenQ (pieces.flatMap (·.1)).length
      && covers call.seqlensK call.maxSeqlenK (pieces.flatMap (·.2)).length) = true := by
    rw [hlengthQ, hlengthK, hq, hk, covers_scanl, covers_scanl]
    . rfl
    . exact List.forall_mem_map.mpr hmaxK
    . exact List.forall_mem_map.mpr hmaxQ
  rcases attention.headDim_eq with ⟨hsize, hmultiple⟩
  unfold flashAttnVarlen
  rw [if_neg (by rw [hswapped]; exact Bool.false_ne_true), if_neg (by omega), if_neg hsize,
    if_neg hmultiple, if_neg (by rw [attention.mod_eq_zero]; simp),
    if_neg (by rw [hk, hq, List.length_scanl, List.length_map]; omega), if_pos hcovers, hsegmentsQ,
    hsegmentsK, List.zipWith_map, List.zipWith_self, ← List.flatMap_def]
  congr 1
  apply List.flatMap_congr
  intro piece hpiece
  refine attendAll_eq (hlengths piece hpiece) ?_
  exact hcausal.imp_right fun hall => hall piece hpiece

theorem attendCached_eq {cache : LayerCache ρ} {query : ρ} {blockTable : List Nat}
    {keysValues : List (ρ × ρ)}
    (h : ∀ (i : Nat) row, keysValues[i]? = some row → cache.read blockTable i = .ok row)
    : attention.attendCached cache query blockTable keysValues.length
        = .ok (attention.attend query keysValues) := by
  have hread : (List.range keysValues.length).mapM (cache.read blockTable) = .ok keysValues := by
    rw [Except.mapM_eq_ok (g := fun i => keysValues.getD i (query, query))]
    . congr 1
      apply List.ext_getElem
      . rw [List.length_map, List.length_range]
      . intro i hi hi'
        rw [List.getElem_map, List.getElem_range, List.getD_eq_getElem?_getD,
          List.getElem?_eq_getElem hi', Option.getD_some]
    . intro i hi
      have hi := List.mem_range.mp hi
      rw [h i keysValues[i] (List.getElem?_eq_getElem hi), List.getD_eq_getElem?_getD,
        List.getElem?_eq_getElem hi, Option.getD_some]
  unfold attendCached
  rw [hread]
  rfl

theorem flashAttnKvCacheFull_eq {call : KvCacheCall} {cache : LayerCache ρ} {q : List ρ}
    {rows : List (List Nat)} {lengths : List Nat} {out : List ρ}
    (htable : call.blockTable = some rows) (hseqlens : call.seqlensK = some lengths)
    (hrows : rows.length = q.length) (hlengths : lengths.length = q.length)
    (hpage : cache.blockSize % 16 = 0)
    (hout : attention.attendAllCached cache q (rows.zip lengths) = .ok out)
    : attention.flashAttnKvCacheFull call q cache = .ok out := by
  unfold flashAttnKvCacheFull
  rw [htable, hseqlens]
  dsimp only [Option.getD_some]
  rw [if_neg (not_not_intro hrows), if_neg (by simp [hpage]), if_neg (not_not_intro hlengths), hout]

theorem sliceSet_all {output out : List ρ} (h : out.length = output.length)
    : sliceSet output out 0 = .ok out := by
  unfold sliceSet
  rw [if_pos (by omega), Nat.zero_add, h, List.drop_length, List.take_zero, List.nil_append,
    List.append_nil]

variable [Zero ρ] {q k v : List ρ} {cache cache' : LayerCache ρ} {out : List ρ}
variable {metadata : FlashAttentionMetadata} {e : CandleError}

theorem forward_of_error (hk : q.length = k.length) (hv : q.length = v.length)
    (h : cache.reshapeAndCacheFlash (k.zip v) metadata.slotMapping = .error e)
    : attention.forward q k v cache metadata = .error e := by
  unfold forward
  rw [if_neg (by omega), h]
  rfl

section Prefill

variable {call : VarlenCall} (hk : q.length = k.length) (hv : q.length = v.length)
variable (hcache : cache.reshapeAndCacheFlash (k.zip v) metadata.slotMapping = .ok cache')
variable (hcall : FlashAttention.forward q.length metadata = .ok (some call, none))
variable (htokens : metadata.numPrefillTokens = q.length)
include hk hv hcache hcall htokens

/--
A batch of prompts.
-/
theorem forward_prefill
    : attention.forward q k v cache metadata
        = (do
          let out ← attention.flashAttnVarlen call q (k.zip v)
          let output ← sliceSet (List.replicate q.length 0) out 0
          return (output, cache')) := by
  have hzip : (k.zip v).length = q.length := by
    rw [List.length_zip, ← hk, ← hv, Nat.min_self]
  have htake : (k.zip v).take q.length = k.zip v := by
    rw [← hzip, List.take_length]
  unfold forward rowsFrom rowsTo
  rw [if_neg (by omega), hcache, hcall, htokens, hzip]
  simp only [bind, Except.bind, pure, Except.pure, le_refl, if_true, List.take_length, htake]

theorem forward_prefill_eq_ok (hout : attention.flashAttnVarlen call q (k.zip v) = .ok out)
    (hlength : out.length = q.length) : attention.forward q k v cache metadata = .ok (out, cache') := by
  have hset : sliceSet (List.replicate q.length 0) out 0 = .ok out :=
    sliceSet_all (by rw [hlength, List.length_replicate])
  rw [forward_prefill hk hv hcache hcall htokens, hout]
  simp only [bind, Except.bind, hset]
  rfl

end Prefill

section Decoding

variable {call : KvCacheCall} (hk : q.length = k.length) (hv : q.length = v.length)
variable (hcache : cache.reshapeAndCacheFlash (k.zip v) metadata.slotMapping = .ok cache')
variable (hcall : FlashAttention.forward q.length metadata = .ok (none, some call))
variable (htokens : metadata.numPrefillTokens = 0)
include hk hv hcache hcall htokens

/--
A batch of decodes.
-/
theorem forward_decoding
    : attention.forward q k v cache metadata
        = (do
          let out ← attention.flashAttnKvCacheFull call q cache'
          let output ← sliceSet (List.replicate q.length 0) out 0
          return (output, cache')) := by
  unfold forward rowsFrom rowsTo
  rw [if_neg (by omega), hcache, hcall, htokens]
  simp only [bind, Except.bind, pure, Except.pure, Nat.zero_le, if_true, List.drop_zero]

theorem forward_decoding_eq_ok (hout : attention.flashAttnKvCacheFull call q cache' = .ok out)
    (hlength : out.length = q.length) : attention.forward q k v cache metadata = .ok (out, cache') := by
  have hset : sliceSet (List.replicate q.length 0) out 0 = .ok out :=
    sliceSet_all (by rw [hlength, List.length_replicate])
  rw [forward_decoding hk hv hcache hcall htokens, hout]
  simp only [bind, Except.bind, hset]
  rfl

end Decoding

end Lemmas

end AttentionBackend

end AtomaInfer
