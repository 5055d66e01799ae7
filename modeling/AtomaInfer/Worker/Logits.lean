import AtomaInfer.Worker.Forward
import AtomaInfer.Worker.Sampling

/-!
The logits of a batch: layer by layer the rows that the batch computes are those of the model without
a cache.
-/

namespace AtomaInfer

variable {ρ : Type}

namespace ModelWorker

/--
What the layers get for the sequences `xs`: after the writes of the batch the slots that it reads have
the tokens of its sequences.
-/
structure Feeds (worker : ModelWorker)
    (xs : List (SequenceGroupMetadata × Sigma fun _ : Nat => SequenceData)) (slots : KvCache)
    (numBlocks : Nat) (metadata : FlashAttentionMetadata) : Prop where
  ne_nil : xs ≠ []
  fits : worker.AllFit xs
  calls : IsPrefill xs metadata ∨ IsDecode xs metadata
  slotMapping_eq : metadata.slotMapping = (xs.flatMap worker.sequenceWrites).map (·.1)
  bounds : ∀ written ∈ xs.flatMap worker.sequenceWrites,
    written.1.toNat / worker.blockSize < numBlocks
  reads : ∀ x ∈ xs, ∀ p < x.2.2.numComputedTokens + x.1.tokenChunkSize,
    ∃ blockTable blockNumber tokenId,
      x.1.blockTables.lookup x.2.1 = some blockTable
        ∧ blockTable[p / worker.blockSize]? = some blockNumber
        ∧ blockNumber < numBlocks
        ∧ KvCache.reshapeAndCacheFlash worker.blockSize (xs.flatMap worker.sequenceWrites) slots
            ⟨.gpu, blockNumber⟩ (p % worker.blockSize) = some ⟨x.2.1, p, tokenId⟩

/--
The kernels take the batch: a cache of one block loses a dimension, a prompt of one token that is alone
in its batch gets one too many when the queries are grouped, and the blocks that are read come in
multiples of 16.
-/
structure Supports (attention : AttentionBackend ρ) (numBlocks blockSize : Nat)
    (xs : List (SequenceGroupMetadata × Sigma fun _ : Nat => SequenceData)) : Prop where
  split : numBlocks ≠ 1
  prompts : ∀ x ∈ xs, x.1.isPrompt = true → numTokens xs = 1 →
    attention.numHeads ≤ attention.numKvHeads
  decodes : ∀ x ∈ xs, x.1.isPrompt = false → blockSize % 16 = 0

variable {worker : ModelWorker}
variable {xs : List (SequenceGroupMetadata × Sigma fun _ : Nat => SequenceData)} {slots : KvCache}
variable {metadata : FlashAttentionMetadata} {attention : AttentionBackend ρ}
variable {cache cache' : LayerCache ρ}

section Attention

variable {q k v : Nat → List ρ} {keysValues : Nat → List (ρ × ρ)}

theorem IsPadded.getElem? {blockTable row : List Nat} (h : IsPadded blockTable row) {i b : Nat}
    (hget : blockTable[i]? = some b) : row[i]? = some b := by
  rcases h with ⟨n, rfl⟩
  rw [List.getElem?_append_left (List.getElem?_eq_some_iff.mp hget).1, hget]

theorem Feeds.reshapeAndCacheFlash (h : worker.Feeds xs slots cache.numBlocks metadata)
    (hsize : cache.blockSize = worker.blockSize) (hsplit : cache.numBlocks ≠ 1)
    (hreaches : Reaches xs keysValues) (hagrees : cache.Agrees slots keysValues)
    : ∃ cache', cache.reshapeAndCacheFlash (rowsOf xs keysValues) metadata.slotMapping = .ok cache'
        ∧ cache.SameShape cache'
        ∧ cache'.Agrees (KvCache.reshapeAndCacheFlash worker.blockSize
            (xs.flatMap worker.sequenceWrites) slots) keysValues := by
  have hrows := forall₂_writes worker hreaches
  have hbounds := h.bounds
  rw [← hsize] at hbounds ⊢
  rcases hagrees.writeAll hrows hbounds with ⟨cache', hall, hsame, hagrees'⟩
  refine ⟨cache', ?_, hsame, hagrees'⟩
  unfold LayerCache.reshapeAndCacheFlash
  rw [if_neg hsplit, h.slotMapping_eq, List.length_map, hrows.length_eq,
    if_neg (not_not_intro rfl), hall]

/--
Through the rows of the block tables the kernel reads the keys and values of the sequences.
-/
theorem Feeds.readsThrough (h : worker.Feeds xs slots cache.numBlocks metadata)
    (hsize : cache.blockSize = worker.blockSize)
    (hagrees : cache.Agrees (KvCache.reshapeAndCacheFlash worker.blockSize
      (xs.flatMap worker.sequenceWrites) slots) keysValues)
    {x : SequenceGroupMetadata × Sigma fun _ : Nat => SequenceData} (hx : x ∈ xs)
    {blockTable row : List Nat} (htable : x.1.blockTables.lookup x.2.1 = some blockTable)
    (hpadded : IsPadded blockTable row)
    : ReadsThrough cache (keysValues x.2.1) (x.2.2.numComputedTokens + x.1.tokenChunkSize) row := by
  intro i own hi hown
  rcases h.reads x hx i hi
    with ⟨blockTable', blockNumber, tokenId, htable', hblock, hlt, hslot⟩
  cases htable.symm.trans htable'
  have hcached := hagrees blockNumber _ _ hslot
  rw [hown, Option.some.injEq] at hcached
  unfold LayerCache.read
  rw [hsize, hpadded.getElem? hblock]
  dsimp only
  rw [if_pos hlt, hcached]

theorem Reaches.zip (hk : Reaches xs k) (hv : Reaches xs v)
    : Reaches xs fun sequenceId => (k sequenceId).zip (v sequenceId) := by
  intro x hx
  rw [List.length_zip, Nat.le_min]
  exact ⟨hk x hx, hv x hx⟩

theorem zip_rowsOf (hk : Reaches xs k) (hv : Reaches xs v)
    : (rowsOf xs k).zip (rowsOf xs v)
        = rowsOf xs fun sequenceId => (k sequenceId).zip (v sequenceId) :=
  zipWith_rowsOf Prod.mk hk hv

theorem IsDecode.numTokens_eq (h : IsDecode xs metadata) : numTokens xs = xs.length := by
  unfold numTokens
  rw [List.map_congr_left h.chunks, List.map_const', List.sum_replicate, smul_eq_mul, Nat.mul_one]

theorem supports_iff_of_isPrefill (hprefill : IsPrefill xs metadata) (hne : xs ≠ [])
    {numBlocks blockSize : Nat}
    : Supports attention numBlocks blockSize xs
        ↔ numBlocks ≠ 1 ∧ (numTokens xs = 1 → attention.numHeads ≤ attention.numKvHeads) := by
  rcases List.exists_mem_of_ne_nil _ hne with ⟨x, hx⟩
  constructor
  . intro h
    exact ⟨h.split, h.prompts x hx (hprefill.isPrompt x hx)⟩
  . rintro ⟨hsplit, hheads⟩
    refine ⟨hsplit, fun _ _ _ => hheads, ?_⟩
    intro x' hx' hdecode
    rw [hprefill.isPrompt x' hx'] at hdecode
    cases hdecode

theorem supports_iff_of_isDecode (hdecode : IsDecode xs metadata) (hne : xs ≠ [])
    {numBlocks blockSize : Nat}
    : Supports attention numBlocks blockSize xs ↔ numBlocks ≠ 1 ∧ blockSize % 16 = 0 := by
  rcases List.exists_mem_of_ne_nil _ hne with ⟨x, hx⟩
  constructor
  . intro h
    exact ⟨h.split, h.decodes x hx (hdecode.isDecode x hx)⟩
  . rintro ⟨hsplit, hpage⟩
    refine ⟨hsplit, ?_, fun _ _ _ => hpage⟩
    intro x' hx' hprompt
    rw [hdecode.isDecode x' hx'] at hprompt
    cases hprompt

section Forward

variable [Zero ρ] (hfeeds : worker.Feeds xs slots cache.numBlocks metadata)
variable (hsize : cache.blockSize = worker.blockSize) (hq : Reaches xs q) (hk : Reaches xs k)
variable (hv : Reaches xs v)
variable (hagrees : cache.Agrees slots fun sequenceId => (k sequenceId).zip (v sequenceId))
include hfeeds hsize hq hk hv hagrees

/--
The attention of a batch is that of its sequences, each with its own keys and values.
-/
theorem Feeds.attention_forward
    (hsupports : Supports attention cache.numBlocks worker.blockSize xs)
    : ∃ cache',
        attention.forward (rowsOf xs q) (rowsOf xs k) (rowsOf xs v) cache metadata
            = .ok (
                rowsOf xs fun sequenceId =>
                  attention.attendCausally (q sequenceId) ((k sequenceId).zip (v sequenceId)),
                cache')
          ∧ cache.SameShape cache'
          ∧ cache'.Agrees
              (KvCache.reshapeAndCacheFlash worker.blockSize (xs.flatMap worker.sequenceWrites) slots)
              fun sequenceId => (k sequenceId).zip (v sequenceId) := by
  have hzip := zip_rowsOf hk hv
  have hkv := hk.zip hv
  have hlength := length_rowsOf hq
  have hlengthK : (rowsOf xs q).length = (rowsOf xs k).length := hlength.trans (length_rowsOf hk).symm
  have hlengthV : (rowsOf xs q).length = (rowsOf xs v).length := hlength.trans (length_rowsOf hv).symm
  have hout : (rowsOf xs fun sequenceId =>
      attention.attendCausally (q sequenceId) ((k sequenceId).zip (v sequenceId))).length
        = (rowsOf xs q).length := by
    rw [hlength]
    apply length_rowsOf
    apply hq.of_length_eq
    exact fun sequenceId => AttentionBackend.length_attendCausally _ _
  rcases hfeeds.reshapeAndCacheFlash hsize hsupports.split hkv hagrees
    with ⟨cache', hcache, hsame, hagrees'⟩
  refine ⟨cache', ?_, hsame, hagrees'⟩
  rw [← hzip] at hcache
  rcases hfeeds.calls with hprefill | hdecode
  . have hcall := hprefill.forward_eq
    rw [← hlength] at hcall
    refine AttentionBackend.forward_prefill_eq_ok hlengthK hlengthV hcache hcall ?_ ?_ hout
    . rw [hprefill.numPrefillTokens_eq, hlength]
    . rw [hzip]
      refine flashAttnVarlen_promptsCall hfeeds.ne_nil hprefill.starts hq hkv ?_
      rw [← Bool.not_eq_true, seqlenqNgroupsSwapped_promptsCall hfeeds.ne_nil hfeeds.fits.chunk_pos]
      rintro ⟨hone, hheads⟩
      rw [supports_iff_of_isPrefill hprefill hfeeds.ne_nil] at hsupports
      exact absurd (hsupports.2 hone) (Nat.not_le.mpr hheads)
  . rcases hdecode.forward_eq with ⟨rows, hrows, hcall⟩
    rw [← hlength] at hcall
    have hblocks : worker.Feeds xs slots cache'.numBlocks metadata := by
      rw [hsame.1]
      exact hfeeds
    have hcount : (rowsOf xs q).length = xs.length := hlength.trans hdecode.numTokens_eq
    refine AttentionBackend.forward_decoding_eq_ok hlengthK hlengthV hcache hcall
      hdecode.numPrefillTokens_eq ?_ hout
    refine AttentionBackend.flashAttnKvCacheFull_eq rfl rfl ?_ ?_ ?_ ?_
    . rw [hcount, hrows.length_eq]
    . rw [hcount, List.length_map]
    . rw [hsame.2, hsize]
      exact ((supports_iff_of_isDecode hdecode hfeeds.ne_nil).mp hsupports).2
    . refine attendAllCached_rowsOf hdecode.chunks hq hkv ?_
      refine List.Forall₂.imp ?_ ((List.forall₂_and_left _ _).mpr ⟨fun x hx => hx, hrows⟩)
      rintro x row ⟨hx, blockTable, htable, hpadded⟩
      rw [← hdecode.chunks x hx]
      exact hblocks.readsThrough (hsame.2.trans hsize) hagrees' hx htable hpadded

theorem Feeds.attention_forward_eq_error
    (hnot : ¬ Supports attention cache.numBlocks worker.blockSize xs)
    : ∃ e,
        attention.forward (rowsOf xs q) (rowsOf xs k) (rowsOf xs v) cache metadata = .error e := by
  have hzip := zip_rowsOf hk hv
  have hlength := length_rowsOf hq
  have hlengthK : (rowsOf xs q).length = (rowsOf xs k).length := hlength.trans (length_rowsOf hk).symm
  have hlengthV : (rowsOf xs q).length = (rowsOf xs v).length := hlength.trans (length_rowsOf hv).symm
  by_cases hsplit : cache.numBlocks = 1
  . exact ⟨_, AttentionBackend.forward_of_error hlengthK hlengthV (if_pos hsplit)⟩
  . rcases hfeeds.reshapeAndCacheFlash hsize hsplit (hk.zip hv) hagrees
      with ⟨cache', hcache, hsame, -⟩
    rw [← hzip] at hcache
    rcases hfeeds.calls with hprefill | hdecode
    . rw [supports_iff_of_isPrefill hprefill hfeeds.ne_nil, not_and] at hnot
      have hswapped : attention.seqlenqNgroupsSwapped (promptsCall xs) = true := by
        rw [seqlenqNgroupsSwapped_promptsCall hfeeds.ne_nil hfeeds.fits.chunk_pos]
        have := hnot hsplit
        omega
      have hcall := hprefill.forward_eq
      rw [← hlength] at hcall
      rw [AttentionBackend.forward_prefill hlengthK hlengthV hcache hcall
        (hprefill.numPrefillTokens_eq.trans hlength.symm)]
      unfold AttentionBackend.flashAttnVarlen
      rw [if_pos hswapped]
      exact ⟨_, rfl⟩
    . rcases hdecode.forward_eq with ⟨rows, hrows, hcall⟩
      have hcount : (rowsOf xs q).length = xs.length := hlength.trans hdecode.numTokens_eq
      rw [supports_iff_of_isDecode hdecode hfeeds.ne_nil, not_and] at hnot
      rw [← hlength] at hcall
      rw [AttentionBackend.forward_decoding hlengthK hlengthV hcache hcall
        hdecode.numPrefillTokens_eq]
      unfold AttentionBackend.flashAttnKvCacheFull
      dsimp only [Option.getD_some]
      rw [if_neg (by rw [hcount, hrows.length_eq]; simp),
        if_pos (by rw [hsame.2, hsize]; simpa using hnot hsplit)]
      exact ⟨_, rfl⟩

end Forward

end Attention

section Layers

def positionsOf (xs : List (SequenceGroupMetadata × Sigma fun _ : Nat => SequenceData)) : List Nat :=
  xs.flatMap fun x => List.range' x.2.2.numComputedTokens x.1.tokenChunkSize

theorem length_positionsOf : (positionsOf xs).length = numTokens xs := by
  unfold positionsOf numTokens
  rw [List.length_flatMap, List.map_congr_left fun _ _ => List.length_range']

variable {rows : Nat → List ρ} {attn : CausalSelfAttention ρ} {block : LlamaBlock ρ}

theorem Reaches.map {α β : Type} {rows : Nat → List α} (h : Reaches xs rows) (f : α → β)
    : Reaches xs fun sequenceId => (rows sequenceId).map f :=
  h.of_length_eq fun _ => List.length_map _

theorem Reaches.of_causal {α β : Type} {rows : Nat → List α} {f : List α → List β}
    (h : Reaches xs rows) (hcausal : Causal f) : Reaches xs fun sequenceId => f (rows sequenceId) :=
  h.of_length_eq fun sequenceId => hcausal.length_eq (rows sequenceId)

/--
The positions of the tokens are those in their sequences.
-/
theorem applyRotaryEmbed_rowsOf (h : Reaches xs rows)
    : attn.applyRotaryEmbed (rowsOf xs rows) (positionsOf xs)
        = .ok (rowsOf xs fun sequenceId => (rows sequenceId).mapIdx attn.rotaryEmbed) := by
  unfold CausalSelfAttention.applyRotaryEmbed
  rw [if_pos (length_positionsOf.trans (length_rowsOf h).symm)]
  exact congrArg Except.ok (zipWith_range'_gather attn.rotaryEmbed h)

theorem attn_forward_eq [Zero ρ] (h : Reaches xs rows)
    : attn.forward (rowsOf xs rows) (positionsOf xs) cache metadata
        = (attn.attention.forward
            (rowsOf xs fun sequenceId => attn.queries (rows sequenceId))
            (rowsOf xs fun sequenceId =>
              ((rows sequenceId).map attn.kProj).mapIdx attn.rotaryEmbed)
            (rowsOf xs fun sequenceId => (rows sequenceId).map attn.vProj) cache metadata).map
              (fun out => (out.1.map attn.oProj, out.2)) := by
  unfold CausalSelfAttention.forward
  rw [map_rowsOf, map_rowsOf, map_rowsOf]
  dsimp only
  rw [applyRotaryEmbed_rowsOf (h.map attn.qProj), applyRotaryEmbed_rowsOf (h.map attn.kProj)]
  rfl

variable [Zero ρ] [Add ρ] [Mul ρ]

theorem block_forward_eq
    : block.forward (rowsOf xs rows) (positionsOf xs) cache metadata
        = (block.attn.forward (rowsOf xs fun sequenceId => (rows sequenceId).map block.rms1)
            (positionsOf xs) cache metadata).map
              (fun out => (
                List.zipWith (· + ·)
                  (((List.zipWith (· + ·) out.1 (rowsOf xs rows)).map block.rms2).map
                    block.mlp.forward)
                  (List.zipWith (· + ·) out.1 (rowsOf xs rows)), out.2)) := by
  unfold LlamaBlock.forward
  rw [map_rowsOf]
  rfl

section Block

variable (hfeeds : worker.Feeds xs slots cache.numBlocks metadata)
variable (hsize : cache.blockSize = worker.blockSize) (hreaches : Reaches xs rows)
variable (hagrees : cache.Agrees slots fun sequenceId => block.keysValues (rows sequenceId))
include hfeeds hsize hreaches hagrees

theorem Feeds.block_forward
    (hsupports : Supports block.attn.attention cache.numBlocks worker.blockSize xs)
    : ∃ cache',
        block.forward (rowsOf xs rows) (positionsOf xs) cache metadata
            = .ok (rowsOf xs fun sequenceId => block.plain (rows sequenceId), cache')
          ∧ cache.SameShape cache'
          ∧ cache'.Agrees
              (KvCache.reshapeAndCacheFlash worker.blockSize (xs.flatMap worker.sequenceWrites) slots)
              fun sequenceId => block.keysValues (rows sequenceId) := by
  have hnormed := hreaches.map block.rms1
  have hk := (hnormed.map block.attn.kProj).of_causal (Causal.id.mapIdx block.attn.rotaryEmbed)
  rcases hfeeds.attention_forward hsize (hnormed.of_causal block.attn.causal_queries) hk
    (hnormed.map block.attn.vProj) hagrees hsupports with ⟨cache', hforward, hsame, hagrees'⟩
  refine ⟨cache', ?_, hsame, hagrees'⟩
  have hplain : Reaches xs fun sequenceId =>
      block.attn.plain ((rows sequenceId).map block.rms1) :=
    hnormed.of_causal block.attn.causal_plain
  have hadded : Reaches xs fun sequenceId =>
      List.zipWith (· + ·) (block.attn.plain ((rows sequenceId).map block.rms1))
        (rows sequenceId) :=
    hreaches.of_causal
      ((block.attn.causal_plain.comp (Causal.id.map block.rms1)).zipWith (· + ·) .id)
  rw [block_forward_eq, attn_forward_eq hnormed, hforward]
  dsimp only [Except.map]
  rw [map_rowsOf]
  change Except.ok (List.zipWith (· + ·)
    (((List.zipWith (· + ·) (rowsOf xs fun sequenceId =>
      block.attn.plain ((rows sequenceId).map block.rms1)) (rowsOf xs rows)).map block.rms2).map
        block.mlp.forward)
    (List.zipWith (· + ·) (rowsOf xs fun sequenceId =>
      block.attn.plain ((rows sequenceId).map block.rms1)) (rowsOf xs rows)), cache') = _
  rw [zipWith_rowsOf _ hplain hreaches, map_rowsOf, map_rowsOf,
    zipWith_rowsOf _ ((hadded.map block.rms2).map block.mlp.forward) hadded]
  rfl

theorem Feeds.block_forward_eq_error
    (hnot : ¬ Supports block.attn.attention cache.numBlocks worker.blockSize xs)
    : ∃ e, block.forward (rowsOf xs rows) (positionsOf xs) cache metadata = .error e := by
  have hnormed := hreaches.map block.rms1
  have hk := (hnormed.map block.attn.kProj).of_causal (Causal.id.mapIdx block.attn.rotaryEmbed)
  rcases hfeeds.attention_forward_eq_error hsize (hnormed.of_causal block.attn.causal_queries) hk
    (hnormed.map block.attn.vProj) hagrees hnot with ⟨e, hforward⟩
  refine ⟨e, ?_⟩
  rw [block_forward_eq, attn_forward_eq hnormed, hforward]
  rfl

end Block

/--
Each layer has a cache, which agrees with what the layers before it compute.
-/
inductive Represents (slots : KvCache) (numBlocks blockSize : Nat)
    : List (LlamaBlock ρ) → List (LayerCache ρ) → (Nat → List ρ) → Prop where
  | nil {caches : List (LayerCache ρ)} {rows : Nat → List ρ}
    : Represents slots numBlocks blockSize [] caches rows
  | cons {block : LlamaBlock ρ} {blocks : List (LlamaBlock ρ)} {cache : LayerCache ρ}
      {caches : List (LayerCache ρ)} {rows : Nat → List ρ} (hblocks : cache.numBlocks = numBlocks)
      (hsize : cache.blockSize = blockSize)
      (hagrees : cache.Agrees slots fun sequenceId => block.keysValues (rows sequenceId))
      (hrest : Represents slots numBlocks blockSize blocks caches fun sequenceId =>
        block.plain (rows sequenceId))
    : Represents slots numBlocks blockSize (block :: blocks) (cache :: caches) rows

variable {numBlocks blockSize : Nat} {blocks : List (LlamaBlock ρ)} {caches : List (LayerCache ρ)}

omit [Zero ρ] in
theorem Represents.of_isPrefix {rows' : Nat → List ρ}
    (h : Represents slots numBlocks blockSize blocks caches rows)
    (hbegins : ∀ sequenceId, rows sequenceId <+: rows' sequenceId)
    : Represents slots numBlocks blockSize blocks caches rows' := by
  induction h generalizing rows' with
  | nil => exact .nil
  | @cons block blocks cache caches rows hblocks hsize hagrees _ ih =>
    refine .cons hblocks hsize (hagrees.of_isPrefix ?_) (ih ?_)
    . exact fun sequenceId => block.causal_keysValues.isPrefix (hbegins sequenceId)
    . exact fun sequenceId => block.causal_plain.isPrefix (hbegins sequenceId)

section Blocks

variable (hfeeds : worker.Feeds xs slots numBlocks metadata) (hreaches : Reaches xs rows)
variable (hrepresents : Represents slots numBlocks worker.blockSize blocks caches rows)
include hfeeds hreaches hrepresents

theorem Feeds.forwardBlocks
    (hsupports : ∀ block ∈ blocks, Supports block.attn.attention numBlocks worker.blockSize xs)
    : ∃ caches',
        Llama.forwardBlocks (rowsOf xs rows) (positionsOf xs) metadata blocks caches
            = .ok (rowsOf xs fun sequenceId => Llama.plainBlocks blocks (rows sequenceId), caches')
          ∧ Represents
              (KvCache.reshapeAndCacheFlash worker.blockSize (xs.flatMap worker.sequenceWrites) slots)
              numBlocks worker.blockSize blocks caches' rows := by
  induction hrepresents with
  | nil => exact ⟨_, rfl, .nil⟩
  | @cons block blocks cache caches rows hblocks hsize hagrees _ ih =>
    subst hblocks
    rcases hfeeds.block_forward hsize hreaches hagrees (hsupports block List.mem_cons_self)
      with ⟨cache', hforward, hsame, hagrees'⟩
    rcases ih (hreaches.of_causal block.causal_plain)
      (fun other hother => hsupports other (List.mem_cons_of_mem _ hother))
      with ⟨caches', hrest, hrepresents'⟩
    refine ⟨cache' :: caches', ?_, .cons hsame.1 (hsame.2.trans hsize) hagrees' hrepresents'⟩
    exact Except.bind_eq_ok.mpr ⟨_, hforward, Except.bind_eq_ok.mpr ⟨_, hrest, rfl⟩⟩

theorem Feeds.forwardBlocks_eq_error
    (hnot : ¬ ∀ block ∈ blocks, Supports block.attn.attention numBlocks worker.blockSize xs)
    : ∃ e, Llama.forwardBlocks (rowsOf xs rows) (positionsOf xs) metadata blocks caches = .error e := by
  induction hrepresents with
  | nil => exact absurd (fun _ hblock => (nomatch hblock)) hnot
  | @cons block blocks cache caches rows hblocks hsize hagrees _ ih =>
    subst hblocks
    by_cases hsupports : Supports block.attn.attention cache.numBlocks worker.blockSize xs
    . rcases hfeeds.block_forward hsize hreaches hagrees hsupports with ⟨cache', hforward, -⟩
      rcases ih (hreaches.of_causal block.causal_plain) (by
        intro hall
        exact hnot (List.forall_mem_cons.mpr ⟨hsupports, hall⟩)) with ⟨e, hrest⟩
      refine ⟨e, ?_⟩
      unfold Llama.forwardBlocks
      rw [hforward]
      dsimp only [bind, Except.bind]
      rw [hrest]
    . rcases hfeeds.block_forward_eq_error hsize hreaches hagrees hsupports with ⟨e, hforward⟩
      refine ⟨e, ?_⟩
      unfold Llama.forwardBlocks
      rw [hforward]
      rfl

end Blocks

end Layers

section Selected

variable {α : Type} {rows : Nat → List ρ}

theorem pos_of_mem_tail_scanl {lengths : List Nat} {n location : Nat}
    (hpos : ∀ length ∈ lengths, 0 < length)
    (h : location ∈ (lengths.scanl (· + ·) n).tail) : 0 < location := by
  induction lengths generalizing n with
  | nil => cases h
  | cons length lengths ih =>
    have hfirst := hpos length List.mem_cons_self
    have hrest := fun other hother => hpos other (List.mem_cons_of_mem length hother)
    rw [List.scanl_cons, List.tail_cons, scanl_eq_cons, List.mem_cons] at h
    rcases h with rfl | h
    . omega
    . exact ih hrest h

theorem computeSelectedTokenIndices_eq {lengths : List Nat} (hpos : ∀ length ∈ lengths, 0 < length)
    : computeSelectedTokenIndices (cumulative lengths)
        = .ok ((cumulative lengths).tail.map (· - 1)) := by
  apply Except.mapM_eq_ok
  intro location hlocation
  rw [if_neg (pos_of_mem_tail_scanl hpos hlocation).ne']

/--
The selected rows are the last ones of the sequences.
-/
theorem indexSelect_rowsOf
    (row : SequenceGroupMetadata × (Sigma fun _ : Nat => SequenceData) → ρ) (before : List ρ)
    (hpos : ∀ x ∈ xs, 1 ≤ x.1.tokenChunkSize) (hreaches : Reaches xs rows)
    (hrow : ∀ x ∈ xs,
      (rows x.2.1)[x.2.2.numComputedTokens + (x.1.tokenChunkSize - 1)]? = some (row x))
    : Llama.indexSelect (before ++ rowsOf xs rows)
          (((xs.map (·.1.tokenChunkSize)).scanl (· + ·) before.length).tail.map (· - 1))
        = .ok (xs.map row) := by
  induction xs generalizing before with
  | nil => rfl
  | cons x xs ih =>
    have hchunk := hpos x List.mem_cons_self
    have hlength := length_piece (hreaches x List.mem_cons_self)
    have hrest := ih (before ++ piece x.2.2.numComputedTokens x.1.tokenChunkSize (rows x.2.1))
      (fun x' hx' => hpos x' (List.mem_cons_of_mem _ hx'))
      (fun x' hx' => hreaches x' (List.mem_cons_of_mem _ hx'))
      fun x' hx' => hrow x' (List.mem_cons_of_mem _ hx')
    rw [List.length_append, hlength, List.append_assoc] at hrest
    have hlast : (before ++ (piece x.2.2.numComputedTokens x.1.tokenChunkSize (rows x.2.1)
        ++ rowsOf xs rows))[before.length + x.1.tokenChunkSize - 1]? = some (row x) := by
      rw [List.getElem?_append_right (by omega), Nat.add_sub_assoc hchunk, Nat.add_sub_cancel_left,
        List.getElem?_append_left (by omega), getElem?_piece (by omega),
        hrow x List.mem_cons_self]
    unfold Llama.indexSelect at hrest ⊢
    rw [rowsOf_cons, List.map_cons, List.scanl_cons, List.tail_cons, scanl_eq_cons, List.map_cons,
      List.mapM_cons, hlast]
    exact Except.bind_eq_ok.mpr ⟨_, rfl, Except.bind_eq_ok.mpr ⟨_, hrest, rfl⟩⟩

end Selected

section Model

variable [Zero ρ] [Add ρ] [Mul ρ] {llama : Llama ρ} {tokenIds : Nat → List Nat} {numBlocks : Nat}
variable {caches : List (LayerCache ρ)} {batch : List SequenceGroupMetadata} {input : ModelInput}

omit [Zero ρ] in
theorem logits_take (llama : Llama ρ) {tokenIds : List Nat} {n : Nat} (hpos : 0 < n) (hle : n ≤ tokenIds.length)
    : ∃ row,
        (Llama.plainBlocks llama.blocks (tokenIds.map llama.wte))[n - 1]? = some row
          ∧ llama.logits (tokenIds.take n) = llama.lmHead (llama.lnF row) := by
  have hcausal := Llama.causal_plainBlocks llama.blocks
  have hlength := hcausal.length_eq (tokenIds.map llama.wte)
  rw [List.length_map] at hlength
  refine ⟨(Llama.plainBlocks llama.blocks (tokenIds.map llama.wte))[n - 1],
    List.getElem?_eq_getElem _, ?_⟩
  unfold Llama.logits
  rw [List.map_take, hcausal.take_eq, List.getLast?_take, if_neg hpos.ne',
    List.getElem?_eq_getElem (by omega)]
  rfl

variable (hfeeds : worker.Feeds xs slots numBlocks metadata) (hreaches : Reaches xs tokenIds)
variable (hrepresents : Represents slots numBlocks worker.blockSize llama.blocks caches
  fun sequenceId => (tokenIds sequenceId).map llama.wte)
include hfeeds hreaches hrepresents

/--
The logits of each sequence are those of the model for its tokens alone.
-/
theorem Feeds.llama_forward
    (hsupports : ∀ block ∈ llama.blocks,
      Supports block.attn.attention numBlocks worker.blockSize xs)
    : ∃ caches',
        llama.forward (rowsOf xs tokenIds) (positionsOf xs)
            ((cumulative (xs.map (·.1.tokenChunkSize))).tail.map (· - 1)) caches metadata
            = .ok (
                xs.map fun x => llama.logits
                  ((tokenIds x.2.1).take (x.2.2.numComputedTokens + x.1.tokenChunkSize)),
                caches')
          ∧ Represents
              (KvCache.reshapeAndCacheFlash worker.blockSize (xs.flatMap worker.sequenceWrites) slots)
              numBlocks worker.blockSize llama.blocks caches'
              fun sequenceId => (tokenIds sequenceId).map llama.wte := by
  have hpos := hfeeds.fits.chunk_pos
  have hembedded := hreaches.map llama.wte
  rcases hfeeds.forwardBlocks hembedded hrepresents hsupports with ⟨caches', hblocks, hrepresents'⟩
  refine ⟨caches', ?_, hrepresents'⟩
  have hplain := hembedded.of_causal (Llama.causal_plainBlocks llama.blocks)
  let row (x : SequenceGroupMetadata × Sigma fun _ : Nat => SequenceData) : ρ :=
    (Llama.plainBlocks llama.blocks ((tokenIds x.2.1).map llama.wte)).getD
      (x.2.2.numComputedTokens + (x.1.tokenChunkSize - 1)) 0
  have hlast : ∀ x ∈ xs,
      (Llama.plainBlocks llama.blocks ((tokenIds x.2.1).map llama.wte))[x.2.2.numComputedTokens
            + (x.1.tokenChunkSize - 1)]? = some (row x)
        ∧ llama.logits ((tokenIds x.2.1).take (x.2.2.numComputedTokens + x.1.tokenChunkSize))
            = llama.lmHead (llama.lnF (row x)) := by
    intro x hx
    have hchunk := hpos x hx
    rcases logits_take llama (by omega) (hreaches x hx) with ⟨last, hget, hlogits⟩
    rw [Nat.add_sub_assoc hchunk] at hget
    have hrow : row x = last := by
      dsimp only [row]
      rw [List.getD_eq_getElem?_getD, hget]
      rfl
    rw [hrow]
    exact ⟨hget, hlogits⟩
  have hselect := indexSelect_rowsOf (fun x => llama.lnF (row x)) [] hpos
    (hplain.map llama.lnF) fun x hx => by rw [List.getElem?_map, (hlast x hx).1]; rfl
  unfold Llama.forward
  rw [map_rowsOf]
  dsimp only
  rw [hblocks]
  dsimp only [bind, Except.bind]
  rw [map_rowsOf]
  unfold cumulative
  rw [List.nil_append, List.length_nil] at hselect
  rw [hselect]
  dsimp only
  rw [List.map_map, List.map_congr_left fun x hx => (hlast x hx).2]
  rfl

theorem Feeds.llama_forward_eq_error {selectedTokenIndices : List Nat}
    (hnot : ¬ ∀ block ∈ llama.blocks,
      Supports block.attn.attention numBlocks worker.blockSize xs)
    : ∃ e,
        llama.forward (rowsOf xs tokenIds) (positionsOf xs) selectedTokenIndices caches metadata
          = .error e := by
  rcases hfeeds.forwardBlocks_eq_error (hreaches.map llama.wte) hrepresents hnot with ⟨e, hblocks⟩
  refine ⟨e, ?_⟩
  unfold Llama.forward
  rw [map_rowsOf]
  dsimp only
  rw [hblocks]
  rfl

end Model

section Batch

variable [Zero ρ] [Add ρ] [Mul ρ] {llama : Llama ρ} {tokenIds : Nat → List Nat} {numBlocks : Nat}
variable {caches : List (LayerCache ρ)} {batch : List SequenceGroupMetadata} {input : ModelInput}

/--
The tokens of the sequences of a batch are `tokenIds`, and their numbers are not cut.
-/
structure Lists (tokenIds : Nat → List Nat)
    (xs : List (SequenceGroupMetadata × Sigma fun _ : Nat => SequenceData)) : Prop where
  getTokenIds_eq : ∀ x ∈ xs, tokenIds x.2.1 = x.2.2.getTokenIds
  length_lt : ∀ x ∈ xs, x.2.2.length < 2 ^ 32

theorem Lists.chunk_lt (h : Lists tokenIds xs) (hfits : worker.AllFit xs)
    : ∀ x ∈ xs, x.2.2.numComputedTokens + x.1.tokenChunkSize < 2 ^ 32 :=
  fun x hx => (hfits.chunk_le x hx).trans_lt (h.length_lt x hx)

theorem Lists.tokenChunkSize_lt (h : Lists tokenIds xs) (hfits : worker.AllFit xs)
    : ∀ x ∈ xs, x.1.tokenChunkSize < 2 ^ 32 := by
  intro x hx
  have := h.chunk_lt hfits x hx
  omega

variable (hnone : worker.slidingWindow = none)
variable (hlists : Lists tokenIds (sequencesOf batch))
variable (hinput : worker.prepareInputTensors batch = .ok input)
variable (hfeeds : worker.Feeds (sequencesOf batch) slots numBlocks input.attentionMetadata)
variable (hrepresents : Represents slots numBlocks worker.blockSize llama.blocks caches
  fun sequenceId => (tokenIds sequenceId).map llama.wte)
include hnone hlists hinput hfeeds

omit [Zero ρ] [Add ρ] [Mul ρ] in
theorem Feeds.forward_eq
    : Reaches (sequencesOf batch) tokenIds
        ∧ ∀ [Zero ρ] [Add ρ] [Mul ρ] (llama : Llama ρ) (caches : List (LayerCache ρ)),
            worker.forward llama batch caches
              = (llama.forward (rowsOf (sequencesOf batch) tokenIds) (positionsOf (sequencesOf batch))
                  ((cumulative ((sequencesOf batch).map (·.1.tokenChunkSize))).tail.map (· - 1)) caches
                  input.attentionMetadata).mapError .candleError := by
  constructor
  . intro x hx
    rw [hlists.getTokenIds_eq x hx, SequenceData.length_getTokenIds]
    exact hfeeds.fits.chunk_le x hx
  . intro _ _ _ llama caches
    rcases input_eq hnone hfeeds.fits hlists.getTokenIds_eq (hlists.tokenChunkSize_lt hfeeds.fits)
      hinput with ⟨htokens, hpositions, hcumulative, -⟩
    unfold forward
    rw [hinput]
    dsimp only [bind, Except.bind]
    rw [hcumulative, computeSelectedTokenIndices_eq
      (List.forall_mem_map.mpr hfeeds.fits.chunk_pos), htokens, hpositions]
    rfl

include hrepresents

/--
The forward pass computes the logits of the sequences of the batch, and the caches have the keys and
values of the tokens that the batch computes.
-/
theorem Feeds.forward_eq_ok
    (hsupports : ∀ block ∈ llama.blocks,
      Supports block.attn.attention numBlocks worker.blockSize (sequencesOf batch))
    : ∃ caches',
        worker.forward llama batch caches
            = .ok ((sequencesOf batch).map fun x => llama.logits (x.1.context x.2.2), caches')
          ∧ Represents
              (KvCache.reshapeAndCacheFlash worker.blockSize
                ((sequencesOf batch).flatMap worker.sequenceWrites) slots)
              numBlocks worker.blockSize llama.blocks caches'
              fun sequenceId => (tokenIds sequenceId).map llama.wte := by
  rcases hfeeds.forward_eq hnone hlists hinput with ⟨hreaches, hforward⟩
  rcases hfeeds.llama_forward hreaches hrepresents hsupports with ⟨caches', hllama, hrepresents'⟩
  refine ⟨caches', ?_, hrepresents'⟩
  rw [hforward, hllama]
  refine congrArg (fun logits => Except.ok (logits, caches')) ?_
  apply List.map_congr_left
  intro x hx
  rw [hlists.getTokenIds_eq x hx]
  rfl

/--
Otherwise it fails.
-/
theorem Feeds.forward_eq_error
    (hnot : ¬ ∀ block ∈ llama.blocks,
      Supports block.attn.attention numBlocks worker.blockSize (sequencesOf batch))
    : ∃ e, worker.forward llama batch caches = .error e := by
  rcases hfeeds.forward_eq hnone hlists hinput with ⟨hreaches, hforward⟩
  rcases hfeeds.llama_forward_eq_error hreaches hrepresents hnot with ⟨e, hllama⟩
  refine ⟨.candleError e, ?_⟩
  rw [hforward, hllama]
  rfl

end Batch

end ModelWorker

end AtomaInfer
