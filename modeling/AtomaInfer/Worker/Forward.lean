import AtomaInfer.Models.Llama
import AtomaInfer.Worker.Attention
import AtomaInfer.Worker.Cache
import Mathlib.Algebra.Order.BigOperators.Group.List

/-!
The forward pass of a batch (`execute_model` up to the logits) against the model without a cache. The
caches of the layers agree with the tokens that `Worker.Cache` says are in the slots, so what a
sequence of the batch reads from them are its own keys and values.
-/

namespace AtomaInfer

variable {ρ : Type}

/--
`execute_model` from the batch to the logits.
-/
def ModelWorker.forward [Zero ρ] [Add ρ] [Mul ρ] (worker : ModelWorker) (llama : Llama ρ)
    (sequenceGroupsMetadata : List SequenceGroupMetadata) (gpuCache : List (LayerCache ρ))
    : Except ModelWorkerError (List (List ℚ) × List (LayerCache ρ)) := do
  let input ← worker.prepareInputTensors sequenceGroupsMetadata
  let selectedTokenIndices ← computeSelectedTokenIndices input.cuQueryLengths
  (llama.forward input.inputTokens input.inputPositions selectedTokenIndices gpuCache
    input.attentionMetadata).mapError .candleError

namespace LayerCache

/--
A slot with a token of a sequence has the key and value of this token.
-/
def Agrees (cache : LayerCache ρ) (slots : KvCache) (keysValues : Nat → List (ρ × ρ)) : Prop :=
  ∀ blockNumber offset entry, slots ⟨.gpu, blockNumber⟩ offset = some entry →
    (keysValues entry.sequenceId)[entry.position]? = some (cache.rows blockNumber offset)

variable {cache cache' : LayerCache ρ} {slots : KvCache} {keysValues keysValues' : Nat → List (ρ × ρ)}
variable {slot : Int} {entry : KvEntry} {row : ρ × ρ}

theorem Agrees.of_isPrefix (h : cache.Agrees slots keysValues)
    (hbegins : ∀ sequenceId, keysValues sequenceId <+: keysValues' sequenceId)
    : cache.Agrees slots keysValues' := by
  intro blockNumber offset entry hentry
  have hrow := h blockNumber offset entry hentry
  rcases hbegins entry.sequenceId with ⟨later, heq⟩
  rw [← heq, List.getElem?_append_left (List.getElem?_eq_some_iff.mp hrow).1, hrow]

def SameShape (cache cache' : LayerCache ρ) : Prop :=
  cache'.numBlocks = cache.numBlocks ∧ cache'.blockSize = cache.blockSize

theorem write_eq_ok (row : ρ × ρ) (h : slot.toNat / cache.blockSize < cache.numBlocks)
    : ∃ cache', cache.write slot row = .ok cache' ∧ cache.SameShape cache' := by
  unfold write
  split
  . exact ⟨cache, rfl, rfl, rfl⟩
  . dsimp only
    rw [if_pos h]
    exact ⟨_, rfl, rfl, rfl⟩

theorem Agrees.write (h : cache.Agrees slots keysValues)
    (hrow : (keysValues entry.sequenceId)[entry.position]? = some row)
    (hwrite : cache.write slot row = .ok cache')
    : cache'.Agrees (slots.write cache.blockSize slot entry) keysValues := by
  intro blockNumber offset entry' hentry'
  unfold LayerCache.write at hwrite
  unfold KvCache.write at hentry'
  split at hwrite
  . next hslot =>
    cases hwrite
    rw [if_pos hslot] at hentry'
    exact h blockNumber offset entry' hentry'
  . next hslot =>
    rw [if_neg hslot] at hentry'
    dsimp only at hwrite hentry'
    split at hwrite
    . cases hwrite
      dsimp only
      by_cases hblock : blockNumber = slot.toNat / cache.blockSize
      . subst hblock
        rw [Function.update_self] at hentry' ⊢
        by_cases hoffset : offset = slot.toNat % cache.blockSize
        . subst hoffset
          rw [Function.update_self] at hentry' ⊢
          cases hentry'
          exact hrow
        . rw [Function.update_of_ne hoffset] at hentry' ⊢
          exact h _ offset entry' hentry'
      . rw [Function.update_of_ne hblock]
        rw [Function.update_of_ne fun heq => hblock (congrArg (·.blockNumber) heq)] at hentry'
        exact h blockNumber offset entry' hentry'
    . cases hwrite

/--
Writing the rows of some tokens to the slots of these tokens.
-/
theorem Agrees.writeAll {writes : List (Int × KvEntry)} {rows : List (ρ × ρ)}
    (h : cache.Agrees slots keysValues)
    (hrows : List.Forall₂
      (fun written row => (keysValues written.2.sequenceId)[written.2.position]? = some row) writes
      rows)
    (hbounds : ∀ written ∈ writes, written.1.toNat / cache.blockSize < cache.numBlocks)
    : ∃ cache', cache.writeAll ((writes.map (·.1)).zip rows) = .ok cache'
        ∧ cache.SameShape cache'
        ∧ cache'.Agrees (KvCache.reshapeAndCacheFlash cache.blockSize writes slots) keysValues := by
  induction hrows generalizing cache slots with
  | nil => exact ⟨cache, rfl, ⟨rfl, rfl⟩, h⟩
  | @cons written row writes rows hrow _ ih =>
    rcases write_eq_ok row (hbounds written List.mem_cons_self)
      with ⟨between, hwrite, hblocks, hsize⟩
    have hagrees := h.write hrow hwrite
    rcases ih hagrees (by
      intro other hother
      rw [hblocks, hsize]
      exact hbounds other (List.mem_cons_of_mem _ hother)) with ⟨cache', hall, hsame, hagrees'⟩
    refine ⟨cache', ?_, ⟨hsame.1.trans hblocks, hsame.2.trans hsize⟩, ?_⟩
    . unfold LayerCache.writeAll at hall ⊢
      rw [List.map_cons, List.zip_cons_cons, List.foldlM_cons]
      exact Except.bind_eq_ok.mpr ⟨between, hwrite, hall⟩
    . rw [hsize] at hagrees'
      exact hagrees'

end LayerCache

namespace ModelWorker

variable {α β γ : Type}
variable {xs : List (SequenceGroupMetadata × Sigma fun _ : Nat => SequenceData)}

/--
The rows of the tokens that a batch computes, given the rows of each sequence.
-/
def rowsOf (xs : List (SequenceGroupMetadata × Sigma fun _ : Nat => SequenceData))
    (rows : Nat → List α) : List α :=
  gather xs (fun x => x.2.2.numComputedTokens) (fun x => x.1.tokenChunkSize) fun x => rows x.2.1

theorem rowsOf_cons (x : SequenceGroupMetadata × Sigma fun _ : Nat => SequenceData)
    (xs : List (SequenceGroupMetadata × Sigma fun _ : Nat => SequenceData)) (rows : Nat → List α)
    : rowsOf (x :: xs) rows
        = piece x.2.2.numComputedTokens x.1.tokenChunkSize (rows x.2.1) ++ rowsOf xs rows := by
  unfold rowsOf gather
  rw [List.flatMap_cons]

def numTokens (xs : List (SequenceGroupMetadata × Sigma fun _ : Nat => SequenceData)) : Nat :=
  (xs.map (·.1.tokenChunkSize)).sum

/--
There is a row for each token that the batch computes.
-/
def Reaches (xs : List (SequenceGroupMetadata × Sigma fun _ : Nat => SequenceData))
    (rows : Nat → List α) : Prop :=
  ∀ x ∈ xs, x.2.2.numComputedTokens + x.1.tokenChunkSize ≤ (rows x.2.1).length

theorem Reaches.of_length_eq {rows : Nat → List α} {rows' : Nat → List β} (h : Reaches xs rows)
    (hlength : ∀ sequenceId, (rows' sequenceId).length = (rows sequenceId).length)
    : Reaches xs rows' := by
  intro x hx
  rw [hlength]
  exact h x hx

theorem length_rowsOf {rows : Nat → List α} (h : Reaches xs rows)
    : (rowsOf xs rows).length = numTokens xs :=
  length_gather h

theorem map_rowsOf {rows : Nat → List α} (f : α → β)
    : (rowsOf xs rows).map f = rowsOf xs fun sequenceId => (rows sequenceId).map f :=
  map_gather f

theorem zipWith_rowsOf {rows : Nat → List α} {rows' : Nat → List β} (f : α → β → γ)
    (h : Reaches xs rows) (h' : Reaches xs rows')
    : List.zipWith f (rowsOf xs rows) (rowsOf xs rows')
        = rowsOf xs fun sequenceId => List.zipWith f (rows sequenceId) (rows' sequenceId) :=
  zipWith_gather f h h'

variable {worker : ModelWorker}

theorem forall₂_sequenceWrites (worker : ModelWorker) {keysValues : Nat → List α}
    {x : SequenceGroupMetadata × Sigma fun _ : Nat => SequenceData}
    (h : x.2.2.numComputedTokens + x.1.tokenChunkSize ≤ (keysValues x.2.1).length)
    : List.Forall₂
        (fun written row => (keysValues written.2.sequenceId)[written.2.position]? = some row)
        (worker.sequenceWrites x)
        (piece x.2.2.numComputedTokens x.1.tokenChunkSize (keysValues x.2.1)) := by
  unfold sequenceWrites
  rw [List.forall₂_map_left_iff, List.forall₂_iff_get]
  refine ⟨by rw [List.length_range', length_piece h], ?_⟩
  intro i hi hi'
  rw [List.length_range'] at hi
  rw [List.get_eq_getElem, List.get_eq_getElem, List.getElem_range', Nat.one_mul,
    ← getElem?_piece hi, List.getElem?_eq_getElem]

theorem forall₂_writes (worker : ModelWorker) {keysValues : Nat → List α}
    (h : Reaches xs keysValues)
    : List.Forall₂
        (fun written row => (keysValues written.2.sequenceId)[written.2.position]? = some row)
        (xs.flatMap worker.sequenceWrites) (rowsOf xs keysValues) := by
  unfold rowsOf gather
  induction xs with
  | nil => exact .nil
  | cons x xs ih =>
    rw [List.flatMap_cons, List.flatMap_cons]
    refine List.rel_append (forall₂_sequenceWrites worker (h x List.mem_cons_self)) (ih ?_)
    exact fun x' hx' => h x' (List.mem_cons_of_mem _ hx')

/--
The kernel call for prompts that are computed from their first tokens on.
-/
def promptsCall (xs : List (SequenceGroupMetadata × Sigma fun _ : Nat => SequenceData))
    : FlashAttention.VarlenCall where
  seqlensQ := cumulative (xs.map (·.1.tokenChunkSize))
  seqlensK := cumulative (xs.map (·.1.tokenChunkSize))
  maxSeqlenQ := maximum (xs.map (·.1.tokenChunkSize))
  maxSeqlenK := maximum (xs.map (·.1.tokenChunkSize))
  causal := 1 < numTokens xs

theorem le_maximum {lengths : List Nat} {n : Nat} (h : n ∈ lengths) : n ≤ maximum lengths := by
  unfold maximum
  cases hmax : lengths.max? with
  | none =>
    rw [List.max?_eq_none_iff.mp hmax] at h
    cases h
  | some max => exact (List.max?_eq_some_iff.mp hmax).2 n h

theorem chunk_le_numTokens {x : SequenceGroupMetadata × Sigma fun _ : Nat => SequenceData}
    (hx : x ∈ xs) : x.1.tokenChunkSize ≤ numTokens xs :=
  List.single_le_sum (fun _ _ => Nat.zero_le _) _ (List.mem_map_of_mem hx)

theorem length_le_numTokens (hpos : ∀ x ∈ xs, 1 ≤ x.1.tokenChunkSize) : xs.length ≤ numTokens xs := by
  have hle := List.card_nsmul_le_sum (xs.map (·.1.tokenChunkSize)) 1 (List.forall_mem_map.mpr hpos)
  rwa [List.length_map, smul_eq_mul, Nat.mul_one] at hle

variable {attention : AttentionBackend ρ}

/--
The query is reshaped for a prompt of one token that is alone in its batch.
-/
theorem seqlenqNgroupsSwapped_promptsCall (hne : xs ≠ []) (hpos : ∀ x ∈ xs, 1 ≤ x.1.tokenChunkSize)
    : attention.seqlenqNgroupsSwapped (promptsCall xs) = true
        ↔ numTokens xs = 1 ∧ attention.numKvHeads < attention.numHeads := by
  have hlength := length_le_numTokens hpos
  have hnonempty := List.length_pos_iff.mpr hne
  have hmultiple : attention.headDim % 8 = 0 := not_not.mp attention.headDim_eq.2
  have hmax : numTokens xs = 1 → maximum (xs.map (·.1.tokenChunkSize)) = 1 := by
    intro hone
    rcases List.length_eq_one_iff.mp (by omega : xs.length = 1) with ⟨x, rfl⟩
    simpa [numTokens, maximum] using hone
  unfold AttentionBackend.seqlenqNgroupsSwapped promptsCall
  simp only [Bool.and_eq_true, decide_eq_true_eq, Bool.not_eq_true', decide_eq_false_iff_not, hmultiple]
  constructor
  . rintro ⟨⟨⟨-, hheads⟩, hcausal⟩, -⟩
    exact ⟨by omega, hheads⟩
  . rintro ⟨hone, hheads⟩
    exact ⟨⟨⟨hmax hone, hheads⟩, by omega⟩, trivial⟩

theorem attendCausally_piece {q : List ρ} {keysValues : List (ρ × ρ)} {n : Nat}
    : attention.attendCausally (piece 0 n q) (piece 0 n keysValues)
        = piece 0 n (attention.attendCausally q keysValues) := by
  unfold AttentionBackend.attendCausally piece
  rw [List.drop_zero, List.drop_zero, List.drop_zero]
  apply List.ext_getElem?
  intro i
  rw [List.getElem?_mapIdx, List.getElem?_take, List.getElem?_take, List.getElem?_mapIdx]
  split
  . next hlt => rw [List.take_take, Nat.min_eq_left hlt]
  . rfl

/--
Each prompt is computed on its own.
-/
theorem flashAttnVarlen_promptsCall {q : Nat → List ρ} {keysValues : Nat → List (ρ × ρ)}
    (hne : xs ≠ []) (hstarts : ∀ x ∈ xs, x.2.2.numComputedTokens = 0) (hq : Reaches xs q)
    (hkv : Reaches xs keysValues)
    (hswapped : attention.seqlenqNgroupsSwapped (promptsCall xs) = false)
    : attention.flashAttnVarlen (promptsCall xs) (rowsOf xs q) (rowsOf xs keysValues)
        = .ok (rowsOf xs fun sequenceId =>
            attention.attendCausally (q sequenceId) (keysValues sequenceId)) := by
  let pieces := xs.map fun x => (
    piece x.2.2.numComputedTokens x.1.tokenChunkSize (q x.2.1),
    piece x.2.2.numComputedTokens x.1.tokenChunkSize (keysValues x.2.1))
  have hlength : ∀ x ∈ xs,
      (piece x.2.2.numComputedTokens x.1.tokenChunkSize (q x.2.1)).length = x.1.tokenChunkSize :=
    fun x hx => length_piece (hq x hx)
  have hcumulative : cumulative (xs.map (·.1.tokenChunkSize))
      = (pieces.map (·.1.length)).scanl (· + ·) 0 := by
    unfold cumulative
    rw [List.map_map, List.map_congr_left fun x hx => (hlength x hx).symm]
    rfl
  have hmax : ∀ piece ∈ pieces, piece.1.length ≤ maximum (xs.map (·.1.tokenChunkSize)) := by
    refine List.forall_mem_map.mpr ?_
    intro x hx
    rw [hlength x hx]
    exact le_maximum (List.mem_map_of_mem hx)
  have hresult := @AttentionBackend.flashAttnVarlen_eq ρ attention (promptsCall xs) pieces
    (List.forall_mem_map.mpr fun x hx => (hlength x hx).trans (length_piece (hkv x hx)).symm)
    hcumulative hcumulative hmax hmax (by simpa [pieces] using hne) (by
      rw [promptsCall, decide_eq_true_eq, or_iff_not_imp_left]
      intro hle
      refine List.forall_mem_map.mpr ?_
      intro x hx
      have := chunk_le_numTokens hx
      rw [hlength x hx]
      omega) hswapped
  rw [List.flatMap_map, List.flatMap_map, List.flatMap_map] at hresult
  refine hresult.trans (congrArg Except.ok ?_)
  unfold rowsOf gather
  apply List.flatMap_congr
  intro x hx
  dsimp only
  rw [hstarts x hx, attendCausally_piece]

/--
The keys and values of a sequence are read through `blockTable`.
-/
def ReadsThrough (cache : LayerCache ρ) (keysValues : List (ρ × ρ)) (numTokens : Nat)
    (blockTable : List Nat) : Prop :=
  ∀ (i : Nat) row, i < numTokens → keysValues[i]? = some row → cache.read blockTable i = .ok row

/--
Each query is the last one of its sequence, and its keys and values come from the cache.
-/
theorem attendAllCached_rowsOf {cache : LayerCache ρ} {q : Nat → List ρ}
    {keysValues : Nat → List (ρ × ρ)} {rows : List (List Nat)}
    (hchunks : ∀ x ∈ xs, x.1.tokenChunkSize = 1) (hq : Reaches xs q) (hkv : Reaches xs keysValues)
    (hrows : List.Forall₂
      (fun x row => ReadsThrough cache (keysValues x.2.1) (x.2.2.numComputedTokens + 1) row) xs rows)
    : attention.attendAllCached cache (rowsOf xs q)
          (rows.zip (xs.map fun x => x.2.2.numComputedTokens + 1))
        = .ok (rowsOf xs fun sequenceId =>
            attention.attendCausally (q sequenceId) (keysValues sequenceId)) := by
  induction hrows with
  | nil => rfl
  | @cons x row xs rows hrow _ ih =>
    have hchunk := hchunks x List.mem_cons_self
    have hlt := hq x List.mem_cons_self
    have hlt' := hkv x List.mem_cons_self
    rw [hchunk] at hlt hlt'
    have hrest := ih (fun x' hx' => hchunks x' (List.mem_cons_of_mem _ hx'))
      (fun x' hx' => hq x' (List.mem_cons_of_mem _ hx'))
      fun x' hx' => hkv x' (List.mem_cons_of_mem _ hx')
    have hlength : x.2.2.numComputedTokens
        < (attention.attendCausally (q x.2.1) (keysValues x.2.1)).length :=
      hlt.trans_eq (AttentionBackend.length_attendCausally _ _).symm
    have hone : attention.attendCached cache (q x.2.1)[x.2.2.numComputedTokens] row
          (x.2.2.numComputedTokens + 1)
        = .ok (attention.attendCausally (q x.2.1) (keysValues x.2.1))[x.2.2.numComputedTokens] := by
      rw [AttentionBackend.getElem_attendCausally hlt, ← AttentionBackend.attendCached_eq,
        List.length_take_of_le hlt']
      intro i row' hrow'
      rw [List.getElem?_take] at hrow'
      split at hrow'
      . next hi => exact hrow i row' hi hrow'
      . cases hrow'
    unfold AttentionBackend.attendAllCached at hrest ⊢
    rw [rowsOf_cons, rowsOf_cons, hchunk, piece_one hlt, piece_one hlength, List.map_cons,
      List.zip_cons_cons, List.singleton_append, List.zip_cons_cons, List.mapM_cons]
    exact Except.bind_eq_ok.mpr ⟨_, hone, Except.bind_eq_ok.mpr ⟨_, hrest, rfl⟩⟩

theorem AllFit.chunk_pos (h : worker.AllFit xs) : ∀ x ∈ xs, 1 ≤ x.1.tokenChunkSize := by
  intro x hx
  rcases h x hx with ⟨blockTable, hfit⟩
  exact hfit.pos

theorem AllFit.chunk_le (h : worker.AllFit xs)
    : ∀ x ∈ xs, x.2.2.numComputedTokens + x.1.tokenChunkSize ≤ x.2.2.length := by
  intro x hx
  rcases h x hx with ⟨blockTable, hfit⟩
  exact hfit.chunk

section Input

variable {batch : List SequenceGroupMetadata} {metadata : SequenceGroupMetadata}
variable {sequenceId : Nat} {data : SequenceData} {blockTable : List Nat}

/--
The lengths of a sequence that fits.
-/
structure Fits.Lengths (metadata : SequenceGroupMetadata) (data : SequenceData)
    (blockTable : List Nat) (input : SequenceInput) : Prop where
  contextLength_eq : input.contextLength = data.numComputedTokens
  slidingSequenceLength_eq :
    input.slidingSequenceLength = data.numComputedTokens + metadata.tokenChunkSize
  sequenceLength_eq : input.sequenceLength = data.numComputedTokens + metadata.tokenChunkSize
  queryLength_eq : input.queryLength = metadata.tokenChunkSize
  blockTable_eq : metadata.isPrompt = false → input.blockTable = blockTable

theorem Fits.lengths (h : worker.Fits metadata sequenceId data blockTable)
    (hnone : worker.slidingWindow = none) {input : SequenceInput}
    (hinput : worker.sequenceInput metadata ⟨sequenceId, data⟩ = .ok input)
    : Fits.Lengths metadata data blockTable input := by
  have hof := inputOf_of_eq_ok hinput
  have hcontext : data.numComputedTokens = input.contextLength :=
    Except.ok.inj (h.contextLength_eq.symm.trans hof.contextLength_eq)
  have hsequence := hof.sequenceLength_eq
  have hsliding := hof.slidingSequenceLength_eq
  have hquery := hof.queryLength_eq
  have hpos := h.pos
  have hchunk := h.chunk
  rw [← hcontext, Nat.min_eq_right hchunk] at hsequence
  rw [hnone] at hsliding
  refine ⟨hcontext.symm, hsliding.trans hsequence, hsequence, ?_, ?_⟩
  . rw [hquery]
    cases hprompt : metadata.isPrompt with
    | true =>
      rw [if_pos rfl]
      omega
    | false =>
      have hdecode := h.decode hprompt
      rw [if_neg (by simp)]
      omega
  . intro hdecode
    have htable := hof.blockTable_eq
    unfold kernelBlockTable at htable
    rw [if_pos (by simp [hdecode]), h.lookup_blockTables, hnone] at htable
    exact (Except.ok.inj htable).symm

theorem map_eq_of_forall₂ {R : α → β → Prop} {as : List α} {bs : List β} {f : α → γ} {g : β → γ}
    (h : List.Forall₂ R as bs) (heq : ∀ a ∈ as, ∀ b, R a b → g b = f a) : bs.map g = as.map f := by
  induction h with
  | nil => rfl
  | @cons a b as bs hab _ ih =>
    rw [List.map_cons, List.map_cons, heq a List.mem_cons_self b hab,
      ih fun a' ha' => heq a' (List.mem_cons_of_mem _ ha')]

theorem flatMap_eq_of_forall₂ {R : α → β → Prop} {as : List α} {bs : List β} {f : α → List γ}
    {g : β → List γ} (h : List.Forall₂ R as bs) (heq : ∀ a ∈ as, ∀ b, R a b → g b = f a)
    : bs.flatMap g = as.flatMap f := by
  rw [List.flatMap_def, List.flatMap_def, map_eq_of_forall₂ h heq]

/--
The tensors of a batch whose sequences fit.
-/
theorem input_eq {tokenIds : Nat → List Nat} {input : ModelInput}
    (hnone : worker.slidingWindow = none) (hfits : worker.AllFit (sequencesOf batch))
    (htokens : ∀ x ∈ sequencesOf batch, tokenIds x.2.1 = x.2.2.getTokenIds)
    (hlt : ∀ x ∈ sequencesOf batch, x.1.tokenChunkSize < 2 ^ 32)
    (h : worker.prepareInputTensors batch = .ok input)
    : input.inputTokens = rowsOf (sequencesOf batch) tokenIds
        ∧ input.inputPositions = (sequencesOf batch).flatMap (fun x =>
            List.range' x.2.2.numComputedTokens x.1.tokenChunkSize)
        ∧ input.cuQueryLengths = cumulative ((sequencesOf batch).map (·.1.tokenChunkSize))
        ∧ input.attentionMetadata.slotMapping
            = ((sequencesOf batch).flatMap worker.sequenceWrites).map (·.1) := by
  rcases exists_inputs_of_prepareInputTensors h
    with ⟨inputs, maxBlockTableLen, hinputs, hinputTokens, hcumulative, hmetadata⟩
  rcases inputPositions_of_prepareInputTensors h with ⟨inputs', hinputs', -, hpositions, hslots⟩
  have hsame : inputs' = inputs := by
    refine List.right_unique_forall₂' ?_ hinputs' hinputs
    intro x input input' hinput hinput'
    exact Except.ok.inj (hinput.symm.trans hinput')
  subst hsame
  refine ⟨?_, ?_, ?_, ?_⟩
  . rw [hinputTokens]
    apply flatMap_eq_of_forall₂ hinputs
    intro x hx input hinput
    rcases hfits x hx with ⟨blockTable, hfit⟩
    dsimp only
    rw [(hfit.input_eq hnone hinput).1, htokens x hx]
    rfl
  . rw [hpositions]
    apply flatMap_eq_of_forall₂ hinputs
    intro x hx input hinput
    rcases hfits x hx with ⟨blockTable, hfit⟩
    exact (hfit.input_eq hnone hinput).2.1
  . rw [hcumulative]
    congr 1
    apply map_eq_of_forall₂ hinputs
    intro x hx input hinput
    rcases hfits x hx with ⟨blockTable, hfit⟩
    rw [(hfit.lengths hnone hinput).queryLength_eq, Nat.mod_eq_of_lt (hlt x hx)]
  . rw [hslots, List.map_flatMap]
    apply flatMap_eq_of_forall₂ hinputs
    intro x hx input hinput
    rcases hfits x hx with ⟨blockTable, hfit⟩
    unfold sequenceWrites
    rw [(hfit.input_eq hnone hinput).2.2, hfit.lookup_blockTables, List.map_map]
    rfl

/--
The sequences are prompts of which nothing is computed yet, and the forward pass calls the kernel
for them.
-/
structure IsPrefill (xs : List (SequenceGroupMetadata × Sigma fun _ : Nat => SequenceData))
    (metadata : FlashAttentionMetadata) : Prop where
  isPrompt : ∀ x ∈ xs, x.1.isPrompt = true
  starts : ∀ x ∈ xs, x.2.2.numComputedTokens = 0
  numPrefillTokens_eq : metadata.numPrefillTokens = numTokens xs
  forward_eq : FlashAttention.forward (numTokens xs) metadata = .ok (some (promptsCall xs), none)

/--
The sequences are decoded, and the forward pass calls the kernel that reads the cache.
-/
structure IsDecode (xs : List (SequenceGroupMetadata × Sigma fun _ : Nat => SequenceData))
    (metadata : FlashAttentionMetadata) : Prop where
  isDecode : ∀ x ∈ xs, x.1.isPrompt = false
  chunks : ∀ x ∈ xs, x.1.tokenChunkSize = 1
  numPrefillTokens_eq : metadata.numPrefillTokens = 0
  forward_eq : ∃ rows,
    List.Forall₂
        (fun x row => ∃ blockTable, x.1.blockTables.lookup x.2.1 = some blockTable
          ∧ IsPadded blockTable row)
        xs rows
      ∧ FlashAttention.forward (numTokens xs) metadata
          = .ok (none, some {
              blockTable := some rows
              seqlensK := some (xs.map fun x => x.2.2.numComputedTokens + 1)
            })

theorem Inputs.numDecodingTokens_eq {prompts decodes : List SequenceGroupMetadata}
    {metadata : FlashAttentionMetadata} (inputs : Inputs worker prompts decodes metadata)
    : metadata.numDecodingTokens = inputs.decodings.length := by
  have hmetadata := congrArg FlashAttentionMetadata.numDecodingTokens inputs.metadata_eq
  unfold metadataOf at hmetadata
  rw [inputs.filter_not_isPrompt] at hmetadata
  exact hmetadata.trans inputs.sum_queryLength_eq

theorem isPrefill_of_prepareInputTensors {input : ModelInput}
    (hnone : worker.slidingWindow = none) (hfits : worker.AllFit (sequencesOf batch))
    (hprompts : ∀ metadata ∈ batch, metadata.isPrompt = true)
    (hstarts : ∀ x ∈ sequencesOf batch, x.2.2.numComputedTokens = 0)
    (hne : sequencesOf batch ≠ []) (hlt : ∀ x ∈ sequencesOf batch, x.1.tokenChunkSize < 2 ^ 32)
    (h : worker.prepareInputTensors batch = .ok input)
    : IsPrefill (sequencesOf batch) input.attentionMetadata := by
  have hempty : ∀ metadata ∈ ([] : List SequenceGroupMetadata), metadata.isPrompt = false :=
    fun _ hmetadata => (nomatch hmetadata)
  rw [← List.append_nil batch] at h
  rcases nonempty_inputs hprompts hempty h with ⟨inputs⟩
  have hnil : inputs.decodings = [] := inputs.decodings_eq_nil_iff.mpr rfl
  have hchunks : inputs.prefills.map (·.tokens.length)
      = (sequencesOf batch).map (·.1.tokenChunkSize) := by
    apply map_eq_of_forall₂ inputs.prefills_eq
    intro x hx input hinput
    rcases hfits x hx with ⟨blockTable, hfit⟩
    exact (zip_inputs_eq hnone hfit hinput).2.1
  have hsliding : inputs.prefills.map (·.slidingSequenceLength % 2 ^ 32)
      = (sequencesOf batch).map (·.1.tokenChunkSize) := by
    apply map_eq_of_forall₂ inputs.prefills_eq
    intro x hx input hinput
    rcases hfits x hx with ⟨blockTable, hfit⟩
    rw [(hfit.lengths hnone hinput).slidingSequenceLength_eq, hstarts x hx, Nat.zero_add,
      Nat.mod_eq_of_lt (hlt x hx)]
  have hlengths : inputs.prefills.map (·.sequenceLength)
      = (sequencesOf batch).map (·.1.tokenChunkSize) := by
    apply map_eq_of_forall₂ inputs.prefills_eq
    intro x hx input hinput
    rcases hfits x hx with ⟨blockTable, hfit⟩
    rw [(hfit.lengths hnone hinput).sequenceLength_eq, hstarts x hx, Nat.zero_add]
  have hprefill : input.attentionMetadata.numPrefillTokens = numTokens (sequencesOf batch) := by
    rw [inputs.numPrefillTokens_eq, hchunks]
    rfl
  have hpos : 0 < numTokens (sequencesOf batch) := by
    have hlength := length_le_numTokens hfits.chunk_pos
    have := List.length_pos_iff.mpr hne
    omega
  refine ⟨fun x hx => hprompts x.1 (mem_of_mem_sequencesOf hx).1, hstarts, hprefill, ?_⟩
  unfold FlashAttention.forward
  rw [inputs.prefillMetadata_eq, inputs.decodingMetadata_eq, inputs.numDecodingTokens_eq, hnil,
    hprefill, if_pos hpos]
  simp only [List.length_nil, Nat.add_zero, ne_eq, not_true_eq_false, if_false, hsliding, hlengths,
    FlashAttention.prefillCall]
  rfl

theorem isDecode_of_prepareInputTensors {input : ModelInput}
    (hnone : worker.slidingWindow = none) (hfits : worker.AllFit (sequencesOf batch))
    (hdecodes : ∀ metadata ∈ batch, metadata.isPrompt = false) (hne : sequencesOf batch ≠ [])
    (hlt : ∀ x ∈ sequencesOf batch, x.2.2.numComputedTokens + x.1.tokenChunkSize < 2 ^ 32)
    (h : worker.prepareInputTensors batch = .ok input)
    : IsDecode (sequencesOf batch) input.attentionMetadata := by
  have hempty : ∀ metadata ∈ ([] : List SequenceGroupMetadata), metadata.isPrompt = true :=
    fun _ hmetadata => (nomatch hmetadata)
  rw [← List.nil_append batch] at h
  rcases nonempty_inputs hempty hdecodes h with ⟨inputs⟩
  have hnil : inputs.prefills = [] := inputs.prefills_eq_nil_iff.mpr rfl
  have hdecode : ∀ x ∈ sequencesOf batch, x.1.isPrompt = false :=
    fun x hx => hdecodes x.1 (mem_of_mem_sequencesOf hx).1
  have hchunks : ∀ x ∈ sequencesOf batch, x.1.tokenChunkSize = 1 := by
    intro x hx
    rcases hfits x hx with ⟨blockTable, hfit⟩
    have hdecode := hfit.decode (hdecode x hx)
    have hpos := hfit.pos
    have hchunk := hfit.chunk
    omega
  have hlengths : inputs.decodings.map (·.slidingSequenceLength % 2 ^ 32)
      = (sequencesOf batch).map fun x => x.2.2.numComputedTokens + 1 := by
    apply map_eq_of_forall₂ inputs.decodings_eq
    intro x hx input hinput
    rcases hfits x hx with ⟨blockTable, hfit⟩
    rw [(hfit.lengths hnone hinput).slidingSequenceLength_eq, Nat.mod_eq_of_lt (hlt x hx),
      hchunks x hx]
  have hprefill := inputs.numPrefillTokens_eq_zero rfl
  have hlength := inputs.decodings_eq.length_eq
  have hcount : numTokens (sequencesOf batch) = inputs.decodings.length := by
    unfold numTokens
    rw [List.map_congr_left hchunks, List.map_const', List.sum_replicate, hlength, smul_eq_mul,
      Nat.mul_one]
  have hpos : 0 < inputs.decodings.length := by
    have := List.length_pos_iff.mpr hne
    omega
  refine ⟨hdecode, hchunks, hprefill, makeTensorWithPad (inputs.decodings.map (·.blockTable))
    inputs.maxBlockTableLen 0, ?_, ?_⟩
  . unfold makeTensorWithPad
    rw [List.forall₂_map_right_iff, List.forall₂_map_right_iff]
    refine List.Forall₂.imp ?_ ((List.forall₂_and_left _ _).mpr ⟨fun x hx => hx, inputs.decodings_eq⟩)
    rintro x input ⟨hx, hinput⟩
    rcases hfits x hx with ⟨blockTable, hfit⟩
    refine ⟨blockTable, hfit.lookup_blockTables, ?_⟩
    rw [(hfit.lengths hnone hinput).blockTable_eq (hdecode x hx)]
    exact ⟨_, rfl⟩
  . unfold FlashAttention.forward
    rw [inputs.prefillMetadata_eq, inputs.decodingMetadata_eq, inputs.numDecodingTokens_eq, hnil,
      hprefill, if_pos hpos, hcount, if_neg (by omega)]
    simp only [hlengths, List.nil_append]
    rfl

end Input

end ModelWorker

end AtomaInfer
