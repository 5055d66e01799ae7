import AtomaInfer.BlockManager.SwapRun
import AtomaInfer.Engine.Impl
import AtomaInfer.Worker.Input

/-!
What the worker does to the cache: `cache_swap` (`worker.rs`), and the kernel that writes the keys and
values of the input tokens to their slots (`cache_manager.rs`, `cache_manager.cu`).

Of a slot only the token is modelled that its keys and values were computed for. A copy moves a whole
block. The pairs of a mapping come in any order, and so do the writes of the kernel.
-/

namespace AtomaInfer

open BlockSpaceManager (Copies SwapDirection)

/--
A token of a sequence.
-/
structure KvEntry where
  sequenceId : Nat
  position : Nat
  tokenId : Nat
  deriving DecidableEq, Repr

/--
The slots of the blocks of both devices, by their offsets.
-/
abbrev KvCache := SyncPhysicalTokenBlock → Nat → Option KvEntry

namespace KvCache

/--
`copy_blocks` copies between blocks of the GPU.
-/
def copies (blocksToCopy : BlockMapping) : Copies :=
  blocksToCopy.entries.map fun entry => (⟨.gpu, entry.1⟩, ⟨.gpu, entry.2⟩)

/--
Swap in, swap out, then the copies.
-/
def swap (swapIn swapOut copies : Copies) (cache : KvCache) : KvCache :=
  Copying.execute copies (Copying.execute swapOut (Copying.execute swapIn cache))

def cacheSwap (request : ExecuteModelRequest) (cache : KvCache) : KvCache :=
  swap (SwapDirection.swapIn.copies request.blocksToSwapIn)
    (SwapDirection.swapOut.copies request.blocksToSwapOut) (copies request.blocksToCopy) cache

/--
`cache_swap` with the pairs of the mappings in some order.
-/
inductive Swaps (request : ExecuteModelRequest) (cache : KvCache) : KvCache → Prop where
  | intro (swapIn swapOut copied : Copies)
      (hin : swapIn.Perm (SwapDirection.swapIn.copies request.blocksToSwapIn))
      (hout : swapOut.Perm (SwapDirection.swapOut.copies request.blocksToSwapOut))
      (hcopied : copied.Perm (copies request.blocksToCopy))
    : Swaps request cache (swap swapIn swapOut copied cache)

end KvCache

/--
No blocks are swapped or copied for the batch.
-/
def ExecuteModelRequest.CopiesNothing (request : ExecuteModelRequest) : Prop :=
  request.blocksToSwapIn = ∅ ∧ request.blocksToSwapOut = ∅ ∧ request.blocksToCopy = ∅

instance (request : ExecuteModelRequest) : Decidable request.CopiesNothing :=
  decidable_of_iff
    (request.blocksToSwapIn.entries = []
      ∧ request.blocksToSwapOut.entries = []
      ∧ request.blocksToCopy.entries = [])
    (by rw [ExecuteModelRequest.CopiesNothing, AList.ext_iff, AList.ext_iff, AList.ext_iff]; rfl)

namespace KvCache

theorem swaps_self {request : ExecuteModelRequest} (h : request.CopiesNothing) (cache : KvCache)
    : cache.Swaps request cache := by
  rcases h with ⟨hin, hout, hcopy⟩
  refine .intro [] [] [] ?_ ?_ ?_
  . simp [SwapDirection.copies, hin]
  . simp [SwapDirection.copies, hout]
  . simp [copies, hcopy]

/--
`reshape_and_cache_flash_kernel` for one token. A negative slot is that of a padded token.
-/
def write (blockSize : Nat) (cache : KvCache) (slot : Int) (entry : KvEntry) : KvCache :=
  if slot < 0 then
    cache
  else
    let block : SyncPhysicalTokenBlock := ⟨.gpu, slot.toNat / blockSize⟩
    Function.update cache block
      (Function.update (cache block) (slot.toNat % blockSize) (some entry))

def reshapeAndCacheFlash (blockSize : Nat) (writes : List (Int × KvEntry)) (cache : KvCache)
    : KvCache :=
  writes.foldl (fun cache (slot, entry) => cache.write blockSize slot entry) cache

end KvCache

namespace ModelWorker

variable (worker : ModelWorker)

/--
The sequences that the input tokens are of.
-/
def owners (batch : List SequenceGroupMetadata) : List Nat :=
  (sequencesOf batch).flatMap fun (metadata, entry) =>
    match worker.sequenceInput metadata entry with
    | .ok input => List.replicate input.tokens.length entry.1
    | .error _ => []

def kvEntries (batch : List SequenceGroupMetadata) (input : ModelInput) : List KvEntry :=
  ((worker.owners batch).zip (input.inputPositions.zip input.inputTokens)).map
    fun (sequenceId, position, tokenId) => { sequenceId, position, tokenId }

def writes (batch : List SequenceGroupMetadata) (input : ModelInput) : List (Int × KvEntry) :=
  input.attentionMetadata.slotMapping.zip (worker.kvEntries batch input)

/--
The forward pass writes to the cache if there is a slot for each token.
-/
def checkSlots (input : ModelInput) : Except ModelWorkerError Unit :=
  if input.inputTokens.length = input.attentionMetadata.slotMapping.length then
    .ok ()
  else
    .error <| .candleError <| .msg <|
      s!"Only support slot_mapping with shape [{input.inputTokens.length}] "
        ++ s!"(got Ok({input.attentionMetadata.slotMapping.length}))"

/--
`execute_model` as far as the cache is concerned. Without a group there is no forward pass.
-/
def executeCache (request : ExecuteModelRequest) (cache : KvCache)
    : Except ModelWorkerError KvCache := do
  let cache := cache.cacheSwap request
  if request.sequenceGroupsMetadata.isEmpty then
    return cache
  let input ← worker.prepareInputTensors request.sequenceGroupsMetadata
  checkSlots input
  return KvCache.reshapeAndCacheFlash worker.blockSize
    (worker.writes request.sequenceGroupsMetadata input) cache

/--
`executeCache` with the copies and the writes in some order.
-/
inductive ExecutesCache (request : ExecuteModelRequest) (cache : KvCache) : KvCache → Prop where
  | empty {swapped : KvCache} (hswaps : cache.Swaps request swapped)
      (hempty : request.sequenceGroupsMetadata = [])
    : ExecutesCache request cache swapped
  | forward {swapped : KvCache} {input : ModelInput} {order : List (Int × KvEntry)}
      (hswaps : cache.Swaps request swapped)
      (hinput : worker.prepareInputTensors request.sequenceGroupsMetadata = .ok input)
      (hslots : checkSlots input = .ok ())
      (horder : order.Perm (worker.writes request.sequenceGroupsMetadata input))
    : ExecutesCache request cache (KvCache.reshapeAndCacheFlash worker.blockSize order swapped)

section Writes

variable {worker : ModelWorker} {metadata : SequenceGroupMetadata} {batch : List SequenceGroupMetadata}
variable {sequenceId : Nat} {data : SequenceData} {blockTable : List Nat}

/--
The writes for the tokens of a sequence that the batch computes.
-/
def sequenceWrites (worker : ModelWorker)
    (x : SequenceGroupMetadata × Sigma fun _ : Nat => SequenceData) : List (Int × KvEntry) :=
  (List.range' x.2.2.numComputedTokens x.1.tokenChunkSize).map fun i =>
    (worker.place ((x.1.blockTables.lookup x.2.1).getD []) i,
      { sequenceId := x.2.1, position := i, tokenId := x.2.2.getTokenIds.getD i 0 })

theorem nextTokenIds_eq_map {data : SequenceData} {tokenChunkSize : Nat}
    (h : data.numComputedTokens + tokenChunkSize ≤ data.length)
    : data.nextTokenIds tokenChunkSize
        = (List.range' data.numComputedTokens tokenChunkSize).map (data.getTokenIds.getD · 0) := by
  have hlength := data.length_getTokenIds
  unfold SequenceData.nextTokenIds
  apply List.ext_getElem
  . rw [List.length_take, List.length_drop, List.length_map, List.length_range']
    omega
  . intro i hi hi'
    rw [List.length_map, List.length_range'] at hi'
    rw [List.getElem_take, List.getElem_drop, List.getElem_map, List.getElem_range', Nat.one_mul,
      List.getD_eq_getElem?_getD, List.getElem?_eq_getElem (by omega), Option.getD_some]

/--
The inputs of a sequence that fits.
-/
theorem Fits.input_eq (h : worker.Fits metadata sequenceId data blockTable)
    (hnone : worker.slidingWindow = none) {input : SequenceInput}
    (hinput : worker.sequenceInput metadata ⟨sequenceId, data⟩ = .ok input)
    : input.tokens = data.nextTokenIds metadata.tokenChunkSize
        ∧ List.range' input.contextLength (input.sequenceLength - input.contextLength)
            = List.range' data.numComputedTokens metadata.tokenChunkSize
        ∧ input.slots
            = (List.range' data.numComputedTokens metadata.tokenChunkSize).map
                (worker.place blockTable) := by
  have hof := inputOf_of_eq_ok hinput
  have hcontext : data.numComputedTokens = input.contextLength :=
    Except.ok.inj (h.contextLength_eq.symm.trans hof.contextLength_eq)
  have hsequence := hof.sequenceLength_eq
  rw [← hcontext, Nat.min_eq_right h.chunk] at hsequence
  have htokens := hof.tokens_eq
  have hslots := hof.slots_eq
  rw [← hcontext, hsequence] at htokens hslots
  refine ⟨?_, ?_, ?_⟩
  . exact (Except.ok.inj (h.sequenceTokens_eq.symm.trans htokens)).symm
  . rw [← hcontext, hsequence, Nat.add_sub_cancel_left]
  . rw [h.slots_eq, Except.ok.injEq] at hslots
    rw [← hslots]
    simp [startIndex, hnone]

theorem inputPositions_of_prepareInputTensors {input : ModelInput}
    (h : worker.prepareInputTensors batch = .ok input)
    : ∃ inputs,
        List.Forall₂ (fun x input => worker.sequenceInput x.1 x.2 = .ok input) (sequencesOf batch)
            inputs
          ∧ input.inputTokens = inputs.flatMap (·.tokens)
          ∧ input.inputPositions = inputs.flatMap (fun input =>
              List.range' input.contextLength (input.sequenceLength - input.contextLength))
          ∧ input.attentionMetadata.slotMapping = inputs.flatMap (·.slots) := by
  rcases exists_inputs_of_prepareInputTensors h
    with ⟨inputs, maxBlockTableLen, hinputs, htokens, -, hmetadata⟩
  rcases Except.bind_eq_ok.mp h with ⟨vars, hvars, hrest⟩
  rcases exists_inputs hvars with ⟨inputs', hinputs', rfl⟩
  have hsame : inputs' = inputs := by
    refine List.right_unique_forall₂' ?_ hinputs' hinputs
    intro x input input' hinput hinput'
    exact Except.ok.inj (hinput.symm.trans hinput')
  subst hsame
  refine ⟨inputs', hinputs, htokens, ?_, ?_⟩
  . split at hrest
    . cases hrest
    . rcases Except.bind_eq_ok.mp hrest with ⟨attentionMetadata, -, hpure⟩
      cases hpure
      rw [foldl_push]
      rfl
  . rw [hmetadata]
    rfl

theorem zip_map_eq {α β γ δ : Type} (slot : Nat → α) (owner : Nat → β) (token : Nat → γ)
    (entry : β × Nat × γ → δ) (positions : List Nat)
    : (positions.map slot).zip
          (((positions.map owner).zip (positions.zip (positions.map token))).map entry)
        = positions.map fun i => (slot i, entry (owner i, i, token i)) := by
  induction positions with
  | nil => rfl
  | cons i positions ih =>
    simp only [List.map_cons, List.zip_cons_cons, ih]

/--
The sequences have a place for each token.
-/
def AllFit (worker : ModelWorker)
    (xs : List (SequenceGroupMetadata × Sigma fun _ : Nat => SequenceData)) : Prop :=
  ∀ x ∈ xs, ∃ blockTable, worker.Fits x.1 x.2.1 x.2.2 blockTable

theorem allFit_of_fits
    (hfits : ∀ metadata ∈ batch, ∃ sequenceId data blockTable,
      worker.Fits metadata sequenceId data blockTable)
    : worker.AllFit (sequencesOf batch) := by
  intro x hx
  rcases mem_of_mem_sequencesOf hx with ⟨hmetadata, hentry⟩
  rcases hfits x.1 hmetadata with ⟨sequenceId, data, blockTable, hfit⟩
  rw [hfit.sequenceData_eq] at hentry
  have hentry : x.2 = ⟨sequenceId, data⟩ := List.mem_singleton.mp hentry
  rw [hentry]
  exact ⟨blockTable, hfit⟩

theorem sequencesOf_ne_nil
    (hfits : ∀ metadata ∈ batch, ∃ sequenceId data blockTable,
      worker.Fits metadata sequenceId data blockTable)
    (hne : batch ≠ []) : sequencesOf batch ≠ [] := by
  rcases List.exists_mem_of_ne_nil _ hne with ⟨metadata, hmetadata⟩
  rcases hfits metadata hmetadata with ⟨sequenceId, data, blockTable, hfit⟩
  have hmem : (metadata, (⟨sequenceId, data⟩ : Sigma fun _ : Nat => SequenceData))
      ∈ sequencesOf batch := by
    refine List.mem_flatMap.mpr ⟨metadata, hmetadata, ?_⟩
    rw [hfit.sequenceData_eq]
    exact List.mem_singleton_self _
  exact List.ne_nil_of_mem hmem

theorem zip_inputs_eq (hnone : worker.slidingWindow = none)
    {x : SequenceGroupMetadata × Sigma fun _ : Nat => SequenceData}
    (hfits : worker.Fits x.1 x.2.1 x.2.2 blockTable) {input : SequenceInput}
    (hinput : worker.sequenceInput x.1 x.2 = .ok input)
    : input.slots.length = x.1.tokenChunkSize
        ∧ input.tokens.length = x.1.tokenChunkSize
        ∧ input.sequenceLength - input.contextLength = x.1.tokenChunkSize
        ∧ input.slots.zip
              (((List.replicate input.tokens.length x.2.1).zip
                ((List.range' input.contextLength
                  (input.sequenceLength - input.contextLength)).zip input.tokens)).map
                    fun entry => KvEntry.mk entry.1 entry.2.1 entry.2.2)
            = worker.sequenceWrites x := by
  rcases hfits.input_eq hnone hinput with ⟨htokens, hpositions, hslots⟩
  have hlengths := congrArg List.length hpositions
  rw [List.length_range', List.length_range'] at hlengths
  rw [nextTokenIds_eq_map hfits.chunk] at htokens
  have hreplicate : List.replicate input.tokens.length x.2.1
      = (List.range' x.2.2.numComputedTokens x.1.tokenChunkSize).map fun _ => x.2.1 := by
    rw [htokens, List.length_map, List.length_range', List.map_const', List.length_range']
  refine ⟨?_, ?_, hlengths, ?_⟩
  . rw [hslots, List.length_map, List.length_range']
  . rw [htokens, List.length_map, List.length_range']
  . unfold sequenceWrites
    rw [hfits.lookup_blockTables, hreplicate, hpositions, hslots, htokens]
    exact zip_map_eq _ _ _ _ _

/--
Every token is written as what it is, and to its place.
-/
theorem writes_eq (hnone : worker.slidingWindow = none)
    (hfits : worker.AllFit (sequencesOf batch)) {input : ModelInput}
    (h : worker.prepareInputTensors batch = .ok input)
    : worker.writes batch input = (sequencesOf batch).flatMap worker.sequenceWrites := by
  rcases inputPositions_of_prepareInputTensors h
    with ⟨inputs, hinputs, htokens, hpositions, hslots⟩
  unfold writes kvEntries owners
  rw [htokens, hpositions, hslots]
  clear htokens hpositions hslots h
  generalize sequencesOf batch = xs at hinputs hfits
  induction hinputs with
  | nil => rfl
  | @cons x input xs inputs hinput _ ih =>
    rcases hfits x List.mem_cons_self with ⟨blockTable, hfit⟩
    rcases zip_inputs_eq hnone hfit hinput with ⟨hslots, htokens, hpositions, hzip⟩
    have hrest := ih fun x' hx' => hfits x' (List.mem_cons_of_mem _ hx')
    have hrow : (List.range' input.contextLength
        (input.sequenceLength - input.contextLength)).length = input.tokens.length := by
      rw [List.length_range', hpositions, htokens]
    simp only [List.flatMap_cons, hinput]
    rw [List.zip_append hrow, List.zip_append, List.map_append, List.zip_append, hrest]
    . exact congrArg (· ++ _) hzip
    . rw [List.length_map, List.length_zip, List.length_zip, List.length_replicate, hrow,
        Nat.min_self, Nat.min_self, hslots, htokens]
    . rw [List.length_zip, List.length_replicate, hrow, Nat.min_self]

theorem checkSlots_eq (hnone : worker.slidingWindow = none)
    (hfits : worker.AllFit (sequencesOf batch)) {input : ModelInput}
    (h : worker.prepareInputTensors batch = .ok input) : checkSlots input = .ok () := by
  rcases inputPositions_of_prepareInputTensors h
    with ⟨inputs, hinputs, htokens, -, hslots⟩
  have hlengths : inputs.map (·.tokens.length) = inputs.map (·.slots.length) := by
    apply List.map_congr_left
    intro input hinput
    rcases hinputs.flip.exists_of_mem hinput with ⟨x, hx, hok⟩
    rcases hfits x hx with ⟨blockTable, hfit⟩
    rcases zip_inputs_eq hnone hfit hok with ⟨hslots, htokens, -⟩
    rw [hslots, htokens]
  unfold checkSlots
  rw [htokens, hslots, List.length_flatMap, List.length_flatMap, hlengths, if_pos rfl]

theorem exists_prepareInputTensors
    (hfits : ∀ metadata ∈ batch, ∃ sequenceId data blockTable,
      worker.Fits metadata sequenceId data blockTable)
    (hne : batch ≠ []) : ∃ input, worker.prepareInputTensors batch = .ok input := by
  rcases foldlM_prepareGroup hfits InputVars.start with ⟨vars, hvars, -, -, htables⟩
  rcases exists_inputs hvars with ⟨inputs, -, rfl⟩
  have hinputs : inputs ≠ [] := by
    rintro rfl
    exact htables hne rfl
  rcases prepareInputTensors_of_inputs hvars hinputs with ⟨input, -, hinput, -⟩
  exact ⟨input, hinput⟩

/--
What the worker does in the order of its lists is one of the things that it may do.
-/
theorem executesCache_of_executeCache {request : ExecuteModelRequest} {cache cache' : KvCache}
    (h : worker.executeCache request cache = .ok cache')
    : worker.ExecutesCache request cache cache' := by
  have hswaps : cache.Swaps request (cache.cacheSwap request) := .intro _ _ _ .rfl .rfl .rfl
  unfold executeCache at h
  dsimp only at h
  split at h
  . next hempty =>
    cases h
    exact .empty hswaps (List.isEmpty_iff.mp hempty)
  . rcases Except.bind_eq_ok.mp h with ⟨input, hinput, h⟩
    rcases Except.bind_eq_ok.mp h with ⟨_, hslots, hpure⟩
    cases hpure
    exact .forward hswaps hinput hslots .rfl

theorem exists_executeCache {request : ExecuteModelRequest} (hnone : worker.slidingWindow = none)
    (hfits : ∀ metadata ∈ request.sequenceGroupsMetadata, ∃ sequenceId data blockTable,
      worker.Fits metadata sequenceId data blockTable)
    (cache : KvCache) : ∃ cache', worker.executeCache request cache = .ok cache' := by
  unfold executeCache
  dsimp only
  split
  . exact ⟨_, rfl⟩
  . next hempty =>
    rcases exists_prepareInputTensors hfits fun hnil => hempty (by rw [hnil]; rfl)
      with ⟨input, hinput⟩
    rw [hinput]
    simp only [bind, Except.bind, checkSlots_eq hnone (allFit_of_fits hfits) hinput]
    exact ⟨_, rfl⟩

end Writes

end ModelWorker

namespace KvCache

variable {request : ExecuteModelRequest} {cache swapped : KvCache} {blockSize : Nat}
variable {writes : List (Int × KvEntry)} {block : SyncPhysicalTokenBlock} {offset : Nat}

/--
The slot is the place at `offset` in a block of the GPU.
-/
def Addresses (blockSize : Nat) (slot : Int) (block : SyncPhysicalTokenBlock) (offset : Nat) : Prop :=
  block.device = .gpu ∧ slot = ((block.blockNumber * blockSize + offset : Nat) : Int)
    ∧ offset < blockSize

theorem write_of_addresses {slot : Int} (h : Addresses blockSize slot block offset)
    (entry : KvEntry) : cache.write blockSize slot entry block offset = some entry := by
  rcases h with ⟨hdevice, rfl, hlt⟩
  have hpos : 0 < blockSize := by omega
  have hdiv : (block.blockNumber * blockSize + offset) / blockSize = block.blockNumber := by
    rw [Nat.add_comm, Nat.add_mul_div_right _ _ hpos, Nat.div_eq_of_lt hlt, Nat.zero_add]
  have hmod : (block.blockNumber * blockSize + offset) % blockSize = offset := by
    rw [Nat.add_comm, Nat.add_mul_mod_self_right, Nat.mod_eq_of_lt hlt]
  have hblock : (⟨.gpu, block.blockNumber⟩ : SyncPhysicalTokenBlock) = block :=
    SyncPhysicalTokenBlock.ext hdevice.symm rfl
  unfold write
  rw [if_neg (by omega), Int.toNat_natCast, hdiv, hmod, hblock, Function.update_self, Function.update_self]

theorem write_of_not_addresses {slot : Int} (hsize : 0 < blockSize)
    (h : ¬ Addresses blockSize slot block offset) (entry : KvEntry)
    : cache.write blockSize slot entry block offset = cache block offset := by
  unfold write
  split
  . rfl
  . next hslot =>
    dsimp only
    by_cases hblock : block = ⟨.gpu, slot.toNat / blockSize⟩
    . subst hblock
      rw [Function.update_self, Function.update_of_ne]
      intro hoffset
      refine h ⟨rfl, ?_, ?_⟩
      . have hdiv := Nat.div_add_mod slot.toNat blockSize
        rw [hoffset, Nat.mul_comm, hdiv]
        omega
      . rw [hoffset]
        exact Nat.mod_lt _ hsize
    . rw [Function.update_of_ne hblock]

theorem reshapeAndCacheFlash_of_forall (hsize : 0 < blockSize)
    (h : ∀ written ∈ writes, ¬ Addresses blockSize written.1 block offset)
    : reshapeAndCacheFlash blockSize writes cache block offset = cache block offset := by
  induction writes generalizing cache with
  | nil => rfl
  | cons first writes ih =>
    change reshapeAndCacheFlash blockSize writes (cache.write blockSize first.1 first.2) block offset
      = _
    rw [ih fun written hwritten => h written (List.mem_cons_of_mem _ hwritten),
      write_of_not_addresses hsize (h first List.mem_cons_self)]

/--
A slot that only one entry is written to.
-/
theorem reshapeAndCacheFlash_of_mem (hsize : 0 < blockSize) {entry : KvEntry}
    (hexists : ∃ written ∈ writes, Addresses blockSize written.1 block offset)
    (hall : ∀ written ∈ writes, Addresses blockSize written.1 block offset → written.2 = entry)
    : reshapeAndCacheFlash blockSize writes cache block offset = some entry := by
  induction writes generalizing cache with
  | nil =>
    rcases hexists with ⟨_, hmem, -⟩
    cases hmem
  | cons first writes ih =>
    change reshapeAndCacheFlash blockSize writes (cache.write blockSize first.1 first.2) block offset
      = _
    have hrest : ∀ written ∈ writes,
        Addresses blockSize written.1 block offset → written.2 = entry :=
      fun written hwritten => hall written (List.mem_cons_of_mem _ hwritten)
    by_cases hlater : ∃ written ∈ writes, Addresses blockSize written.1 block offset
    . exact ih hlater hrest
    . -- the slot is written by the first entry only
      rcases hexists with ⟨written, hwritten, haddress⟩
      rcases List.mem_cons.mp hwritten with rfl | hmem
      . rw [reshapeAndCacheFlash_of_forall hsize, write_of_addresses haddress,
          hall written List.mem_cons_self haddress]
        exact fun other hother haddresses => hlater ⟨other, hother, haddresses⟩
      . exact absurd ⟨written, hmem, haddress⟩ hlater

theorem Addresses.eq {slot : Int} {block' : SyncPhysicalTokenBlock} {offset' : Nat}
    (h : Addresses blockSize slot block offset) (h' : Addresses blockSize slot block' offset')
    : block = block' ∧ offset = offset' := by
  rcases h with ⟨hdevice, rfl, hlt⟩
  rcases h' with ⟨hdevice', heq, hlt'⟩
  have heq : block.blockNumber * blockSize + offset = block'.blockNumber * blockSize + offset' :=
    Int.ofNat.inj heq
  have hoffset : offset = offset' := by
    have hmod := congrArg (· % blockSize) heq
    simpa [Nat.mul_add_mod_self_right, Nat.mod_eq_of_lt hlt, Nat.mod_eq_of_lt hlt'] using hmod
  subst hoffset
  have hnumber := Nat.eq_of_mul_eq_mul_right (by omega) (Nat.add_right_cancel heq)
  exact ⟨SyncPhysicalTokenBlock.ext (hdevice.trans hdevice'.symm) hnumber, rfl⟩

/--
The first `n` tokens of a sequence are in the blocks of the table.
-/
def Holds (cache : KvCache) (blockSize sequenceId : Nat) (blockTable : BlockTable)
    (tokenIds : List Nat) (n : Nat) : Prop :=
  ∀ p < n, ∃ block tokenId,
    blockTable[p / blockSize]? = some block
      ∧ tokenIds[p]? = some tokenId
      ∧ cache block (p % blockSize) = some ⟨sequenceId, p, tokenId⟩

end KvCache

namespace ModelWorker

variable {worker : ModelWorker} {blockTable : BlockTable}
variable {x : SequenceGroupMetadata × Sigma fun _ : Nat => SequenceData}

/--
The sequence has a place for each token, in blocks of the GPU.
-/
structure Places (worker : ModelWorker)
    (x : SequenceGroupMetadata × Sigma fun _ : Nat => SequenceData) (blockTable : BlockTable)
    : Prop where
  fits : worker.Fits x.1 x.2.1 x.2.2 (blockTable.map (·.blockNumber))
  device_eq : ∀ block ∈ blockTable, block.device = .gpu

theorem Places.addresses (h : worker.Places x blockTable) {i : Nat}
    (hi : i < x.2.2.numComputedTokens + x.1.tokenChunkSize)
    : ∃ block,
        blockTable[i / worker.blockSize]? = some block
          ∧ KvCache.Addresses worker.blockSize
              (worker.place (blockTable.map (·.blockNumber)) i) block (i % worker.blockSize) := by
  have hplaces := h.fits.places
  have hchunk := h.fits.chunk
  rw [List.length_map] at hplaces
  have hlt : i / worker.blockSize < blockTable.length :=
    (Nat.div_lt_iff_lt_mul h.fits.blockSize_pos).mpr (by omega)
  refine ⟨blockTable[i / worker.blockSize], List.getElem?_eq_getElem hlt,
    h.device_eq _ (List.getElem_mem hlt), ?_, Nat.mod_lt _ h.fits.blockSize_pos⟩
  unfold place
  rw [List.getD_eq_getElem?_getD, List.getElem?_map, List.getElem?_eq_getElem hlt]
  rfl

/--
What is written for the token of the sequence at `i`, which the batch computes.
-/
structure WritesAt (worker : ModelWorker)
    (x : SequenceGroupMetadata × Sigma fun _ : Nat => SequenceData) (blockTable : BlockTable)
    (i : Nat) (written : Int × KvEntry) : Prop where
  low : x.2.2.numComputedTokens ≤ i
  high : i < x.2.2.numComputedTokens + x.1.tokenChunkSize
  place : ∃ block,
    blockTable[i / worker.blockSize]? = some block
      ∧ KvCache.Addresses worker.blockSize written.1 block (i % worker.blockSize)
  entry : ∃ tokenId, x.2.2.getTokenIds[i]? = some tokenId ∧ written.2 = ⟨x.2.1, i, tokenId⟩

theorem Places.writesAt (h : worker.Places x blockTable) {i : Nat}
    (hlow : x.2.2.numComputedTokens ≤ i)
    (hhigh : i < x.2.2.numComputedTokens + x.1.tokenChunkSize)
    : worker.WritesAt x blockTable i
        (worker.place ((x.1.blockTables.lookup x.2.1).getD []) i,
          { sequenceId := x.2.1, position := i, tokenId := x.2.2.getTokenIds.getD i 0 }) := by
  have hchunk := h.fits.chunk
  have hlt : i < x.2.2.getTokenIds.length := by
    rw [SequenceData.length_getTokenIds]
    omega
  refine ⟨hlow, hhigh, ?_, x.2.2.getTokenIds[i], List.getElem?_eq_getElem hlt, ?_⟩
  . rw [h.fits.lookup_blockTables]
    exact h.addresses hhigh
  . rw [List.getD_eq_getElem?_getD, List.getElem?_eq_getElem hlt]
    rfl

theorem Places.writesAt_of_mem (h : worker.Places x blockTable) {written : Int × KvEntry}
    (hwritten : written ∈ worker.sequenceWrites x)
    : ∃ i, worker.WritesAt x blockTable i written := by
  rcases List.mem_map.mp hwritten with ⟨i, hi, rfl⟩
  rw [List.mem_range'_1] at hi
  exact ⟨i, h.writesAt hi.1 hi.2⟩

theorem Places.exists_writesAt (h : worker.Places x blockTable) {i : Nat}
    (hlow : x.2.2.numComputedTokens ≤ i)
    (hhigh : i < x.2.2.numComputedTokens + x.1.tokenChunkSize)
    : ∃ written ∈ worker.sequenceWrites x, worker.WritesAt x blockTable i written :=
  ⟨_, List.mem_map_of_mem (List.mem_range'_1.mpr ⟨hlow, hhigh⟩), h.writesAt hlow hhigh⟩

/--
A batch of different sequences, whose tables have no block in common.
-/
structure PlacesBatch (worker : ModelWorker) (tables : Nat → Option BlockTable)
    (xs : List (SequenceGroupMetadata × Sigma fun _ : Nat => SequenceData)) : Prop where
  blockSize_pos : 0 < worker.blockSize
  places : ∀ x ∈ xs, ∃ blockTable, tables x.2.1 = some blockTable ∧ worker.Places x blockTable
  nodup : ∀ sequenceId blockTable, tables sequenceId = some blockTable → blockTable.Nodup
  unshared : ∀ sequenceId sequenceId' blockTable blockTable' block,
    tables sequenceId = some blockTable → tables sequenceId' = some blockTable' →
      block ∈ blockTable → block ∈ blockTable' → sequenceId = sequenceId'
  eq_of_sequenceId_eq : ∀ x ∈ xs, ∀ x' ∈ xs, x.2.1 = x'.2.1 → x = x'

section Batch

variable {tables : Nat → Option BlockTable}
variable {xs : List (SequenceGroupMetadata × Sigma fun _ : Nat => SequenceData)}
variable {order : List (Int × KvEntry)} {cache : KvCache}

theorem PlacesBatch.allFit (h : worker.PlacesBatch tables xs) : worker.AllFit xs := by
  intro x hx
  rcases h.places x hx with ⟨blockTable, -, hplaces⟩
  exact ⟨_, hplaces.fits⟩

section Bound

variable {numBlocks : Nat} (h : worker.PlacesBatch tables xs)
variable (hbound : ∀ sequenceId blockTable, tables sequenceId = some blockTable →
  ∀ block ∈ blockTable, block.device = .gpu → block.blockNumber < numBlocks)
include h hbound

/--
The slots that are written are in the blocks of the tables.
-/
theorem PlacesBatch.written_lt
    : ∀ written ∈ xs.flatMap worker.sequenceWrites,
        written.1.toNat / worker.blockSize < numBlocks := by
  intro written hwritten
  rcases List.mem_flatMap.mp hwritten with ⟨x, hx, hwritten⟩
  rcases h.places x hx with ⟨blockTable, htable, hplaces⟩
  rcases hplaces.writesAt_of_mem hwritten with ⟨i, hwrites⟩
  rcases hwrites.place with ⟨block, hblock, hdevice, hslot, hoffset⟩
  rw [hslot, Int.toNat_natCast, Nat.add_comm, Nat.add_mul_div_right _ _ h.blockSize_pos,
    Nat.div_eq_of_lt hoffset, Nat.zero_add]
  exact hbound _ _ htable block (List.mem_of_getElem? hblock) hdevice

theorem PlacesBatch.blockNumber_lt (hx : x ∈ xs) {table : List Nat} {i blockNumber : Nat}
    (htable : x.1.blockTables.lookup x.2.1 = some table) (hget : table[i]? = some blockNumber)
    : blockNumber < numBlocks := by
  rcases h.places x hx with ⟨blockTable, hlookup, hplaces⟩
  cases htable.symm.trans hplaces.fits.lookup_blockTables
  rcases List.mem_map.mp (List.mem_of_getElem? hget) with ⟨block, hmem, rfl⟩
  exact hbound _ _ hlookup block hmem (hplaces.device_eq block hmem)

end Bound

/--
A write to the place of a token is for this token.
-/
theorem PlacesBatch.exists_of_addresses (h : worker.PlacesBatch tables xs)
    (horder : order.Perm (xs.flatMap worker.sequenceWrites)) {written : Int × KvEntry}
    (hwritten : written ∈ order) {sequenceId p : Nat} {block : SyncPhysicalTokenBlock}
    (htable : tables sequenceId = some blockTable)
    (hblock : blockTable[p / worker.blockSize]? = some block)
    (haddress : KvCache.Addresses worker.blockSize written.1 block (p % worker.blockSize))
    : ∃ x ∈ xs, x.2.1 = sequenceId ∧ worker.WritesAt x blockTable p written := by
  rcases List.mem_flatMap.mp (horder.mem_iff.mp hwritten) with ⟨x, hx, hwritten⟩
  rcases h.places x hx with ⟨blockTable', htable', hplaces⟩
  rcases hplaces.writesAt_of_mem hwritten with ⟨i, hwrites⟩
  rcases hwrites.place with ⟨block', hblock', haddress'⟩
  rcases haddress.eq haddress' with ⟨rfl, hoffset⟩
  have hid : x.2.1 = sequenceId := h.unshared _ _ _ _ block htable' htable
    (List.mem_of_getElem? hblock') (List.mem_of_getElem? hblock)
  rw [hid, htable, Option.some.injEq] at htable'
  subst htable'
  have hindex : p / worker.blockSize = i / worker.blockSize := by
    have hlt := (List.getElem?_eq_some_iff.mp hblock).1
    exact (List.getElem?_inj hlt (h.nodup _ _ htable)).mp (hblock.trans hblock'.symm)
  have hp := Nat.div_add_mod p worker.blockSize
  rw [hindex, hoffset, Nat.div_add_mod] at hp
  subst hp
  exact ⟨x, hx, hid, hwrites⟩

theorem PlacesBatch.reshapeAndCacheFlash_of_lt (h : worker.PlacesBatch tables xs)
    (horder : order.Perm (xs.flatMap worker.sequenceWrites)) {sequenceId p : Nat}
    {block : SyncPhysicalTokenBlock} (htable : tables sequenceId = some blockTable)
    (hblock : blockTable[p / worker.blockSize]? = some block)
    (hcomputed : ∀ x ∈ xs, x.2.1 = sequenceId → p < x.2.2.numComputedTokens)
    : KvCache.reshapeAndCacheFlash worker.blockSize order cache block (p % worker.blockSize)
        = cache block (p % worker.blockSize) := by
  refine KvCache.reshapeAndCacheFlash_of_forall h.blockSize_pos ?_
  intro written hwritten haddress
  rcases h.exists_of_addresses horder hwritten htable hblock haddress with ⟨x, hx, hid, hwrites⟩
  exact absurd hwrites.low (Nat.not_le.mpr (hcomputed x hx hid))

theorem PlacesBatch.holds_of_mem (h : worker.PlacesBatch tables xs)
    (horder : order.Perm (xs.flatMap worker.sequenceWrites)) (hx : x ∈ xs)
    (htable : tables x.2.1 = some blockTable)
    (hholds : cache.Holds worker.blockSize x.2.1 blockTable x.2.2.getTokenIds
      x.2.2.numComputedTokens)
    : (KvCache.reshapeAndCacheFlash worker.blockSize order cache).Holds worker.blockSize x.2.1
        blockTable x.2.2.getTokenIds (x.2.2.numComputedTokens + x.1.tokenChunkSize) := by
  intro p hp
  rcases Nat.lt_or_ge p x.2.2.numComputedTokens with hlt | hge
  . rcases hholds p hlt with ⟨block, tokenId, hblock, htoken, hcell⟩
    refine ⟨block, tokenId, hblock, htoken, ?_⟩
    rw [h.reshapeAndCacheFlash_of_lt horder htable hblock, hcell]
    intro x' hx' hid
    rwa [h.eq_of_sequenceId_eq x' hx' x hx hid]
  . rcases h.places x hx with ⟨blockTable', htable', hplaces⟩
    cases htable.symm.trans htable'
    rcases hplaces.exists_writesAt hge hp with ⟨written, hwritten, hwrites⟩
    rcases hwrites.place with ⟨block, hblock, haddress⟩
    rcases hwrites.entry with ⟨tokenId, htoken, hentry⟩
    refine ⟨block, tokenId, hblock, htoken, ?_⟩
    refine KvCache.reshapeAndCacheFlash_of_mem h.blockSize_pos ⟨written, ?_, haddress⟩ ?_
    . exact horder.mem_iff.mpr (List.mem_flatMap.mpr ⟨x, hx, hwritten⟩)
    . intro other hother hother'
      rcases h.exists_of_addresses horder hother htable hblock hother' with ⟨x', hx', hid, hwrites'⟩
      cases h.eq_of_sequenceId_eq x' hx' x hx hid
      rcases hwrites'.entry with ⟨tokenId', htoken', hentry'⟩
      cases htoken.symm.trans htoken'
      exact hentry'

theorem PlacesBatch.holds_of_notMem (h : worker.PlacesBatch tables xs)
    (horder : order.Perm (xs.flatMap worker.sequenceWrites)) {sequenceId n : Nat}
    {tokenIds : List Nat} (hnotMem : ∀ x ∈ xs, x.2.1 ≠ sequenceId)
    (htable : tables sequenceId = some blockTable)
    (hholds : cache.Holds worker.blockSize sequenceId blockTable tokenIds n)
    : (KvCache.reshapeAndCacheFlash worker.blockSize order cache).Holds worker.blockSize sequenceId
        blockTable tokenIds n := by
  intro p hp
  rcases hholds p hp with ⟨block, tokenId, hblock, htoken, hcell⟩
  refine ⟨block, tokenId, hblock, htoken, ?_⟩
  rw [h.reshapeAndCacheFlash_of_lt horder htable hblock, hcell]
  exact fun x hx hid => absurd hid (hnotMem x hx)

end Batch

end ModelWorker

end AtomaInfer
