import AtomaInfer.Worker.Batch

/-!
The inputs that the worker prepares for a batch of groups with one sequence each.
-/

namespace AtomaInfer

theorem SequenceData.getLastTokenId_eq (data : SequenceData)
    : data.getLastTokenId = data.getTokenIds.getLast? := by
  unfold getLastTokenId getTokenIds
  split
  . next hempty => rw [List.isEmpty_iff.mp hempty, List.append_nil]
  . next hempty =>
    rw [List.isEmpty_iff] at hempty
    rw [List.getLast?_append_of_ne_nil _ hempty]

/--
The tokens that come after the computed ones.
-/
def SequenceData.nextTokenIds (data : SequenceData) (tokenChunkSize : Nat) : List Nat :=
  (data.getTokenIds.drop data.numComputedTokens).take tokenChunkSize

/--
The tokens of a group that a batch computes.
-/
def SequenceGroupMetadata.nextTokenIds (metadata : SequenceGroupMetadata) : List Nat :=
  metadata.sequenceData.entries.flatMap fun entry => entry.2.nextTokenIds metadata.tokenChunkSize

theorem filter_isPrompt_eq {prompts decodes : List SequenceGroupMetadata}
    (hprompts : ∀ metadata ∈ prompts, metadata.isPrompt = true)
    (hdecodes : ∀ metadata ∈ decodes, metadata.isPrompt = false)
    : (prompts ++ decodes).filter (·.isPrompt) = prompts := by
  rw [List.filter_append, List.filter_eq_self.mpr hprompts,
    List.filter_eq_nil_iff.mpr (by simpa using hdecodes), List.append_nil]

namespace ModelWorker

/--
The metadata of a sequence that has a place for each token.
-/
structure Fits (worker : ModelWorker) (metadata : SequenceGroupMetadata) (sequenceId : Nat)
    (data : SequenceData) (blockTable : List Nat) : Prop where
  sequenceData_eq : metadata.sequenceData = AList.insert sequenceId data ∅
  blockTables_eq : metadata.blockTables = AList.insert sequenceId blockTable ∅
  pos : 1 ≤ metadata.tokenChunkSize
  chunk : data.numComputedTokens + metadata.tokenChunkSize ≤ data.length
  decode : metadata.isPrompt = false → data.numComputedTokens + 1 = data.length
  blockSize_pos : 0 < worker.blockSize
  places : data.length ≤ blockTable.length * worker.blockSize

/--
The first position of a prompt that is cached.
-/
def startIndex (worker : ModelWorker) (queryLength : Nat) : Nat :=
  match worker.slidingWindow with
  | none => 0
  | some slidingWindow => queryLength - slidingWindow

/--
The place of a token in the cache.
-/
def place (worker : ModelWorker) (blockTable : List Nat) (i : Nat) : Int :=
  ((blockTable.getD (i / worker.blockSize) 0 * worker.blockSize + i % worker.blockSize : Nat) : Int)

variable {worker : ModelWorker} {metadata : SequenceGroupMetadata} {sequenceId : Nat}
variable {data : SequenceData} {blockTable : List Nat}

theorem Fits.lookup_blockTables (h : worker.Fits metadata sequenceId data blockTable)
    : metadata.blockTables.lookup sequenceId = some blockTable := by
  rw [h.blockTables_eq]
  exact AList.lookup_insert _

theorem Fits.contextLength_eq (h : worker.Fits metadata sequenceId data blockTable)
    : contextLength metadata.isPrompt data = .ok data.numComputedTokens := by
  unfold contextLength
  cases hprompt : metadata.isPrompt with
  | true => rfl
  | false =>
    have hlength := h.decode hprompt
    rw [if_neg (by simp), if_neg (by omega), ← hlength]
    rfl

theorem Fits.sequenceTokens_eq (h : worker.Fits metadata sequenceId data blockTable)
    : sequenceTokens metadata.isPrompt data data.numComputedTokens
          (data.numComputedTokens + metadata.tokenChunkSize)
        = .ok (data.nextTokenIds metadata.tokenChunkSize) := by
  have hlength := data.length_getTokenIds
  have hchunk := h.chunk
  have hpos := h.pos
  unfold sequenceTokens SequenceData.nextTokenIds
  cases hprompt : metadata.isPrompt with
  | true =>
    rw [if_pos rfl, if_pos (by omega), List.drop_take]
    congr
    omega
  | false =>
    have hdecode := h.decode hprompt
    have hone : metadata.tokenChunkSize = 1 := by omega
    rw [if_neg (by simp), SequenceData.getLastTokenId_eq, hone]
    have hdrop : data.getTokenIds.drop data.numComputedTokens
        = [data.getTokenIds.getLast (by intro hnil; simp [hnil] at hlength; omega)] := by
      rw [← List.drop_length_sub_one]
      congr
      omega
    rw [hdrop, List.getLast?_eq_some_getLast]
    rfl

theorem slot_eq_ok {startIndex i : Nat} (hsize : 0 < worker.blockSize)
    (hi : i < blockTable.length * worker.blockSize)
    : worker.slot blockTable startIndex i
        = .ok (if i < startIndex then padSlotId else worker.place blockTable i) := by
  have hlt : i / worker.blockSize < blockTable.length := (Nat.div_lt_iff_lt_mul hsize).mpr hi
  unfold slot
  split
  . rfl
  . rw [if_neg (by omega), List.getElem?_eq_getElem hlt]
    unfold place
    rw [List.getD_eq_getElem?_getD, List.getElem?_eq_getElem hlt]
    rfl

theorem Fits.slots_eq (h : worker.Fits metadata sequenceId data blockTable) (queryLength : Nat)
    : worker.slots metadata sequenceId data.numComputedTokens
          (data.numComputedTokens + metadata.tokenChunkSize) queryLength
        = .ok ((List.range' data.numComputedTokens metadata.tokenChunkSize).map fun i =>
            if i < worker.startIndex queryLength then padSlotId else worker.place blockTable i) := by
  have hnonempty : ¬ metadata.blockTables.entries.isEmpty = true := by
    rw [h.blockTables_eq]
    simp
  unfold slots
  rw [if_neg hnonempty, h.lookup_blockTables]
  dsimp only
  rw [Nat.add_sub_cancel_left]
  apply Except.mapM_eq_ok
  intro i hi
  rw [List.mem_range'_1] at hi
  have hchunk := h.chunk
  have hplaces := h.places
  exact slot_eq_ok h.blockSize_pos (by omega)

theorem Fits.kernelBlockTable_eq (h : worker.Fits metadata sequenceId data blockTable)
    : ∃ table, worker.kernelBlockTable metadata sequenceId = .ok table := by
  have hpos := h.blockSize_pos
  unfold kernelBlockTable
  rw [h.lookup_blockTables]
  dsimp only
  split
  . split
    . exact ⟨_, rfl⟩
    . rw [if_neg (by omega)]
      exact ⟨_, rfl⟩
  . exact ⟨_, rfl⟩

/--
What a group adds to the inputs.
-/
structure Extends (worker : ModelWorker) (metadata : SequenceGroupMetadata) (data : SequenceData)
    (blockTable : List Nat) (vars vars' : InputVars) : Prop where
  inputTokens_eq : vars'.inputTokens = vars.inputTokens ++ metadata.nextTokenIds
  numPrefillTokens_eq : vars'.numPrefillTokens
    = vars.numPrefillTokens + if metadata.isPrompt then metadata.nextTokenIds.length else 0
  slotMapping_eq : worker.slidingWindow = none →
    vars'.slotMapping = vars.slotMapping
      ++ (List.range' data.numComputedTokens metadata.tokenChunkSize).map (worker.place blockTable)
  blockTables_ne_nil : vars'.blockTables ≠ []

theorem Fits.nextTokenIds_eq (h : worker.Fits metadata sequenceId data blockTable)
    : metadata.nextTokenIds = data.nextTokenIds metadata.tokenChunkSize := by
  unfold SequenceGroupMetadata.nextTokenIds
  rw [h.sequenceData_eq]
  exact List.append_nil _

theorem Fits.prepareGroup_eq (h : worker.Fits metadata sequenceId data blockTable) (vars : InputVars)
    : ∃ vars', worker.prepareGroup vars metadata = .ok vars'
        ∧ worker.Extends metadata data blockTable vars vars' := by
  have hentries : metadata.sequenceData.entries = [⟨sequenceId, data⟩] := by
    rw [h.sequenceData_eq]
    rfl
  have hmin : min data.length (data.numComputedTokens + metadata.tokenChunkSize)
      = data.numComputedTokens + metadata.tokenChunkSize := Nat.min_eq_right h.chunk
  rcases h.kernelBlockTable_eq with ⟨table, htable⟩
  unfold prepareGroup
  rw [hentries, List.foldlM_cons]
  unfold prepareSequence
  dsimp only
  rw [h.contextLength_eq]
  simp only [bind, Except.bind, hmin, h.sequenceTokens_eq, htable, hentries, h.slots_eq,
    List.length_singleton, ne_eq, not_true_eq_false, decide_false, Bool.and_false,
    Bool.false_eq_true, if_false]
  refine ⟨_, rfl, ?_, ?_, ?_, ?_⟩
  . dsimp only
    rw [h.nextTokenIds_eq]
  . dsimp only
    rw [h.nextTokenIds_eq]
    split <;> rfl
  . intro hnone
    simp [startIndex, hnone]
  . simp

/--
The inputs for a batch are those for its groups, one after the other.
-/
theorem foldlM_prepareGroup {batch : List SequenceGroupMetadata}
    (h : ∀ metadata ∈ batch, ∃ sequenceId data blockTable,
      worker.Fits metadata sequenceId data blockTable) (vars : InputVars)
    : ∃ vars', batch.foldlM worker.prepareGroup vars = .ok vars'
        ∧ vars'.inputTokens = vars.inputTokens ++ batch.flatMap (·.nextTokenIds)
        ∧ vars'.numPrefillTokens = vars.numPrefillTokens
            + ((batch.filter (·.isPrompt)).flatMap (·.nextTokenIds)).length
        ∧ (batch ≠ [] → vars'.blockTables ≠ []) := by
  induction batch generalizing vars with
  | nil => exact ⟨vars, rfl, by simp, by simp, fun hne => absurd rfl hne⟩
  | cons metadata batch ih =>
    rcases h metadata List.mem_cons_self with ⟨sequenceId, data, blockTable, hfits⟩
    rcases hfits.prepareGroup_eq vars with ⟨vars₁, hvars₁, hextends⟩
    rcases ih (fun metadata' hmetadata' => h metadata' (List.mem_cons_of_mem _ hmetadata')) vars₁
      with ⟨vars₂, hvars₂, htokens, hnumber, htables⟩
    refine ⟨vars₂, ?_, ?_, ?_, ?_⟩
    . rw [List.foldlM_cons, hvars₁]
      exact hvars₂
    . rw [htokens, hextends.inputTokens_eq, List.append_assoc, List.flatMap_cons]
    . rw [hnumber, hextends.numPrefillTokens_eq]
      cases hprompt : metadata.isPrompt <;> simp [hprompt, Nat.add_assoc]
    . intro _
      cases batch with
      | nil =>
        cases hvars₂
        exact hextends.blockTables_ne_nil
      | cons => exact htables (by simp)

/--
When the prompts come first, so do their tokens.
-/
theorem prepareInputTensors_eq {prompts decodes : List SequenceGroupMetadata}
    (h : ∀ metadata ∈ prompts ++ decodes, ∃ sequenceId data blockTable,
      worker.Fits metadata sequenceId data blockTable)
    (hprompts : ∀ metadata ∈ prompts, metadata.isPrompt = true)
    (hdecodes : ∀ metadata ∈ decodes, metadata.isPrompt = false)
    (hne : prompts ++ decodes ≠ [])
    : ∃ input, worker.prepareInputTensors (prompts ++ decodes) = .ok input
        ∧ input.inputTokens = (prompts ++ decodes).flatMap (·.nextTokenIds)
        ∧ input.inputTokens.take input.attentionMetadata.numPrefillTokens
            = prompts.flatMap (·.nextTokenIds) := by
  rcases foldlM_prepareGroup h InputVars.start with ⟨vars, hvars, htokens, hnumber, htables⟩
  rw [filter_isPrompt_eq hprompts hdecodes] at hnumber
  rcases exists_inputs hvars with ⟨inputs, -, rfl⟩
  have hinputs : inputs ≠ [] := by
    rintro rfl
    exact htables hne rfl
  rcases prepareInputTensors_of_inputs hvars hinputs with
    ⟨input, maxBlockTableLen, hinput, hinputTokens, -, hmetadata⟩
  rw [foldl_push] at htokens hnumber
  simp only [InputVars.start, List.nil_append, Nat.zero_add] at htokens hnumber
  refine ⟨input, hinput, ?_, ?_⟩
  . rw [hinputTokens, htokens]
  . have hprefill : input.attentionMetadata.numPrefillTokens
        = (prompts.flatMap (·.nextTokenIds)).length := by
      rw [hmetadata]
      exact hnumber
    rw [hinputTokens, htokens, hprefill, List.flatMap_append, List.take_left]

end ModelWorker

end AtomaInfer
