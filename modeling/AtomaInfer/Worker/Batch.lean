import AtomaInfer.Worker.Impl
import AtomaInfer.Scheduler.Conservation

/-!
The inputs of a batch, sequence by sequence: what the worker computes for each of them, and that the
tensors are these inputs one after the other.
-/

namespace AtomaInfer

/--
The sequences of a batch in the order of the tensors.
-/
def sequencesOf (batch : List SequenceGroupMetadata)
    : List (SequenceGroupMetadata × Sigma fun _ : Nat => SequenceData) :=
  batch.flatMap fun metadata => metadata.sequenceData.entries.map fun entry => (metadata, entry)

theorem sequencesOf_append (batch batch' : List SequenceGroupMetadata)
    : sequencesOf (batch ++ batch') = sequencesOf batch ++ sequencesOf batch' :=
  List.flatMap_append

theorem mem_of_mem_sequencesOf {batch : List SequenceGroupMetadata}
    {x : SequenceGroupMetadata × Sigma fun _ : Nat => SequenceData} (h : x ∈ sequencesOf batch)
    : x.1 ∈ batch ∧ x.2 ∈ x.1.sequenceData.entries := by
  rcases List.mem_flatMap.mp h with ⟨metadata, hmetadata, hx⟩
  rcases List.mem_map.mp hx with ⟨entry, hentry, rfl⟩
  exact ⟨hmetadata, hentry⟩

namespace ModelWorker

/--
What a sequence adds to the inputs.
-/
structure SequenceInput where
  isPrompt : Bool
  contextLength : Nat
  sequenceLength : Nat
  slidingSequenceLength : Nat
  queryLength : Nat
  tokens : List Nat
  blockTable : List Nat
  slots : List Int

def InputVars.push (vars : InputVars) (input : SequenceInput) : InputVars where
  inputTokens := vars.inputTokens ++ input.tokens
  inputPositions :=
    vars.inputPositions
      ++ List.range' input.contextLength (input.sequenceLength - input.contextLength)
  slotMapping := vars.slotMapping ++ input.slots
  sequenceLengths := vars.sequenceLengths ++ [input.slidingSequenceLength % 2 ^ 32]
  prefillSequenceLengths :=
    if input.isPrompt then vars.prefillSequenceLengths ++ [input.sequenceLength]
    else vars.prefillSequenceLengths
  decodeSequenceLengths :=
    if input.isPrompt then vars.decodeSequenceLengths
    else vars.decodeSequenceLengths ++ [input.slidingSequenceLength]
  contextLengths := vars.contextLengths ++ [input.contextLength % 2 ^ 32]
  queryLengths := vars.queryLengths ++ [input.queryLength % 2 ^ 32]
  blockTables := vars.blockTables ++ [input.blockTable]
  numPrefills := if input.isPrompt then vars.numPrefills + 1 else vars.numPrefills
  numPrefillTokens :=
    if input.isPrompt then vars.numPrefillTokens + input.tokens.length else vars.numPrefillTokens
  numDecodeTokens :=
    if input.isPrompt then vars.numDecodeTokens else vars.numDecodeTokens + input.queryLength

variable (worker : ModelWorker)

def sequenceInput (metadata : SequenceGroupMetadata) (entry : Sigma fun _ : Nat => SequenceData)
    : Except ModelWorkerError SequenceInput := do
  let isPrompt := metadata.isPrompt
  let contextLength ← contextLength isPrompt entry.2
  let sequenceLength := min entry.2.length (contextLength + metadata.tokenChunkSize)
  let tokens ← sequenceTokens isPrompt entry.2 contextLength sequenceLength
  let queryLength := if isPrompt then sequenceLength - contextLength else 1
  let slidingSequenceLength :=
    match worker.slidingWindow with
    | none => sequenceLength
    | some slidingWindow => if isPrompt then sequenceLength else min slidingWindow sequenceLength
  let blockTable ← worker.kernelBlockTable metadata entry.1
  if isPrompt && metadata.sequenceData.entries.length ≠ 1 then
    throw (.panic "Prompt should have only one sequence ID")
  let slots ← worker.slots metadata entry.1 contextLength sequenceLength queryLength
  return {
    isPrompt
    contextLength
    sequenceLength
    slidingSequenceLength
    queryLength
    tokens
    blockTable
    slots
  }

variable {worker}

/--
What `input` says about the sequence it is computed for.
-/
structure InputOf (worker : ModelWorker) (metadata : SequenceGroupMetadata)
    (entry : Sigma fun _ : Nat => SequenceData) (input : SequenceInput) : Prop where
  isPrompt_eq : input.isPrompt = metadata.isPrompt
  contextLength_eq : contextLength metadata.isPrompt entry.2 = .ok input.contextLength
  sequenceLength_eq :
    input.sequenceLength = min entry.2.length (input.contextLength + metadata.tokenChunkSize)
  queryLength_eq :
    input.queryLength
      = if metadata.isPrompt then input.sequenceLength - input.contextLength else 1
  slidingSequenceLength_eq :
    input.slidingSequenceLength
      = match worker.slidingWindow with
        | none => input.sequenceLength
        | some slidingWindow =>
          if metadata.isPrompt then input.sequenceLength
          else min slidingWindow input.sequenceLength
  tokens_eq :
    sequenceTokens metadata.isPrompt entry.2 input.contextLength input.sequenceLength
      = .ok input.tokens
  blockTable_eq : worker.kernelBlockTable metadata entry.1 = .ok input.blockTable
  slots_eq :
    worker.slots metadata entry.1 input.contextLength input.sequenceLength input.queryLength
      = .ok input.slots

theorem inputOf_of_eq_ok {metadata : SequenceGroupMetadata}
    {entry : Sigma fun _ : Nat => SequenceData} {input : SequenceInput}
    (h : worker.sequenceInput metadata entry = .ok input) : worker.InputOf metadata entry input := by
  unfold sequenceInput at h
  dsimp only at h
  rcases Except.bind_eq_ok.mp h with ⟨context, hcontext, h⟩
  rcases Except.bind_eq_ok.mp h with ⟨tokens, htokens, h⟩
  rcases Except.bind_eq_ok.mp h with ⟨blockTable, htable, h⟩
  split at h
  . cases h
  . rcases Except.bind_eq_ok.mp h with ⟨slots, hslots, h⟩
    cases h
    exact ⟨rfl, hcontext, rfl, rfl, rfl, htokens, htable, hslots⟩

theorem prepareSequence_eq (metadata : SequenceGroupMetadata) (vars : InputVars)
    (entry : Sigma fun _ : Nat => SequenceData)
    : worker.prepareSequence metadata vars entry
        = (worker.sequenceInput metadata entry).map vars.push := by
  unfold prepareSequence sequenceInput
  dsimp only
  cases contextLength metadata.isPrompt entry.2 with
  | error e => rfl
  | ok context =>
    simp only [bind, Except.bind]
    generalize hlength : min entry.2.length (context + metadata.tokenChunkSize) = length
    cases sequenceTokens metadata.isPrompt entry.2 context length with
    | error e => rfl
    | ok tokens =>
      dsimp only
      cases worker.kernelBlockTable metadata entry.1 with
      | error e => rfl
      | ok blockTable =>
        dsimp only
        split
        . rfl
        . generalize hslots : worker.slots metadata entry.1 context length _ = result
          cases result <;> rfl

theorem foldlM_prepareGroup_eq (batch : List SequenceGroupMetadata) (vars : InputVars)
    : batch.foldlM worker.prepareGroup vars
        = (sequencesOf batch).foldlM (fun vars x => worker.prepareSequence x.1 vars x.2) vars := by
  induction batch generalizing vars with
  | nil => rfl
  | cons metadata batch ih =>
    have hcons : sequencesOf (metadata :: batch)
        = metadata.sequenceData.entries.map (fun entry => (metadata, entry)) ++ sequencesOf batch := rfl
    rw [List.foldlM_cons, hcons, List.foldlM_append, List.foldlM_map]
    unfold prepareGroup
    congr
    funext vars'
    exact ih vars'

theorem foldl_push (inputs : List SequenceInput) (vars : InputVars)
    : inputs.foldl InputVars.push vars = {
        inputTokens := vars.inputTokens ++ inputs.flatMap (·.tokens)
        inputPositions :=
          vars.inputPositions
            ++ inputs.flatMap fun input =>
              List.range' input.contextLength (input.sequenceLength - input.contextLength)
        slotMapping := vars.slotMapping ++ inputs.flatMap (·.slots)
        sequenceLengths :=
          vars.sequenceLengths ++ inputs.map (·.slidingSequenceLength % 2 ^ 32)
        prefillSequenceLengths :=
          vars.prefillSequenceLengths ++ (inputs.filter (·.isPrompt)).map (·.sequenceLength)
        decodeSequenceLengths :=
          vars.decodeSequenceLengths
            ++ (inputs.filter (!·.isPrompt)).map (·.slidingSequenceLength)
        contextLengths := vars.contextLengths ++ inputs.map (·.contextLength % 2 ^ 32)
        queryLengths := vars.queryLengths ++ inputs.map (·.queryLength % 2 ^ 32)
        blockTables := vars.blockTables ++ inputs.map (·.blockTable)
        numPrefills := vars.numPrefills + (inputs.filter (·.isPrompt)).length
        numPrefillTokens :=
          vars.numPrefillTokens + ((inputs.filter (·.isPrompt)).map (·.tokens.length)).sum
        numDecodeTokens :=
          vars.numDecodeTokens + ((inputs.filter (!·.isPrompt)).map (·.queryLength)).sum
      } := by
  induction inputs generalizing vars with
  | nil => simp
  | cons input inputs ih =>
    rw [List.foldl_cons, ih]
    unfold InputVars.push
    cases hprompt : input.isPrompt <;> simp [hprompt, Nat.add_assoc, Nat.add_comm, Nat.add_left_comm]

/--
The local variables after the loop are the inputs of the sequences.
-/
theorem exists_inputs {batch : List SequenceGroupMetadata} {vars : InputVars}
    (h : batch.foldlM worker.prepareGroup InputVars.start = .ok vars)
    : ∃ inputs,
        List.Forall₂ (fun x input => worker.sequenceInput x.1 x.2 = .ok input) (sequencesOf batch)
          inputs
        ∧ vars = inputs.foldl InputVars.push InputVars.start := by
  rw [foldlM_prepareGroup_eq] at h
  apply Except.exists_of_foldlM _ h
  intro vars x
  exact prepareSequence_eq x.1 vars x.2

theorem length_cumulative (lengths : List Nat) : (cumulative lengths).length = lengths.length + 1 :=
  List.length_scanl

/--
The attention metadata of the inputs.
-/
def metadataOf (inputs : List SequenceInput) (maxBlockTableLen : Nat) : FlashAttentionMetadata :=
  let prompts := inputs.filter (·.isPrompt)
  let decodes := inputs.filter (!·.isPrompt)
  let sequenceLengths := inputs.map (·.slidingSequenceLength % 2 ^ 32)
  let queryLengths := inputs.map (·.queryLength % 2 ^ 32)
  let numPrefillTokens := (prompts.map (·.tokens.length)).sum
  let numDecodeTokens := (decodes.map (·.queryLength)).sum
  {
    contextLengths := some (inputs.map (·.contextLength % 2 ^ 32))
    slotMapping := inputs.flatMap (·.slots)
    decodingMetadata :=
      if 0 < numDecodeTokens then
        some {
          blockTables :=
            some (makeTensorWithPad (inputs.map (·.blockTable)) maxBlockTableLen 0)
          maxDecodingSequenceLength := maximum (decodes.map (·.slidingSequenceLength))
          sequenceLengths := some (sequenceLengths.drop prompts.length)
        }
      else
        none
    prefillMetadata :=
      if 0 < numPrefillTokens then
        some {
          blockTables := none
          maxQueryLength := some (maximum queryLengths)
          maxPrefillSequenceLength := maximum (prompts.map (·.sequenceLength))
          queryStartLocations := some ((cumulative queryLengths).take prompts.length)
          sequenceStartLocations := some ((cumulative sequenceLengths).take (prompts.length + 1))
          sequenceLengths := some (sequenceLengths.take prompts.length)
        }
      else
        none
    numPrefillTokens
    numDecodingTokens := numDecodeTokens
  }

/--
The tensors for the local variables that the inputs leave behind.
-/
theorem prepareInputTensors_of_inputs {batch : List SequenceGroupMetadata}
    {inputs : List SequenceInput}
    (h : batch.foldlM worker.prepareGroup InputVars.start
      = .ok (inputs.foldl InputVars.push InputVars.start))
    (hne : inputs ≠ [])
    : ∃ input maxBlockTableLen, worker.prepareInputTensors batch = .ok input
        ∧ input.inputTokens = inputs.flatMap (·.tokens)
        ∧ input.cuQueryLengths = cumulative (inputs.map (·.queryLength % 2 ^ 32))
        ∧ input.attentionMetadata = metadataOf inputs maxBlockTableLen := by
  have hprompts : (inputs.filter (·.isPrompt)).length ≤ inputs.length := List.length_filter_le _ _
  unfold prepareInputTensors
  rw [h, foldl_push]
  simp only [bind, Except.bind, InputVars.start, List.nil_append, Nat.zero_add]
  split
  . next hnone =>
    simp only [List.max?_eq_none_iff, List.map_eq_nil_iff] at hnone
    exact absurd hnone hne
  . next maxBlockTableLen _ =>
    rw [FlashAttentionMetadata.new_eq_ok
      (by rw [length_cumulative, List.length_map]; omega)
      (by rw [length_cumulative, List.length_map]; omega)
      (by rw [List.length_map]; omega)]
    exact ⟨_, maxBlockTableLen, rfl, rfl, rfl, rfl⟩

/--
What the worker returns for a batch is put together from the inputs of its sequences.
-/
theorem exists_inputs_of_prepareInputTensors {batch : List SequenceGroupMetadata}
    {input : ModelInput} (h : worker.prepareInputTensors batch = .ok input)
    : ∃ inputs maxBlockTableLen,
        List.Forall₂ (fun x input => worker.sequenceInput x.1 x.2 = .ok input) (sequencesOf batch)
          inputs
        ∧ input.inputTokens = inputs.flatMap (·.tokens)
        ∧ input.cuQueryLengths = cumulative (inputs.map (·.queryLength % 2 ^ 32))
        ∧ input.attentionMetadata = metadataOf inputs maxBlockTableLen := by
  rcases Except.bind_eq_ok.mp h with ⟨vars, hvars, hrest⟩
  rcases exists_inputs hvars with ⟨inputs, hinputs, rfl⟩
  have hne : inputs ≠ [] := by
    rintro rfl
    cases hrest
  rcases prepareInputTensors_of_inputs hvars hne with ⟨input', maxBlockTableLen, hinput', hinput⟩
  rw [h] at hinput'
  cases hinput'
  exact ⟨inputs, maxBlockTableLen, hinputs, hinput⟩

end ModelWorker

/--
The metadata of a group of one sequence with identifier 0.
-/
def singleMetadata (isPrompt : Bool) (data : SequenceData) (tokenChunkSize : Nat)
    (blockTable : List Nat) : SequenceGroupMetadata where
  requestId := "a"
  isPrompt
  nextTokenChooserParams := (Scheduler.singleGroup "a" 0 0).nextTokenChooserParams
  stoppingCriteriaParams := (Scheduler.singleGroup "a" 0 0).stoppingCriteria
  blockTables := AList.insert 0 blockTable ∅
  doSample := !isPrompt
  tokenChunkSize
  sequenceData := AList.insert 0 data ∅
  logitsProcessor := (Scheduler.singleGroup "a" 0 0).logitsProcessor

end AtomaInfer
